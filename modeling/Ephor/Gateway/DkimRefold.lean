import Mathlib.Logic.Relation
import Ephor.Gateway.DkimCompleteness

/-!
# Refolded signatures

On the way a signature's header may be folded at other places and its white space written
another way.  The tags that the verifier reads do not change, and neither does the canonical
form.  What is hashed is the value with the tag `b` emptied, though, and a tag `b` after a fold
is not emptied.
-/

namespace Ephor
namespace Gateway
namespace Dkim

open Foundation
open Foundation.Text

/-!
## Refolding
-/

/-- White space between other bytes: spaces and tabs, after a CRLF or not. -/
inductive Gap : Bytes -> Prop where
  | run {space : Bytes} : space ≠ [] -> (forall x, x ∈ space -> isWsp x = true) -> Gap space
  | fold {space : Bytes} : space ≠ [] -> (forall x, x ∈ space -> isWsp x = true) ->
      Gap (crlf ++ space)

inductive Refold : Bytes -> Bytes -> Prop where
  | gap (front : Bytes) {old new : Bytes} (rest : Bytes) : Gap old -> Gap new ->
      Refold (front ++ old ++ rest) (front ++ new ++ rest)

/-- Other white space at any places. -/
def Refolded : Bytes -> Bytes -> Prop :=
  Relation.ReflTransGen Refold

theorem Refolded.invariant {α : Type} {f : Bytes -> α}
    (hstep : forall a b, Refold a b -> f a = f b) {a b : Bytes} (h : Refolded a b) : f a = f b := by
  induction h with
  | refl => rfl
  | tail _ hlast ih => exact ih.trans (hstep _ _ hlast)

variable {a b space gap part : Bytes} {name : Str}

theorem relax_space (hne : space ≠ []) (h : forall x, x ∈ space -> isWsp x = true)
    (wsp started : Bool) (rest : Bytes) :
    relax wsp started (space ++ rest) = relax true started rest := by
  induction space generalizing wsp with
  | nil => exact absurd rfl hne
  | cons b space ih =>
      have hb := h b List.mem_cons_self
      rw [List.cons_append, relax_wsp hb]
      cases space with
      | nil => rfl
      | cons c space =>
          exact ih (List.cons_ne_nil c space) (List.forall_mem_cons.mp h).2 true

theorem Gap.relax {gap : Bytes} (h : Gap gap) (wsp started : Bool) (rest : Bytes) :
    relax wsp started (gap ++ rest) = Dkim.relax true started rest := by
  cases h with
  | run hne hspace => exact relax_space hne hspace wsp started rest
  | fold hne hspace =>
      rw [List.append_assoc]
      exact (relax_pair wsp started _).trans (relax_space hne hspace wsp started rest)

theorem Gap.head (h : Gap gap) (rest : Bytes) : (gap ++ rest).head? ≠ some lf := by
  cases h with
  | run hne hspace =>
      rcases List.exists_cons_of_ne_nil hne with ⟨b, space, rfl⟩
      intro hhead
      have hb := hspace b List.mem_cons_self
      cases hhead
      cases hb
  | fold hne hspace =>
      intro hhead
      cases hhead

theorem Gap.nonempty (h : Gap gap) : gap ≠ [] := by
  cases h with
  | run hne _ => exact hne
  | fold hne _ => exact List.append_ne_nil_of_right_ne_nil _ hne

theorem Gap.byte (h : Gap gap) : forall x, x ∈ gap -> isWsp x = true ∨ x = cr ∨ x = lf := by
  cases h with
  | run _ hspace => exact fun x hx => Or.inl (hspace x hx)
  | fold _ hspace =>
      intro x hx
      rcases List.mem_append.mp hx with hx | hx
      · exact Or.inr (by simpa [crlf] using hx)
      · exact Or.inl (hspace x hx)

theorem Gap.not_mem (h : Gap gap) {x : UInt8} (hx : isWsp x = false ∧ x ≠ cr ∧ x ≠ lf) :
    x ∉ gap := by
  intro hmem
  rcases h.byte x hmem with hwsp | hcr | hlf
  · rw [hx.1] at hwsp
    cases hwsp
  · exact hx.2.1 hcr
  · exact hx.2.2 hlf

theorem Gap.ascii (h : Gap gap) : forall x, x ∈ gap -> x.toNat < 128 := by
  intro x hx
  rcases h.byte x hx with hwsp | rfl | rfl
  · have hone : forall y, y ∈ [x] -> isWsp y = true := by
      intro y hy
      rw [List.mem_singleton.mp hy]
      exact hwsp
    exact lt_of_space hone x List.mem_cons_self
  · decide
  · decide

structure WhiteText (text : Str) : Prop where
  nonempty : text ≠ []
  white : forall c, c ∈ text -> isWhiteSpace c = true

theorem Gap.white {gap : Bytes} (h : Gap gap) : WhiteText (gap.map asciiChar) where
  nonempty hnil := h.nonempty (List.map_eq_nil_iff.mp hnil)
  white := by
    intro c hc
    rcases List.mem_map.mp hc with ⟨x, hx, rfl⟩
    rcases h.byte x hx with hwsp | rfl | rfl
    · exact isWhiteSpace_wsp hwsp
    · rfl
    · rfl

theorem relax_congr (h : forall wsp started, relax wsp started a = relax wsp started b)
    (ha : a.head? ≠ some lf) (hb : b.head? ≠ some lf) (front : Bytes) (wsp started : Bool) :
    relax wsp started (front ++ a) = relax wsp started (front ++ b) := by
  induction front using splitCrlf.induct generalizing wsp started with
  | case1 => exact h wsp started
  | case2 x =>
      change relax wsp started (x :: a) = relax wsp started (x :: b)
      cases hx : isWsp x with
      | true => rw [relax_wsp hx, relax_wsp hx, h]
      | false => rw [relax_other hx (fun _ => ha), relax_other hx (fun _ => hb), h]
  | case3 x y front hpair ih =>
      rcases hpair with ⟨rfl, rfl⟩
      exact (relax_pair wsp started _).trans
        ((ih wsp started).trans (relax_pair wsp started _).symm)
  | case4 x y front hpair ih =>
      have hnext : forall rest : Bytes, x = cr -> (y :: front ++ rest).head? ≠ some lf := by
        intro rest hcr hhead
        exact hpair ⟨hcr, Option.some.inj hhead⟩
      change relax wsp started (x :: (y :: front ++ a)) = relax wsp started (x :: (y :: front ++ b))
      cases hx : isWsp x with
      | true => rw [relax_wsp hx, relax_wsp hx, ih]
      | false => rw [relax_other hx (hnext a), relax_other hx (hnext b), ih]

theorem relax_refold (h : Refold a b) : relax false false a = relax false false b := by
  cases h with
  | gap front rest hold hnew =>
      rw [List.append_assoc, List.append_assoc]
      apply relax_congr _ (hold.head rest) (hnew.head rest)
      intro wsp started
      rw [hold.relax, hnew.relax]

/-!
## The tags of a refolded value
-/

def valueOf (name part : Str) : Option Str :=
  (parseTag part).bind fun tag => if tag.1 = name then some tag.2 else none

theorem getTag_eq (text name : Str) :
    getTag (parseTags text) name = (text.splitOn ';').findSome? (valueOf name) := by
  rw [parseTags]
  induction text.splitOn ';' with
  | nil => rfl
  | cons part parts ih =>
      rw [List.filterMap_cons, List.findSome?_cons, valueOf]
      cases parseTag part with
      | none => exact ih
      | some tag =>
          dsimp only [Option.bind_some]
          rw [getTag, List.find?_cons]
          by_cases hname : tag.1 = name
          · rw [if_pos hname, beq_iff_eq.mpr hname]
            rfl
          · rw [if_neg hname, beq_false_of_ne hname]
            exact ih

theorem exists_trim (text : Str) :
    exists before after, text = before ++ trim text ++ after ∧
      (forall c, c ∈ before -> isWhiteSpace c = true) ∧
      (forall c, c ∈ after -> isWhiteSpace c = true) := by
  refine ⟨text.takeWhile isWhiteSpace, (text.dropWhile isWhiteSpace).rtakeWhile isWhiteSpace,
    ?_, fun c hc => List.mem_takeWhile_imp hc, fun c hc => List.mem_rtakeWhile_imp hc⟩
  rw [trim, List.append_assoc, List.rdropWhile_append_rtakeWhile, List.takeWhile_append_dropWhile]

theorem dropWhile_white {white : Str} (h : forall c, c ∈ white -> isWhiteSpace c = true) :
    white.dropWhile isWhiteSpace = [] :=
  List.dropWhile_eq_nil_iff.mpr h

theorem trim_white_append {white : Str} (h : forall c, c ∈ white -> isWhiteSpace c = true)
    (text : Str) : trim (white ++ text) = trim text := by
  rw [trim, trim, List.dropWhile_append_of_pos h]

theorem rdropWhile_append_white {white : Str} (h : forall c, c ∈ white -> isWhiteSpace c = true)
    (text : Str) : (text ++ white).rdropWhile isWhiteSpace = text.rdropWhile isWhiteSpace := by
  have hreverse : forall c, c ∈ white.reverse -> isWhiteSpace c = true :=
    fun c hc => h c (List.mem_reverse.mp hc)
  rw [List.rdropWhile, List.rdropWhile, List.reverse_append, List.dropWhile_append_of_pos hreverse]

theorem trim_append_white {white : Str} (h : forall c, c ∈ white -> isWhiteSpace c = true)
    (text : Str) : trim (text ++ white) = trim text := by
  rw [trim, trim, List.dropWhile_append]
  split
  · rename_i hempty
    rw [dropWhile_white h, List.isEmpty_iff.mp hempty]
  · exact rdropWhile_append_white h _

theorem bareText_white {white : Str} (h : forall c, c ∈ white -> isWhiteSpace c = true) :
    bareText white = [] := by
  apply List.filter_eq_nil_iff.mpr
  intro c hc
  rw [h c hc]
  exact Bool.false_ne_true

theorem parseTag_eq (part : Str) :
    parseTag part = (splitOnce '=' part).map fun (k, v) => (trim k, bareText v) := by
  rcases exists_trim part with ⟨before, after, hpart, hbefore, hafter⟩
  have hfree : forall white : Str, (forall c, c ∈ white -> isWhiteSpace c = true) ->
      '=' ∉ white := by
    intro white hwhite hmem
    exact absurd (hwhite _ hmem) (by decide)
  rw [parseTag]
  generalize trim part = inner at hpart
  by_cases hmem : '=' ∈ inner
  · rcases List.eq_append_cons_of_mem hmem with ⟨k, v, hinner, hk⟩
    have hk' : '=' ∉ before ++ k := by
      intro h
      rcases List.mem_append.mp h with h | h
      · exact hfree before hbefore h
      · exact hk h
    have hsplit : part = before ++ k ++ '=' :: (v ++ after) := by
      rw [hpart, hinner]
      simp only [List.append_assoc, List.cons_append]
    rw [hinner, splitOnce_piece hk, hsplit, splitOnce_piece hk']
    dsimp only [Option.map_some]
    rw [trim_white_append hbefore, bareText_append, bareText_white hafter, List.append_nil]
    rfl
  · have hnone : '=' ∉ part := by
      intro h
      rw [hpart] at h
      rcases List.mem_append.mp h with h | h
      · rcases List.mem_append.mp h with h | h
        · exact hfree before hbefore h
        · exact hmem h
      · exact hfree after hafter h
    rw [splitOnce_eq_none.mpr hmem, splitOnce_eq_none.mpr hnone]
    rfl

theorem trim_across {front gap rest : Str} (hfront : exists c, c ∈ front ∧ isWhiteSpace c = false)
    (hrest : exists c, c ∈ rest ∧ isWhiteSpace c = false) {c : Char} (hc : c ∈ gap) :
    c ∈ trim (front ++ gap ++ rest) := by
  have hkept : forall text : Str, (exists c, c ∈ text ∧ isWhiteSpace c = false) ->
      text.dropWhile isWhiteSpace ≠ [] := by
    intro text htext hnil
    rcases htext with ⟨d, hd, hwhite⟩
    rw [List.dropWhile_eq_nil_iff.mp hnil d hd] at hwhite
    cases hwhite
  have hdropFront : (front ++ gap ++ rest).dropWhile isWhiteSpace =
      front.dropWhile isWhiteSpace ++ gap ++ rest := by
    rw [List.append_assoc, List.dropWhile_append, if_neg, List.append_assoc]
    exact fun hempty => hkept front hfront (List.isEmpty_iff.mp hempty)
  have hreverse : exists d, d ∈ rest.reverse ∧ isWhiteSpace d = false := by
    rcases hrest with ⟨d, hd, hwhite⟩
    exact ⟨d, List.mem_reverse.mpr hd, hwhite⟩
  rw [trim, hdropFront, List.rdropWhile, List.reverse_append, List.dropWhile_append, if_neg,
    List.reverse_append, List.reverse_reverse]
  · exact List.mem_append_left _ (List.mem_append_right _ hc)
  · exact fun hempty => hkept rest.reverse hreverse (List.isEmpty_iff.mp hempty)

theorem trim_gap (hname : SolidText name) {gap gap' : Str} (hgap : WhiteText gap)
    (hgap' : WhiteText gap') {front rest : Str} (h : trim (front ++ gap ++ rest) = name) :
    trim (front ++ gap' ++ rest) = name := by
  by_cases hfront : forall c, c ∈ front -> isWhiteSpace c = true
  · have hall : forall other : Str, WhiteText other -> forall c, c ∈ front ++ other ->
        isWhiteSpace c = true := by
      intro other hother c hc
      rcases List.mem_append.mp hc with hc | hc
      · exact hfront c hc
      · exact hother.white c hc
    rw [trim_white_append (hall gap hgap)] at h
    rw [trim_white_append (hall gap' hgap')]
    exact h
  by_cases hrest : forall c, c ∈ rest -> isWhiteSpace c = true
  · have hall : forall other : Str, WhiteText other -> forall c, c ∈ other ++ rest ->
        isWhiteSpace c = true := by
      intro other hother c hc
      rcases List.mem_append.mp hc with hc | hc
      · exact hother.white c hc
      · exact hrest c hc
    rw [List.append_assoc, trim_append_white (hall gap hgap)] at h
    rw [List.append_assoc, trim_append_white (hall gap' hgap')]
    exact h
  · -- The gap would be inside the name.
    have hblack : forall text : Str, ¬ (forall c, c ∈ text -> isWhiteSpace c = true) ->
        exists c, c ∈ text ∧ isWhiteSpace c = false := by
      intro text htext
      rcases not_forall.mp htext with ⟨c, hc⟩
      rcases Classical.not_imp.mp hc with ⟨hmem, hwhite⟩
      exact ⟨c, hmem, Bool.eq_false_iff.mpr hwhite⟩
    rcases List.exists_mem_of_ne_nil gap hgap.nonempty with ⟨c, hc⟩
    have hmem := trim_across (hblack front hfront) (hblack rest hrest) hc
    rw [h] at hmem
    have hsolid := (hname c hmem).2
    rw [hgap.white c hc] at hsolid
    cases hsolid

theorem valueOf_piece {k : Str} (hk : '=' ∉ k) (name v : Str) :
    valueOf name (k ++ '=' :: v) = if trim k = name then some (bareText v) else none := by
  rw [valueOf, parseTag_eq, splitOnce_piece hk]
  rfl

theorem valueOf_none {part : Str} (h : '=' ∉ part) (name : Str) : valueOf name part = none := by
  rw [valueOf, parseTag_eq, splitOnce_eq_none.mpr h]
  rfl

theorem valueOf_gap (hname : SolidText name) {gap gap' : Str} (hgap : WhiteText gap)
    (hgap' : WhiteText gap') (front rest : Str) :
    valueOf name (front ++ gap ++ rest) = valueOf name (front ++ gap' ++ rest) := by
  have hfree : forall other, WhiteText other -> '=' ∉ other := by
    intro other hother hmem
    exact absurd (hother.white _ hmem) (by decide)
  by_cases hfront : '=' ∈ front
  · rcases List.eq_append_cons_of_mem hfront with ⟨k, v, rfl, hk⟩
    have hpart : forall other, WhiteText other -> valueOf name (k ++ '=' :: v ++ other ++ rest) =
        if trim k = name then some (bareText v ++ bareText rest) else none := by
      intro other hother
      have hsplit : k ++ '=' :: v ++ other ++ rest = k ++ '=' :: (v ++ other ++ rest) := by
        simp only [List.append_assoc, List.cons_append]
      rw [hsplit, valueOf_piece hk, bareText_append, bareText_append, bareText_white hother.white,
        List.append_nil]
    rw [hpart gap hgap, hpart gap' hgap']
  have hnone : forall (other tail : Str), WhiteText other -> '=' ∉ tail ->
      '=' ∉ front ++ other ++ tail := by
    intro other tail hother htail hmem
    rcases List.mem_append.mp hmem with hmem | hmem
    · rcases List.mem_append.mp hmem with hmem | hmem
      · exact hfront hmem
      · exact hfree other hother hmem
    · exact htail hmem
  by_cases hrest : '=' ∈ rest
  · rcases List.eq_append_cons_of_mem hrest with ⟨k, v, rfl, hk⟩
    rw [<- List.append_assoc, <- List.append_assoc, valueOf_piece (hnone gap k hgap hk),
      valueOf_piece (hnone gap' k hgap' hk)]
    by_cases htrim : trim (front ++ gap ++ k) = name
    · rw [if_pos htrim, if_pos (trim_gap hname hgap hgap' htrim)]
    · rw [if_neg htrim, if_neg (fun h => htrim (trim_gap hname hgap' hgap h))]
  · rw [valueOf_none (hnone gap rest hgap hrest), valueOf_none (hnone gap' rest hgap' hrest)]

theorem fromUtf8Lossy_gap (h : Gap gap) (front rest : Bytes) :
    fromUtf8Lossy (front ++ gap ++ rest) =
      fromUtf8Lossy front ++ gap.map asciiChar ++ fromUtf8Lossy rest := by
  rw [List.append_assoc, List.append_assoc, <- fromUtf8Lossy_ascii h.ascii]
  rcases List.exists_cons_of_ne_nil h.nonempty with ⟨x, more, rfl⟩
  exact fromUtf8Lossy_append_ascii (h.ascii x List.mem_cons_self) front (more ++ rest)

theorem splitOn_fromUtf8Lossy (value : Bytes) :
    (fromUtf8Lossy value).splitOn ';' = (value.splitOn semicolon).map fromUtf8Lossy := by
  have hfree : forall part : Bytes, semicolon ∉ part -> ';' ∉ fromUtf8Lossy part :=
    fun part h hmem => h (mem_of_mem_lossyChars (by decide) hmem)
  induction value using pieces_induction semicolon with
  | last part h =>
      rw [List.splitOn_eq_singleton h, List.splitOn_eq_singleton (hfree part h)]
      rfl
  | more part rest h ih =>
      have hsemicolon : forall x, x ∈ [semicolon] -> x.toNat < 128 :=
        List.forall_mem_singleton.mpr (by decide)
      have hdecoded : fromUtf8Lossy (semicolon :: rest) = ';' :: fromUtf8Lossy rest :=
        fromUtf8Lossy_ascii hsemicolon rest
      rw [fromUtf8Lossy_append_ascii (by decide), hdecoded,
        List.splitOn_append_cons_self_of_not_mem (hfree part h), ih,
        List.splitOn_append_cons_self_of_not_mem h]
      rfl

def tagValue (name : Str) (value : Bytes) : Option Str :=
  getTag (parseTags (fromUtf8Lossy value)) name

theorem tagValue_eq (name : Str) (value : Bytes) :
    tagValue name value =
      (value.splitOn semicolon).findSome? fun part => valueOf name (fromUtf8Lossy part) := by
  rw [tagValue, getTag_eq, splitOn_fromUtf8Lossy, List.findSome?_map]
  rfl

theorem splitOn_gap (front rest : Bytes) :
    exists before head tail after, forall gap, semicolon ∉ gap ->
      (front ++ gap ++ rest).splitOn semicolon = before ++ (head ++ gap ++ tail) :: after := by
  have hlast : forall head, semicolon ∉ head -> exists tail after, forall gap, semicolon ∉ gap ->
      (head ++ gap ++ rest).splitOn semicolon = (head ++ gap ++ tail) :: after := by
    intro head hhead
    have hnone : forall gap tail, semicolon ∉ gap -> semicolon ∉ tail ->
        semicolon ∉ head ++ gap ++ tail := by
      intro gap tail hgap htail hmem
      rcases List.mem_append.mp hmem with hmem | hmem
      · rcases List.mem_append.mp hmem with hmem | hmem
        · exact hhead hmem
        · exact hgap hmem
      · exact htail hmem
    cases rest using pieces_induction semicolon with
    | last rest h =>
        refine ⟨rest, [], fun gap hgap => ?_⟩
        exact List.splitOn_eq_singleton (hnone gap rest hgap h)
    | more tail rest h =>
        refine ⟨tail, rest.splitOn semicolon, fun gap hgap => ?_⟩
        rw [<- List.append_assoc, List.splitOn_append_cons_self_of_not_mem (hnone gap tail hgap h)]
  induction front using pieces_induction semicolon with
  | last head h =>
      rcases hlast head h with ⟨tail, after, hparts⟩
      exact ⟨[], head, tail, after, hparts⟩
  | more part front h ih =>
      rcases ih with ⟨before, head, tail, after, hparts⟩
      refine ⟨part :: before, head, tail, after, fun gap hgap => ?_⟩
      rw [List.append_assoc, List.append_assoc, List.cons_append,
        List.splitOn_append_cons_self_of_not_mem h, <- List.append_assoc, hparts gap hgap]
      rfl

theorem Gap.semicolon (h : Gap gap) : Dkim.semicolon ∉ gap :=
  h.not_mem (by decide)

theorem splitOn_refold (h : Refold a b) :
    exists before part part' after, a.splitOn semicolon = before ++ part :: after ∧
      b.splitOn semicolon = before ++ part' :: after ∧ Refold part part' := by
  cases h with
  | gap front rest hold hnew =>
      rcases splitOn_gap front rest with ⟨before, head, tail, after, hparts⟩
      exact ⟨before, _, _, after, hparts _ hold.semicolon, hparts _ hnew.semicolon,
        Refold.gap head tail hold hnew⟩

theorem valueOf_refold (hname : SolidText name) (h : Refold a b) :
    valueOf name (fromUtf8Lossy a) = valueOf name (fromUtf8Lossy b) := by
  cases h with
  | gap front rest hold hnew =>
      rw [fromUtf8Lossy_gap hold, fromUtf8Lossy_gap hnew]
      exact valueOf_gap hname hold.white hnew.white _ _

theorem tagValue_refold (hname : SolidText name) (h : Refold a b) :
    tagValue name a = tagValue name b := by
  rcases splitOn_refold h with ⟨before, part, part', after, ha, hb, hpart⟩
  rw [tagValue_eq, tagValue_eq, ha, hb, List.findSome?_append, List.findSome?_append,
    List.findSome?_cons, List.findSome?_cons, valueOf_refold hname hpart]

/-!
## Taking the value of `b` out
-/

/-- Whether the verifier reads a part as a tag `b`. -/
def readsB (part : Bytes) : Bool :=
  (valueOf bName (fromUtf8Lossy part)).isSome

/-- A tag `b` up to its equals sign, and any other part as it is. -/
def withoutValue (part : Bytes) : Bytes :=
  if readsB part then part.takeWhile (· != 0x3D) ++ [0x3D] else part

/-- The value without the bytes that the verifier reads as the values of tags `b`. -/
def withoutB (value : Bytes) : Bytes :=
  [semicolon].intercalate ((value.splitOn semicolon).map withoutValue)

theorem solid_bName : SolidText bName := by decide

theorem takeWhile_append_of_mem {front : Bytes} (h : 0x3D ∈ front) (rest : Bytes) :
    (front ++ rest).takeWhile (· != 0x3D) = front.takeWhile (· != 0x3D) := by
  rcases List.eq_append_cons_of_mem h with ⟨before, after, rfl, hbefore⟩
  have hall : forall x, x ∈ before -> (x != 0x3D) = true := by
    intro x hx
    exact bne_iff_ne.mpr (fun heq => hbefore (heq ▸ hx))
  rw [List.append_assoc, List.takeWhile_append_of_pos hall, List.takeWhile_append_of_pos hall]
  rfl

theorem takeWhile_append_of_not_mem {front : Bytes} (h : 0x3D ∉ front) (rest : Bytes) :
    (front ++ rest).takeWhile (· != 0x3D) = front ++ rest.takeWhile (· != 0x3D) := by
  apply List.takeWhile_append_of_pos
  intro x hx
  exact bne_iff_ne.mpr (fun heq => h (heq ▸ hx))

theorem withoutValue_refold (h : Refold a b) :
    withoutValue a = withoutValue b ∨ Refold (withoutValue a) (withoutValue b) := by
  have hreads : readsB a = readsB b := by
    rw [readsB, readsB, valueOf_refold solid_bName h]
  rw [withoutValue, withoutValue, hreads]
  cases readsB b with
  | false => exact Or.inr h
  | true =>
      rw [if_pos rfl, if_pos rfl]
      cases h with
      | @gap front old new rest hold hnew =>
          by_cases hfront : 0x3D ∈ front
          · left
            rw [List.append_assoc, List.append_assoc, takeWhile_append_of_mem hfront,
              takeWhile_append_of_mem hfront]
          · right
            have hnone : forall gap, Gap gap -> 0x3D ∉ front ++ gap := by
              intro gap hgap hmem
              rcases List.mem_append.mp hmem with hmem | hmem
              · exact hfront hmem
              · exact hgap.not_mem (by decide) hmem
            rw [takeWhile_append_of_not_mem (hnone old hold),
              takeWhile_append_of_not_mem (hnone new hnew), List.append_assoc (front ++ old),
              List.append_assoc (front ++ new)]
            exact Refold.gap front _ hold hnew

theorem Refold.inside (h : Refold a b) (front rest : Bytes) :
    Refold (front ++ a ++ rest) (front ++ b ++ rest) := by
  cases h with
  | @gap before old new after hold hnew =>
      have hassoc : forall gap : Bytes, front ++ (before ++ gap ++ after) ++ rest =
          front ++ before ++ gap ++ (after ++ rest) := by
        intro gap
        simp only [List.append_assoc]
      rw [hassoc, hassoc]
      exact Refold.gap (front ++ before) (after ++ rest) hold hnew

theorem intercalate_part (before after : List Bytes) :
    exists front rest, forall part, [semicolon].intercalate (before ++ part :: after) =
      front ++ part ++ rest := by
  induction before with
  | nil =>
      cases after with
      | nil => exact ⟨[], [], fun part => by simp⟩
      | cons second after =>
          refine ⟨[], [semicolon] ++ [semicolon].intercalate (second :: after), fun part => ?_⟩
          rw [List.nil_append, List.intercalate_cons_cons, List.append_assoc]
          rfl
  | cons first before ih =>
      rcases ih with ⟨front, rest, hparts⟩
      refine ⟨first ++ [semicolon] ++ front, rest, fun part => ?_⟩
      have hne : before ++ part :: after ≠ [] :=
        List.append_ne_nil_of_right_ne_nil _ (List.cons_ne_nil part after)
      rw [List.cons_append, List.intercalate_cons_of_ne_nil hne, hparts]
      simp only [List.append_assoc]

theorem relax_withoutB_refold (h : Refold a b) :
    relax false false (withoutB a) = relax false false (withoutB b) := by
  rcases splitOn_refold h with ⟨before, part, part', after, ha, hb, hpart⟩
  rcases intercalate_part (before.map withoutValue) (after.map withoutValue) with
    ⟨front, rest, hparts⟩
  rw [withoutB, withoutB, ha, hb, List.map_append, List.map_append, List.map_cons, List.map_cons,
    hparts, hparts]
  rcases withoutValue_refold hpart with hsame | hrefold
  · rw [hsame]
  · exact relax_refold (hrefold.inside front rest)

/-!
## What the verifier takes out
-/

/-- Where the verifier looks for the name: the first part has no white space in front. -/
def nameOn (first : Bool) (part : Bytes) : Bytes :=
  if first then part else part.dropWhile isWsp

/-- Whether `empty_b_value` takes the part for a tag `b`. -/
def seesB (first : Bool) (part : Bytes) : Bool :=
  match nameOn first part with
  | [] => false
  | b :: rest => b == 0x62 && (rest.dropWhile isWsp).head? == some 0x3D

/-- What `empty_b_value` makes of a part. -/
def emptied (first : Bool) (part : Bytes) : Bytes :=
  emptyFrom false first (!first) part

def emptiedParts : Bool -> List Bytes -> List Bytes
  | _, [] => []
  | first, part :: parts => emptied first part :: emptiedParts false parts

theorem emptied_start {first semi : Bool} (h : (first || semi) = true)
    (hfree : semicolon ∉ part) (hhead : part.head?.all (fun b => !isWsp b || !semi) = true) :
    emptyFrom false first semi part =
      if seesB true part then emptiedTag else part := by
  cases part with
  | nil => rfl
  | cons b rest =>
      rcases List.ne_and_not_mem_of_not_mem_cons hfree with ⟨hb, hrest⟩
      have hsees : seesB true (b :: rest) =
          (b == 0x62 && (rest.dropWhile isWsp).head? == some 0x3D) := rfl
      have hplain : (b == 0x3B) = false := beq_false_of_ne (Ne.symm hb)
      have hflag : (b == 0x3B || (isWsp b && semi)) = false := by
        rw [hplain, Bool.false_or, Bool.and_eq_false_iff]
        rw [List.head?_cons, Option.all_some, Bool.or_eq_true, Bool.not_eq_true',
          Bool.not_eq_true'] at hhead
        exact hhead
      rw [emptyFrom, if_neg Bool.false_ne_true, h, Bool.true_and, hsees, hflag,
        emptyFrom_skips hrest, emptyFrom_copies hrest]
      rfl

theorem emptied_eq (hfree : semicolon ∉ part) (first : Bool) :
    emptied first part =
      if seesB first part then (if first then [] else part.takeWhile isWsp) ++ emptiedTag
      else part := by
  cases first with
  | true =>
      apply emptied_start rfl hfree
      cases part with
      | nil => rfl
      | cons b rest =>
          rw [List.head?_cons, Option.all_some]
          exact Bool.or_true _
  | false =>
      change emptyFrom false false true part =
        if seesB true (part.dropWhile isWsp) then part.takeWhile isWsp ++ emptiedTag else part
      induction part with
      | nil => rfl
      | cons b rest ih =>
          rcases List.ne_and_not_mem_of_not_mem_cons hfree with ⟨_, hrest⟩
          cases hb : isWsp b with
          | false =>
              rw [List.dropWhile_cons, List.takeWhile_cons, hb, if_neg Bool.false_ne_true,
                if_neg Bool.false_ne_true]
              apply emptied_start rfl hfree
              rw [List.head?_cons, Option.all_some, hb]
              rfl
          | true =>
              have hname : (b == 0x62) = false := by
                apply beq_false_of_ne
                intro heq
                rw [heq] at hb
                cases hb
              rw [List.dropWhile_cons, List.takeWhile_cons, hb, if_pos rfl, if_pos rfl, emptyFrom,
                if_neg Bool.false_ne_true, hname, Bool.and_false, Bool.false_and,
                if_neg Bool.false_ne_true, hb, Bool.and_true, Bool.or_true, ih hrest]
              split
              · rfl
              · rfl

theorem emptyFrom_parts (first : Bool) (value : Bytes) :
    emptyFrom false first (!first) value =
      [semicolon].intercalate (emptiedParts first (value.splitOn semicolon)) := by
  induction value using pieces_induction semicolon generalizing first with
  | last part h =>
      rw [List.splitOn_eq_singleton h, emptiedParts, emptiedParts, List.intercalate_singleton]
      rfl
  | more part rest h ih =>
      have hne : emptiedParts false (rest.splitOn semicolon) ≠ [] := by
        rcases List.exists_cons_of_ne_nil (List.splitOn_ne_nil semicolon rest) with
          ⟨next, parts, hparts⟩
        rw [hparts]
        exact List.cons_ne_nil _ _
      have hrest : emptyFrom false false true rest = _ := ih false
      rw [emptyFrom_append h, List.splitOn_append_cons_self_of_not_mem h, emptiedParts,
        List.intercalate_cons_of_ne_nil hne, hrest, List.append_assoc]
      rfl

/-- A part whose tag `b` is emptied as it is read: the equals sign follows the name, and spaces
and tabs alone are between the semicolon and the name, or nothing is in the first part.  A tag
without a value may be missed. -/
def TagSpelled (first : Bool) (part : Bytes) : Prop :=
  readsB part = true ->
    emptiedTag <+: nameOn first part ∨ (seesB first part = false ∧ withoutValue part = part)

def PartsSpelled : Bool -> List Bytes -> Prop
  | _, [] => True
  | first, part :: parts => TagSpelled first part ∧ PartsSpelled false parts

/-- Every tag `b` is emptied as it is read. -/
def Spelled (value : Bytes) : Prop :=
  PartsSpelled true (value.splitOn semicolon)

theorem space_of_takeWhile (part : Bytes) : forall x, x ∈ part.takeWhile isWsp -> isWsp x = true :=
  fun _ hx => List.mem_takeWhile_imp hx

theorem shape_of_seesB {first : Bool} (h : seesB first part = true) :
    exists gap more, (forall x, x ∈ gap -> isWsp x = true) ∧
      nameOn first part = 0x62 :: (gap ++ 0x3D :: more) ∧
      part = (if first then [] else part.takeWhile isWsp) ++ 0x62 :: (gap ++ 0x3D :: more) := by
  have hpart : part = (if first then [] else part.takeWhile isWsp) ++ nameOn first part := by
    cases first with
    | true => rfl
    | false => exact List.takeWhile_append_dropWhile.symm
  rw [seesB] at h
  split at h
  · cases h
  · rename_i b rest hname
    rcases Bool.and_eq_true_iff.mp h with ⟨hb, hhead⟩
    rcases gap_of_head (eq_of_beq hhead) with ⟨gap, more, hgap, hrest⟩
    rw [eq_of_beq hb, hrest] at hname
    rw [hname] at hpart
    exact ⟨gap, more, hgap, hname, hpart⟩

theorem prefix_nameOn_iff (h : forall x, x ∈ gap -> isWsp x = true) (more : Bytes) :
    emptiedTag <+: 0x62 :: (gap ++ 0x3D :: more) <-> gap = [] := by
  constructor
  · intro hprefix
    cases gap with
    | nil => rfl
    | cons x gap =>
        rcases hprefix with ⟨rest, hrest⟩
        injection hrest with _ hrest
        injection hrest with hx
        have hwsp := h x List.mem_cons_self
        rw [<- hx] at hwsp
        cases hwsp
  · intro hgap
    rw [hgap]
    exact ⟨more, rfl⟩

theorem whiteText_space (h : forall x, x ∈ space -> isWsp x = true) :
    forall c, c ∈ space.map asciiChar -> isWhiteSpace c = true := by
  intro c hc
  rcases List.mem_map.mp hc with ⟨x, hx, rfl⟩
  exact isWhiteSpace_wsp (h x hx)

theorem readsB_of_shape (hspace : forall x, x ∈ space -> isWsp x = true)
    (hgap : forall x, x ∈ gap -> isWsp x = true) (more : Bytes) :
    readsB (space ++ 0x62 :: (gap ++ 0x3D :: more)) = true := by
  have hascii : forall x, x ∈ space ++ 0x62 :: (gap ++ [0x3D]) -> x.toNat < 128 := by
    intro x hx
    rcases List.mem_append.mp hx with hx | hx
    · exact lt_of_space hspace x hx
    rcases List.mem_cons.mp hx with rfl | hx
    · decide
    rcases List.mem_append.mp hx with hx | hx
    · exact lt_of_space hgap x hx
    · rw [List.mem_singleton.mp hx]
      decide
  have hpart : space ++ 0x62 :: (gap ++ 0x3D :: more) =
      space ++ 0x62 :: (gap ++ [0x3D]) ++ more := by
    simp only [List.append_assoc, List.cons_append, List.nil_append]
  have htext : (space ++ 0x62 :: (gap ++ [0x3D])).map asciiChar =
      space.map asciiChar ++ (bName ++ gap.map asciiChar) ++ ['='] := by
    simp only [List.map_append, List.map_cons, List.append_assoc]
    rfl
  have hequals : '=' ∉ space.map asciiChar ++ (bName ++ gap.map asciiChar) := by
    intro hmem
    rcases List.mem_append.mp hmem with hmem | hmem
    · exact absurd (whiteText_space hspace _ hmem) (by decide)
    rcases List.mem_append.mp hmem with hmem | hmem
    · exact absurd hmem (by decide)
    · exact absurd (whiteText_space hgap _ hmem) (by decide)
  have htrim : trim (space.map asciiChar ++ (bName ++ gap.map asciiChar)) = bName := by
    rw [trim_white_append (whiteText_space hspace), trim_append_white (whiteText_space hgap),
      trim_of_solid solid_bName]
  rw [readsB, hpart, fromUtf8Lossy_ascii hascii, htext, List.append_assoc, List.singleton_append,
    valueOf_piece hequals, if_pos htrim]
  rfl

theorem takeWhile_shape (hspace : forall x, x ∈ space -> isWsp x = true)
    (hgap : forall x, x ∈ gap -> isWsp x = true) (more : Bytes) :
    (space ++ 0x62 :: (gap ++ 0x3D :: more)).takeWhile (· != 0x3D) = space ++ 0x62 :: gap := by
  have hfree : 0x3D ∉ space ++ 0x62 :: gap := by
    intro hmem
    rcases List.mem_append.mp hmem with hmem | hmem
    · exact absurd (hspace _ hmem) (by decide)
    rcases List.mem_cons.mp hmem with hmem | hmem
    · exact absurd hmem (by decide)
    · exact absurd (hgap _ hmem) (by decide)
  have hpart : space ++ 0x62 :: (gap ++ 0x3D :: more) = space ++ 0x62 :: gap ++ 0x3D :: more := by
    simp only [List.append_assoc, List.cons_append]
  rw [hpart, takeWhile_append_of_not_mem hfree, List.takeWhile_cons_of_neg (by decide),
    List.append_nil]

theorem emptied_iff (hfree : semicolon ∉ part) (first : Bool) :
    emptied first part = withoutValue part <-> TagSpelled first part := by
  rw [emptied_eq hfree]
  cases hsees : seesB first part with
  | true =>
      rcases shape_of_seesB hsees with ⟨gap, more, hgap, hname, hpart⟩
      have hlead : forall x, x ∈ (if first then [] else part.takeWhile isWsp) ->
          isWsp x = true := by
        intro x hx
        cases first with
        | true => exact absurd hx List.not_mem_nil
        | false => exact space_of_takeWhile part x hx
      generalize (if first then [] else part.takeWhile isWsp) = lead at hpart hlead ⊢
      have hreads : readsB part = true := by
        rw [hpart]
        exact readsB_of_shape hlead hgap more
      have hwithout : withoutValue part = lead ++ 0x62 :: gap ++ [0x3D] := by
        rw [withoutValue, hreads, if_pos rfl, hpart, takeWhile_shape hlead hgap]
      rw [if_pos rfl, hwithout, TagSpelled, hname, prefix_nameOn_iff hgap, hsees, List.append_assoc]
      constructor
      · intro hsame _
        have htail := List.append_cancel_left hsame
        injection htail with _ htail
        have hlength := congrArg List.length htail
        rw [List.length_singleton] at hlength
        change 1 = (gap ++ [0x3D]).length at hlength
        rw [List.length_append, List.length_singleton] at hlength
        exact Or.inl (List.eq_nil_of_length_eq_zero (by omega))
      · intro hspelled
        rcases hspelled hreads with hnil | ⟨hunseen, _⟩
        · rw [hnil]
          rfl
        · cases hunseen
  | false =>
      rw [if_neg Bool.false_ne_true]
      constructor
      · intro hsame _
        exact Or.inr ⟨hsees, hsame.symm⟩
      · intro hspelled
        cases hreads : readsB part with
        | false => rw [withoutValue, hreads, if_neg Bool.false_ne_true]
        | true =>
            rcases hspelled hreads with hprefix | ⟨_, hsame⟩
            · -- A name with its equals sign would have been seen.
              rcases hprefix with ⟨rest, hrest⟩
              rw [seesB, <- hrest] at hsees
              cases hsees
            · exact hsame.symm

theorem emptiedParts_iff {parts : List Bytes} (h : forall part, part ∈ parts -> semicolon ∉ part)
    (first : Bool) :
    emptiedParts first parts = parts.map withoutValue <-> PartsSpelled first parts := by
  induction parts generalizing first with
  | nil => exact ⟨fun _ => trivial, fun _ => rfl⟩
  | cons part parts ih =>
      rw [emptiedParts, List.map_cons, List.cons.injEq, PartsSpelled,
        emptied_iff (h part List.mem_cons_self),
        ih (List.forall_mem_cons.mp h).2]

theorem semicolon_not_mem_emptiedParts {parts : List Bytes}
    (h : forall part, part ∈ parts -> semicolon ∉ part) (first : Bool) :
    forall part, part ∈ emptiedParts first parts -> semicolon ∉ part := by
  induction parts generalizing first with
  | nil => exact fun _ hmem => absurd hmem List.not_mem_nil
  | cons part parts ih =>
      intro piece hpiece
      rcases List.mem_cons.mp hpiece with rfl | hpiece
      · exact semicolon_not_mem_emptyFrom (h part List.mem_cons_self) first (!first)
      · exact ih (List.forall_mem_cons.mp h).2 false piece hpiece

theorem semicolon_not_mem_withoutValue (h : semicolon ∉ part) : semicolon ∉ withoutValue part := by
  rw [withoutValue]
  split
  · intro hmem
    rcases List.mem_append.mp hmem with hmem | hmem
    · exact h ((List.takeWhile_prefix _).mem hmem)
    · exact absurd hmem (by decide)
  · exact h

theorem intercalate_semicolon_inj {a b : List Bytes}
    (ha : forall part, part ∈ a -> semicolon ∉ part)
    (hb : forall part, part ∈ b -> semicolon ∉ part) (hane : a ≠ []) (hbne : b ≠ [])
    (h : [semicolon].intercalate a = [semicolon].intercalate b) : a = b := by
  have hparts := List.splitOn_intercalate semicolon ha hane
  rw [h, List.splitOn_intercalate semicolon hb hbne] at hparts
  exact hparts.symm

instance (first : Bool) (part : Bytes) : Decidable (TagSpelled first part) :=
  inferInstanceAs (Decidable (readsB part = true ->
    emptiedTag <+: nameOn first part ∨ (seesB first part = false ∧ withoutValue part = part)))

def decidePartsSpelled : (first : Bool) -> (parts : List Bytes) ->
    Decidable (PartsSpelled first parts)
  | _, [] => isTrue trivial
  | first, part :: parts =>
      have := decidePartsSpelled false parts
      inferInstanceAs (Decidable (TagSpelled first part ∧ PartsSpelled false parts))

instance (value : Bytes) : Decidable (Spelled value) :=
  decidePartsSpelled true (value.splitOn semicolon)

theorem emptyBValue_iff (value : Bytes) : emptyBValue value = withoutB value <-> Spelled value := by
  have hfree : forall part, part ∈ value.splitOn semicolon -> semicolon ∉ part :=
    fun _ hpart => sep_not_mem_of_mem_splitOn hpart
  have hparts : emptyBValue value = _ := emptyFrom_parts true value
  rw [hparts, withoutB, Spelled, <- emptiedParts_iff hfree]
  constructor
  · apply intercalate_semicolon_inj (semicolon_not_mem_emptiedParts hfree true)
    · intro part hpart
      rcases List.mem_map.mp hpart with ⟨piece, hpiece, rfl⟩
      exact semicolon_not_mem_withoutValue (hfree piece hpiece)
    all_goals
      rcases List.exists_cons_of_ne_nil (List.splitOn_ne_nil semicolon value) with ⟨p, ps, hp⟩
      rw [hp]
      exact List.cons_ne_nil _ _
  · intro hsame
    rw [hsame]

/-!
## Verifying a refolded message
-/

/-- A message whose signature has the first value, and the message with the second one, which
is refolded, in its place. -/
structure RefoldedMessage (message message' value value' : Bytes) : Prop where
  refolded : Refolded value value'
  fields : exists before name after body,
    splitHeadersBody message = (before ++ (name, value) :: after, body) ∧
      splitHeadersBody message' = (before ++ (name, value') :: after, body) ∧
      named "dkim-signature".toList (name, value) = true ∧
      forall header, header ∈ after -> named "dkim-signature".toList header = false

/-- On the bytes: the fields as they are written, with either value in its place. -/
theorem refoldedMessage_written {before after : List Header} {name : Str} {value value' : Bytes}
    (h : Refolded value value') (hnamed : named "dkim-signature".toList (name, value) = true)
    (hafter : forall header, header ∈ after -> named "dkim-signature".toList header = false)
    (hplain : forall header, header ∈ before ++ (name, value) :: after -> PlainHeader header)
    (hfolds : Folds value') (body : Bytes) :
    RefoldedMessage (writtenHead (before ++ (name, value) :: after) ++ body)
      (writtenHead (before ++ (name, value') :: after) ++ body) value value' where
  refolded := h
  fields := by
    have hplain' : forall header, header ∈ before ++ (name, value') :: after ->
        PlainHeader header := by
      have hown := hplain (name, value) (List.mem_append_right _ List.mem_cons_self)
      intro header hmem
      rcases List.mem_append.mp hmem with hbefore | hrest
      · exact hplain header (List.mem_append_left _ hbefore)
      · rcases List.mem_cons.mp hrest with rfl | hlater
        · exact ⟨hown.start, hown.noColon, hown.noReturn, hfolds⟩
        · exact hplain header (List.mem_append_right _ (List.mem_cons_of_mem _ hlater))
    exact ⟨before, name, after, body, splitHeadersBody_written (by simp) hplain body,
      splitHeadersBody_written (by simp) hplain' body, hnamed, hafter⟩

theorem signedLines_congr {headers headers' : List Header}
    (h : forall name, (headers.reverse.filter (named name)).map canonicalLine =
      (headers'.reverse.filter (named name)).map canonicalLine)
    (earlier names : List Str) :
    signedLines headers earlier names = signedLines headers' earlier names := by
  have hinstance : forall (others : List Header) (i : Nat),
      (others[i]?).toList.map canonicalLine = ((others.map canonicalLine)[i]?).toList := by
    intro others i
    rw [List.getElem?_map]
    cases others[i]? with
    | none | some header => rfl
  induction names generalizing earlier with
  | nil => rfl
  | cons name names ih =>
      rw [signedLines, signedLines, ih, signedInstance, signedInstance, hinstance, hinstance, h]

theorem findHeader_last (before : List Header) {after : List Header} {header : Header}
    (hnamed : named name header = true)
    (hafter : forall other, other ∈ after -> named name other = false) :
    findHeader (before ++ header :: after) name = some header := by
  have hnone : after.reverse.find? (named name) = none := by
    rw [List.find?_eq_none]
    intro other hother
    rw [hafter other (List.mem_reverse.mp hother)]
    exact Bool.false_ne_true
  rw [findHeader, List.reverse_append, List.reverse_cons, List.append_assoc, List.find?_append,
    hnone, List.singleton_append, List.find?_cons, hnamed]
  rfl

variable {S : Suite}

theorem canonicalLine_refolded {value value' : Bytes} (h : Refolded value value') (name : Str) :
    canonicalLine (name, value) = canonicalLine (name, value') := by
  have hrelax : relax false false value = relax false false value' :=
    h.invariant (fun _ _ => relax_refold)
  rw [canonicalLine, canonicalLine, hrelax]

theorem verifyInput_refolded {value value' : Bytes} (h : Refolded value value')
    (hspelled : Spelled value) (hspelled' : Spelled value') (before after : List Header)
    (name : Str) (names : List Str) :
    verifyInput (before ++ (name, value) :: after) value names =
      verifyInput (before ++ (name, value') :: after) value' names := by
  have hfields : forall other, ((before ++ (name, value) :: after).reverse.filter
      (named other)).map canonicalLine =
      ((before ++ (name, value') :: after).reverse.filter (named other)).map canonicalLine := by
    intro other
    have hname : named other (name, value) = named other (name, value') := rfl
    simp only [List.reverse_append, List.reverse_cons, List.filter_append, List.map_append,
      List.filter_cons, List.filter_nil, hname]
    split
    · rw [List.map_singleton, List.map_singleton, canonicalLine_refolded h]
    · rfl
  have hwithout : relax false false (withoutB value) = relax false false (withoutB value') :=
    h.invariant (fun _ _ => relax_withoutB_refold)
  rw [verifyInput, verifyInput, assembleSignedHeaders, assembleSignedHeaders,
    signedLines_congr hfields, (emptyBValue_iff value).mpr hspelled,
    (emptyBValue_iff value').mpr hspelled', canonicalLine, canonicalLine, hwithout]

theorem verify_refolded {message message' value value' : Bytes}
    (h : RefoldedMessage message message' value value') (hspelled : Spelled value)
    (hspelled' : Spelled value') (publicKey : Bytes) :
    verify S message publicKey = verify S message' publicKey := by
  rcases h.fields with ⟨before, name, after, body, hsplit, hsplit', hnamed, hafter⟩
  have hfound := findHeader_last before hnamed hafter
  have hnamed' : named "dkim-signature".toList (name, value') = true := hnamed
  have hfound' := findHeader_last before hnamed' hafter
  have htag : forall k : Str, SolidText k ->
      getTag (parseTags (fromUtf8Lossy value)) k = getTag (parseTags (fromUtf8Lossy value')) k :=
    fun k hk => h.refolded.invariant (fun _ _ => tagValue_refold hk)
  have hinput := verifyInput_refolded h.refolded hspelled hspelled' before after name
  rw [verify, verify, hsplit, hsplit']
  dsimp only
  rw [hfound, hfound']
  dsimp only [orError, bind, Except.bind]
  rw [htag "a".toList (by decide), htag "c".toList (by decide), htag "bh".toList (by decide),
    htag "h".toList (by decide), htag "b".toList (by decide)]
  simp only [hinput]

/--
The verifier empties what it reads as the values of tags `b`, and nothing else, exactly when
these tags are spelled so.  A message verifies with a refolded signature as with the signature
itself when both are.
-/
theorem refolded_signature (S : Suite) (value : Bytes) :
    (emptyBValue value = withoutB value <-> Spelled value) ∧
    (Spelled value -> forall message message' value',
      RefoldedMessage message message' value value' -> Spelled value' -> forall publicKey,
        verify S message publicKey = verify S message' publicKey) :=
  ⟨emptyBValue_iff value, fun hspelled _ _ _ h hspelled' publicKey =>
    verify_refolded h hspelled hspelled' publicKey⟩

/-!
The greeting as it was carried, with other white space in front of its tag `b`: more of it, and
a fold.
-/

def valueFront : Bytes :=
  bytesOf " v=1; a=ed25519-sha256; c=relaxed/relaxed; d=sender.example; s=s1;" ++
    bytesOf "\r\n\tt=1752600000; h=from:to:subject:from;\r\n  " ++
    bytesOf "bh=mnyX993CuPamh00rso0I2YzW9bwUdE/D4G2huADIjww=;"

def valueEnd : Bytes :=
  bytesOf "b=Po32ggxtDL5yq5H3CGei8sCYtLDuxPr9ykhEwUAh\r\n " ++
    bytesOf "3xBm8+ePG8g1spOu0kBPAAcRw8puooSwJGwfz630B9XSBQ=="

def gapValue (gap : String) : Bytes :=
  valueFront ++ bytesOf gap ++ valueEnd

def gapMessage (gap : String) : Bytes :=
  utf8 dkimName ++ 0x3A :: gapValue gap ++
    bytesOf "\r\nReceived: by host.net\r\nFROM:   alice@sender.example\r\nto: bob@host.net\r\n" ++
    bytesOf "Subject: hi \r\n\r\nhello  over\tthe bridge \r\n\r\n"

/-- The digest of what is hashed when the tag `b` is not emptied. -/
def missedDigest : FixedBytes 32 :=
  FixedBytes.ofNat 0xd6e8577404060cc18c04aa60425748845d6876d306b6f0050b6ab73c86697053

def refoldSuite : Suite where
  SigningKey := Unit
  sha256 b :=
    if b = greetingBody then greetingBodyDigest
    else if b = greetingCall.input then greetingDigest
    else missedDigest
  sign _ _ := greetingSignature
  verifyingKey _ := greetingKey
  validKey vk := vk == greetingKey
  verifies vk digest sig := vk == greetingKey && digest == greetingDigest.toBytes &&
    sig == greetingSignature

theorem gapMessage_refolded {old new : String} (hold : Gap (bytesOf old)) (hnew : Gap (bytesOf new))
    {after : List Header} {body : Bytes}
    (hafter : forall header, header ∈ after -> named "dkim-signature".toList header = false)
    (h : splitHeadersBody (gapMessage old) = ((dkimName, gapValue old) :: after, body))
    (h' : splitHeadersBody (gapMessage new) = ((dkimName, gapValue new) :: after, body)) :
    RefoldedMessage (gapMessage old) (gapMessage new) (gapValue old) (gapValue new) where
  refolded := Relation.ReflTransGen.single (Refold.gap valueFront valueEnd hold hnew)
  fields := ⟨[], dkimName, after, body, h, h', by
    show eqIgnoreCase (trim dkimName) "dkim-signature".toList = true
    decide +kernel, hafter⟩

def carriedAfter : List Header :=
  [("Received".toList, bytesOf " by host.net"), ("FROM".toList, bytesOf "   alice@sender.example"),
    ("to".toList, bytesOf " bob@host.net"), ("Subject".toList, bytesOf " hi ")]

def carriedBody : Bytes :=
  bytesOf "hello  over\tthe bridge \r\n\r\n"

theorem gapMessage_split :
    splitHeadersBody (gapMessage " ") = ((dkimName, gapValue " ") :: carriedAfter, carriedBody) ∧
      splitHeadersBody (gapMessage "\t  ") =
        ((dkimName, gapValue "\t  ") :: carriedAfter, carriedBody) ∧
      splitHeadersBody (gapMessage "\r\n ") =
        ((dkimName, gapValue "\r\n ") :: carriedAfter, carriedBody) ∧
      forall header, header ∈ carriedAfter -> named "dkim-signature".toList header = false := by
  decide +kernel

theorem gap_space : Gap (bytesOf " ") :=
  Gap.run (by decide +kernel) (by decide +kernel)

theorem gapMessage_verifies : verify refoldSuite (gapMessage " ") greetingKey.toBytes = .ok () := by
  decide +kernel

theorem spaced_verifies :
    verify refoldSuite (gapMessage "\t  ") greetingKey.toBytes = .ok () := by
  rcases gapMessage_split with ⟨hspace, hspaces, _, hafter⟩
  have hgap : Gap (bytesOf "\t  ") := Gap.run (by decide +kernel) (by decide +kernel)
  have hspelled : Spelled (gapValue " ") ∧ Spelled (gapValue "\t  ") := by
    decide +kernel
  rw [<- (refolded_signature refoldSuite (gapValue " ")).2 hspelled.1 _ _ _
    (gapMessage_refolded gap_space hgap hafter hspace hspaces) hspelled.2]
  exact gapMessage_verifies

/-- A fold in front of the tag `b` hides it. -/
theorem folded_refused :
    verify refoldSuite (gapMessage " ") greetingKey.toBytes = .ok () ∧
      RefoldedMessage (gapMessage " ") (gapMessage "\r\n ") (gapValue " ") (gapValue "\r\n ") ∧
      verify refoldSuite (gapMessage "\r\n ") greetingKey.toBytes = .error .signatureInvalid ∧
      emptyBValue (gapValue "\r\n ") = gapValue "\r\n " ∧
      withoutB (gapValue "\r\n ") = valueFront ++ bytesOf "\r\n b=" := by
  rcases gapMessage_split with ⟨hspace, _, hfold, hafter⟩
  have hgap : Gap (bytesOf "\r\n ") := by
    have hbytes : bytesOf "\r\n " = crlf ++ bytesOf " " := by decide +kernel
    rw [hbytes]
    exact Gap.fold (by decide +kernel) (by decide +kernel)
  have hruns : verify refoldSuite (gapMessage "\r\n ") greetingKey.toBytes =
        .error .signatureInvalid ∧
      emptyBValue (gapValue "\r\n ") = gapValue "\r\n " ∧
      withoutB (gapValue "\r\n ") = valueFront ++ bytesOf "\r\n b=" := by
    decide +kernel
  exact ⟨gapMessage_verifies, gapMessage_refolded gap_space hgap hafter hspace hfold, hruns⟩

end Dkim
end Gateway
end Ephor
