import Ephor.Gateway.DkimCanonical

/-!
# Tags

The verifier takes the tags out of the decoded value of the signature's header, with all
white space of Unicode cut off, and it hashes the bytes of that value with the tag `b`
emptied.  Both readings cut the value at its semicolons, so they can be compared part by
part.
-/

namespace Ephor
namespace Gateway
namespace Dkim

open Foundation
open Foundation.Text

def semicolon : UInt8 := 0x3B

/-- What is left of the tag `b`. -/
def emptiedTag : Bytes := [0x62, 0x3D]

/-!
## Emptying `b` part by part
-/

variable {part value : Bytes} {x : UInt8} {text v domain selector hTag bh : Str}

theorem emptyFrom_skips (h : semicolon ∉ part) (first semi : Bool) :
    emptyFrom true first semi part = [] := by
  induction part generalizing first semi with
  | nil => rfl
  | cons b part ih =>
      rcases List.ne_and_not_mem_of_not_mem_cons h with ⟨hb, hpart⟩
      have hother : ¬ b = 0x3B := Ne.symm hb
      rw [emptyFrom, if_pos rfl, if_neg hother, ih hpart]

theorem emptyFrom_copies (h : semicolon ∉ part) : emptyFrom false false false part = part := by
  induction part with
  | nil => rfl
  | cons b part ih =>
      rcases List.ne_and_not_mem_of_not_mem_cons h with ⟨hb, hpart⟩
      have hplain : (b == 0x3B || (isWsp b && false)) = false := by
        rw [Bool.and_false, Bool.or_false]
        exact beq_false_of_ne (Ne.symm hb)
      rw [emptyFrom, hplain, ih hpart]
      rfl

theorem head?_dropWhile_semicolon (part rest : Bytes) :
    (((part ++ semicolon :: rest).dropWhile isWsp).head? == some 0x3D) =
      ((part.dropWhile isWsp).head? == some 0x3D) := by
  induction part with
  | nil => rfl
  | cons b part ih =>
      rw [List.cons_append, List.dropWhile_cons, List.dropWhile_cons]
      split
      · exact ih
      · rfl

theorem emptyFrom_append (h : semicolon ∉ part) (skips first semi : Bool) (rest : Bytes) :
    emptyFrom skips first semi (part ++ semicolon :: rest) =
      emptyFrom skips first semi part ++ semicolon :: emptyFrom false false true rest := by
  induction part generalizing skips first semi with
  | nil =>
      cases skips with
      | true => rfl
      | false =>
          have hb : ((first || semi) && semicolon == 0x62 &&
              (rest.dropWhile isWsp).head? == some 0x3D) = false := by
            rw [show (semicolon == 0x62) = false from rfl, Bool.and_false, Bool.false_and]
          show emptyFrom false first semi (semicolon :: rest) = semicolon :: _
          rw [emptyFrom, hb]
          rfl
  | cons b part ih =>
      rcases List.ne_and_not_mem_of_not_mem_cons h with ⟨hb, hpart⟩
      rw [List.cons_append, emptyFrom, emptyFrom, head?_dropWhile_semicolon]
      cases skips with
      | true =>
          have hother : ¬ b = 0x3B := Ne.symm hb
          rw [if_pos rfl, if_pos rfl, if_neg hother, if_neg hother, ih hpart]
      | false =>
          rw [if_neg Bool.false_ne_true, if_neg Bool.false_ne_true]
          split
          · rw [ih hpart]
            rfl
          · rw [ih hpart]
            rfl

theorem emptyFrom_part (h : semicolon ∉ part) (first semi : Bool) :
    emptyFrom false first semi part = part ∨
      exists space rest, (forall x, x ∈ space -> isWsp x = true) ∧
        part = space ++ 0x62 :: rest ∧ (rest.dropWhile isWsp).head? = some 0x3D ∧
        emptyFrom false first semi part = space ++ emptiedTag := by
  induction part generalizing first semi with
  | nil => exact Or.inl rfl
  | cons b part ih =>
      rcases List.ne_and_not_mem_of_not_mem_cons h with ⟨hb, hpart⟩
      rw [emptyFrom, if_neg Bool.false_ne_true]
      split
      · rename_i hcond
        rw [Bool.and_eq_true, Bool.and_eq_true] at hcond
        rcases hcond with ⟨⟨_, hname⟩, hequals⟩
        right
        refine ⟨[], part, fun x hx => absurd hx List.not_mem_nil, ?_, eq_of_beq hequals, ?_⟩
        · rw [eq_of_beq hname]
          rfl
        · rw [emptyFrom_skips hpart]
          rfl
      · have hplain : (b == 0x3B) = false := beq_false_of_ne (Ne.symm hb)
        rw [hplain, Bool.false_or]
        by_cases hspace : (isWsp b && semi) = true
        · rw [hspace]
          rcases ih hpart false true with hsame | ⟨space, rest, hwsp, hrest, hhead, hempty⟩
          · left
            rw [hsame]
          · right
            refine ⟨b :: space, rest, ?_, ?_, hhead, ?_⟩
            · intro x hx
              rcases List.mem_cons.mp hx with rfl | hx
              · exact (Bool.and_eq_true_iff.mp hspace).1
              · exact hwsp x hx
            · rw [hrest]
              rfl
            · rw [hempty]
              rfl
        · left
          rw [Bool.eq_false_iff.mpr hspace, emptyFrom_copies hpart]

theorem gap_of_head {rest : Bytes} (h : (rest.dropWhile isWsp).head? = some 0x3D) :
    exists gap more, (forall x, x ∈ gap -> isWsp x = true) ∧ rest = gap ++ 0x3D :: more := by
  cases hdrop : rest.dropWhile isWsp with
  | nil =>
      rw [hdrop] at h
      cases h
  | cons x more =>
      rw [hdrop] at h
      have hx : x = 0x3D := Option.some.inj h
      refine ⟨rest.takeWhile isWsp, more, fun _ hmem => List.mem_takeWhile_imp hmem, ?_⟩
      rw [<- hx, <- hdrop, List.takeWhile_append_dropWhile]

theorem semicolon_not_mem_emptyFrom (h : semicolon ∉ part) (first semi : Bool) :
    semicolon ∉ emptyFrom false first semi part := by
  rcases emptyFrom_part h first semi with hsame | ⟨space, rest, _, rfl, _, hempty⟩
  · rw [hsame]
    exact h
  · rw [hempty]
    intro hmem
    rcases List.mem_append.mp hmem with hmem | hmem
    · exact h (List.mem_append_left _ hmem)
    · exact absurd hmem (by decide)

/-- How the parts of an emptied value come from the parts of the value. -/
def Emptied (part emptied : Bytes) : Prop :=
  semicolon ∉ part ∧ exists first semi, emptied = emptyFrom false first semi part

theorem emptied_parts (first semi : Bool) (value : Bytes) :
    List.Forall₂ Emptied (value.splitOn semicolon)
      ((emptyFrom false first semi value).splitOn semicolon) := by
  induction value using pieces_induction semicolon generalizing first semi with
  | last part h =>
      rw [List.splitOn_eq_singleton h,
        List.splitOn_eq_singleton (semicolon_not_mem_emptyFrom h first semi)]
      exact .cons ⟨h, first, semi, rfl⟩ .nil
  | more part rest h ih =>
      rw [emptyFrom_append h, List.splitOn_append_cons_self_of_not_mem h,
        List.splitOn_append_cons_self_of_not_mem (semicolon_not_mem_emptyFrom h first semi)]
      exact .cons ⟨h, first, semi, rfl⟩ (ih false true)

theorem semicolon_not_mem_of_emptied {parts emptied : List Bytes}
    (h : List.Forall₂ Emptied parts emptied) : forall part, part ∈ parts -> semicolon ∉ part := by
  induction h with
  | nil => exact fun _ hmem => absurd hmem List.not_mem_nil
  | cons hpart _ ih =>
      intro part hmem
      rcases List.mem_cons.mp hmem with rfl | hmem
      · exact hpart.1
      · exact ih part hmem

/-!
## Bare parts
-/

theorem bare_cons {b : UInt8} {rest : Bytes} (hb : b = cr -> rest.head? ≠ some lf) :
    bare (b :: rest) = if isWsp b then bare rest else b :: bare rest := by
  cases rest with
  | nil => rfl
  | cons c rest =>
      have hpair : ¬ (b = cr ∧ c = lf) := fun h => hb h.1 (congrArg some h.2)
      rw [bare, if_neg hpair]

theorem bare_pair (rest : Bytes) : bare (cr :: lf :: rest) = bare rest := by
  rw [bare, if_pos ⟨rfl, rfl⟩]

theorem mem_bare (h : x ∈ value) : x ∈ bare value ∨ isWsp x = true ∨ x = cr ∨ x = lf := by
  induction value using bare.induct with
  | case1 => cases h
  | case2 b hb =>
      rw [List.mem_singleton.mp h]
      exact Or.inr (Or.inl hb)
  | case3 b hb =>
      rw [bare, if_neg hb]
      exact Or.inl h
  | case4 b c rest hpair ih =>
      rcases hpair with ⟨rfl, rfl⟩
      rw [bare_pair]
      rcases List.mem_cons.mp h with rfl | h
      · exact Or.inr (Or.inr (Or.inl rfl))
      rcases List.mem_cons.mp h with rfl | h
      · exact Or.inr (Or.inr (Or.inr rfl))
      · exact ih h
  | case5 b c rest hpair hb ih =>
      rw [bare, if_neg hpair, if_pos hb]
      rcases List.mem_cons.mp h with rfl | h
      · exact Or.inr (Or.inl hb)
      · exact ih h
  | case6 b c rest hpair hb ih =>
      rw [bare, if_neg hpair, if_neg hb]
      rcases List.mem_cons.mp h with rfl | h
      · exact Or.inl List.mem_cons_self
      · rcases ih h with hmem | hwhite
        · exact Or.inl (List.mem_cons_of_mem b hmem)
        · exact Or.inr hwhite

theorem mem_of_mem_bare (h : x ∈ bare value) : x ∈ value := by
  induction value using bare.induct with
  | case1 => exact h
  | case2 b hb =>
      rw [bare, if_pos hb] at h
      cases h
  | case3 b hb =>
      rw [bare, if_neg hb] at h
      exact h
  | case4 b c rest hpair ih =>
      rw [bare, if_pos hpair] at h
      exact List.mem_cons_of_mem b (List.mem_cons_of_mem c (ih h))
  | case5 b c rest hpair hb ih =>
      rw [bare, if_neg hpair, if_pos hb] at h
      exact List.mem_cons_of_mem b (ih h)
  | case6 b c rest hpair hb ih =>
      rw [bare, if_neg hpair, if_neg hb] at h
      rcases List.mem_cons.mp h with rfl | h
      · exact List.mem_cons_self
      · exact List.mem_cons_of_mem b (ih h)

theorem bare_append_semicolon (part rest : Bytes) :
    bare (part ++ semicolon :: rest) = bare part ++ semicolon :: bare rest := by
  have hsemicolon : bare (semicolon :: rest) = semicolon :: bare rest :=
    bare_cons (fun h => nomatch h)
  induction part using bare.induct with
  | case1 => exact hsemicolon
  | case2 b hb =>
      have hother : b = cr -> (semicolon :: rest).head? ≠ some lf := fun _ h => nomatch h
      rw [List.cons_append, List.nil_append, bare_cons hother, if_pos hb, hsemicolon, bare,
        if_pos hb]
      rfl
  | case3 b hb =>
      have hother : b = cr -> (semicolon :: rest).head? ≠ some lf := fun _ h => nomatch h
      rw [List.cons_append, List.nil_append, bare_cons hother, if_neg hb, hsemicolon, bare,
        if_neg hb]
      rfl
  | case4 b c part hpair ih =>
      rw [List.cons_append, List.cons_append, bare, if_pos hpair, ih, bare, if_pos hpair]
  | case5 b c part hpair hb ih =>
      rw [List.cons_append, List.cons_append, bare, if_neg hpair, if_pos hb, bare, if_neg hpair,
        if_pos hb, <- ih]
      rfl
  | case6 b c part hpair hb ih =>
      rw [List.cons_append, List.cons_append, bare, if_neg hpair, if_neg hb, bare, if_neg hpair,
        if_neg hb, List.cons_append, <- ih]
      rfl

theorem bare_parts (value : Bytes) :
    (bare value).splitOn semicolon = (value.splitOn semicolon).map bare := by
  induction value using pieces_induction semicolon with
  | last part h =>
      rw [List.splitOn_eq_singleton h,
        List.splitOn_eq_singleton (fun hmem => h (mem_of_mem_bare hmem))]
      rfl
  | more part rest h ih =>
      rw [bare_append_semicolon, List.splitOn_append_cons_self_of_not_mem h,
        List.splitOn_append_cons_self_of_not_mem (fun hmem => h (mem_of_mem_bare hmem)), ih]
      rfl

/-!
## Parts as text
-/

/-- Text of visible ASCII characters without a semicolon, as tags have it. -/
def TagText (text : Str) : Prop :=
  forall c, c ∈ text -> 0x21 <= c.toNat ∧ c.toNat <= 0x7E ∧ c ≠ ';'

instance (text : Str) : Decidable (TagText text) :=
  List.decidableBAll (fun c : Char => 0x21 <= c.toNat ∧ c.toNat <= 0x7E ∧ c ≠ ';') text

theorem TagText.ascii (h : TagText text) : forall c, c ∈ text -> c.toNat < 128 :=
  fun c hc => Nat.lt_of_le_of_lt (h c hc).2.1 (by decide)

theorem TagText.append {a b : Str} (ha : TagText a) (hb : TagText b) : TagText (a ++ b) := by
  intro c hc
  rcases List.mem_append.mp hc with hc | hc
  · exact ha c hc
  · exact hb c hc

theorem TagText.cons {c : Char} {text : Str} (hc : 0x21 <= c.toNat ∧ c.toNat <= 0x7E ∧ c ≠ ';')
    (h : TagText text) : TagText (c :: text) := by
  intro d hd
  rcases List.mem_cons.mp hd with rfl | hd
  · exact hc
  · exact h d hd

theorem isWhiteSpace_of_visible {c : Char} (hlow : 0x21 <= c.toNat) (hhigh : c.toNat <= 0x7E) :
    isWhiteSpace c = false := by
  simp [isWhiteSpace]
  omega

def SolidText (text : Str) : Prop :=
  forall c, c ∈ text -> c ≠ ';' ∧ isWhiteSpace c = false

instance (text : Str) : Decidable (SolidText text) :=
  List.decidableBAll (fun c : Char => c ≠ ';' ∧ isWhiteSpace c = false) text

theorem TagText.solid (h : TagText text) : SolidText text :=
  fun c hc => ⟨(h c hc).2.2, isWhiteSpace_of_visible (h c hc).1 (h c hc).2.1⟩

theorem SolidText.append {a b : Str} (ha : SolidText a) (hb : SolidText b) :
    SolidText (a ++ b) := by
  intro c hc
  rcases List.mem_append.mp hc with hc | hc
  · exact ha c hc
  · exact hb c hc

theorem bareText_of_solid (h : SolidText text) : bareText text = text := by
  apply List.filter_eq_self.mpr
  intro c hc
  rw [(h c hc).2]
  rfl

theorem isWhiteSpace_wsp {b : UInt8} (h : isWsp b = true) : isWhiteSpace (asciiChar b) = true := by
  rcases Bool.or_eq_true_iff.mp h with hb | hb
  · rw [eq_of_beq hb]
    rfl
  · rw [eq_of_beq hb]
    rfl

theorem bareText_cons_white {c : Char} (h : isWhiteSpace c = true) (text : Str) :
    bareText (c :: text) = bareText text := by
  have hdropped : ¬ (!isWhiteSpace c) = true := by
    rw [h]
    exact Bool.false_ne_true
  rw [bareText, bareText, List.filter_cons, if_neg hdropped]

theorem bareText_bare (value : Bytes) :
    bareText (value.map asciiChar) = bareText ((bare value).map asciiChar) := by
  have hcons : forall c a b, bareText a = bareText b -> bareText (c :: a) = bareText (c :: b) := by
    intro c a b h
    rw [bareText] at h
    rw [bareText, bareText, List.filter_cons, List.filter_cons, h]
    rfl
  induction value using bare.induct with
  | case1 => rfl
  | case2 b hb =>
      rw [bare, if_pos hb]
      exact bareText_cons_white (isWhiteSpace_wsp hb) []
  | case3 b hb => rw [bare, if_neg hb]
  | case4 b c rest hpair ih =>
      rcases hpair with ⟨rfl, rfl⟩
      rw [bare_pair, <- ih, List.map_cons, List.map_cons, bareText_cons_white rfl,
        bareText_cons_white rfl]
  | case5 b c rest hpair hb ih =>
      rw [bare, if_neg hpair, if_pos hb, <- ih, List.map_cons,
        bareText_cons_white (isWhiteSpace_wsp hb)]
  | case6 b c rest hpair hb ih =>
      rw [bare, if_neg hpair, if_neg hb]
      exact hcons _ _ _ ih

theorem lt_of_bare (htext : TagText text) (h : bare value = utf8 text) (hx : x ∈ value) :
    x.toNat < 128 := by
  rcases mem_bare hx with hmem | hwsp | rfl | rfl
  · rw [h] at hmem
    exact lt_of_mem_utf8 htext.ascii hmem
  · rcases Bool.or_eq_true_iff.mp hwsp with hb | hb
    · rw [eq_of_beq hb]
      decide
    · rw [eq_of_beq hb]
      decide
  · decide
  · decide

theorem bareText_of_bare (htext : TagText text) (h : bare value = utf8 text) :
    bareText (value.map asciiChar) = text := by
  rw [bareText_bare, h, map_asciiChar_utf8 htext.ascii, bareText_of_solid htext.solid]

theorem parseTag_of_bareText {part name value k : Str}
    (hpart : bareText part = name ++ '=' :: value) (hname : '=' ∉ name)
    (h : parseTag part = some (k, v)) : bareText k = name ∧ v = value := by
  rcases Option.map_eq_some_iff.mp h with ⟨⟨k', v'⟩, hsplit, hpair⟩
  cases hpair
  rcases splitOnce_eq_some hsplit with ⟨htrim, hnot⟩
  have hbare : bareText k' ++ '=' :: bareText v' = name ++ '=' :: value := by
    rw [<- hpart, <- bareText_trim part, htrim]
    show _ = List.filter _ _
    rw [List.filter_append, List.filter_cons]
    rfl
  rcases piece_inj (fun hmem => hnot (List.mem_of_mem_filter hmem)) hname hbare with
    ⟨hk, hv⟩
  exact ⟨(bareText_trim k').trans hk, hv⟩

/-!
## Reading the tags back
-/

def tagText (tag : Str × Str) : Str :=
  tag.1 ++ '=' :: tag.2

def bName : Str := "b".toList

theorem utf8_bName : utf8 (tagText (bName, [])) = emptiedTag := by
  decide +kernel

theorem bare_space {space : Bytes} (h : forall x, x ∈ space -> isWsp x = true) (rest : Bytes) :
    bare (space ++ rest) = bare rest := by
  induction space with
  | nil => rfl
  | cons b space ih =>
      have hb := h b List.mem_cons_self
      have hother : b = cr -> (space ++ rest).head? ≠ some lf := by
        intro hcr
        rw [hcr] at hb
        cases hb
      rw [List.cons_append, bare_cons hother, if_pos hb,
        ih (List.forall_mem_cons.mp h).2]

theorem bare_of_emptied {emptied : Bytes} (h : Emptied part emptied)
    (hother : bare emptied ≠ emptiedTag) : bare part = bare emptied := by
  rcases h with ⟨hfree, first, semi, rfl⟩
  rcases emptyFrom_part hfree first semi with hsame | ⟨space, rest, hspace, _, _, hempty⟩
  · rw [hsame]
  · rw [hempty, bare_space hspace] at hother
    exact absurd rfl hother

/-- Tags in front of `b`, as a signer writes them. -/
structure Written (tag : Str × Str) : Prop where
  text : TagText (tagText tag)
  name : '=' ∉ tag.1
  other : tag.1 ≠ bName

theorem Written.ne_emptiedTag {tag : Str × Str} (h : Written tag) :
    utf8 (tagText tag) ≠ emptiedTag := by
  intro heq
  rw [<- utf8_bName] at heq
  exact h.other (piece_inj h.name (by decide) (utf8_injective heq)).1

theorem written_parts {parts emptied : List Bytes} (hparts : List.Forall₂ Emptied parts emptied)
    {tags : List (Str × Str)} (htags : forall tag, tag ∈ tags -> Written tag)
    (h : emptied.map bare = tags.map (fun tag => utf8 (tagText tag)) ++ [emptiedTag]) :
    exists front last, parts = front ++ [last] ∧
      front.map bare = tags.map (fun tag => utf8 (tagText tag)) ∧
      exists e, Emptied last e ∧ bare e = emptiedTag := by
  induction tags generalizing parts emptied with
  | nil =>
      cases hparts with
      | nil => cases h
      | cons hpart hrest =>
          injection h with hhead htail
          rw [List.map_eq_nil_iff] at htail
          rw [htail] at hrest
          cases hrest
          exact ⟨[], _, rfl, rfl, _, hpart, hhead⟩
  | cons tag tags ih =>
      cases hparts with
      | nil => cases h
      | @cons part e parts emptied hpart hrest =>
          injection h with hhead htail
          rcases ih hrest (List.forall_mem_cons.mp htags).2 htail
            with ⟨front, last, hfront, hbare, hlast⟩
          refine ⟨part :: front, last, by rw [hfront]; rfl, ?_, hlast⟩
          have hother : bare e ≠ emptiedTag := by
            rw [hhead]
            exact (htags tag List.mem_cons_self).ne_emptiedTag
          rw [List.map_cons, List.map_cons, hbare, bare_of_emptied hpart hother, hhead]

theorem fromUtf8Lossy_ascii {front : Bytes} (h : forall x, x ∈ front -> x.toNat < 128)
    (rest : Bytes) : fromUtf8Lossy (front ++ rest) = front.map asciiChar ++ fromUtf8Lossy rest := by
  have hfront := utf8_ascii h
  have hdecoded := fromUtf8Lossy_append (front.map asciiChar) rest
  rw [hfront] at hdecoded
  exact hdecoded

theorem semicolon_not_mem_text (h : forall x, x ∈ part -> x.toNat < 128)
    (hfree : semicolon ∉ part) : ';' ∉ part.map asciiChar := by
  intro hmem
  rcases List.mem_map.mp hmem with ⟨x, hx, hchar⟩
  have hnat := congrArg Char.toNat hchar
  rw [toNat_asciiChar (h x hx)] at hnat
  have hx' : x = semicolon := UInt8.toNat_inj.mp hnat
  exact hfree (hx' ▸ hx)

theorem decoded_parts {front : List Bytes} {last : Bytes}
    (hascii : forall part, part ∈ front -> forall x, x ∈ part -> x.toNat < 128)
    (hfree : forall part, part ∈ front -> semicolon ∉ part) (hlast : semicolon ∉ last) :
    (fromUtf8Lossy ([semicolon].intercalate (front ++ [last]))).splitOn ';' =
      front.map (fun part => part.map asciiChar) ++ [fromUtf8Lossy last] := by
  induction front with
  | nil =>
      rw [List.nil_append, List.intercalate_singleton]
      apply List.splitOn_eq_singleton
      intro hmem
      exact hlast (mem_of_mem_lossyChars (by decide) hmem)
  | cons part front ih =>
      have hpart := hascii part List.mem_cons_self
      have hne : front ++ [last] ≠ [] := List.append_ne_nil_of_right_ne_nil _ (List.cons_ne_nil _ _)
      have hsemicolon : forall x, x ∈ [semicolon] -> x.toNat < 128 :=
        List.forall_mem_singleton.mpr (by decide)
      have hrest := ih (List.forall_mem_cons.mp hascii).2
        (List.forall_mem_cons.mp hfree).2
      rw [List.cons_append, List.intercalate_cons_of_ne_nil hne, List.append_assoc,
        fromUtf8Lossy_ascii hpart, fromUtf8Lossy_ascii hsemicolon]
      show List.splitOn ';' (part.map asciiChar ++
        ';' :: fromUtf8Lossy ([semicolon].intercalate (front ++ [last]))) = _
      rw [List.splitOn_append_cons_self_of_not_mem
        (semicolon_not_mem_text hpart (hfree part List.mem_cons_self)), hrest]
      rfl

theorem bareText_append (a b : Str) : bareText (a ++ b) = bareText a ++ bareText b :=
  List.filter_append a b

theorem bareText_space {space : Bytes} (h : forall x, x ∈ space -> isWsp x = true) :
    bareText (space.map asciiChar) = [] := by
  apply List.filter_eq_nil_iff.mpr
  intro c hc
  rcases List.mem_map.mp hc with ⟨x, hx, rfl⟩
  rw [isWhiteSpace_wsp (h x hx)]
  exact Bool.false_ne_true

theorem lt_of_space {space : Bytes} (h : forall x, x ∈ space -> isWsp x = true) :
    forall x, x ∈ space -> x.toNat < 128 := by
  intro x hx
  rcases Bool.or_eq_true_iff.mp (h x hx) with hb | hb
  · rw [eq_of_beq hb]
    decide
  · rw [eq_of_beq hb]
    decide

theorem bareText_last {last e : Bytes} (h : Emptied last e) (he : bare e = emptiedTag) :
    exists value, bareText (fromUtf8Lossy last) = bName ++ '=' :: value := by
  rcases h with ⟨hfree, first, semi, rfl⟩
  rcases emptyFrom_part hfree first semi with hsame | ⟨space, rest, hspace, rfl, hhead, _⟩
  · rw [hsame, <- utf8_bName] at he
    have htext : TagText (tagText (bName, [])) := by decide
    have hdecoded := fromUtf8Lossy_ascii (fun x hx => lt_of_bare htext he hx) []
    rw [List.append_nil] at hdecoded
    refine ⟨[], ?_⟩
    rw [hdecoded]
    show bareText (last.map asciiChar ++ []) = _
    rw [List.append_nil, bareText_of_bare htext he]
    rfl
  · -- The name, white space and the equals sign are ASCII; the value may be anything.
    rcases gap_of_head hhead with ⟨gap, value, hgap, rfl⟩
    have hletter : forall x, x ∈ [(0x62 : UInt8)] -> x.toNat < 128 :=
      List.forall_mem_singleton.mpr (by decide)
    have hequals : forall x, x ∈ [(0x3D : UInt8)] -> x.toNat < 128 :=
      List.forall_mem_singleton.mpr (by decide)
    refine ⟨bareText (fromUtf8Lossy value), ?_⟩
    rw [<- List.singleton_append, <- List.singleton_append (l := value),
      fromUtf8Lossy_ascii (lt_of_space hspace), fromUtf8Lossy_ascii hletter,
      fromUtf8Lossy_ascii (lt_of_space hgap), fromUtf8Lossy_ascii hequals, bareText_append,
      bareText_append, bareText_append, bareText_append, bareText_space hspace,
      bareText_space hgap]
    rfl

theorem mem_parseTags_of_getTag {k : Str} (h : getTag (parseTags text) k = some v) :
    exists part, part ∈ text.splitOn ';' ∧ parseTag part = some (k, v) := by
  rcases Option.map_eq_some_iff.mp h with ⟨tag, hfind, rfl⟩
  have hname := List.find?_some hfind
  have hk : tag.1 = k := eq_of_beq hname
  rcases List.mem_filterMap.mp (List.mem_of_find?_eq_some hfind) with ⟨part, hpart, htag⟩
  refine ⟨part, hpart, ?_⟩
  rw [htag, <- hk]

/-- A tag other than `b` that the verifier finds is one that the signer wrote, when the value
with `b` emptied canonicalizes as the signer's. -/
theorem mem_tags_of_getTag {tags : List (Str × Str)} (htags : forall tag, tag ∈ tags -> Written tag)
    (h : (bare (emptyBValue value)).splitOn semicolon =
      tags.map (fun tag => utf8 (tagText tag)) ++ [emptiedTag]) {k : Str} (hk : bareText k = k)
    (hother : k ≠ bName) (hget : getTag (parseTags (fromUtf8Lossy value)) k = some v) :
    (k, v) ∈ tags := by
  rw [bare_parts] at h
  rcases written_parts (emptied_parts true false value) htags h with
    ⟨front, last, hparts, hfront, e, hlast, he⟩
  have hvalue : value = [semicolon].intercalate (front ++ [last]) := by
    rw [<- hparts, List.intercalate_splitOn]
  have hpart : forall part, part ∈ front -> exists tag, tag ∈ tags ∧
      bare part = utf8 (tagText tag) := by
    intro part hmem
    have hbare := List.mem_map_of_mem (f := bare) hmem
    rw [hfront] at hbare
    rcases List.mem_map.mp hbare with ⟨tag, htag, heq⟩
    exact ⟨tag, htag, heq.symm⟩
  have hfree : forall part, part ∈ front -> semicolon ∉ part := by
    intro part hmem
    apply semicolon_not_mem_of_emptied (emptied_parts true false value)
    rw [hparts]
    exact List.mem_append_left _ hmem
  have hascii : forall part, part ∈ front -> forall x, x ∈ part -> x.toNat < 128 := by
    intro part hmem x hx
    rcases hpart part hmem with ⟨tag, htag, hbare⟩
    exact lt_of_bare (htags tag htag).text hbare hx
  rcases mem_parseTags_of_getTag hget with ⟨part, hmem, hparse⟩
  rw [hvalue, decoded_parts hascii hfree hlast.1] at hmem
  rcases List.mem_append.mp hmem with hmem | hmem
  · rcases List.mem_map.mp hmem with ⟨bytes, hbytes, rfl⟩
    rcases hpart bytes hbytes with ⟨tag, htag, hbare⟩
    have hwritten := htags tag htag
    rcases parseTag_of_bareText (bareText_of_bare hwritten.text hbare) hwritten.name hparse with
      ⟨hname, hv⟩
    rw [hk] at hname
    rw [hname, hv]
    exact htag
  · rw [List.mem_singleton.mp hmem] at hparse
    rcases bareText_last hlast he with ⟨text, htext⟩
    rcases parseTag_of_bareText htext (by decide) hparse with ⟨hname, _⟩
    rw [hk] at hname
    exact absurd hname hother

/-!
## Base64

The decoder shifts sextets into a buffer that keeps its old bits; only the low ones are read.
-/

theorem alphabet_letter : forall v, v < 64 -> alphabet.idxOf? (letter v) = some v := by
  decide +kernel

theorem letter_plain : forall v, v < 64 -> letter v ≠ '=' ∧
    (letter v = ' ' || letter v = '\t' || letter v = '\r' || letter v = '\n') = false := by
  decide +kernel

theorem decodeFrom_letters {sextets : List Nat} (h : forall v, v ∈ sextets -> v < 64) (rest : Str)
    (state : Nat × Nat × Bytes) :
    decodeFrom (sextets.map letter ++ rest) state =
      decodeFrom rest (sextets.foldl (fun s v => pushSextet v s) state) := by
  induction sextets generalizing state with
  | nil => rfl
  | cons v sextets ih =>
      have hv := h v List.mem_cons_self
      rcases letter_plain v hv with ⟨hpad, hspace⟩
      rw [List.map_cons, List.cons_append, decodeFrom, if_neg hpad, hspace,
        if_neg Bool.false_ne_true, alphabet_letter v hv]
      exact ih (List.forall_mem_cons.mp h).2 (pushSextet v state)

def shifted (bits v : Nat) : Nat :=
  (bits * 64 + v) % 2 ^ 32

theorem pushSextet_zero (v bits : Nat) (out : Bytes) :
    pushSextet v (bits, 0, out) = (shifted bits v, 6, out) :=
  rfl

theorem pushSextet_six (v bits : Nat) (out : Bytes) :
    pushSextet v (bits, 6, out) = (shifted bits v, 4, out ++ [UInt8.ofNat (shifted bits v / 16)]) :=
  rfl

theorem pushSextet_four (v bits : Nat) (out : Bytes) :
    pushSextet v (bits, 4, out) = (shifted bits v, 2, out ++ [UInt8.ofNat (shifted bits v / 4)]) :=
  rfl

theorem pushSextet_two (v bits : Nat) (out : Bytes) :
    pushSextet v (bits, 2, out) = (shifted bits v, 0, out ++ [UInt8.ofNat (shifted bits v / 1)]) :=
  rfl

theorem ofNat_eq_of_mod {n : Nat} {b : UInt8} (h : n % 256 = b.toNat) : UInt8.ofNat n = b :=
  (UInt8.ofNat_eq_iff_mod_eq_toNat n b).mpr h

theorem push_toSextets (b : Bytes) (bits : Nat) (out : Bytes) :
    exists bits' nbits', (Base64.toSextets b).foldl (fun s v => pushSextet v s) (bits, 0, out) =
      (bits', nbits', out ++ b) := by
  induction b using Base64.toSextets.induct generalizing bits out with
  | case1 =>
      rw [List.append_nil]
      exact ⟨bits, 0, rfl⟩
  | case2 a =>
      have ha := a.toNat_lt
      rw [Base64.toSextets, List.foldl_cons, List.foldl_cons, List.foldl_nil, pushSextet_zero,
        pushSextet_six, ofNat_eq_of_mod (b := a) (by rw [shifted, shifted]; omega)]
      exact ⟨_, _, rfl⟩
  | case3 a b =>
      have ha := a.toNat_lt
      have hb := b.toNat_lt
      rw [Base64.toSextets, List.foldl_cons, List.foldl_cons, List.foldl_cons, List.foldl_nil,
        pushSextet_zero, pushSextet_six, pushSextet_four,
        ofNat_eq_of_mod (b := a) (by rw [shifted, shifted]; omega),
        ofNat_eq_of_mod (b := b) (by rw [shifted, shifted]; omega), List.append_assoc]
      exact ⟨_, _, rfl⟩
  | case4 a b c rest ih =>
      have ha := a.toNat_lt
      have hb := b.toNat_lt
      have hc := c.toNat_lt
      have hout : out ++ [a] ++ [b] ++ [c] ++ rest = out ++ a :: b :: c :: rest := by
        simp only [List.append_assoc, List.cons_append, List.nil_append]
      rw [Base64.toSextets, List.foldl_cons, List.foldl_cons, List.foldl_cons, List.foldl_cons,
        pushSextet_zero, pushSextet_six, pushSextet_four, pushSextet_two,
        ofNat_eq_of_mod (b := a) (by rw [shifted, shifted]; omega),
        ofNat_eq_of_mod (b := b) (by rw [shifted, shifted]; omega),
        ofNat_eq_of_mod (b := c) (by rw [shifted, shifted]; omega), <- hout]
      exact ih _ _

theorem b64Decode_b64Encode (b : Bytes) : b64Decode (b64Encode b) = some b := by
  rcases push_toSextets b 0 [] with ⟨bits, nbits, hpush⟩
  rw [b64Decode, b64Encode, decodeFrom_letters Base64.toSextets_lt, hpush, List.nil_append]
  cases padding b with
  | zero | succ n => rfl

theorem b64Encode_injective {a b : Bytes} (h : b64Encode a = b64Encode b) : a = b := by
  have hdecode := b64Decode_b64Encode a
  rw [h, b64Decode_b64Encode] at hdecode
  exact (Option.some.inj hdecode).symm

/-!
## What the signer writes
-/

def plainChar (c : Char) : Bool :=
  c.isAlphanum || c == '-' || c == '_' || c == '.'

def PlainName (name : Str) : Prop :=
  forall c, c ∈ name -> plainChar c = true

theorem visible_of_alphanum {c : Char} (h : c.isAlphanum = true) :
    0x21 <= c.toNat ∧ c.toNat <= 0x7E ∧ c ≠ ';' := by
  rcases isAlphanum_bounds h with ⟨hlow, hhigh, hne⟩
  refine ⟨by omega, by omega, ?_⟩
  intro heq
  rw [heq] at hne
  exact hne rfl

theorem PlainName.tagText {name : Str} (h : PlainName name) : TagText name := by
  intro c hc
  have hplain := h c hc
  rw [plainChar, Bool.or_eq_true, Bool.or_eq_true, Bool.or_eq_true] at hplain
  rcases hplain with ((halphanum | hc) | hc) | hc
  · exact visible_of_alphanum halphanum
  · rw [eq_of_beq hc]
    decide
  · rw [eq_of_beq hc]
    decide
  · rw [eq_of_beq hc]
    decide

theorem tagText_digits (n : Nat) : TagText (toString n).toList := by
  intro c hc
  have hdigits : (toString n).toList = Nat.toDigits 10 n := String.toList_ofList
  rw [hdigits] at hc
  have hdigit := Nat.isDigit_of_mem_toDigits (by decide) (by decide) hc
  apply visible_of_alphanum
  rw [Char.isAlphanum, hdigit, Bool.or_true]

theorem letter_mem (v : Nat) : letter v ∈ alphabet := by
  rw [letter, List.getD_eq_getElem?_getD]
  cases hget : alphabet[v]? with
  | none => decide
  | some c => exact List.mem_of_getElem? hget

theorem tagText_b64Encode (b : Bytes) : TagText (b64Encode b) := by
  have hletters : TagText alphabet := by decide +kernel
  intro c hc
  rcases List.mem_append.mp hc with hc | hc
  · rcases List.mem_map.mp hc with ⟨v, _, rfl⟩
    exact hletters _ (letter_mem v)
  · rw [List.eq_of_mem_replicate hc]
    decide

theorem tagText_intercalate {sep : Str} (hsep : TagText sep) {texts : List Str}
    (h : forall text, text ∈ texts -> TagText text) : TagText (sep.intercalate texts) :=
  forall_mem_intercalate hsep h

/-- The tags in front of `b`. -/
def baseTags (domain selector : Str) (t : UInt64) (hTag bh : Str) : List (Str × Str) :=
  [("v".toList, "1".toList), ("a".toList, "ed25519-sha256".toList),
    ("c".toList, "relaxed/relaxed".toList), ("d".toList, domain), ("s".toList, selector),
    ("t".toList, (toString t.toNat).toList), ("h".toList, hTag), ("bh".toList, bh)]

theorem joined_tags (domain selector t hTag bh : Str) {p0 p1 p2 p3 p4 p5 a c : Str}
    (h0 : p0 = tagText ("v".toList, v) ++ "; ".toList ++ tagText ("a".toList, a) ++ "; ".toList ++
      tagText ("c".toList, c) ++ "; ".toList ++ tagText ("d".toList, []))
    (h1 : p1 = "; ".toList ++ tagText ("s".toList, []))
    (h2 : p2 = "; ".toList ++ tagText ("t".toList, []))
    (h3 : p3 = "; ".toList ++ tagText ("h".toList, []))
    (h4 : p4 = "; ".toList ++ tagText ("bh".toList, []))
    (h5 : p5 = "; ".toList ++ tagText (bName, [])) :
    p0 ++ domain ++ p1 ++ selector ++ p2 ++ t ++ p3 ++ hTag ++ p4 ++ bh ++ p5 =
      "; ".toList.intercalate ([("v".toList, v), ("a".toList, a), ("c".toList, c),
        ("d".toList, domain), ("s".toList, selector), ("t".toList, t), ("h".toList, hTag),
        ("bh".toList, bh), (bName, [])].map tagText) := by
  subst h0 h1 h2 h3 h4 h5
  simp only [tagText, List.map_cons, List.map_nil, List.cons_append, List.nil_append,
    List.append_assoc, List.intercalate_cons_cons, List.intercalate_singleton]

theorem headerBase_eq (domain selector : Str) (t : UInt64) (hTag bh : Str) :
    headerBase domain selector t hTag bh =
      "; ".toList.intercalate ((baseTags domain selector t hTag bh).map tagText ++
        [tagText (bName, [])]) :=
  joined_tags domain selector (toString t.toNat).toList hTag bh (by decide +kernel)
    (by decide +kernel) (by decide +kernel) (by decide +kernel) (by decide +kernel)
    (by decide +kernel)

theorem forall_baseTags {P : Str -> Prop} (htext : forall text, TagText text -> P text)
    (hdomain : P domain) (hselector : P selector) (t : UInt64) (hh : TagText hTag)
    (hbh : TagText bh) :
    forall tag, tag ∈ baseTags domain selector t hTag bh ->
      TagText (tag.1 ++ ['=']) ∧ '=' ∉ tag.1 ∧ tag.1 ≠ bName ∧ P tag.2 := by
  have htag : forall name value : Str, TagText (name ++ ['=']) -> '=' ∉ name -> name ≠ bName ->
      P value -> TagText ((name, value).1 ++ ['=']) ∧ '=' ∉ (name, value).1 ∧
        (name, value).1 ≠ bName ∧ P (name, value).2 :=
    fun _ _ hname hequals hother hvalue => ⟨hname, hequals, hother, hvalue⟩
  intro tag hmem
  simp only [baseTags, List.mem_cons, List.not_mem_nil, or_false] at hmem
  rcases hmem with rfl | rfl | rfl | rfl | rfl | rfl | rfl | rfl
  · exact htag _ _ (by decide) (by decide) (by decide) (htext _ (by decide))
  · exact htag _ _ (by decide) (by decide) (by decide) (htext _ (by decide +kernel))
  · exact htag _ _ (by decide) (by decide) (by decide) (htext _ (by decide +kernel))
  · exact htag _ _ (by decide) (by decide) (by decide) hdomain
  · exact htag _ _ (by decide) (by decide) (by decide) hselector
  · exact htag _ _ (by decide) (by decide) (by decide) (htext _ (tagText_digits t.toNat))
  · exact htag _ _ (by decide) (by decide) (by decide) (htext _ hh)
  · exact htag _ _ (by decide) (by decide) (by decide) (htext _ hbh)

theorem tagText_eq (tag : Str × Str) : tagText tag = tag.1 ++ ['='] ++ tag.2 := by
  rw [List.append_assoc]
  rfl

theorem written_baseTags (hdomain : TagText domain) (hselector : TagText selector) (t : UInt64)
    (hh : TagText hTag) (hbh : TagText bh) :
    forall tag, tag ∈ baseTags domain selector t hTag bh -> Written tag := by
  intro tag htag
  rcases forall_baseTags (fun _ h => h) hdomain hselector t hh hbh tag htag with
    ⟨hname, hequals, hother, hvalue⟩
  refine ⟨?_, hequals, hother⟩
  rw [tagText_eq]
  exact hname.append hvalue

theorem solid_of_mem_utf8 (h : SolidText text) (hx : x ∈ utf8 text) :
    isWsp x = false ∧ x ≠ cr ∧ x ≠ lf ∧ x ≠ semicolon := by
  have hascii : forall y : UInt8, y.toNat < 128 -> x = y -> asciiChar y ∈ text := by
    intro y hy heq
    rw [heq] at hx
    exact mem_of_mem_utf8 hy hx
  refine ⟨?_, ?_, ?_, ?_⟩
  · apply Bool.eq_false_iff.mpr
    intro hwsp
    rcases Bool.or_eq_true_iff.mp hwsp with hb | hb
    · exact absurd (h _ (hascii _ (by decide) (eq_of_beq hb))).2 (by decide)
    · exact absurd (h _ (hascii _ (by decide) (eq_of_beq hb))).2 (by decide)
  · intro hcr
    exact absurd (h _ (hascii cr (by decide) hcr)).2 (by decide)
  · intro hlf
    exact absurd (h _ (hascii lf (by decide) hlf)).2 (by decide)
  · intro hsemicolon
    exact (h _ (hascii semicolon (by decide) hsemicolon)).1 rfl

theorem bare_utf8 (h : SolidText text) : bare (utf8 text) = utf8 text := by
  have hbytes : forall b : Bytes, (forall x, x ∈ b -> isWsp x = false ∧ x ≠ cr) ->
      bare b = b := by
    intro b hb
    induction b with
    | nil => rfl
    | cons x b ih =>
        rcases hb x List.mem_cons_self with ⟨hwsp, hcr⟩
        rw [bare_cons (fun heq => absurd heq hcr), hwsp, if_neg Bool.false_ne_true,
          ih (List.forall_mem_cons.mp hb).2]
  exact hbytes _ (fun x hx => ⟨(solid_of_mem_utf8 h hx).1, (solid_of_mem_utf8 h hx).2.1⟩)

theorem joined_parts {texts : List Str} (h : forall text, text ∈ texts -> TagText text)
    (hne : texts ≠ []) :
    (bare (utf8 ("; ".toList.intercalate texts))).splitOn semicolon = texts.map utf8 := by
  induction texts with
  | nil => exact absurd rfl hne
  | cons text texts ih =>
      have htext := h text List.mem_cons_self
      have hfree : semicolon ∉ utf8 text :=
        fun hmem => (solid_of_mem_utf8 htext.solid hmem).2.2.2 rfl
      cases texts with
      | nil =>
          rw [List.intercalate_singleton, bare_utf8 htext.solid, List.splitOn_eq_singleton hfree]
          rfl
      | cons second texts =>
          have hrest := ih (List.forall_mem_cons.mp h).2
            (List.cons_ne_nil second texts)
          have hspace : forall rest, bare (0x20 :: rest) = bare rest :=
            fun rest => bare_cons (fun heq => nomatch heq)
          have hsep : utf8 "; ".toList = [semicolon, 0x20] := by decide +kernel
          rw [List.intercalate_cons_cons, utf8_append, utf8_append, hsep, List.append_assoc,
            List.cons_append, List.cons_append, List.nil_append, bare_append_semicolon, hspace,
            bare_utf8 htext.solid,
            List.splitOn_append_cons_self_of_not_mem hfree, hrest]
          rfl

theorem tagText_of_mem_base (hdomain : TagText domain) (hselector : TagText selector)
    (t : UInt64) (hh : TagText hTag) (hbh : TagText bh) :
    forall text, text ∈ (baseTags domain selector t hTag bh).map tagText ++
      [tagText (bName, [])] -> TagText text := by
  intro text htext
  rcases List.mem_append.mp htext with htext | htext
  · rcases List.mem_map.mp htext with ⟨tag, htag, rfl⟩
    exact (written_baseTags hdomain hselector t hh hbh tag htag).text
  · rw [List.mem_singleton.mp htext]
    decide

theorem base_parts (hdomain : TagText domain) (hselector : TagText selector) (t : UInt64)
    (hh : TagText hTag) (hbh : TagText bh) :
    (bare (utf8 (headerBase domain selector t hTag bh))).splitOn semicolon =
      (baseTags domain selector t hTag bh).map (fun tag => utf8 (tagText tag)) ++
        [emptiedTag] := by
  rw [headerBase_eq, joined_parts (tagText_of_mem_base hdomain hselector t hh hbh)
    (List.append_ne_nil_of_right_ne_nil _ (List.cons_ne_nil _ _)), List.map_append, List.map_map,
    <- utf8_bName]
  rfl

theorem le_of_mem_separator : forall c, c ∈ "; ".toList -> 0x20 <= c.toNat := by
  have hall : "; ".toList.all (fun c => decide (0x20 <= c.toNat)) = true := by decide
  exact fun c hc => of_decide_eq_true (List.all_eq_true.mp hall c hc)

theorem cr_not_mem_base (hdomain : TagText domain) (hselector : TagText selector) (t : UInt64)
    (hh : TagText hTag) (hbh : TagText bh) : cr ∉ utf8 (headerBase domain selector t hTag bh) := by
  intro hmem
  have hchar := mem_of_mem_utf8 (by decide) hmem
  have hall : forall c, c ∈ headerBase domain selector t hTag bh -> 0x20 <= c.toNat := by
    rw [headerBase_eq]
    apply forall_mem_intercalate
    · exact le_of_mem_separator
    · intro text htext c hc
      exact Nat.le_of_lt (tagText_of_mem_base hdomain hselector t hh hbh text htext c hc).1
  exact absurd (hall _ hchar) (by decide)

end Dkim
end Gateway
end Ephor
