import Ephor.Foundation.TextLines
import Ephor.Gateway.Outbound

/-!
# The envelope of an outbound message

`header_addr` of `pier-gateway/src/outbound_tcp.rs`: the transport is given the bytes of a message
only and reads the addresses of its envelope back from the headers, one line at a time.
-/

namespace Ephor
namespace Gateway
namespace Outbound

open Foundation
open Foundation.Text

def isAngle (c : Char) : Bool :=
  c == '<' || c == '>'

/-- The first word with an `@`, without the brackets at its ends. -/
def wordAddr (v : Str) : Option Str :=
  ((splitWhitespace v).find? fun tok => tok.contains '@').map fun tok =>
    (tok.dropWhile isAngle).rdropWhile isAngle

def valueAddr (v : Str) : Option Str :=
  match v.idxOf? '<', rfind '>' v with
  | some l, some r => if l < r then some (trim ((v.take r).drop (l + 1))) else wordAddr v
  | _, _ => wordAddr v

/-- What a line gives: nothing unless it is a header of the name. -/
def lineAddr (name line : Str) : Option Str :=
  (splitOnce ':' line).bind fun (h, v) =>
    if eqIgnoreCase (trim h) name then valueAddr (trim v) else none

def headerAddr (message : Bytes) (name : Str) : Option Str :=
  let headEnd := (Dkim.findBlankLine message).getD message.length
  let head := fromUtf8Lossy (message.take headEnd)
  (crlfLines head).findSome? (lineAddr name)

/-- The arguments of `MAIL FROM` and `RCPT TO`. -/
structure Envelope where
  mailFrom : Str
  rcptTo : Str
deriving DecidableEq

/-- The envelope `try_run` derives; without an address in `To` there is none. -/
def envelope (message : Bytes) : Option Envelope :=
  (headerAddr message "to".toList).map fun rcptTo =>
    ⟨(headerAddr message "from".toList).getD "<>".toList, rcptTo⟩

/-!
# Brackets

Both the renderer and the transport cut at the first `<` and the last `>`.
-/

variable {tail text front inner : Str}

theorem rfind_append {c : Char} (h : c ∉ tail) (front : Str) :
    rfind c (front ++ c :: tail) = some front.length := by
  have hreverse : c ∉ tail.reverse := fun hmem => h (List.mem_reverse.mp hmem)
  have hindex : (front ++ c :: tail).reverse.idxOf? c = some tail.length := by
    rw [List.reverse_append, List.reverse_cons, List.append_assoc, List.singleton_append,
      idxOf?_piece hreverse, List.length_reverse]
  rw [rfind, hindex, Option.map_some, List.length_append, List.length_cons]
  congr 1
  omega

theorem rfind_eq_none {c : Char} (h : c ∉ text) : rfind c text = none := by
  rw [rfind, Option.map_eq_none_iff, List.idxOf?_eq_none_iff]
  exact fun hmem => h (List.mem_reverse.mp hmem)

/-- The text in brackets, and what is around them. -/
structure Cut (text front inner tail : Str) : Prop where
  text_eq : text = front ++ '<' :: (inner ++ '>' :: tail)
  opens : '<' ∉ front
  closes : '>' ∉ tail

theorem Cut.first (h : Cut text front inner tail) : text.idxOf? '<' = some front.length := by
  rw [h.text_eq]
  exact idxOf?_piece h.opens _

theorem Cut.last (h : Cut text front inner tail) :
    rfind '>' text = some (front.length + 1 + inner.length) := by
  have htext : text = (front ++ '<' :: inner) ++ '>' :: tail := by
    rw [h.text_eq, List.append_assoc, List.cons_append]
  rw [htext, rfind_append h.closes, List.length_append, List.length_cons]
  congr 1
  omega

theorem Cut.take_drop (h : Cut text front inner tail) :
    (text.take (front.length + 1 + inner.length)).drop (front.length + 1) = inner := by
  have htext : text = (front ++ ['<']) ++ (inner ++ '>' :: tail) := by
    rw [h.text_eq, List.append_assoc, List.singleton_append]
  have hlength : front.length + 1 = (front ++ ['<']).length := by
    rw [List.length_append, List.length_singleton]
  rw [htext, hlength, List.take_length_add_append, List.drop_left, List.take_left]

/-- A `<` with a `>` after it. -/
def Bracketed (text : Str) : Prop :=
  ['<', '>'].Sublist text

instance (text : Str) : Decidable (Bracketed text) :=
  inferInstanceAs (Decidable (['<', '>'].Sublist text))

theorem exists_cut (h : Bracketed text) : exists front inner tail, Cut text front inner tail := by
  have hopen : '<' ∈ text := h.subset List.mem_cons_self
  rcases List.eq_append_cons_of_mem hopen with ⟨front, rest, htext, hfront⟩
  have hclose : '>' ∈ rest := by
    have hsub : ['<', '>'].Sublist (front ++ '<' :: rest) := htext ▸ h
    clear htext h hopen
    induction front with
    | nil => exact List.singleton_sublist.mp (List.cons_sublist_cons.mp hsub)
    | cons c front ih =>
        rcases List.ne_and_not_mem_of_not_mem_cons hfront with ⟨hc, hmore⟩
        apply ih hmore
        cases hsub with
        | cons _ hsub => exact hsub
        | cons_cons _ _ => exact absurd rfl hc
  cases hsplit : rsplitOnce '>' rest with
  | none => exact absurd hclose (rsplitOnce_eq_none.mp hsplit)
  | some parts =>
      refine ⟨front, parts.1, parts.2, ?_, hfront, not_mem_of_rsplitOnce hsplit⟩
      rw [htext, <- rsplitOnce_eq_some hsplit]

theorem not_lt_of_not_bracketed (h : ¬ Bracketed text) {l r : Nat}
    (hl : text.idxOf? '<' = some l) (hr : rfind '>' text = some r) : ¬ l < r := by
  have hopen : '<' ∈ text := by
    apply Decidable.byContradiction
    intro hnot
    rw [List.idxOf?_eq_none_iff.mpr hnot] at hl
    cases hl
  rcases List.eq_append_cons_of_mem hopen with ⟨front, rest, rfl, hfront⟩
  have hrest : '>' ∉ '<' :: rest := by
    intro hmem
    rcases List.mem_cons.mp hmem with heq | hmem
    · cases heq
    · have hclose : ['>'].Sublist rest := List.singleton_sublist.mpr hmem
      exact h ((List.Sublist.cons_cons '<' hclose).trans (List.sublist_append_right front _))
  rw [idxOf?_piece hfront] at hl
  cases hl
  by_cases hclose : '>' ∈ front
  · cases hsplit : rsplitOnce '>' front with
    | none => exact absurd hclose (rsplitOnce_eq_none.mp hsplit)
    | some parts =>
        have hbehind : '>' ∉ parts.2 ++ '<' :: rest := fun hmem =>
          (List.mem_append.mp hmem).elim (not_mem_of_rsplitOnce hsplit) hrest
        have hfront := rsplitOnce_eq_some hsplit
        rw [hfront, List.append_assoc, List.cons_append, rfind_append hbehind] at hr
        cases hr
        rw [hfront, List.length_append]
        omega
  · have hnone : '>' ∉ front ++ '<' :: rest := fun hmem =>
      (List.mem_append.mp hmem).elim hclose hrest
    rw [rfind_eq_none hnone] at hr
    cases hr

/-- What `splitAddress` makes of the text in front of the brackets. -/
def nameOf (front : Str) : Option Str :=
  let name := trim (trimMatches '"' (trim front))
  if name.isEmpty then none else some name

theorem splitAddress_cut {raw front inner tail : Str} (h : Cut raw front inner tail) :
    splitAddress raw = (nameOf front, trim inner) := by
  have hlt : front.length < front.length + 1 + inner.length := by omega
  have hfront : raw.take front.length = front := by
    rw [h.text_eq, List.take_left]
  rw [splitAddress, h.first, h.last]
  dsimp only
  rw [if_pos hlt, h.take_drop, hfront]
  rfl

theorem splitAddress_uncut {raw : Str} (h : ¬ Bracketed raw) : splitAddress raw = (none, raw) := by
  unfold splitAddress
  split
  · rename_i l r hl hr
    rw [if_neg (not_lt_of_not_bracketed h hl hr)]
  · rfl

theorem valueAddr_cut {v front inner tail : Str} (h : Cut v front inner tail) :
    valueAddr v = some (trim inner) := by
  have hlt : front.length < front.length + 1 + inner.length := by omega
  rw [valueAddr, h.first, h.last]
  dsimp only
  rw [if_pos hlt, h.take_drop]

theorem valueAddr_uncut {v : Str} (h : ¬ Bracketed v) : valueAddr v = wordAddr v := by
  unfold valueAddr
  split
  · rename_i l r hl hr
    rw [if_neg (not_lt_of_not_bracketed h hl hr)]
  · rfl

/-!
# Values
-/

theorem wordAddr_eq_none {v : Str} (h : '@' ∉ v) : wordAddr v = none := by
  rw [wordAddr, Option.map_eq_none_iff, List.find?_eq_none]
  intro tok htok hat
  exact h (mem_of_mem_splitWhitespace htok (List.contains_iff_mem.mp hat)).1

theorem valueAddr_eq_none {v : Str} (hopen : '<' ∉ v) (hat : '@' ∉ v) : valueAddr v = none := by
  have huncut : ¬ Bracketed v := fun h => hopen (h.subset List.mem_cons_self)
  rw [valueAddr_uncut huncut, wordAddr_eq_none hat]

theorem trim_angle (front spec : Str) :
    trim (front ++ '<' :: (spec ++ ['>'])) =
      front.dropWhile isWhiteSpace ++ '<' :: (spec ++ ['>']) := by
  apply trim_front front (List.cons_ne_nil _ _)
  · intro c hc
    cases hc
    decide
  · intro c hc
    rw [<- List.cons_append, List.getLast?_concat] at hc
    cases hc
    decide

theorem valueAddr_angle {front : Str} (hfront : '<' ∉ front) (spec : Str) :
    valueAddr (trim (front ++ '<' :: (spec ++ ['>']))) = some (trim spec) := by
  have hopens : '<' ∉ front.dropWhile isWhiteSpace :=
    fun hmem => hfront ((List.dropWhile_suffix _).mem hmem)
  rw [trim_angle]
  exact valueAddr_cut ⟨rfl, hopens, List.not_mem_nil⟩

/-- One word with an `@` and no bracket at either end. -/
structure Word (v : Str) : Prop where
  at_mem : '@' ∈ v
  solid : forall c, c ∈ v -> isWhiteSpace c = false
  opens : forall c, c ∈ v.head? -> isAngle c = false
  closes : forall c, c ∈ v.getLast? -> isAngle c = false

theorem wordAddr_eq_self {v : Str} : wordAddr v = some v <-> Word v := by
  constructor
  · intro h
    rcases Option.map_eq_some_iff.mp h with ⟨tok, hfound, htok⟩
    have hmem := List.mem_of_find?_eq_some hfound
    have hat : '@' ∈ v := by
      apply Decidable.byContradiction
      intro hnot
      rw [wordAddr_eq_none hnot] at h
      cases h
    have hsolid : forall c, c ∈ v -> isWhiteSpace c = false := by
      intro c hc
      rw [<- htok] at hc
      have hword := (List.dropWhile_suffix _).mem ((List.rdropWhile_prefix _ _).mem hc)
      exact (mem_of_mem_splitWhitespace hmem hword).2
    rw [splitWhitespace_word (List.ne_nil_of_mem hat) hsolid, List.mem_singleton] at hmem
    rw [hmem] at htok
    exact ⟨hat, hsolid, (ends_of_drop htok).1, (ends_of_drop htok).2⟩
  · intro h
    have hne : v ≠ [] := List.ne_nil_of_mem h.at_mem
    have hat : v.contains '@' = true := List.contains_iff_mem.mpr h.at_mem
    rw [wordAddr, splitWhitespace_word hne h.solid, List.find?_cons, hat]
    simp only [Option.map_some]
    rw [dropWhile_of_head h.opens, rdropWhile_of_last h.closes]

theorem valueAddr_eq_self {v : Str} : valueAddr v = some v <-> ¬ Bracketed v ∧ Word v := by
  by_cases hcut : Bracketed v
  · rcases exists_cut hcut with ⟨front, inner, tail, hcut'⟩
    constructor
    · intro h
      rw [valueAddr_cut hcut'] at h
      have hlength := congrArg List.length (Option.some.inj h)
      have hshort : (trim inner).length <= inner.length :=
        ((List.rdropWhile_prefix _ _).length_le).trans (List.dropWhile_suffix _).length_le
      rw [hcut'.text_eq, List.length_append, List.length_cons, List.length_append] at hlength
      omega
    · exact fun h => absurd hcut h.1
  · rw [valueAddr_uncut hcut, wordAddr_eq_self]
    exact ⟨fun h => ⟨hcut, h⟩, fun h => h.2⟩

end Outbound
end Gateway
end Ephor
