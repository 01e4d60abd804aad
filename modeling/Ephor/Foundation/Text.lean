import Mathlib.Data.List.DropRight
import Ephor.Foundation.Bytes

/-!
# Text

The string functions that the sources use, on lists of characters: the white space that
Go's `strings.TrimSpace` and Rust's `str::trim` cut off (both follow Unicode's
`White_Space` property), splitting at a character, and the two directions of UTF-8.
-/

namespace Ephor
namespace Foundation
namespace Text

def isWhiteSpace (c : Char) : Bool :=
  (0x09 <= c.toNat && c.toNat <= 0x0D) || c.toNat == 0x20 || c.toNat == 0x85 ||
    c.toNat == 0xA0 || c.toNat == 0x1680 ||
    (0x2000 <= c.toNat && c.toNat <= 0x200A) || c.toNat == 0x2028 ||
    c.toNat == 0x2029 || c.toNat == 0x202F || c.toNat == 0x205F || c.toNat == 0x3000

/-- Without the white space at both ends. -/
def trim (text : List Char) : List Char :=
  (text.dropWhile isWhiteSpace).rdropWhile isWhiteSpace

/-- `to_ascii_uppercase`; `Char.toUpper` changes the letters a to z only. -/
def upper (text : List Char) : List Char :=
  text.map Char.toUpper

/-- `to_ascii_lowercase`; `Char.toLower` changes the letters A to Z only. -/
def lower (text : List Char) : List Char :=
  text.map Char.toLower

/-- `eq_ignore_ascii_case`. -/
def eqIgnoreCase (a b : List Char) : Bool :=
  upper a == upper b

def splitOnce (c : Char) : List Char -> Option (List Char × List Char)
  | [] => none
  | x :: text =>
      if x = c then
        some ([], text)
      else
        (splitOnce c text).map fun parts => (x :: parts.1, parts.2)

def rsplitOnce (c : Char) (text : List Char) : Option (List Char × List Char) :=
  (splitOnce c text.reverse).map fun parts => (parts.2.reverse, parts.1.reverse)

/-- `split_whitespace`: the longest pieces without white space. -/
def splitWhitespace (text : List Char) : List (List Char) :=
  (text.splitOnP isWhiteSpace).filter fun word => !word.isEmpty

def stripPrefix (start text : List Char) : Option (List Char) :=
  if start.isPrefixOf text then some (text.drop start.length) else none

def stripSuffix (ending text : List Char) : Option (List Char) :=
  if ending.isSuffixOf text then some (text.take (text.length - ending.length)) else none

/-- The value of the decimal digits, if there is one at least and nothing else. -/
def digitsValue : List Char -> Option Nat
  | [] => none
  | digits =>
      if digits.all Char.isDigit then
        some (digits.foldl (fun n c => n * 10 + (c.toNat - '0'.toNat)) 0)
      else
        none

/-- `str::parse` to an unsigned type with the given largest value: a plus sign may stand
before the digits. -/
def parseUnsigned (largest : Nat) (text : List Char) : Option Nat :=
  let digits := match text with
    | '+' :: rest => rest
    | _ => text
  (digitsValue digits).filter fun n => n <= largest

/-!
# Trimming and letter case

Trimming looks at white space only, and no letter is white space in either case.
-/

variable {c : Char} {x : UInt8} {b : Bytes} {p : Char -> Bool} {text before after : List Char}
    {α : Type} {sep : α} {piece : List α}

theorem isWhiteSpace_of_letter (hlow : 65 <= c.toNat) (hhigh : c.toNat <= 122) :
    isWhiteSpace c = false := by
  simp [isWhiteSpace]
  omega

theorem isAlphanum_bounds (h : c.isAlphanum = true) :
    0x30 <= c.toNat ∧ c.toNat <= 0x7A ∧ c.toNat ≠ 0x3B := by
  have hcases : ((decide ('A'.val <= c.val ∧ c.val <= 'Z'.val) ||
      (decide ('a'.val <= c.val) && decide (c.val <= 'z'.val))) ||
      (decide ('0'.val <= c.val) && decide (c.val <= '9'.val))) = true := h
  simp only [Bool.or_eq_true, Bool.and_eq_true, decide_eq_true_eq, UInt32.le_iff_toNat_le]
    at hcases
  have hnat : c.toNat = c.val.toNat := rfl
  rcases hcases with (⟨hlow, hhigh⟩ | ⟨hlow, hhigh⟩) | ⟨hlow, hhigh⟩
  · have hlow : 65 <= c.val.toNat := hlow
    have hhigh : c.val.toNat <= 90 := hhigh
    omega
  · have hlow : 97 <= c.val.toNat := hlow
    have hhigh : c.val.toNat <= 122 := hhigh
    omega
  · have hlow : 48 <= c.val.toNat := hlow
    have hhigh : c.val.toNat <= 57 := hhigh
    omega

theorem toNat_shifted {first last : Char} {shift : UInt32}
    {valid : forall c : Char, first.val <= c.val ∧ c.val <= last.val ->
      (c.val + shift).isValidChar} (c : Char) :
    (if h : first.val <= c.val ∧ c.val <= last.val then
        (⟨c.val + shift, valid c h⟩ : Char) else c).toNat =
      if first.toNat <= c.toNat ∧ c.toNat <= last.toNat then (c.toNat + shift.toNat) % 2 ^ 32
      else c.toNat := by
  by_cases h : first.val <= c.val ∧ c.val <= last.val
  · rw [dif_pos h, if_pos ⟨UInt32.le_iff_toNat_le.mp h.1, UInt32.le_iff_toNat_le.mp h.2⟩]
    exact UInt32.toNat_add c.val shift
  · rw [dif_neg h, if_neg]
    intro hrange
    exact h ⟨UInt32.le_iff_toNat_le.mpr hrange.1, UInt32.le_iff_toNat_le.mpr hrange.2⟩

theorem toNat_toUpper (c : Char) :
    c.toUpper.toNat = if 97 <= c.toNat ∧ c.toNat <= 122 then c.toNat - 32 else c.toNat := by
  refine (toNat_shifted c).trans (ite_congr rfl ?_ fun _ => rfl)
  intro h
  change 97 <= c.toNat ∧ c.toNat <= 122 at h
  change (c.toNat + 4294967264) % 2 ^ 32 = c.toNat - 32
  omega

theorem toNat_toLower (c : Char) :
    c.toLower.toNat = if 65 <= c.toNat ∧ c.toNat <= 90 then c.toNat + 32 else c.toNat := by
  refine (toNat_shifted c).trans (ite_congr rfl ?_ fun _ => rfl)
  intro h
  change 65 <= c.toNat ∧ c.toNat <= 90 at h
  change (c.toNat + 32) % 2 ^ 32 = c.toNat + 32
  omega

theorem isWhiteSpace_toUpper (c : Char) : isWhiteSpace c.toUpper = isWhiteSpace c := by
  have hupper := toNat_toUpper c
  by_cases hletter : 97 <= c.toNat ∧ c.toNat <= 122
  · rw [if_pos hletter] at hupper
    rw [isWhiteSpace_of_letter (c := c) (by omega) hletter.2,
      isWhiteSpace_of_letter (by omega) (by omega)]
  · rw [if_neg hletter] at hupper
    rw [isWhiteSpace, isWhiteSpace, hupper]

theorem isWhiteSpace_toLower (c : Char) : isWhiteSpace c.toLower = isWhiteSpace c := by
  have hlower := toNat_toLower c
  by_cases hletter : 65 <= c.toNat ∧ c.toNat <= 90
  · rw [if_pos hletter] at hlower
    rw [isWhiteSpace_of_letter (c := c) hletter.1 (by omega),
      isWhiteSpace_of_letter (by omega) (by omega)]
  · rw [if_neg hletter] at hlower
    rw [isWhiteSpace, isWhiteSpace, hlower]

theorem toLower_eq_iff {x : Char} (hx : x.toNat < 65) : c.toLower = x <-> c = x := by
  have hlower := toNat_toLower c
  constructor
  · intro h
    apply Char.ext
    apply UInt32.toNat_inj.mp
    show c.toNat = x.toNat
    rw [h] at hlower
    split at hlower <;> omega
  · intro h
    apply Char.ext
    apply UInt32.toNat_inj.mp
    show c.toLower.toNat = x.toNat
    rw [h] at hlower ⊢
    rw [hlower, if_neg (by omega)]

theorem toLower_eq_of_toUpper_eq {a b : Char} (h : a.toUpper = b.toUpper) :
    a.toLower = b.toLower := by
  have hnat := congrArg Char.toNat h
  rw [toNat_toUpper, toNat_toUpper] at hnat
  apply Char.ext
  apply UInt32.toNat_inj.mp
  show a.toLower.toNat = b.toLower.toNat
  rw [toNat_toLower, toNat_toLower]
  split at hnat <;> split at hnat <;> split <;> split <;> omega

theorem lower_eq_of_eqIgnoreCase {a b : List Char} (h : eqIgnoreCase a b = true) :
    lower a = lower b := by
  have hupper : upper a = upper b := eq_of_beq h
  rw [upper, upper] at hupper
  rw [lower, lower]
  induction a generalizing b with
  | nil =>
      rw [List.map_nil, eq_comm, List.map_eq_nil_iff] at hupper
      rw [hupper]
  | cons x a ih =>
      cases b with
      | nil => cases hupper
      | cons y b =>
          injection hupper with hx hrest
          rw [List.map_cons, List.map_cons, toLower_eq_of_toUpper_eq hx,
            ih (beq_iff_eq.mpr hrest) hrest]

theorem lower_lower (text : List Char) : lower (lower text) = lower text := by
  have hchar : Char.toLower ∘ Char.toLower = Char.toLower := by
    funext c
    apply Char.ext
    apply UInt32.toNat_inj.mp
    show c.toLower.toLower.toNat = c.toLower.toNat
    rw [toNat_toLower c.toLower, if_neg]
    rw [toNat_toLower]
    split <;> omega
  rw [lower, lower, List.map_map, hchar]

theorem map_dropEnds {f : Char -> Char} {q : Char -> Bool} (hp : p ∘ f = p) (hq : q ∘ f = q)
    (text : List Char) :
    ((text.dropWhile p).rdropWhile q).map f = ((text.map f).dropWhile p).rdropWhile q := by
  rw [List.rdropWhile, List.rdropWhile, List.dropWhile_map, hp, <- List.map_reverse,
    List.dropWhile_map, hq, List.map_reverse]

theorem upper_trim (text : List Char) : upper (trim text) = trim (upper text) := by
  have hcomp : isWhiteSpace ∘ Char.toUpper = isWhiteSpace :=
    funext isWhiteSpace_toUpper
  exact map_dropEnds hcomp hcomp text

theorem lower_trim (text : List Char) : lower (trim text) = trim (lower text) := by
  have hcomp : isWhiteSpace ∘ Char.toLower = isWhiteSpace :=
    funext isWhiteSpace_toLower
  exact map_dropEnds hcomp hcomp text

theorem dropWhile_of_head (h : forall c, c ∈ text.head? -> p c = false) :
    text.dropWhile p = text := by
  cases text with
  | nil => rfl
  | cons c text => rw [List.dropWhile_cons_of_neg (ne_true_of_eq_false (h c rfl))]

theorem rdropWhile_of_last (h : forall c, c ∈ text.getLast? -> p c = false) :
    text.rdropWhile p = text := by
  apply List.rdropWhile_eq_self_iff.mpr
  intro hne
  exact ne_true_of_eq_false (h _ (List.getLast_mem_getLast? hne))

theorem trim_of_ends (hfirst : forall c, c ∈ text.head? -> isWhiteSpace c = false)
    (hlast : forall c, c ∈ text.getLast? -> isWhiteSpace c = false) : trim text = text := by
  rw [trim, dropWhile_of_head hfirst, rdropWhile_of_last hlast]

theorem rdropWhile_append (front : List Char) {tail : List Char} (h : tail.rdropWhile p ≠ []) :
    (front ++ tail).rdropWhile p = front ++ tail.rdropWhile p := by
  have hne : (tail.reverse.dropWhile p).isEmpty = false := by
    rw [Bool.eq_false_iff]
    intro hempty
    apply h
    rw [List.rdropWhile, List.isEmpty_iff.mp hempty]
    rfl
  rw [List.rdropWhile, List.reverse_append, List.dropWhile_append, hne]
  simp [List.rdropWhile]

theorem mem_getLast?_append {front tail : List Char} (h : c ∈ (front ++ tail).getLast?) :
    c ∈ tail.getLast? ∨ c ∈ front.getLast? := by
  rw [List.getLast?_append] at h
  rcases Option.or_eq_some_iff.mp h with htail | ⟨_, hfront⟩
  · exact Or.inl htail
  · exact Or.inr hfront

theorem dropPrefix?_append (front rest : List Char) :
    (front ++ rest).dropPrefix? front = some rest := by
  induction front with
  | nil => rw [List.nil_append, List.dropPrefix?]
  | cons c front ih =>
      rw [List.cons_append, List.dropPrefix?, if_pos (beq_self_eq_true c)]
      exact ih

theorem trim_trim (text : List Char) : trim (trim text) = trim text := by
  have hstart : (trim text).dropWhile isWhiteSpace = trim text := by
    rw [List.dropWhile_eq_self_iff]
    intro hpos
    have hdrop := List.rdropWhile_prefix isWhiteSpace (text.dropWhile isWhiteSpace)
    have hlen : 0 < (text.dropWhile isWhiteSpace).length := lt_of_lt_of_le hpos hdrop.length_le
    have hget : (trim text)[0] = (text.dropWhile isWhiteSpace)[0] := hdrop.getElem hpos
    rw [hget]
    exact List.dropWhile_get_zero_not isWhiteSpace text hlen
  calc trim (trim text)
      = (trim text).rdropWhile isWhiteSpace := by rw [trim, hstart]
    _ = trim text := List.rdropWhile_idempotent _ _

def bareText (text : List Char) : List Char :=
  text.filter fun c => !isWhiteSpace c

theorem bareText_dropWhile (text : List Char) :
    bareText (text.dropWhile isWhiteSpace) = bareText text := by
  induction text with
  | nil => rfl
  | cons c text ih =>
      rw [List.dropWhile_cons]
      split
      · rename_i hc
        have hdropped : ¬ (!isWhiteSpace c) = true := by
          rw [hc]
          exact Bool.false_ne_true
        rw [ih, bareText, bareText, List.filter_cons, if_neg hdropped]
      · rfl

theorem bareText_trim (text : List Char) : bareText (trim text) = bareText text := by
  have hreverse : forall other : List Char, bareText other.reverse = (bareText other).reverse :=
    fun _ => List.filter_reverse
  rw [trim, List.rdropWhile, hreverse, bareText_dropWhile, hreverse, List.reverse_reverse,
    bareText_dropWhile]

/-!
# Pieces between separators
-/

theorem pieces_induction (sep : α) {motive : List α -> Prop}
    (last : forall piece, sep ∉ piece -> motive piece)
    (more : forall piece rest, sep ∉ piece -> motive rest -> motive (piece ++ sep :: rest))
    (xs : List α) : motive xs := by
  induction hlength : xs.length using Nat.strong_induction_on generalizing xs with
  | _ n ih =>
      by_cases hmem : sep ∈ xs
      · rcases List.eq_append_cons_of_mem hmem with ⟨piece, rest, rfl, hpiece⟩
        apply more piece rest hpiece
        apply ih rest.length _ rest rfl
        rw [<- hlength, List.length_append, List.length_cons]
        omega
      · exact last xs hmem

theorem mem_of_mem_splitOn [DecidableEq α] {x : α} {xs : List α}
    (hpiece : piece ∈ xs.splitOn sep) (hx : x ∈ piece) : x ∈ xs := by
  induction xs using pieces_induction sep with
  | last xs h =>
      rw [List.splitOn_eq_singleton h, List.mem_singleton] at hpiece
      rw [<- hpiece]
      exact hx
  | more first rest h ih =>
      rw [List.splitOn_append_cons_self_of_not_mem h] at hpiece
      rcases List.mem_cons.mp hpiece with rfl | hpiece
      · exact List.mem_append_left _ hx
      · exact List.mem_append_right _ (List.mem_cons_of_mem sep (ih hpiece))

theorem sep_not_mem_of_mem_splitOn [DecidableEq α] {xs : List α}
    (hpiece : piece ∈ xs.splitOn sep) : sep ∉ piece := by
  induction xs using pieces_induction sep with
  | last xs h =>
      rw [List.splitOn_eq_singleton h, List.mem_singleton] at hpiece
      rw [hpiece]
      exact h
  | more first rest h ih =>
      rw [List.splitOn_append_cons_self_of_not_mem h] at hpiece
      rcases List.mem_cons.mp hpiece with rfl | hpiece
      · exact h
      · exact ih hpiece

theorem splitOn_eq_one [DecidableEq α] {text : List α} (h : text.splitOn sep = [piece]) :
    text = piece := by
  cases text using pieces_induction sep with
  | last text hmem =>
      rw [List.splitOn_eq_singleton hmem] at h
      exact (List.cons.inj h).1
  | more first rest hmem _ =>
      rw [List.splitOn_append_cons_self_of_not_mem hmem] at h
      exact absurd (List.cons.inj h).2 (List.splitOn_ne_nil sep rest)

theorem splitOn_eq_two [DecidableEq α] {text first second : List α}
    (h : text.splitOn sep = [first, second]) :
    text = first ++ sep :: second ∧ sep ∉ first ∧ sep ∉ second := by
  cases text using pieces_induction sep with
  | last text hmem =>
      rw [List.splitOn_eq_singleton hmem] at h
      cases (List.cons.inj h).2
  | more piece rest hmem _ =>
      rw [List.splitOn_append_cons_self_of_not_mem hmem] at h
      rcases List.cons.inj h with ⟨hpiece, hrest⟩
      have hsecond : sep ∉ second := by
        cases rest using pieces_induction sep with
        | last rest hnone =>
            rw [List.splitOn_eq_singleton hnone] at hrest
            rw [<- (List.cons.inj hrest).1]
            exact hnone
        | more other more hother _ =>
            rw [List.splitOn_append_cons_self_of_not_mem hother] at hrest
            exact absurd (List.cons.inj hrest).2 (List.splitOn_ne_nil sep more)
      rw [<- hpiece, splitOn_eq_one hrest]
      exact ⟨rfl, hmem, hsecond⟩

theorem idxOf?_piece [DecidableEq α] (h : sep ∉ piece) (rest : List α) :
    (piece ++ sep :: rest).idxOf? sep = some piece.length := by
  induction piece with
  | nil => rw [List.nil_append, List.idxOf?_cons, if_pos (beq_self_eq_true sep), List.length_nil]
  | cons x piece ih =>
      rcases List.ne_and_not_mem_of_not_mem_cons h with ⟨hx, hpiece⟩
      rw [List.cons_append, List.idxOf?_cons, beq_false_of_ne (Ne.symm hx),
        if_neg Bool.false_ne_true, ih hpiece, List.length_cons, Option.map_some]

theorem piece_inj {piece' rest rest' : List α} (hpiece : sep ∉ piece) (hpiece' : sep ∉ piece')
    (h : piece ++ sep :: rest = piece' ++ sep :: rest') : piece = piece' ∧ rest = rest' := by
  induction piece generalizing piece' with
  | nil =>
      cases piece' with
      | nil =>
          injection h with _ hrest
          exact ⟨rfl, hrest⟩
      | cons y piece' =>
          injection h with hy _
          exact absurd (hy ▸ List.mem_cons_self) hpiece'
  | cons x piece ih =>
      cases piece' with
      | nil =>
          injection h with hx _
          exact absurd (hx ▸ List.mem_cons_self) hpiece
      | cons y piece' =>
          injection h with hxy htail
          rcases ih (List.not_mem_of_not_mem_cons hpiece) (List.not_mem_of_not_mem_cons hpiece')
            htail with ⟨heq, hrest⟩
          exact ⟨by rw [hxy, heq], hrest⟩

theorem stripPrefix_eq_some {start rest : List Char} (h : stripPrefix start text = some rest) :
    text = start ++ rest := by
  unfold stripPrefix at h
  split at h
  · rename_i hstart
    cases h
    exact (List.prefix_iff_eq_append.mp (List.isPrefixOf_iff_prefix.mp hstart)).symm
  · cases h

theorem stripPrefix_eq_none {start : List Char} (h : stripPrefix start text = none) :
    Not (start <+: text) := by
  intro hstart
  unfold stripPrefix at h
  rw [if_pos (List.isPrefixOf_iff_prefix.mpr hstart)] at h
  cases h

theorem splitOnce_eq_some (h : splitOnce c text = some (before, after)) :
    text = before ++ c :: after ∧ c ∉ before := by
  induction text generalizing before with
  | nil => cases h
  | cons x text ih =>
      rw [splitOnce] at h
      split at h
      · rename_i hx
        cases h
        rw [hx]
        exact ⟨rfl, List.not_mem_nil⟩
      · rename_i hx
        rcases Option.map_eq_some_iff.mp h with ⟨parts, hparts, hpair⟩
        cases hpair
        rcases ih hparts with ⟨htext, hnot⟩
        refine ⟨by rw [htext]; rfl, ?_⟩
        exact List.not_mem_cons_of_ne_of_not_mem (Ne.symm hx) hnot

theorem splitOnce_append {front : List Char} (h : c ∉ front) (text : List Char) :
    splitOnce c (front ++ text) =
      (splitOnce c text).map fun parts => (front ++ parts.1, parts.2) := by
  induction front with
  | nil =>
      change splitOnce c text = (splitOnce c text).map id
      rw [Option.map_id]
      rfl
  | cons x front ih =>
      rcases List.ne_and_not_mem_of_not_mem_cons h with ⟨hx, hfront⟩
      rw [List.cons_append, splitOnce, if_neg (Ne.symm hx), ih hfront, Option.map_map]
      rfl

theorem splitOnce_piece (h : c ∉ before) (after : List Char) :
    splitOnce c (before ++ c :: after) = some (before, after) := by
  rw [splitOnce_append h, splitOnce, if_pos rfl, Option.map_some, List.append_nil]

theorem splitOnce_eq_none : splitOnce c text = none <-> c ∉ text := by
  constructor
  · intro h hmem
    rcases List.eq_append_cons_of_mem hmem with ⟨before, after, htext, hbefore⟩
    rw [htext, splitOnce_piece hbefore] at h
    cases h
  · intro h
    rw [<- List.append_nil text, splitOnce_append h]
    rfl

theorem rsplitOnce_append {tail : List Char} (h : c ∉ tail) (text : List Char) :
    rsplitOnce c (text ++ tail) =
      (rsplitOnce c text).map fun parts => (parts.1, parts.2 ++ tail) := by
  have hreverse : c ∉ tail.reverse := fun hmem => h (List.mem_reverse.mp hmem)
  rw [rsplitOnce, rsplitOnce, List.reverse_append, splitOnce_append hreverse, Option.map_map,
    Option.map_map]
  congr 1
  funext parts
  simp

theorem splitOnce_map {f : Char -> Char} (hf : forall x, f x = c <-> x = c) (text : List Char) :
    splitOnce c (text.map f) =
      (splitOnce c text).map fun parts => (parts.1.map f, parts.2.map f) := by
  induction text with
  | nil => rfl
  | cons x text ih =>
      rw [List.map_cons, splitOnce, splitOnce]
      by_cases hx : x = c
      · rw [if_pos hx, if_pos ((hf x).mpr hx)]
        rfl
      · rw [if_neg hx, if_neg (fun h => hx ((hf x).mp h)), ih, Option.map_map, Option.map_map]
        rfl

theorem rsplitOnce_map {f : Char -> Char} (hf : forall x, f x = c <-> x = c) (text : List Char) :
    rsplitOnce c (text.map f) =
      (rsplitOnce c text).map fun parts => (parts.1.map f, parts.2.map f) := by
  rw [rsplitOnce, rsplitOnce, <- List.map_reverse, splitOnce_map hf, Option.map_map,
    Option.map_map]
  congr 1
  funext parts
  simp

theorem rsplitOnce_eq_some (h : rsplitOnce c text = some (before, after)) :
    text = before ++ c :: after := by
  rcases Option.map_eq_some_iff.mp h with ⟨parts, hparts, hpair⟩
  cases hpair
  have htext := (splitOnce_eq_some hparts).1
  rw [<- List.reverse_reverse text, htext, List.reverse_append, List.reverse_cons,
    List.append_assoc]
  rfl

theorem not_mem_of_rsplitOnce (h : rsplitOnce c text = some (before, after)) : c ∉ after := by
  rcases Option.map_eq_some_iff.mp h with ⟨parts, hparts, hpair⟩
  cases hpair
  intro hmem
  exact (splitOnce_eq_some hparts).2 (List.mem_reverse.mp hmem)

theorem rsplitOnce_cons (before : List Char) (h : c ∉ after) :
    rsplitOnce c (before ++ c :: after) = some (before, after) := by
  have hreverse : c ∉ after.reverse := fun hmem => h (List.mem_reverse.mp hmem)
  rw [rsplitOnce, List.reverse_append, List.reverse_cons, List.append_assoc,
    splitOnce_append hreverse, List.singleton_append, splitOnce, if_pos rfl]
  simp

theorem rsplitOnce_eq_none : rsplitOnce c text = none <-> c ∉ text := by
  rw [rsplitOnce, Option.map_eq_none_iff, splitOnce_eq_none, List.mem_reverse]

theorem suffix_iff_of_rsplitOnce {piece : List Char}
    (h : rsplitOnce c text = some (before, after)) (hpiece : c ∉ piece) :
    c :: piece <:+ text <-> after = piece := by
  constructor
  · intro hsuffix
    rcases hsuffix with ⟨front, htext⟩
    rw [<- htext, rsplitOnce_cons front hpiece] at h
    cases h
    rfl
  · intro hafter
    rw [rsplitOnce_eq_some h, hafter]
    exact List.suffix_append before _

theorem forall_mem_intercalate {P : α -> Prop} {sep : List α} (hsep : forall x, x ∈ sep -> P x)
    {pieces : List (List α)} (h : forall piece, piece ∈ pieces -> forall x, x ∈ piece -> P x) :
    forall x, x ∈ sep.intercalate pieces -> P x := by
  induction pieces with
  | nil => exact fun _ hx => absurd hx List.not_mem_nil
  | cons piece pieces ih =>
      have hpiece := h piece List.mem_cons_self
      have hrest := ih (List.forall_mem_cons.mp h).2
      cases pieces with
      | nil =>
          rw [List.intercalate_singleton]
          exact hpiece
      | cons second pieces =>
          intro x hx
          rw [List.intercalate_cons_cons] at hx
          rcases List.mem_append.mp hx with hx | hx
          · rcases List.mem_append.mp hx with hx | hx
            · exact hpiece x hx
            · exact hsep x hx
          · exact hrest x hx

/-!
# UTF-8
-/

/-- `str::as_bytes`. -/
def utf8 (text : List Char) : Bytes :=
  text.flatMap String.utf8EncodeChar

def bytesOf (s : String) : Bytes :=
  s.toUTF8.data.toList

def firstChar (b : Bytes) : Option Char :=
  ByteArray.utf8DecodeChar? ⟨b.toArray⟩ 0

/-- The second bytes that may follow a first one of three or four. -/
def secondByte (first second : UInt8) : Bool :=
  if first = 0xE0 then 0xA0 <= second && second <= 0xBF
  else if first = 0xED then 0x80 <= second && second <= 0x9F
  else if first = 0xF0 then 0x90 <= second && second <= 0xBF
  else if first = 0xF4 then 0x80 <= second && second <= 0x8F
  else 0x80 <= second && second <= 0xBF

/-- How many bytes one replacement character stands for: the longest start of a
character, and at least one byte. -/
def invalidLength : Bytes -> Nat
  | first :: second :: third :: _ =>
      if 0xE0 <= first && first <= 0xF4 && secondByte first second then
        if 0xF0 <= first && 0x80 <= third && third <= 0xBF then 3 else 2
      else
        1
  | [first, second] =>
      if 0xE0 <= first && first <= 0xF4 && secondByte first second then 2 else 1
  | _ => 1

def replacement : Char := '\uFFFD'

/-- `String::from_utf8_lossy` of at most `fuel` characters. -/
def lossyChars : Nat -> Bytes -> List Char
  | 0, _ => []
  | _ + 1, [] => []
  | fuel + 1, b =>
      match firstChar b with
      | some c => c :: lossyChars fuel (b.drop c.utf8Size)
      | none => replacement :: lossyChars fuel (b.drop (invalidLength b))

/-- `String::from_utf8_lossy`: every byte is part of one character at most. -/
def fromUtf8Lossy (b : Bytes) : List Char :=
  lossyChars b.length b

/-- `str::from_utf8` of at most `fuel` characters. -/
def strictChars : Nat -> Bytes -> Option (List Char)
  | _, [] => some []
  | 0, _ => none
  | fuel + 1, b =>
      match firstChar b with
      | some c => (strictChars fuel (b.drop c.utf8Size)).map fun text => c :: text
      | none => none

def fromUtf8 (b : Bytes) : Option (List Char) :=
  strictChars b.length b

theorem firstChar_utf8EncodeChar (c : Char) (b : Bytes) :
    firstChar (String.utf8EncodeChar c ++ b) = some c := by
  have happend : (⟨(String.utf8EncodeChar c ++ b).toArray⟩ : ByteArray) =
      (String.utf8EncodeChar c).toByteArray ++ ⟨b.toArray⟩ := by
    apply ByteArray.ext
    simp
  rw [firstChar, happend]
  exact ByteArray.utf8DecodeChar?_utf8EncodeChar_append

theorem invalidLength_pos (b : Bytes) : 0 < invalidLength b := by
  fun_cases invalidLength b <;> omega

theorem lossyChars_of_le {fuel : Nat} (h : b.length <= fuel) :
    lossyChars fuel b = lossyChars b.length b := by
  induction fuel using Nat.strong_induction_on generalizing b with
  | _ fuel ih =>
      cases b with
      | nil => cases fuel <;> rfl
      | cons x rest =>
          rcases Nat.exists_eq_add_of_le' (show 1 <= fuel by
            rw [List.length_cons] at h; omega) with ⟨fuel, rfl⟩
          have hdrop : forall n, 0 < n ->
              lossyChars fuel ((x :: rest).drop n) =
                lossyChars rest.length ((x :: rest).drop n) := by
            intro n hn
            have hlength := List.length_drop (i := n) (l := x :: rest)
            rw [List.length_cons] at h hlength
            rw [ih fuel (Nat.lt_succ_self fuel) (by omega)]
            by_cases hsmall : rest.length < fuel + 1
            · rw [ih rest.length hsmall (by omega)]
            · exact absurd h (by omega)
          rw [List.length_cons, lossyChars, lossyChars]
          · cases firstChar (x :: rest) with
            | none =>
                dsimp only
                rw [hdrop _ (invalidLength_pos _)]
            | some c =>
                dsimp only
                rw [hdrop _ c.utf8Size_pos]
          · exact List.cons_ne_nil x rest
          · exact List.cons_ne_nil x rest

theorem fromUtf8Lossy_append (text : List Char) (rest : Bytes) :
    fromUtf8Lossy (utf8 text ++ rest) = text ++ fromUtf8Lossy rest := by
  induction text with
  | nil => rfl
  | cons c text ih =>
      have hsize := String.length_utf8EncodeChar c
      have hpos := c.utf8Size_pos
      have hcons : utf8 (c :: text) ++ rest =
          String.utf8EncodeChar c ++ (utf8 text ++ rest) := by
        rw [<- List.append_assoc]
        rfl
      cases hbytes : String.utf8EncodeChar c ++ (utf8 text ++ rest) with
      | nil =>
          have hlength := congrArg List.length hbytes
          rw [List.length_append, hsize, List.length_nil] at hlength
          exact absurd hlength (by omega)
      | cons x more =>
          have hfirst : firstChar (x :: more) = some c := by
            rw [<- hbytes, firstChar_utf8EncodeChar]
          have hdrop : (x :: more).drop c.utf8Size = utf8 text ++ rest := by
            rw [<- hbytes, <- hsize, List.drop_left]
          have hfits : (utf8 text ++ rest).length <= more.length := by
            rw [<- hdrop, List.length_drop, List.length_cons]
            omega
          rw [hcons, hbytes, fromUtf8Lossy, List.length_cons, lossyChars, hfirst]
          · dsimp only
            rw [hdrop, lossyChars_of_le hfits]
            exact congrArg (List.cons c) ih
          · exact List.cons_ne_nil x more

theorem fromUtf8Lossy_utf8 (text : List Char) : fromUtf8Lossy (utf8 text) = text := by
  have happend := fromUtf8Lossy_append text []
  rw [List.append_nil] at happend
  rw [happend]
  exact List.append_nil text

theorem utf8_injective {a b : List Char} (h : utf8 a = utf8 b) : a = b := by
  rw [<- fromUtf8Lossy_utf8 a, h, fromUtf8Lossy_utf8]

theorem firstChar_eq_some (h : firstChar b = some c) :
    exists rest, b = String.utf8EncodeChar c ++ rest := by
  rcases ByteArray.exists_of_utf8DecodeChar?_eq_some h with ⟨l, hl⟩
  refine ⟨l.data.toList, ?_⟩
  have hdata := congrArg (fun a => a.data.toList) hl
  simpa using hdata

theorem utf8_eq_nil : utf8 text = [] <-> text = [] := by
  cases text with
  | nil => exact ⟨fun _ => rfl, fun _ => rfl⟩
  | cons c text =>
      constructor
      · intro h
        have hlength := congrArg List.length h
        change (String.utf8EncodeChar c ++ utf8 text).length = 0 at hlength
        rw [List.length_append, String.length_utf8EncodeChar] at hlength
        have hpos := c.utf8Size_pos
        omega
      · intro h
        cases h

theorem strictChars_eq_some {fuel : Nat} (hfuel : b.length <= fuel) :
    strictChars fuel b = some text <-> utf8 text = b := by
  induction fuel generalizing b text with
  | zero =>
      have hnil : b = [] := List.eq_nil_of_length_eq_zero (by omega)
      rw [hnil, strictChars, utf8_eq_nil, Option.some_inj, eq_comm]
  | succ fuel ih =>
      cases b with
      | nil => rw [strictChars, utf8_eq_nil, Option.some_inj, eq_comm]
      | cons x rest =>
          have hdrop : forall c : Char, ((x :: rest).drop c.utf8Size).length <= fuel := by
            intro c
            have hpos := c.utf8Size_pos
            rw [List.length_cons] at hfuel
            rw [List.length_drop, List.length_cons]
            omega
          constructor
          · intro h
            rw [strictChars] at h
            · cases hfirst : firstChar (x :: rest) with
              | none =>
                  rw [hfirst] at h
                  cases h
              | some c =>
                  rw [hfirst] at h
                  rcases Option.map_eq_some_iff.mp h with ⟨text', htext', htext⟩
                  rcases firstChar_eq_some hfirst with ⟨more, hmore⟩
                  have htail := (ih (hdrop c)).mp htext'
                  rw [hmore, <- String.length_utf8EncodeChar, List.drop_left] at htail
                  rw [<- htext, hmore, <- htail]
                  rfl
            · exact List.cons_ne_nil x rest
          · intro h
            cases text with
            | nil => cases h
            | cons c text =>
                have hbytes : x :: rest = String.utf8EncodeChar c ++ utf8 text := h.symm
                have htail : utf8 text = (x :: rest).drop c.utf8Size := by
                  rw [hbytes, <- String.length_utf8EncodeChar, List.drop_left]
                rw [strictChars]
                · rw [hbytes, firstChar_utf8EncodeChar]
                  dsimp only
                  rw [<- hbytes, (ih (hdrop c)).mpr htail]
                  rfl
                · exact List.cons_ne_nil x rest

theorem fromUtf8_eq_some : fromUtf8 b = some text <-> utf8 text = b :=
  strictChars_eq_some (Nat.le_refl b.length)

theorem utf8_append (a b : List Char) : utf8 (a ++ b) = utf8 a ++ utf8 b :=
  List.flatMap_append

/-!
# ASCII
-/

def asciiChar (b : UInt8) : Char :=
  Char.ofNat b.toNat

theorem utf8EncodeChar_ascii (h : c.toNat < 128) :
    String.utf8EncodeChar c = [UInt8.ofNat c.toNat] :=
  if_pos (Nat.le_of_lt_succ h)

theorem toNat_asciiChar {b : UInt8} (h : b.toNat < 128) : (asciiChar b).toNat = b.toNat := by
  have hvalid : b.toNat.isValidChar := Or.inl (by omega)
  rw [asciiChar, Char.ofNat, dif_pos hvalid]
  rfl

theorem utf8_ascii (h : forall x, x ∈ b -> x.toNat < 128) : utf8 (b.map asciiChar) = b := by
  induction b with
  | nil => rfl
  | cons x b ih =>
      have hx := toNat_asciiChar (h x List.mem_cons_self)
      have hlow : (asciiChar x).toNat < 128 := by
        rw [hx]
        exact h x List.mem_cons_self
      have hrest := ih (List.forall_mem_cons.mp h).2
      rw [utf8] at hrest
      rw [utf8, List.map_cons, List.flatMap_cons, utf8EncodeChar_ascii hlow, hx,
        UInt8.ofNat_toNat, hrest]
      rfl

theorem lt_of_mem_utf8 (h : forall c, c ∈ text -> c.toNat < 128) (hx : x ∈ utf8 text) :
    x.toNat < 128 := by
  rcases List.mem_flatMap.mp hx with ⟨c, hc, hmem⟩
  rw [utf8EncodeChar_ascii (h c hc)] at hmem
  have hlow := h c hc
  rw [List.mem_singleton.mp hmem, UInt8.toNat_ofNat']
  omega

theorem le_of_mem_utf8EncodeChar (hc : ¬ c.toNat < 128) (h : x ∈ String.utf8EncodeChar c) :
    128 <= x.toNat := by
  have htop : forall n, 128 <= n % 256 -> x = UInt8.ofNat n -> 128 <= x.toNat := by
    intro n hn heq
    rw [heq, UInt8.toNat_ofNat']
    exact hn
  rw [String.utf8EncodeChar] at h
  split at h
  · rename_i hle
    exact absurd (Nat.lt_succ_of_le hle) hc
  split at h
  · simp only [List.mem_cons, List.not_mem_nil, or_false] at h
    rcases h with h | h
    all_goals exact htop _ (by omega) h
  split at h
  · simp only [List.mem_cons, List.not_mem_nil, or_false] at h
    rcases h with h | h | h
    all_goals exact htop _ (by omega) h
  · simp only [List.mem_cons, List.not_mem_nil, or_false] at h
    rcases h with h | h | h | h
    all_goals exact htop _ (by omega) h

theorem mem_of_mem_utf8 (hx : x.toNat < 128) (h : x ∈ utf8 text) : asciiChar x ∈ text := by
  rcases List.mem_flatMap.mp h with ⟨c, hc, hmem⟩
  by_cases hlow : c.toNat < 128
  · rw [utf8EncodeChar_ascii hlow, List.mem_singleton] at hmem
    have hnat : x.toNat = c.toNat := by
      rw [hmem, UInt8.toNat_ofNat']
      omega
    rw [asciiChar, hnat, Char.ofNat_toNat]
    exact hc
  · exact absurd hx (Nat.not_lt.mpr (le_of_mem_utf8EncodeChar hlow hmem))

theorem map_asciiChar_utf8 (h : forall c, c ∈ text -> c.toNat < 128) :
    (utf8 text).map asciiChar = text :=
  utf8_injective (utf8_ascii (fun _ hx => lt_of_mem_utf8 h hx))

theorem length_utf8_of_ascii (h : forall c, c ∈ text -> c.toNat < 128) :
    (utf8 text).length = text.length := by
  have hmap := congrArg List.length (map_asciiChar_utf8 h)
  rw [List.length_map] at hmap
  exact hmap

theorem take_of_firstChar (h : firstChar b = some c) :
    b.take c.utf8Size = String.utf8EncodeChar c := by
  have hbytes := congrArg (fun a : ByteArray => a.data.toList)
    (String.toByteArray_utf8EncodeChar_of_utf8DecodeChar?_eq_some h)
  simp at hbytes
  exact hbytes.symm

theorem mem_of_mem_lossyChars {fuel : Nat} (hc : c.toNat < 128) (h : c ∈ lossyChars fuel b) :
    UInt8.ofNat c.toNat ∈ b := by
  induction fuel generalizing b with
  | zero => cases h
  | succ fuel ih =>
      cases b with
      | nil => cases h
      | cons x rest =>
          rw [lossyChars] at h
          · cases hfirst : firstChar (x :: rest) with
            | none =>
                rw [hfirst] at h
                rcases List.mem_cons.mp h with heq | hmem
                · rw [heq] at hc
                  exact absurd hc (by decide)
                · exact List.mem_of_mem_drop (ih hmem)
            | some first =>
                rw [hfirst] at h
                rcases List.mem_cons.mp h with heq | hmem
                · rw [<- heq] at hfirst
                  apply List.mem_of_mem_take (i := c.utf8Size)
                  rw [take_of_firstChar hfirst, utf8EncodeChar_ascii hc]
                  exact List.mem_cons_self
                · exact List.mem_of_mem_drop (ih hmem)
          · exact List.cons_ne_nil x rest

theorem length_of_firstChar (h : firstChar b = some c) : c.utf8Size <= b.length ∧ 0 < b.length := by
  rcases firstChar_eq_some h with ⟨rest, rfl⟩
  have hsize := String.length_utf8EncodeChar c
  have hpos := c.utf8Size_pos
  rw [List.length_append]
  omega

theorem lossyChars_drop {n : Nat} (hn : 0 < n) (hb : 0 < b.length) :
    lossyChars (b.length - 1) (b.drop n) = fromUtf8Lossy (b.drop n) := by
  apply lossyChars_of_le
  rw [List.length_drop]
  omega

theorem fromUtf8Lossy_some (h : firstChar b = some c) :
    fromUtf8Lossy b = c :: fromUtf8Lossy (b.drop c.utf8Size) := by
  cases b with
  | nil => exact absurd (length_of_firstChar h).2 (Nat.lt_irrefl 0)
  | cons x b =>
      rw [<- lossyChars_drop c.utf8Size_pos (length_of_firstChar h).2, fromUtf8Lossy,
        List.length_cons, lossyChars, h]
      · rfl
      · exact List.cons_ne_nil x b

theorem fromUtf8Lossy_none (h : firstChar (x :: b) = none) :
    fromUtf8Lossy (x :: b) =
      replacement :: fromUtf8Lossy ((x :: b).drop (invalidLength (x :: b))) := by
  have hpos : 0 < (x :: b).length := Nat.succ_pos b.length
  rw [<- lossyChars_drop (invalidLength_pos (x :: b)) hpos, fromUtf8Lossy, List.length_cons,
    lossyChars, h]
  · rfl
  · exact List.cons_ne_nil x b

theorem firstChar_append_ascii (hx : x.toNat < 128) {front : Bytes} (hne : front ≠ [])
    (rest : Bytes) : firstChar (front ++ x :: rest) = firstChar front := by
  cases h : firstChar front with
  | some c =>
      rcases firstChar_eq_some h with ⟨more, rfl⟩
      rw [List.append_assoc, firstChar_utf8EncodeChar]
  | none =>
      cases h' : firstChar (front ++ x :: rest) with
      | none => rfl
      | some c =>
          have hfront : forall more, front ≠ String.utf8EncodeChar c ++ more := by
            intro more heq
            rw [heq, firstChar_utf8EncodeChar] at h
            cases h
          rcases firstChar_eq_some h' with ⟨more, hmore⟩
          rcases List.append_eq_append_iff.mp hmore with ⟨inner, hencoded, htail⟩ | ⟨inner, heq, _⟩
          · cases inner with
            | nil => exact absurd (by rw [hencoded, List.append_nil, List.append_nil]) (hfront [])
            | cons y inner =>
                injection htail with hy
                have hmem : x ∈ String.utf8EncodeChar c := by
                  rw [hencoded, hy]
                  exact List.mem_append_right _ List.mem_cons_self
                by_cases hlow : c.toNat < 128
                · have hlength := congrArg List.length hencoded
                  have hpos := List.length_pos_of_ne_nil hne
                  rw [utf8EncodeChar_ascii hlow, List.length_append, List.length_singleton,
                    List.length_cons] at hlength
                  omega
                · exact absurd hx (Nat.not_lt.mpr (le_of_mem_utf8EncodeChar hlow hmem))
          · exact absurd heq (hfront inner)

theorem secondByte_ascii (hx : x.toNat < 128) (first : UInt8) : secondByte first x = false := by
  have hlow : forall y : UInt8, 128 <= y.toNat -> decide (y <= x) = false := by
    intro y hy
    apply decide_eq_false
    intro hle
    have hnat := UInt8.le_iff_toNat_le.mp hle
    omega
  have h80 := hlow 0x80 (by decide)
  have h90 := hlow 0x90 (by decide)
  have hA0 := hlow 0xA0 (by decide)
  unfold secondByte
  rw [h80, h90, hA0]
  simp

theorem invalidLength_append_ascii (hx : x.toNat < 128) {front : Bytes} (hne : front ≠ [])
    (rest : Bytes) : invalidLength (front ++ x :: rest) = invalidLength front := by
  rcases front with _ | ⟨a, _ | ⟨b, _ | ⟨c, front⟩⟩⟩
  · exact absurd rfl hne
  · cases rest with
    | nil | cons y rest => simp [invalidLength, secondByte_ascii hx]
  · have h80 : ¬ (0x80 : UInt8) <= x := by
      intro hle
      have hnat := UInt8.le_iff_toNat_le.mp hle
      exact absurd hx (Nat.not_lt.mpr hnat)
    simp [invalidLength, h80]
  · rfl

theorem invalidLength_le (h : b ≠ []) : invalidLength b <= b.length := by
  rcases b with _ | ⟨first, _ | ⟨second, _ | ⟨third, b⟩⟩⟩
  · exact absurd rfl h
  · exact Nat.le_refl 1
  · rw [invalidLength, List.length_cons, List.length_singleton]
    split <;> omega
  · rw [invalidLength, List.length_cons, List.length_cons, List.length_cons]
    repeat' split
    all_goals omega

theorem fromUtf8Lossy_append_ascii (hx : x.toNat < 128) (front rest : Bytes) :
    fromUtf8Lossy (front ++ x :: rest) = fromUtf8Lossy front ++ fromUtf8Lossy (x :: rest) := by
  induction hlength : front.length using Nat.strong_induction_on generalizing front with
  | _ length ih =>
      cases front with
      | nil => rfl
      | cons a front =>
          have hne := List.cons_ne_nil a front
          have hpos := List.length_pos_of_ne_nil hne
          have hstep : forall n, 0 < n -> n <= (a :: front).length ->
              fromUtf8Lossy ((a :: front ++ x :: rest).drop n) =
                fromUtf8Lossy ((a :: front).drop n) ++ fromUtf8Lossy (x :: rest) := by
            intro n hn hle
            rw [List.drop_append_of_le_length hle]
            apply ih _ _ _ rfl
            rw [List.length_drop]
            omega
          cases h : firstChar (a :: front) with
          | some c =>
              have happend := (firstChar_append_ascii hx hne rest).trans h
              rw [fromUtf8Lossy_some happend, fromUtf8Lossy_some h,
                hstep _ c.utf8Size_pos (length_of_firstChar h).1]
              rfl
          | none =>
              have happend := (firstChar_append_ascii hx hne rest).trans h
              have hinvalid : invalidLength (a :: (front ++ x :: rest)) =
                  invalidLength (a :: front) := invalidLength_append_ascii hx hne rest
              have hdrop := hstep _ (invalidLength_pos (a :: front)) (invalidLength_le hne)
              rw [List.cons_append] at hdrop happend
              rw [List.cons_append, fromUtf8Lossy_none happend, hinvalid, hdrop,
                fromUtf8Lossy_none h]
              rfl

end Text
end Foundation
end Ephor
