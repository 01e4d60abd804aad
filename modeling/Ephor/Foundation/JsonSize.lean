import Ephor.Foundation.Json

/-!
# The size of JSON texts

A text is measured by the sum of what its characters weigh: their code units, or their bytes
in UTF-8.  In either measure an ASCII character weighs one, and a string grows by its
escapes when it is quoted.
-/

namespace Ephor
namespace Foundation
namespace Json

open WebText

def textSize (weight : Char -> Nat) (text : List Char) : Nat :=
  (text.map weight).sum

def WeighsAscii (weight : Char -> Nat) : Prop :=
  forall c : Char, c.toNat < 0x80 -> weight c = 1

def unitWeight (c : Char) : Nat :=
  (units c).length

/-- What a code point weighs between quotation marks. -/
def pointSize (weight : Char -> Nat) : CodePoint -> Nat
  | Sum.inl c =>
      if (shortEscape c).isSome then 2 else if c.toNat < 0x20 then 6 else weight c
  | Sum.inr _ => 6

def quotedSize (weight : Char -> Nat) (s : JsString) : Nat :=
  ((codePoints s).map (pointSize weight)).sum + 2

theorem weighsAscii_unitWeight : WeighsAscii unitWeight := by
  intro c hc
  rw [unitWeight, units, if_pos (Nat.lt_trans hc (by decide))]
  rfl

theorem weighsAscii_utf8Size : WeighsAscii Char.utf8Size := by
  intro c hc
  rw [<- String.length_utf8EncodeChar, Text.utf8EncodeChar_ascii hc]
  rfl

theorem length_ofText (text : List Char) : (ofText text).length = textSize unitWeight text := by
  rw [ofText, List.length_flatMap]
  rfl

theorem length_utf8 (text : List Char) : (Text.utf8 text).length = textSize Char.utf8Size text := by
  rw [Text.utf8, List.length_flatMap, textSize]
  simp only [String.length_utf8EncodeChar]

section Measure

variable {weight : Char -> Nat}

@[simp] theorem textSize_nil : textSize weight [] = 0 :=
  rfl

@[simp] theorem textSize_cons (c : Char) (text : List Char) :
    textSize weight (c :: text) = weight c + textSize weight text :=
  List.sum_cons

@[simp] theorem textSize_append (text more : List Char) :
    textSize weight (text ++ more) = textSize weight text + textSize weight more := by
  rw [textSize, List.map_append, List.sum_append]
  rfl

theorem ascii_hexDigit : forall d, d < 16 -> (hexDigit d).toNat < 0x80 := by
  decide

theorem textSize_unicodeEscape (h : WeighsAscii weight) (u : UInt16) :
    textSize weight (unicodeEscape u) = 6 := by
  have hsize := u.toNat_lt
  have hdigit : forall d, d < 16 -> weight (hexDigit d) = 1 :=
    fun d hd => h _ (ascii_hexDigit d hd)
  simp only [unicodeEscape, textSize_cons, textSize_nil]
  rw [h '\\' (by decide), h 'u' (by decide), hdigit _ (by omega), hdigit _ (by omega),
    hdigit _ (by omega), hdigit _ (by omega)]

theorem ascii_shortEscape {c e : Char} (h : shortEscape c = some e) : e.toNat < 0x80 := by
  rw [shortEscape] at h
  split_ifs at h
  all_goals
    cases h
    decide

theorem textSize_quotePoint (h : WeighsAscii weight) (p : CodePoint) :
    textSize weight (quotePoint p) = pointSize weight p := by
  cases p with
  | inr u => exact textSize_unicodeEscape h u
  | inl c =>
      rw [quotePoint, pointSize]
      cases hshort : shortEscape c with
      | some e =>
          simp only [textSize_cons, textSize_nil]
          rw [h '\\' (by decide), h e (ascii_shortEscape hshort)]
          rfl
      | none =>
          by_cases hcontrol : c.toNat < 0x20
          · simp only [if_pos hcontrol]
            exact textSize_unicodeEscape h _
          · simp only [if_neg hcontrol]
            rfl

theorem textSize_quote (h : WeighsAscii weight) (s : JsString) :
    textSize weight (quote s) = quotedSize weight s := by
  have hpoints : forall points : List CodePoint,
      textSize weight (points.flatMap quotePoint) = (points.map (pointSize weight)).sum := by
    intro points
    induction points with
    | nil => rfl
    | cons p points ih =>
        rw [List.flatMap_cons, textSize_append, textSize_quotePoint h, ih, List.map_cons,
          List.sum_cons]
  rw [quote, textSize_cons, textSize_append, textSize_cons, textSize_nil, hpoints,
    h '"' (by decide), quotedSize]
  omega

def memberSize (weight : Char -> Nat) (numerals : Numerals) (member : JsString × Value) : Nat :=
  quotedSize weight member.1 + textSize weight (stringify numerals member.2) + 2

theorem textSize_tailText (h : WeighsAscii weight) (numerals : Numerals)
    (members : List (JsString × Value)) :
    textSize weight (tailText numerals members) =
      (members.map (memberSize weight numerals)).sum + 1 := by
  induction members with
  | nil => exact h '}' (by decide)
  | cons member rest ih =>
      rw [tailText_cons, List.map_cons, List.sum_cons]
      simp only [textSize_cons, textSize_append, ih, textSize_quote h]
      rw [h ',' (by decide), h ':' (by decide), memberSize]
      omega

theorem textSize_object (h : WeighsAscii weight) (numerals : Numerals)
    (first : JsString × Value) (rest : List (JsString × Value)) :
    textSize weight (stringify numerals (Value.object (first :: rest))) =
      ((first :: rest).map (memberSize weight numerals)).sum + 1 := by
  rw [stringify_object, List.map_cons, List.sum_cons]
  simp only [textSize_cons, textSize_append, textSize_tailText h, textSize_quote h]
  rw [h '{' (by decide), h ':' (by decide), memberSize]
  omega

end Measure

/-!
# Strings without escapes
-/

/-- A printable ASCII character other than the quotation mark and the backslash. -/
def isPlain (u : UInt16) : Bool :=
  0x20 <= u.toNat && u.toNat < 0x80 && u != 0x22 && u != 0x5C

set_option maxRecDepth 4000 in
theorem shortEscape_plain : forall n, n < 0x80 -> 0x20 <= n -> n ≠ 0x22 -> n ≠ 0x5C ->
    shortEscape (Char.ofNat n) = none := by
  decide

theorem pointSize_plain {weight : Char -> Nat} (h : WeighsAscii weight) {u : UInt16}
    (hplain : isPlain u = true) : isHigh u = false ∧ pointSize weight (single u) = 1 := by
  simp only [isPlain, Bool.and_eq_true, decide_eq_true_eq, bne_iff_ne, ne_eq] at hplain
  rcases hplain with ⟨⟨⟨hprint, hascii⟩, hquote⟩, hslash⟩
  have hquoteNat : u.toNat ≠ 0x22 := fun hu => hquote (UInt16.toNat_inj.mp hu)
  have hslashNat : u.toNat ≠ 0x5C := fun hu => hslash (UInt16.toNat_inj.mp hu)
  have hhigh : isHigh u = false := by
    simp only [isHigh, Bool.and_eq_false_iff, decide_eq_false_iff_not]
    omega
  have hlow : isLow u = false := by
    simp only [isLow, Bool.and_eq_false_iff, decide_eq_false_iff_not]
    omega
  have hnat : (Char.ofNat u.toNat).toNat = u.toNat :=
    toNat_ofNat_char (Or.inl (Nat.lt_trans hascii (by decide)))
  refine ⟨hhigh, ?_⟩
  rw [single, hhigh, hlow]
  change (if (shortEscape (Char.ofNat u.toNat)).isSome then 2
    else if (Char.ofNat u.toNat).toNat < 0x20 then 6 else weight (Char.ofNat u.toNat)) = 1
  rw [shortEscape_plain _ hascii hprint hquoteNat hslashNat, hnat, Option.isSome_none,
    if_neg Bool.false_ne_true, if_neg (Nat.not_lt.mpr hprint), h _ (hnat.symm ▸ hascii)]

theorem quotedSize_plain {weight : Char -> Nat} (h : WeighsAscii weight) {s : JsString}
    (hplain : forall u, u ∈ s -> isPlain u = true) : quotedSize weight s = s.length + 2 := by
  have hpoints : ((codePoints s).map (pointSize weight)).sum = s.length := by
    induction s with
    | nil => rfl
    | cons u rest ih =>
        have hu := pointSize_plain h (hplain u List.mem_cons_self)
        rw [codePoints_cons hu.1, List.map_cons, List.sum_cons, hu.2,
          ih (List.forall_mem_cons.mp hplain).2, List.length_cons, Nat.add_comm]
  rw [quotedSize, hpoints]

set_option maxRecDepth 4000 in
theorem isPlain_letter : forall v, v < 64 -> isPlain (letter v) = true := by
  decide

theorem isPlain_btoa {b : Bytes} {u : UInt16} (hu : u ∈ btoa b) : isPlain u = true := by
  rcases List.mem_append.mp hu with hletter | hpad
  · rcases List.mem_map.mp hletter with ⟨v, hv, rfl⟩
    exact isPlain_letter v (Base64.toSextets_lt v hv)
  · rw [List.eq_of_mem_replicate hpad]
    decide

end Json
end Foundation
end Ephor
