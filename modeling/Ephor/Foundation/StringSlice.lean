import Ephor.Foundation.Text

/-!
# Slices at byte offsets

Rust slices a string at byte offsets.  An offset past the end or inside a character makes the
slicing operator panic, while `get` returns nothing.  A text whose first bytes are ASCII can be
sliced within them, and its decoding keeps them as they are.
-/

namespace Ephor
namespace Foundation
namespace Text

/-- `&text[..n]`; nothing where it panics. -/
def sliceTo : Nat -> List Char -> Option (List Char)
  | 0, _ => some []
  | _ + 1, [] => none
  | n + 1, c :: text =>
      if c.utf8Size <= n + 1 then (sliceTo (n + 1 - c.utf8Size) text).map (List.cons c) else none

/-- `text.get(n..)`. -/
def sliceFrom : Nat -> List Char -> Option (List Char)
  | 0, text => some text
  | _ + 1, [] => none
  | n + 1, c :: text =>
      if c.utf8Size <= n + 1 then sliceFrom (n + 1 - c.utf8Size) text else none

theorem utf8_cons (c : Char) (text : List Char) :
    utf8 (c :: text) = String.utf8EncodeChar c ++ utf8 text :=
  rfl

theorem sliceTo_eq_some {n : Nat} {text piece : List Char} :
    sliceTo n text = some piece <->
      (utf8 piece).length = n ∧ exists rest, text = piece ++ rest := by
  induction text generalizing n piece with
  | nil =>
      cases n with
      | zero =>
          constructor
          · intro h
            cases h
            exact ⟨rfl, [], rfl⟩
          · intro h
            rw [utf8_eq_nil.mp (List.length_eq_zero_iff.mp h.1)]
            rfl
      | succ n =>
          constructor
          · intro h
            cases h
          · intro h
            rcases h with ⟨hlength, rest, hrest⟩
            rw [(List.append_eq_nil_iff.mp hrest.symm).1] at hlength
            cases hlength
  | cons c text ih =>
      cases n with
      | zero =>
          constructor
          · intro h
            cases h
            exact ⟨rfl, c :: text, rfl⟩
          · intro h
            rw [utf8_eq_nil.mp (List.length_eq_zero_iff.mp h.1)]
            rfl
      | succ n =>
          have hsize := String.length_utf8EncodeChar c
          rw [sliceTo]
          constructor
          · intro h
            split at h
            · rename_i hfits
              rcases Option.map_eq_some_iff.mp h with ⟨more, hmore, hpiece⟩
              rcases ih.mp hmore with ⟨hlength, rest, hrest⟩
              subst hpiece
              rw [utf8_cons, List.length_append, hsize]
              exact ⟨by omega, rest, by rw [hrest, List.cons_append]⟩
            · cases h
          · intro h
            rcases h with ⟨hlength, rest, hrest⟩
            cases piece with
            | nil => cases hlength
            | cons c' more =>
                rw [List.cons_append, List.cons.injEq] at hrest
                rcases hrest with ⟨hc, htext⟩
                subst hc
                rw [utf8_cons, List.length_append, hsize] at hlength
                rw [if_pos (by omega), ih.mpr ⟨by omega, rest, htext⟩]
                rfl

/-!
## ASCII at the front
-/

theorem fromUtf8Lossy_ascii {x : UInt8} (hx : x.toNat < 128) (rest : Bytes) :
    fromUtf8Lossy (x :: rest) = asciiChar x :: fromUtf8Lossy rest := by
  have hbytes : utf8 [asciiChar x] = [x] := by
    have hmap := utf8_ascii (b := [x]) (by simpa using hx)
    exact hmap
  have happend := fromUtf8Lossy_append [asciiChar x] rest
  rw [hbytes] at happend
  exact happend

theorem eq_cons_of_fromUtf8Lossy {b : Bytes} {c : Char} {text : List Char} (hc : c.toNat < 128)
    (h : fromUtf8Lossy b = c :: text) :
    exists rest, b = UInt8.ofNat c.toNat :: rest ∧ fromUtf8Lossy rest = text := by
  cases b with
  | nil => cases h
  | cons x rest =>
      cases hfirst : firstChar (x :: rest) with
      | none =>
          rw [fromUtf8Lossy_none hfirst, List.cons.injEq] at h
          rw [<- h.1] at hc
          exact absurd hc (by decide)
      | some first =>
          rw [fromUtf8Lossy_some hfirst, List.cons.injEq] at h
          rcases h with ⟨hfc, htext⟩
          subst hfc
          rcases firstChar_eq_some hfirst with ⟨more, hmore⟩
          have hsize : first.utf8Size = 1 := by
            rw [<- String.length_utf8EncodeChar, utf8EncodeChar_ascii hc]
            rfl
          rw [utf8EncodeChar_ascii hc] at hmore
          rw [hmore, hsize] at htext
          exact ⟨more, hmore, htext⟩

theorem head_utf8_fromUtf8Lossy {x : UInt8} (hx : x.toNat < 128) (b : Bytes) :
    (utf8 (fromUtf8Lossy b)).head? = some x <-> b.head? = some x := by
  constructor
  · intro h
    cases htext : fromUtf8Lossy b with
    | nil =>
        rw [htext] at h
        cases h
    | cons c text =>
        rw [htext, utf8_cons] at h
        have hmem : x ∈ String.utf8EncodeChar c := by
          cases hencoded : String.utf8EncodeChar c with
          | nil =>
              have hlength := String.length_utf8EncodeChar c
              have hpos := c.utf8Size_pos
              rw [hencoded, List.length_nil] at hlength
              omega
          | cons y more =>
              rw [hencoded, List.cons_append, List.head?_cons] at h
              cases h
              exact List.mem_cons_self
        by_cases hlow : c.toNat < 128
        · rcases eq_cons_of_fromUtf8Lossy hlow htext with ⟨rest, hb, -⟩
          rw [utf8EncodeChar_ascii hlow, List.mem_singleton] at hmem
          rw [hb, hmem]
          rfl
        · exact absurd hx (Nat.not_lt.mpr (le_of_mem_utf8EncodeChar hlow hmem))
  · intro h
    cases b with
    | nil => cases h
    | cons y rest =>
        cases h
        rw [fromUtf8Lossy_ascii hx, utf8_cons, utf8EncodeChar_ascii]
        · rw [toNat_asciiChar hx, UInt8.ofNat_toNat]
          rfl
        · rw [toNat_asciiChar hx]
          exact hx

end Text
end Foundation
end Ephor
