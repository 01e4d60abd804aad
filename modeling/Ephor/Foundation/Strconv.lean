import Ephor.Foundation.Text

/-!
# Numbers as texts

`strconv` in base 10: the decimal texts of unsigned and signed 64-bit integers, and the
unsigned integer that a text spells.
-/

namespace Ephor
namespace Foundation
namespace Strconv

def decimal (n : Nat) : Bytes :=
  Text.utf8 (Nat.toDigits 10 n)

def formatUint (n : UInt64) : Bytes :=
  decimal n.toNat

def formatInt (n : Int64) : Bytes :=
  if n < 0 then 0x2D :: decimal n.toInt.natAbs else decimal n.toInt.natAbs

def isDigit (c : UInt8) : Bool :=
  0x30 <= c && c <= 0x39

def digitsValue (s : Bytes) : Nat :=
  s.foldl (fun n c => n * 10 + (c - 0x30).toNat) 0

def parseUint (s : Bytes) : Option UInt64 :=
  if s ≠ [] ∧ s.all isDigit = true ∧ digitsValue s < 2 ^ 64 then
    some (UInt64.ofNat (digitsValue s))
  else
    none

/-!
# A decimal text spells its number
-/

theorem decimal_injective {n k : Nat} (h : decimal n = decimal k) : n = k := by
  have hdigits := Text.utf8_injective h
  rw [<- Nat.ofDigitChars_ten_toDigits (n := n), hdigits, Nat.ofDigitChars_ten_toDigits]

theorem minus_not_mem_decimal (n : Nat) : 0x2D ∉ decimal n := by
  intro h
  have hmem := Text.mem_of_mem_utf8 (by decide) h
  have hdigit := Nat.isDigit_of_mem_toDigits (by decide) (by decide) hmem
  revert hdigit
  decide

theorem formatInt_injective {n k : Int64} (h : formatInt n = formatInt k) : n = k := by
  have hsign : forall m : Int64, m < 0 <-> m.toInt < 0 := fun m => Int64.lt_iff_toInt_lt
  apply Int64.toInt_inj.mp
  unfold formatInt at h
  simp only [hsign] at h
  split at h
  · split at h
    · injection h with _ habs
      have hsame := decimal_injective habs
      omega
    · have hminus : 0x2D ∈ decimal k.toInt.natAbs := by
        rw [<- h]
        exact List.mem_cons_self
      exact absurd hminus (minus_not_mem_decimal _)
  · split at h
    · have hminus : 0x2D ∈ decimal n.toInt.natAbs := by
        rw [h]
        exact List.mem_cons_self
      exact absurd hminus (minus_not_mem_decimal _)
    · have hsame := decimal_injective h
      omega

end Strconv
end Foundation
end Ephor
