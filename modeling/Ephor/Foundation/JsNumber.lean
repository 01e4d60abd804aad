import Mathlib.Algebra.Group.Nat.Defs
import Mathlib.Data.Nat.Log

/-!
# Whole numbers in double precision

A JavaScript number keeps 53 bits of a whole number.  A larger one is rounded to the
nearest number that has as many, and of two equally near ones to the even one.  As a
text it is the shortest decimal that rounds to it.
-/

namespace Ephor
namespace Foundation
namespace JsNumber

/-- The distance between neighbouring numbers of the size of `v`. -/
def spacing (v : Nat) : Nat :=
  2 ^ (Nat.log2 v - 52)

/-- `Number` of a whole number. -/
def round (v : Nat) : Nat :=
  let q := v / spacing v
  let r := v % spacing v
  if spacing v < 2 * r ∨ (2 * r = spacing v ∧ q % 2 = 1) then
    (q + 1) * spacing v
  else
    q * spacing v

/-- The nearest multiple of a power of ten that rounds to `x`, with as many zeros as can be. -/
def shortestFrom (x : Nat) : Nat -> Nat
  | 0 => x
  | zeros + 1 =>
      let low := x / 10 ^ (zeros + 1) * 10 ^ (zeros + 1)
      let high := low + 10 ^ (zeros + 1)
      if round low = x ∧ (round high = x -> x - low <= high - x) then
        low
      else if round high = x then
        high
      else
        shortestFrom x zeros

def text (x : Nat) : String :=
  toString (shortestFrom x 20)

example : shortestFrom (round (2 ^ 64 - 1)) 20 = 18446744073709552000 := by decide +kernel

theorem round_of_lt {v : Nat} (h : v < 2 ^ 53) : round v = v := by
  have hlog : Nat.log2 v - 52 = 0 := by
    by_cases hzero : v = 0
    · rw [hzero]
      rfl
    · have hlt := (Nat.log2_lt hzero).mpr h
      omega
  have hspacing : spacing v = 1 := by rw [spacing, hlog, Nat.pow_zero]
  rw [round, hspacing, Nat.div_one, Nat.mod_one, if_neg (by omega), Nat.mul_one]

theorem two_pow_le_round {v : Nat} (h : 2 ^ 53 <= v) : 2 ^ 52 <= round v := by
  have hne : v ≠ 0 := by omega
  have hlow := Nat.log2_self_le hne
  have hlog : 53 <= Nat.log2 v := (Nat.le_log2 hne).mpr h
  have hspacing : 2 * spacing v <= v := by
    refine le_trans ?_ hlow
    rw [spacing, <- Nat.pow_succ']
    exact Nat.pow_le_pow_right (by decide) (by omega)
  have hpos : 0 < spacing v := Nat.two_pow_pos _
  have hmod : v % spacing v < spacing v := Nat.mod_lt v hpos
  have hdiv : v / spacing v * spacing v + v % spacing v = v := Nat.div_add_mod' v _
  have hfloor : 2 ^ 52 <= v / spacing v * spacing v := by omega
  unfold round
  dsimp only
  split
  · rw [Nat.add_one_mul]
    omega
  · exact hfloor

theorem round_eq_or (v : Nat) : round v = v ∨ 2 ^ 52 <= round v ∧ 2 ^ 52 <= v := by
  by_cases h : v < 2 ^ 53
  · exact Or.inl (round_of_lt h)
  · exact Or.inr ⟨two_pow_le_round (by omega), by omega⟩

end JsNumber
end Foundation
end Ephor
