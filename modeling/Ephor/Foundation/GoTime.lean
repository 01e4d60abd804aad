import Mathlib.Algebra.Ring.Int.Defs

/-!
# Go's clock arithmetic

Instants and durations as Go's `time` package computes with them.  An
instant is an integer, its distance in nanoseconds from the zero `time.Time`, January 1
of year 1; a duration is a signed 64-bit count of nanoseconds.  The difference
of two instants saturates at the ends of the duration range, while negating a
duration wraps, so the smallest duration is its own negation.

A `time.Time` that carries a monotonic reading is modelled by one number:
the wall clock and the monotonic clock are taken to advance together.
-/

namespace Ephor
namespace Foundation
namespace GoTime

abbrev Duration := Int64

def second : Int := 1000000000

def minute : Duration := 60000000000

def maxDuration : Duration := Int64.maxValue

def unixToInternal : Int64 := 62135596800

/-- The instant `time.Unix(sec, 0)`; the second count is an `int64`. -/
def unix (sec : Int64) : Int :=
  (sec + unixToInternal).toInt * second

def unixSeconds (t : Int) : Int64 :=
  Int64.ofInt (t / second) - unixToInternal

def unixMilli (t : Int) : Int64 :=
  unixSeconds t * 1000 + Int64.ofInt (t % second / 1000000)

/-- `t.Sub(u)`: the difference, saturated to the duration range. -/
def sub (t u : Int) : Duration :=
  Int64.ofIntClamp (t - u)

def add (t : Int) (d : Duration) : Int :=
  t + d.toInt

theorem toInt_ofIntClamp (x : Int) :
    (Int64.ofIntClamp x).toInt = max (-2 ^ 63) (min (2 ^ 63 - 1) x) := by
  unfold Int64.ofIntClamp
  split
  · split
    · rw [Int64.toInt_ofIntLE]
      have h1 : (-2 : Int) ^ 63 <= x := by assumption
      have h2 : x <= 2 ^ 63 - 1 := by assumption
      omega
    · have h2 : Not (x <= 2 ^ 63 - 1) := by assumption
      have hmax : Int64.maxValue.toInt = 2 ^ 63 - 1 := by decide
      rw [hmax]
      omega
  · have h1 : Not ((-2 : Int) ^ 63 <= x) := by assumption
    have hmin : Int64.minValue.toInt = -2 ^ 63 := by decide
    rw [hmin]
    omega

theorem toInt_sub (t u : Int) : (sub t u).toInt = max (-2 ^ 63) (min (2 ^ 63 - 1) (t - u)) :=
  toInt_ofIntClamp (t - u)

theorem toInt_neg (d : Duration) :
    (-d).toInt = if d.toInt = -2 ^ 63 then -2 ^ 63 else -d.toInt := by
  have hlow := Int64.le_toInt d
  have hhigh := Int64.toInt_lt d
  rw [Int64.toInt_neg]
  split
  · rename_i hmin
    rw [hmin]
    decide
  · rename_i hmin
    apply Int.bmod_eq_of_le
    · omega
    · omega

theorem abs_sub_le_iff (t u : Int) {bound : Duration} (hbound : 0 < bound) :
    (if sub t u < 0 then -sub t u else sub t u) <= bound <->
      (t - u <= bound.toInt ∧ u - t <= bound.toInt) ∨
        t - u <= -2 ^ 63 ∨ (bound = maxDuration ∧ u <= t) := by
  have hpos : (0 : Int) < bound.toInt := Int64.lt_iff_toInt_lt.mp hbound
  have hmax : bound = maxDuration <-> bound.toInt = 2 ^ 63 - 1 := by
    rw [<- Int64.toInt_inj]
    exact Iff.rfl
  have htop := Int64.toInt_lt bound
  have hzero : (0 : Duration).toInt = 0 := rfl
  have hsub := toInt_sub t u
  rw [hmax]
  split
  · rename_i hneg
    rw [Int64.lt_iff_toInt_lt, hzero] at hneg
    rw [Int64.le_iff_toInt_le, toInt_neg]
    split
    · constructor
      · intro _
        omega
      · intro _
        omega
    · constructor
      · intro _
        omega
      · intro _
        omega
  · rename_i hneg
    rw [Int64.lt_iff_toInt_lt, hzero] at hneg
    rw [Int64.le_iff_toInt_le]
    omega

end GoTime
end Foundation
end Ephor
