import Ephor.Keyauth.NoReplay

/-!
# What a fresh timestamp is

The guard means to accept the timestamps within the skew of the clock.  It measures the
distance with a subtraction that saturates and a negation that wraps, after a conversion
whose addition wraps as well.  This module says for which timestamps, clocks and skews the
three together are the exact distance.
-/

namespace Ephor
namespace Keyauth

open Foundation
open Foundation.GoTime

def instantOf (ts : Int64) : Int :=
  (ts.toInt + unixToInternal.toInt) * second

/-- The instant lies past the seconds that a `time.Time` counts. -/
def PastTime (ts : Int64) : Prop :=
  2 ^ 63 <= ts.toInt + unixToInternal.toInt

instance (ts : Int64) : Decidable (PastTime ts) :=
  inferInstanceAs (Decidable (_ <= _))

def distance (t u : Int) : Int :=
  (t - u).natAbs

def Guard.FreshExactly (g : Guard) (ts : Int64) (now : Int) : Prop :=
  g.freshTimestamp ts now = true ↔ 0 < ts ∧ distance now (instantOf ts) <= g.skew.toInt

/--
What the guard computes decides like the exact distance.  A skew of the largest duration lets
every positive timestamp through; with any other skew the instant must not lie so far after
the clock that the difference is the least duration, and where the conversion wraps, the clock
must be close to neither instant.
-/
def Guard.Measures (g : Guard) (ts : Int64) (now : Int) : Prop :=
  ts <= 0 ∨
    if g.skew = maxDuration then
      distance now (instantOf ts) <= g.skew.toInt
    else
      unix ts - now < 2 ^ 63 ∧
        (PastTime ts ->
          g.skew.toInt < distance now (instantOf ts) ∧ g.skew.toInt < distance now (unix ts))

theorem toInt_unixToInternal : unixToInternal.toInt = 62135596800 :=
  rfl

theorem unix_of_pastTime {ts : Int64} (h : PastTime ts) :
    unix ts = instantOf ts - 2 ^ 64 * second := by
  have hhigh := Int64.toInt_lt ts
  rw [PastTime, toInt_unixToInternal] at h
  have hsum : (ts + unixToInternal).toInt = ts.toInt + unixToInternal.toInt - 2 ^ 64 := by
    rw [Int64.toInt_add, toInt_unixToInternal, Int.bmod_eq_iff (by decide)]
    omega
  rw [unix, instantOf, hsum, Int.sub_mul]

theorem unix_of_not_pastTime {ts : Int64} (hpos : 0 < ts) (h : Not (PastTime ts)) :
    unix ts = instantOf ts := by
  have hpos' : (0 : Int) < ts.toInt := Int64.lt_iff_toInt_lt.mp hpos
  rw [PastTime, toInt_unixToInternal] at h
  have hsum : (ts + unixToInternal).toInt = ts.toInt + unixToInternal.toInt := by
    rw [Int64.toInt_add, toInt_unixToInternal]
    apply Int.bmod_eq_of_le
    · omega
    · omega
  rw [unix, instantOf, hsum]

theorem freshTimestamp_maxDuration {g : Guard} (hmax : g.skew = maxDuration) {ts : Int64}
    (hpos : 0 < ts) (now : Int) : g.freshTimestamp ts now = true := by
  have hskew : 0 < g.skew := by
    rw [hmax]
    decide
  have htop : g.skew.toInt = 2 ^ 63 - 1 := by
    rw [hmax]
    rfl
  rw [freshTimestamp_iff hskew]
  refine ⟨hpos, ?_⟩
  by_cases hbehind : unix ts <= now
  · exact Or.inr (Or.inr ⟨hmax, hbehind⟩)
  · by_cases hfar : now - unix ts <= -2 ^ 63
    · exact Or.inr (Or.inl hfar)
    · refine Or.inl ⟨?_, ?_⟩
      · omega
      · omega

/-- A verdict is exact if and only if the arithmetic is. -/
theorem freshExactly_iff_measures (g : Guard) (hskew : 0 < g.skew) (ts : Int64) (now : Int) :
    g.FreshExactly ts now ↔ g.Measures ts now := by
  by_cases hts : 0 < ts
  · have hnonpos : Not (ts <= 0) := by
      rw [Int64.le_iff_toInt_le]
      rw [Int64.lt_iff_toInt_lt] at hts
      omega
    rw [Guard.FreshExactly, Guard.Measures, or_iff_right hnonpos]
    by_cases hmax : g.skew = maxDuration
    · rw [if_pos hmax]
      simp only [freshTimestamp_maxDuration hmax hts now, hts, true_and, true_iff]
    · rw [if_neg hmax, freshTimestamp_iff hskew]
      simp only [hts, hmax, true_and, false_and, or_false, distance]
      have htop : g.skew.toInt < 2 ^ 63 := Int64.toInt_lt _
      by_cases hpast : PastTime ts
      · have hunix := unix_of_pastTime hpast
        simp only [hpast, forall_const]
        rw [second] at hunix
        omega
      · have hunix := unix_of_not_pastTime hts hpast
        simp only [hpast, false_implies, and_true]
        omega
  · have hnonpos : ts <= 0 := by
      rw [Int64.le_iff_toInt_le]
      rw [Int64.lt_iff_toInt_lt] at hts
      omega
    have hstale : g.freshTimestamp ts now = false := if_pos hnonpos
    rw [Guard.FreshExactly, Guard.Measures, or_iff_left_iff_imp.mpr fun _ => hnonpos, hstale]
    simp only [hts, hnonpos, Bool.false_eq_true, false_and]

theorem currentTimestamp_measured :
    (newGuard defaultClockSkew 0).FreshExactly 1780000000 (unix 1780000100) :=
  (freshExactly_iff_measures _ (by decide) _ _).mpr (Or.inr (by decide))

/-- A timestamp of the year 2603 is fresh in the year 2026. -/
theorem farTimestamp_fresh :
    (newGuard defaultClockSkew 0).freshTimestamp 20000000000 (unix 1780000000) = true ∧
      Not ((newGuard defaultClockSkew 0).FreshExactly 20000000000 (unix 1780000000)) := by
  have hfresh : (newGuard defaultClockSkew 0).freshTimestamp 20000000000 (unix 1780000000) =
      true := by
    decide
  refine ⟨hfresh, ?_⟩
  intro hexact
  have hclose := (hexact.mp hfresh).2
  exact absurd hclose (by decide)

end Keyauth
end Ephor
