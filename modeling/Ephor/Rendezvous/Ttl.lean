import Ephor.Rendezvous.Queue

/-!
# Requested lifetimes

`clampTTL` of the queue and `clampPresenceTTL` of the presence directory turn a number of
seconds into a duration.  Both multiply before they compare, and the product wraps at 64
bits.
-/

namespace Ephor
namespace Rendezvous

open Foundation
open Foundation.GoTime

def clampSeconds (defaultTTL maxTTL : Duration) (seconds : Int64) : Duration :=
  if seconds <= 0 then
    defaultTTL
  else
    let d := seconds * 1000000000
    if maxTTL < d then maxTTL else d

/-- The lifetimes of `queueCaps`. -/
structure TtlCaps where
  defaultTTL : Duration
  maxTTL : Duration
deriving DecidableEq

def TtlCaps.clampTTL (caps : TtlCaps) (seconds : Int64) : Duration :=
  clampSeconds caps.defaultTTL caps.maxTTL seconds

def maxPresenceTTL : Duration := 1800000000000

def defaultPresenceTTL : Duration := 300000000000

def clampPresenceTTL (seconds : Int64) : Duration :=
  clampSeconds defaultPresenceTTL maxPresenceTTL seconds

def exactTTL (seconds : Int64) : Int :=
  seconds.toInt * 1000000000

/-- The requests whose seconds fit into a duration. -/
def longestExact : Int64 := 9223372036

/-- What a clamp is to do with a request: a positive duration within the maximum, the
request itself where it is in range and the maximum where it is beyond, and no shorter
duration than for any smaller request. -/
structure ClampsRight (maxTTL : Duration) (clamp : Int64 -> Duration) (seconds : Int64) :
    Prop where
  pos : 0 < clamp seconds
  le : clamp seconds <= maxTTL
  inRange : 0 < seconds -> exactTTL seconds <= maxTTL.toInt ->
    (clamp seconds).toInt = exactTTL seconds
  beyond : maxTTL.toInt < exactTTL seconds -> clamp seconds = maxTTL
  mono : forall less, 0 < less -> less <= seconds -> clamp less <= clamp seconds

/-!
# The product
-/

variable {seconds : Int64} {defaultTTL maxTTL : Duration}

theorem toInt_product (hpos : 0 < seconds) (h : seconds <= longestExact) :
    (seconds * 1000000000).toInt = exactTTL seconds := by
  have hlow := Int64.lt_iff_toInt_lt.mp hpos
  have hhigh := Int64.le_iff_toInt_le.mp h
  have hzero : (0 : Int64).toInt = 0 := rfl
  have hlongest : longestExact.toInt = 9223372036 := rfl
  have hbillion : (1000000000 : Int64).toInt = 1000000000 := rfl
  rw [Int64.toInt_mul, hbillion, exactTTL]
  apply Int.bmod_eq_of_le
  · omega
  · omega

theorem clampSeconds_le (hdefault : defaultTTL <= maxTTL) (seconds : Int64) :
    clampSeconds defaultTTL maxTTL seconds <= maxTTL := by
  unfold clampSeconds
  split
  · exact hdefault
  · dsimp only
    split
    · exact Int64.le_refl maxTTL
    · rename_i hle
      exact Int64.not_lt.mp hle

/-!
# Requests that are clamped right
-/

theorem clampsRight_of_nonpos (hpos : 0 < defaultTTL) (hle : defaultTTL <= maxTTL)
    (h : seconds <= 0) : ClampsRight maxTTL (clampSeconds defaultTTL maxTTL) seconds := by
  have hclamp : clampSeconds defaultTTL maxTTL seconds = defaultTTL := if_pos h
  have hsign := Int64.le_iff_toInt_le.mp h
  have hmax := Int64.lt_iff_toInt_lt.mp (Int64.lt_of_lt_of_le hpos hle)
  have hzero : (0 : Int64).toInt = 0 := rfl
  have hexact : exactTTL seconds = seconds.toInt * 1000000000 := rfl
  constructor
  · rw [hclamp]
    exact hpos
  · exact clampSeconds_le hle seconds
  · intro hlt
    exact absurd hlt (Int64.not_lt.mpr h)
  · intro hbeyond
    omega
  · intro less hless hle'
    exact absurd (Int64.lt_of_lt_of_le hless hle') (Int64.not_lt.mpr h)

theorem clampsRight_of_max (hpos : 0 < defaultTTL) (hle : defaultTTL <= maxTTL)
    (hseconds : 0 < seconds) (hbeyond : maxTTL.toInt <= exactTTL seconds)
    (h : maxTTL <= seconds * 1000000000) :
    ClampsRight maxTTL (clampSeconds defaultTTL maxTTL) seconds := by
  have hclamp : clampSeconds defaultTTL maxTTL seconds = maxTTL := by
    unfold clampSeconds
    rw [if_neg (Int64.not_le.mpr hseconds)]
    dsimp only
    split
    · rfl
    · rename_i hlt
      exact Int64.le_antisymm (Int64.not_lt.mp hlt) h
  constructor
  · rw [hclamp]
    exact Int64.lt_of_lt_of_le hpos hle
  · exact clampSeconds_le hle seconds
  · intro _ hin
    rw [hclamp]
    omega
  · intro _
    exact hclamp
  · intro less _ _
    rw [hclamp]
    exact clampSeconds_le hle less

theorem clampSeconds_exact {defaultTTL maxTTL : Duration} {seconds : Int64}
    (hpos : 0 < seconds) (hlongest : seconds <= longestExact)
    (hin : exactTTL seconds <= maxTTL.toInt) :
    (clampSeconds defaultTTL maxTTL seconds).toInt = exactTTL seconds := by
  have hproduct := toInt_product hpos hlongest
  have hnotBeyond : Not (maxTTL < seconds * 1000000000) := by
    rw [Int64.lt_iff_toInt_lt, hproduct]
    omega
  unfold clampSeconds
  rw [if_neg (Int64.not_le.mpr hpos)]
  dsimp only
  rw [if_neg hnotBeyond, hproduct]

theorem clampsRight_of_exact (hle : defaultTTL <= maxTTL) (hpos : 0 < seconds)
    (hlongest : seconds <= longestExact) (hin : exactTTL seconds <= maxTTL.toInt) :
    ClampsRight maxTTL (clampSeconds defaultTTL maxTTL) seconds := by
  have hclamp := @clampSeconds_exact defaultTTL maxTTL seconds hpos hlongest hin
  have hsign := Int64.lt_iff_toInt_lt.mp hpos
  have hzero : (0 : Int64).toInt = 0 := rfl
  have hexact : exactTTL seconds = seconds.toInt * 1000000000 := rfl
  constructor
  · rw [Int64.lt_iff_toInt_lt, hclamp]
    omega
  · exact clampSeconds_le hle seconds
  · intro _ _
    exact hclamp
  · intro hbeyond
    omega
  · intro less hless hle'
    have horder := Int64.le_iff_toInt_le.mp hle'
    have hless' : exactTTL less = less.toInt * 1000000000 := rfl
    have hclampLess := @clampSeconds_exact defaultTTL maxTTL less hless
      (Int64.le_trans hle' hlongest) (by omega)
    rw [Int64.le_iff_toInt_le, hclamp, hclampLess]
    omega

/-- A request is clamped right exactly when its seconds fit into a duration, or when what
the product wraps to is no less than the maximum. -/
theorem clampsRight_iff (hpos : 0 < defaultTTL) (hle : defaultTTL <= maxTTL) (seconds : Int64) :
    ClampsRight maxTTL (clampSeconds defaultTTL maxTTL) seconds <->
      seconds <= longestExact ∨ maxTTL <= seconds * 1000000000 := by
  have hexact : exactTTL seconds = seconds.toInt * 1000000000 := rfl
  have hmax := Int64.toInt_lt maxTTL
  by_cases hseconds : 0 < seconds
  · by_cases hlongest : seconds <= longestExact
    · refine iff_of_true ?_ (Or.inl hlongest)
      by_cases hin : exactTTL seconds <= maxTTL.toInt
      · exact clampsRight_of_exact hle hseconds hlongest hin
      · apply clampsRight_of_max hpos hle hseconds (by omega)
        rw [Int64.le_iff_toInt_le, toInt_product hseconds hlongest]
        omega
    · have hlong := Int64.lt_iff_toInt_lt.mp (Int64.not_le.mp hlongest)
      have hvalue : longestExact.toInt = 9223372036 := rfl
      have hbeyond : maxTTL.toInt < exactTTL seconds := by omega
      constructor
      · intro h
        have hclamp := h.beyond hbeyond
        apply Or.inr
        unfold clampSeconds at hclamp
        rw [if_neg (Int64.not_le.mpr hseconds)] at hclamp
        dsimp only at hclamp
        split at hclamp
        · rename_i hlt
          exact Int64.le_of_lt hlt
        · exact Int64.le_of_eq hclamp.symm
      · intro h
        rcases h with hshort | hwrapped
        · exact absurd hshort hlongest
        · exact clampsRight_of_max hpos hle hseconds (Int.le_of_lt hbeyond) hwrapped
  · have hnonpos := Int64.not_lt.mp hseconds
    apply iff_of_true (clampsRight_of_nonpos hpos hle hnonpos)
    exact Or.inl (Int64.le_trans hnonpos (by decide))

theorem ttl_clamped_right_iff (caps : TtlCaps) (seconds : Int64) :
    (0 < caps.defaultTTL -> caps.defaultTTL <= caps.maxTTL ->
      (ClampsRight caps.maxTTL caps.clampTTL seconds <->
        seconds <= longestExact ∨ caps.maxTTL <= seconds * 1000000000)) ∧
      (ClampsRight maxPresenceTTL clampPresenceTTL seconds <->
        seconds <= longestExact ∨ maxPresenceTTL <= seconds * 1000000000) :=
  ⟨fun hpos hle => clampsRight_iff hpos hle seconds,
    clampsRight_iff (by decide) (by decide) seconds⟩

/-- A request of one second more gives a negative lifetime, for the mailbox and for a
presence record; a mailbox blob with it is not live when it is deposited. -/
theorem minute_clampsRight :
    ClampsRight 172800000000000 (TtlCaps.clampTTL ⟨172800000000000, 172800000000000⟩) 60 :=
  ((ttl_clamped_right_iff ⟨172800000000000, 172800000000000⟩ 60).1 (by decide) (by decide)).mpr
    (by decide)

theorem wrapped_ttl :
    Not (forall (caps : TtlCaps), 0 < caps.defaultTTL -> caps.defaultTTL <= caps.maxTTL ->
      forall seconds, ClampsRight caps.maxTTL caps.clampTTL seconds) ∧
      Not (forall seconds, ClampsRight maxPresenceTTL clampPresenceTTL seconds) ∧
      (newBlob "a" "k" [] (TtlCaps.clampTTL ⟨172800000000000, 172800000000000⟩ 9223372037) 0
        (FixedBytes.zero 10)).live 0 = false := by
  refine ⟨?_, ?_, by decide +kernel⟩
  · intro h
    have hpos := (h ⟨172800000000000, 172800000000000⟩ (by decide) (by decide) 9223372037).pos
    revert hpos
    decide +kernel
  · intro h
    have hpos := (h 9223372037).pos
    revert hpos
    decide +kernel

end Rendezvous
end Ephor
