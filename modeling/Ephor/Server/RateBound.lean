import Ephor.Foundation.Amortized
import Ephor.Server.RateLimit
import Mathlib.Tactic.Linarith

/-!
# What the rate limiter lets through

A bucket that is absent is as good as a full one.  What a key may still be let through for is
its allowance: the tokens of its bucket, counted from the least a bucket can hold, and at most
`max 1 burst`.  Time adds to it at the rate, a call that is let through takes one, and only a
sweep that forgets a bucket before it is full again adds more.
-/

namespace Ephor
namespace Server
namespace RateLimit

open Foundation
open Foundation.Transition (after emitted)
open RateLimiter

variable (rl : RateLimiter)

/-- What a full bucket is good for: one call where its capacity is below one. -/
def RateLimiter.cap : Rat :=
  max 1 rl.burst

def Note.allowedIn (s t : Int) : Note -> Bool
  | .answered now allowed => allowed && s <= now && now <= t
  | _ => false

/-- A bucket forgotten in the interval before it was full again. -/
def Note.shortIn (s t : Int) : Note -> Bool
  | .forgotten now short => short && s <= now && now <= t
  | _ => false

variable {rl} {st : State} {key : Key} {now : Int} {b : TokenBucket}

/-!
## Buckets
-/

theorem seconds_sub (a c : Int) : seconds (a - c) = seconds a - seconds c := by
  rw [seconds, seconds, seconds, Int.cast_sub, sub_div]

theorem seconds_mono {a c : Int} (h : a <= c) : seconds a <= seconds c := by
  have hcast : (a : Rat) <= c := Int.cast_le.mpr h
  unfold seconds
  linarith

theorem seconds_nonneg {a : Int} (h : 0 <= a) : 0 <= seconds a := by
  have hmono := seconds_mono h
  have hzero : seconds 0 = 0 := by
    simp [seconds]
  rw [hzero] at hmono
  exact hmono

theorem one_le_cap (rl : RateLimiter) : 1 <= rl.cap :=
  le_max_left _ _

theorem burst_le_cap (rl : RateLimiter) : rl.burst <= rl.cap :=
  le_max_right _ _

structure Sound (rl : RateLimiter) (now : Int) (b : TokenBucket) : Prop where
  low : rl.burst - rl.cap <= b.tokens
  high : b.tokens <= rl.burst
  last : b.last <= now
  used : b.lastUsed = b.last

/-- What the bucket gains until `now`. -/
def RateLimiter.gain (rl : RateLimiter) (now : Int) (b : TokenBucket) : Rat :=
  seconds (GoTime.sub now b.last).toInt * rl.rate

theorem toInt_sub_nonneg (h : b.last <= now) :
    0 <= (GoTime.sub now b.last).toInt ∧ (GoTime.sub now b.last).toInt <= now - b.last := by
  rw [GoTime.toInt_sub]
  omega

theorem gain_nonneg (rl : RateLimiter) (h : b.last <= now) : 0 <= rl.gain now b :=
  mul_nonneg (seconds_nonneg (toInt_sub_nonneg h).1) (le_of_lt rl.rate_pos)

theorem gain_le (rl : RateLimiter) (h : b.last <= now) :
    rl.gain now b <= seconds (now - b.last) * rl.rate :=
  mul_le_mul_of_nonneg_right (seconds_mono (toInt_sub_nonneg h).2) (le_of_lt rl.rate_pos)

theorem refill_eq (h : Sound rl now b) :
    rl.refill now b = ⟨min rl.burst (b.tokens + rl.gain now b), now, now⟩ := by
  unfold refill
  dsimp only
  split
  · rfl
  · rename_i helapsed
    have hnonneg := toInt_sub_nonneg h.last
    have hzero : (GoTime.sub now b.last).toInt = 0 := by
      by_contra hne
      apply helapsed
      have hpos : 0 < (GoTime.sub now b.last).toInt := lt_of_le_of_ne hnonneg.1 (Ne.symm hne)
      have hcast : (0 : Rat) < (GoTime.sub now b.last).toInt := Int.cast_pos.mpr hpos
      unfold seconds
      linarith
    have hlast : b.last = now := by
      rw [GoTime.toInt_sub] at hzero
      have hle := h.last
      omega
    have hgain : rl.gain now b = 0 := by
      simp [gain, hzero, seconds]
    rw [hgain, add_zero, min_eq_right h.high]
    rw [<- hlast]

theorem sound_fresh (rl : RateLimiter) (now : Int) : Sound rl now (rl.fresh now) where
  low := by
    have hcap := one_le_cap rl
    change rl.burst - rl.cap <= rl.burst - 1
    linarith
  high := by
    change rl.burst - 1 <= rl.burst
    linarith
  last := le_refl now
  used := rfl

theorem sound_take (h : Sound rl now b) : Sound rl now (rl.take now b).2 := by
  have hlow := h.low
  have hgain := gain_nonneg rl h.last
  have hcap := burst_le_cap rl
  have hone := one_le_cap rl
  unfold take
  rw [refill_eq h]
  dsimp only
  split
  · rename_i hallowed
    constructor
    · dsimp only
      linarith
    · dsimp only
      have hmin := min_le_left rl.burst (b.tokens + rl.gain now b)
      linarith
    · exact le_refl now
    · rfl
  · constructor
    · apply le_min
      · linarith
      · linarith
    · exact min_le_left _ _
    · exact le_refl now
    · rfl

theorem sound_tick (h : Sound rl now b) (nanoseconds : Nat) : Sound rl (now + nanoseconds) b where
  low := h.low
  high := h.high
  last := by
    have hlast := h.last
    omega
  used := h.used

/-!
## The buckets of a state
-/

def AllSound (rl : RateLimiter) (st : State) : Prop :=
  forall key b, st.buckets.lookup key = some b -> Sound rl st.now b

@[simp] theorem now_sweepLocked (rl : RateLimiter) (st : State) :
    (rl.sweepLocked st).now = st.now := by
  unfold sweepLocked
  split
  · rfl
  · rfl

@[simp] theorem now_answer (rl : RateLimiter) (st : State) (key : Key) :
    (rl.answer st key).2.now = st.now := by
  unfold answer
  split
  · split
    · rfl
    · rfl
  · rfl

def RateLimiter.forgets (rl : RateLimiter) (st : State) (b : TokenBucket) : Bool :=
  rl.sweeps st && rl.idle st.now b

theorem lookup_sweepLocked (rl : RateLimiter) (st : State) (key : Key) :
    (rl.sweepLocked st).buckets.lookup key =
      (st.buckets.lookup key).filter fun b => !rl.forgets st b := by
  unfold sweepLocked forgets
  apply Option.ext
  intro b
  rw [Option.filter_eq_some_iff]
  split
  · rename_i hsweeps
    simp [FiniteMap.lookup_filter_eq_some, hsweeps]
  · rename_i hsweeps
    simp [hsweeps]

theorem lookup_answer (rl : RateLimiter) (st : State) (key : Key) :
    (rl.answer st key).2.buckets.lookup key =
      match st.buckets.lookup key with
      | none => if rl.full st then none else some (rl.fresh st.now)
      | some b => some (rl.take st.now b).2 := by
  unfold answer
  cases hlookup : st.buckets.lookup key with
  | none =>
      dsimp only
      split
      · exact hlookup
      · exact Finmap.lookup_insert _
  | some b => exact Finmap.lookup_insert _

theorem lookup_answer_other {called : Key} (h : called ≠ key) :
    (rl.answer st called).2.buckets.lookup key = st.buckets.lookup key := by
  unfold answer
  split
  · split
    · rfl
    · exact Finmap.lookup_insert_of_ne _ (Ne.symm h)
  · exact Finmap.lookup_insert_of_ne _ (Ne.symm h)

theorem allSound_init (rl : RateLimiter) (start : Int) : AllSound rl (State.init start) := by
  intro key b hlookup
  cases hlookup

theorem allSound_sweepLocked (h : AllSound rl st) : AllSound rl (rl.sweepLocked st) := by
  intro key b hlookup
  rw [lookup_sweepLocked, Option.filter_eq_some_iff] at hlookup
  rw [now_sweepLocked]
  exact h key b hlookup.1

theorem allSound_answer (h : AllSound rl st) (called : Key) :
    AllSound rl (rl.answer st called).2 := by
  intro key b hlookup
  rw [now_answer]
  by_cases hkey : called = key
  · subst hkey
    rw [lookup_answer] at hlookup
    cases hbefore : st.buckets.lookup called with
    | none =>
        rw [hbefore] at hlookup
        dsimp only at hlookup
        split at hlookup
        · cases hlookup
        · cases hlookup
          exact sound_fresh rl st.now
    | some b' =>
        rw [hbefore] at hlookup
        cases hlookup
        exact sound_take (h called b' hbefore)
  · rw [lookup_answer_other hkey] at hlookup
    exact h key b hlookup

theorem allSound_step (h : AllSound rl st) (e : Event) : AllSound rl (step rl st e) := by
  cases e with
  | tick nanoseconds =>
      intro key b hlookup
      exact sound_tick (h key b hlookup) nanoseconds
  | allow called =>
      simp only [step, allow]
      split
      · exact h
      · exact allSound_answer (allSound_sweepLocked h) called

theorem allSound_run (rl : RateLimiter) (start : Int) (events : List Event) :
    AllSound rl (rl.run start events) := by
  have hstep : forall st e, AllSound rl st -> True -> AllSound rl (step rl st e) := by
    intro st e h _
    exact allSound_step h e
  exact Transition.invariant_after hstep (allSound_init rl start)
    (Transition.stepsMeet_true _ _ events)

/-!
## The allowance
-/

/-- What the key may still be let through for. -/
def RateLimiter.allowance (rl : RateLimiter) (now : Int) : Option TokenBucket -> Rat
  | none => rl.cap
  | some b => min rl.cap (b.tokens + (rl.cap - rl.burst) + seconds (now - b.last) * rl.rate)

theorem allowance_le_cap (rl : RateLimiter) (now : Int) (found : Option TokenBucket) :
    rl.allowance now found <= rl.cap := by
  cases found with
  | none => exact le_refl _
  | some b => exact min_le_left _ _

theorem allowance_nonneg {found : Option TokenBucket}
    (h : forall b, found = some b -> Sound rl now b) : 0 <= rl.allowance now found := by
  have hcap := one_le_cap rl
  cases found with
  | none =>
      change 0 <= rl.cap
      linarith
  | some b =>
      have hsound := h b rfl
      have hlow := hsound.low
      have hlast := hsound.last
      have hgain : 0 <= seconds (now - b.last) * rl.rate :=
        mul_nonneg (seconds_nonneg (by omega)) (le_of_lt rl.rate_pos)
      apply le_min
      · linarith
      · linarith

theorem allowance_tick (rl : RateLimiter) {later : Int} (h : now <= later)
    (found : Option TokenBucket) :
    rl.allowance later found <= rl.allowance now found + seconds (later - now) * rl.rate := by
  have hgain : 0 <= seconds (later - now) * rl.rate :=
    mul_nonneg (seconds_nonneg (by omega)) (le_of_lt rl.rate_pos)
  cases found with
  | none =>
      change rl.cap <= rl.cap + _
      linarith
  | some b =>
      have hsplit : seconds (later - b.last) = seconds (now - b.last) + seconds (later - now) := by
        rw [seconds_sub, seconds_sub, seconds_sub]
        linarith
      change min rl.cap _ <= min rl.cap _ + _
      rw [hsplit, add_mul, <- add_assoc, <- min_add_add_right]
      apply min_le_min
      · linarith
      · exact le_refl _

theorem cap_le_allowance (h : Sound rl now b) (hshort : rl.short now b = false) :
    rl.cap <= rl.allowance now (some b) := by
  have hfull : rl.burst <= b.tokens + rl.gain now b := by
    rw [short, refill_eq h, decide_eq_false_iff_not, not_lt] at hshort
    exact le_trans hshort (min_le_right _ _)
  have hgain := gain_le rl h.last
  apply le_min
  · exact le_refl _
  · linarith

theorem allowance_take (h : Sound rl now b) :
    rl.allowance now (some (rl.take now b).2) + (if (rl.take now b).1 then 1 else 0) <=
      rl.allowance now (some b) := by
  have hgain := gain_le rl h.last
  have hleft := min_le_left rl.burst (b.tokens + rl.gain now b)
  have hright := min_le_right rl.burst (b.tokens + rl.gain now b)
  have hbound : min rl.burst (b.tokens + rl.gain now b) + (rl.cap - rl.burst) <=
      rl.allowance now (some b) := by
    apply le_min
    · linarith
    · linarith
  have hnow : seconds (now - now) = 0 := by
    simp [seconds]
  unfold take
  rw [refill_eq h]
  dsimp only
  split
  · rw [if_pos rfl]
    change min rl.cap _ + 1 <= _
    have hmin := min_le_right rl.cap
      (min rl.burst (b.tokens + rl.gain now b) - 1 + (rl.cap - rl.burst) +
        seconds (now - now) * rl.rate)
    rw [hnow, zero_mul] at hmin ⊢
    linarith
  · rw [if_neg Bool.false_ne_true]
    change min rl.cap _ + 0 <= _
    have hmin := min_le_right rl.cap
      (min rl.burst (b.tokens + rl.gain now b) + (rl.cap - rl.burst) +
        seconds (now - now) * rl.rate)
    rw [hnow, zero_mul] at hmin ⊢
    linarith

theorem allowance_fresh (rl : RateLimiter) (now : Int) :
    rl.allowance now (some (rl.fresh now)) + 1 <= rl.cap := by
  have hnow : seconds (now - now) = 0 := by
    simp [seconds]
  have hmin := min_le_right rl.cap
    (rl.burst - 1 + (rl.cap - rl.burst) + seconds (now - now) * rl.rate)
  change min rl.cap (rl.burst - 1 + (rl.cap - rl.burst) + seconds (now - now) * rl.rate) + 1 <= _
  rw [hnow, zero_mul] at hmin ⊢
  linarith

/-!
## One step in an interval
-/

def spent (s t : Int) (notes : List Note) : Rat :=
  (notes.map fun note => if note.allowedIn s t then (1 : Rat) else 0).sum

/-- What early forgetting in the interval is worth. -/
def RateLimiter.earned (rl : RateLimiter) (s t : Int) (notes : List Note) : Rat :=
  (notes.map fun note => if note.shortIn s t then rl.cap else 0).sum

variable {s t : Int}

theorem earned_nonneg (rl : RateLimiter) (s t : Int) (notes : List Note) :
    0 <= rl.earned s t notes := by
  apply List.sum_nonneg
  intro x hx
  rcases List.mem_map.mp hx with ⟨note, -, hnote⟩
  subst hnote
  have hcap := one_le_cap rl
  split
  · linarith
  · exact le_refl _

theorem spent_append (s t : Int) (notes more : List Note) :
    spent s t (notes ++ more) = spent s t notes + spent s t more := by
  rw [spent, List.map_append, List.sum_append]
  rfl

theorem earned_append (rl : RateLimiter) (s t : Int) (notes more : List Note) :
    rl.earned s t (notes ++ more) = rl.earned s t notes + rl.earned s t more := by
  rw [earned, List.map_append, List.sum_append]
  rfl

theorem spent_emitSweep (rl : RateLimiter) (key : Key) (st : State) (s t : Int) :
    spent s t (rl.emitSweep key st) = 0 := by
  unfold emitSweep
  split
  · rfl
  · split
    · simp [spent, Note.allowedIn]
    · rfl

theorem allowance_sweepLocked (hsound : AllSound rl st) (hs : s <= st.now) (ht : st.now <= t)
    (key : Key) :
    rl.allowance st.now ((rl.sweepLocked st).buckets.lookup key) <=
      rl.allowance st.now (st.buckets.lookup key) + rl.earned s t (rl.emitSweep key st) := by
  rw [lookup_sweepLocked]
  unfold emitSweep
  cases hlookup : st.buckets.lookup key with
  | none => simp [earned]
  | some b =>
      dsimp only
      change _ <= _ + rl.earned s t (if rl.forgets st b then _ else _)
      cases hforgets : rl.forgets st b with
      | false =>
          rw [Option.filter_some, hforgets]
          simp [earned]
      | true =>
          have hb := hsound key b hlookup
          have hnonneg : 0 <= rl.allowance st.now (some b) :=
            allowance_nonneg fun b' hb' => Option.some.inj hb' ▸ hb
          rw [Option.filter_some, hforgets, if_pos rfl]
          change rl.cap <= _
          cases hshort : rl.short st.now b with
          | true =>
              simp only [earned, List.map_cons, List.map_nil, List.sum_cons,
                List.sum_nil, Note.shortIn, hs, ht, decide_true, Bool.and_self, if_true]
              linarith
          | false =>
              have hfull := cap_le_allowance hb hshort
              have hearned := earned_nonneg rl s t [.forgotten st.now false]
              linarith

theorem allowance_answer (hsound : AllSound rl st) (s t : Int) (key : Key) :
    rl.allowance st.now ((rl.answer st key).2.buckets.lookup key) +
        spent s t (rl.emitCall key st) <=
      rl.allowance st.now (st.buckets.lookup key) := by
  have hcost : forall allowed,
      spent s t [.answered st.now allowed] <= if allowed then 1 else 0 := by
    intro allowed
    cases allowed with
    | false => simp [spent, Note.allowedIn]
    | true =>
        simp only [spent, List.map_cons, List.map_nil, List.sum_cons, List.sum_nil, add_zero]
        split
        · exact le_refl _
        · exact zero_le_one
  rw [lookup_answer, emitCall_eq]
  cases hlookup : st.buckets.lookup key with
  | none =>
      dsimp only
      cases hfull : rl.full st with
      | true => simp [spent, Note.allowedIn]
      | false =>
          have hfresh := allowance_fresh rl st.now
          have hone := hcost true
          rw [if_pos rfl] at hone
          rw [if_neg Bool.false_ne_true, if_neg Bool.false_ne_true]
          change _ <= rl.cap
          linarith
  | some b =>
      have htake := allowance_take (hsound key b hlookup)
      have hone := hcost (rl.take st.now b).1
      dsimp only
      linarith

theorem spent_emitCall_outside (rl : RateLimiter) (key : Key) (st : State)
    (h : ¬ (s <= st.now ∧ st.now <= t)) : spent s t (rl.emitCall key st) = 0 := by
  have hnone : forall allowed, Note.allowedIn s t (.answered st.now allowed) = false := by
    intro allowed
    rw [not_and_or] at h
    rcases h with hs | ht
    · simp [Note.allowedIn, hs]
    · simp [Note.allowedIn, ht]
  rw [emitCall_eq]
  split
  · split
    · simp [spent, Note.allowedIn]
    · simp [spent, hnone]
  · simp [spent, hnone]

/-- The allowance inside the interval, all of it before, and nothing after; less what the time in
the interval adds. -/
def RateLimiter.potential (rl : RateLimiter) (key : Key) (s t : Int) (st : State) : Rat :=
  (if st.now < s then rl.cap
    else if st.now <= t then rl.allowance st.now (st.buckets.lookup key) else 0) -
    seconds (max s (min t st.now)) * rl.rate

theorem potential_tick (hsound : AllSound rl st) (hst : s <= t) (key : Key) (nanoseconds : Nat) :
    rl.potential key s t { st with now := st.now + nanoseconds } <= rl.potential key s t st := by
  have hrate := le_of_lt rl.rate_pos
  have hcap := one_le_cap rl
  have hnonneg : 0 <= rl.allowance st.now (st.buckets.lookup key) :=
    allowance_nonneg fun b hb => hsound key b hb
  have htick := allowance_tick rl (Int.le_add_of_nonneg_right (a := st.now)
    (Int.natCast_nonneg nanoseconds)) (st.buckets.lookup key)
  have hle := allowance_le_cap rl (st.now + nanoseconds) (st.buckets.lookup key)
  have hclamp : seconds (max s (min t st.now)) * rl.rate <=
      seconds (max s (min t (st.now + nanoseconds))) * rl.rate :=
    mul_le_mul_of_nonneg_right (seconds_mono (by omega)) hrate
  unfold potential
  dsimp only
  by_cases hbefore : st.now < s
  · rw [if_pos hbefore]
    split
    · linarith
    · split
      · linarith
      · linarith
  · rw [if_neg hbefore, if_neg (by omega : ¬ st.now + nanoseconds < s)]
    by_cases hinside : st.now + nanoseconds <= t
    · rw [if_pos hinside, if_pos (by omega : st.now <= t)]
      rw [max_eq_right (by omega : s <= min t (st.now + nanoseconds)),
        max_eq_right (by omega : s <= min t st.now), min_eq_right hinside,
        min_eq_right (by omega : st.now <= t)]
      rw [seconds_sub, sub_mul] at htick
      linarith
    · rw [if_neg hinside]
      split
      · linarith
      · linarith

theorem potential_le_of_allowance {st' : State} {cost credit : Rat} (hnow : st'.now = st.now)
    (hinside : s <= st.now -> st.now <= t ->
      rl.allowance st.now (st'.buckets.lookup key) + cost <=
        rl.allowance st.now (st.buckets.lookup key) + credit)
    (houtside : ¬ (s <= st.now ∧ st.now <= t) -> cost <= credit) :
    rl.potential key s t st' + cost <= rl.potential key s t st + credit := by
  unfold potential
  rw [hnow]
  by_cases hbefore : st.now < s
  · have hle := houtside (fun h => absurd h.1 (not_le.mpr hbefore))
    rw [if_pos hbefore, if_pos hbefore]
    linarith
  · rw [if_neg hbefore, if_neg hbefore]
    by_cases hafter : st.now <= t
    · have hle := hinside (not_lt.mp hbefore) hafter
      rw [if_pos hafter, if_pos hafter]
      linarith
    · have hle := houtside (fun h => absurd h.2 hafter)
      rw [if_neg hafter, if_neg hafter]
      linarith

theorem potential_step (hsound : AllSound rl st) (hst : s <= t) (hkey : key ≠ []) (e : Event) :
    rl.potential key s t (step rl st e) + spent s t (emit rl key st e) <=
      rl.potential key s t st + rl.earned s t (emit rl key st e) := by
  cases e with
  | tick nanoseconds =>
      have htick := potential_tick hsound hst key nanoseconds
      change _ + 0 <= _ + 0
      rw [add_zero, add_zero]
      exact htick
  | allow called =>
      simp only [step, allow, emit, if_neg hkey]
      by_cases hempty : called = []
      · simp [hempty, spent, earned]
      · rw [if_neg hempty, if_neg hempty]
        have hearned := earned_nonneg rl s t
          (rl.emitSweep key st ++ if called = key then rl.emitCall key (rl.sweepLocked st) else [])
        apply potential_le_of_allowance (by simp)
        · intro hs ht
          have hsweep := allowance_sweepLocked hsound hs ht key
          have hmore := earned_nonneg rl s t
            (if called = key then rl.emitCall key (rl.sweepLocked st) else [])
          rw [spent_append, earned_append, spent_emitSweep, zero_add]
          by_cases hcalled : called = key
          · subst hcalled
            have hcall := allowance_answer (allSound_sweepLocked hsound) s t called
            rw [now_sweepLocked] at hcall
            rw [if_pos rfl] at hmore ⊢
            linarith
          · rw [if_neg hcalled] at hmore ⊢
            rw [lookup_answer_other hcalled]
            change _ + 0 <= _
            linarith
        · intro houtside
          rw [spent_append, spent_emitSweep, zero_add]
          split
          · rw [spent_emitCall_outside rl key (rl.sweepLocked st) (by simpa using houtside)]
            rename_i hcalled
            rw [if_pos hcalled] at hearned
            exact hearned
          · rename_i hcalled
            rw [if_neg hcalled] at hearned
            exact hearned

/-!
## Whole runs
-/

theorem spent_eq_countP (s t : Int) (notes : List Note) :
    spent s t notes = notes.countP (Note.allowedIn s t) := by
  rw [spent, Amortized.sum_indicator, nsmul_one]

theorem earned_eq_countP (rl : RateLimiter) (s t : Int) (notes : List Note) :
    rl.earned s t notes = notes.countP (Note.shortIn s t) * rl.cap := by
  rw [earned, Amortized.sum_indicator, nsmul_eq_mul]

theorem potential_nonneg (hsound : AllSound rl st) (hst : s <= t) (key : Key) :
    -(seconds t * rl.rate) <= rl.potential key s t st := by
  have hcap := one_le_cap rl
  have hnonneg : 0 <= rl.allowance st.now (st.buckets.lookup key) :=
    allowance_nonneg fun b hb => hsound key b hb
  have hclamp : seconds (max s (min t st.now)) * rl.rate <= seconds t * rl.rate :=
    mul_le_mul_of_nonneg_right (seconds_mono (by omega)) (le_of_lt rl.rate_pos)
  unfold potential
  split
  · linarith
  · split
    · linarith
    · linarith

theorem potential_init_le (rl : RateLimiter) (key : Key) (s t start : Int) :
    rl.potential key s t (State.init start) <= rl.cap - seconds s * rl.rate := by
  have hcap := one_le_cap rl
  have hle := allowance_le_cap rl start ((State.init start).buckets.lookup key)
  have hclamp : seconds s * rl.rate <= seconds (max s (min t start)) * rl.rate :=
    mul_le_mul_of_nonneg_right (seconds_mono (le_max_left _ _)) (le_of_lt rl.rate_pos)
  unfold potential
  change (if start < s then _ else _) - seconds (max s (min t start)) * rl.rate <= _
  split
  · linarith
  · split
    · exact sub_le_sub hle hclamp
    · linarith

theorem allowed_le (rl : RateLimiter) (hkey : key ≠ []) (start : Int) (events : List Event)
    (hst : s <= t) :
    ((rl.notes key start events).countP (Note.allowedIn s t) : Rat) <=
      max 1 rl.burst * (1 + (rl.notes key start events).countP (Note.shortIn s t)) +
        rl.rate * seconds (t - s) := by
  have hkeeps : forall st e, AllSound rl st -> AllSound rl (step rl st e) := by
    intro st e h
    exact allSound_step h e
  have hpays : forall st e, AllSound rl st ->
      rl.potential key s t (step rl st e) + spent s t (emit rl key st e) <=
        rl.potential key s t st + rl.earned s t (emit rl key st e) := by
    intro st e h
    exact potential_step h hst hkey e
  have hrun := Amortized.potential_add_cost_le hkeeps hpays (allSound_init rl start) events
  change _ + spent s t (rl.notes key start events) <=
    _ + rl.earned s t (rl.notes key start events) at hrun
  have hsound : AllSound rl (after (step rl) (State.init start) events) :=
    allSound_run rl start events
  have hend := potential_nonneg hsound hst key
  have hstart := potential_init_le rl key s t start
  rw [spent_eq_countP, earned_eq_countP] at hrun
  rw [seconds_sub]
  change _ <= rl.cap * _ + _
  linarith

end RateLimit
end Server
end Ephor
