import Ephor.Server.RateBound

/-!
# The keys of the rate limiter

There are never more than `maxKeys` buckets.  What other keys do reaches a key in two ways: it is
refused while there is no room for its bucket, and a sweep forgets its bucket.  Apart from
these its calls are answered by one bucket that no one else draws from, and forgetting a
bucket that is full again changes nothing.
-/

namespace Ephor
namespace Server
namespace RateLimit

open Foundation
open Foundation.Transition (after emitted)
open RateLimiter

variable {rl : RateLimiter} {st : State} {key : Key} {now : Int} {b : TokenBucket}

/-!
## The number of buckets
-/

def Bounded (rl : RateLimiter) (st : State) : Prop :=
  FiniteMap.size st.buckets <= rl.maxKeys.toInt

theorem bounded_init (rl : RateLimiter) (start : Int) : Bounded rl (State.init start) := by
  have hpos := Int64.lt_iff_toInt_lt.mp rl.maxKeys_pos
  exact le_of_lt hpos

theorem bounded_sweepLocked (h : Bounded rl st) : Bounded rl (rl.sweepLocked st) := by
  unfold sweepLocked
  split
  · have hle := FiniteMap.size_filter_le (fun _ b => !rl.idle st.now b) st.buckets
    exact le_trans (Int.ofNat_le.mpr hle) h
  · exact h

theorem bounded_answer (h : Bounded rl st) (called : Key) : Bounded rl (rl.answer st called).2 := by
  unfold answer
  split
  · rename_i hnone
    split
    · exact h
    · rename_i hfull
      rw [full, decide_eq_true_iff] at hfull
      change ((FiniteMap.size (st.buckets.insert called _) : Nat) : Int) <= _
      rw [FiniteMap.size_insert_of_none _ hnone]
      omega
  · rename_i b hsome
    change ((FiniteMap.size (st.buckets.insert called _) : Nat) : Int) <= _
    rw [FiniteMap.size_insert_of_some _ hsome]
    exact h

theorem bounded_step (h : Bounded rl st) (e : Event) : Bounded rl (step rl st e) := by
  cases e with
  | tick nanoseconds => exact h
  | allow called =>
      simp only [step, allow]
      split
      · exact h
      · exact bounded_answer (bounded_sweepLocked h) called

theorem bounded_run (rl : RateLimiter) (start : Int) (events : List Event) :
    Bounded rl (rl.run start events) := by
  have hstep : forall st e, Bounded rl st -> True -> Bounded rl (step rl st e) := by
    intro st e h _
    exact bounded_step h e
  exact Transition.invariant_after hstep (bounded_init rl start)
    (Transition.stepsMeet_true _ _ events)

/-!
## A bucket of its own
-/

/-- What a note does to the key's own bucket.  Forgetting it counts where it was not full again,
and always where a full bucket lets no call through. -/
def RateLimiter.ownStep (rl : RateLimiter) (own : Option TokenBucket) : Note -> Option TokenBucket
  | .refusedAtCap _ => own
  | .forgotten _ short => if short || decide (rl.burst < 1) then none else own
  | .answered now _ =>
      match own with
      | none => some (rl.fresh now)
      | some b => some (rl.take now b).2

def RateLimiter.ownDecides (rl : RateLimiter) (now : Int) : Option TokenBucket -> Bool
  | none => true
  | some b => (rl.take now b).1

/-- Every call is answered as the key's own bucket decides, but for the refusals at the cap. -/
def AnswersOfOwn (rl : RateLimiter) : Option TokenBucket -> List Note -> Prop
  | _, [] => True
  | own, .answered now allowed :: rest =>
      allowed = rl.ownDecides now own ∧
        AnswersOfOwn rl (rl.ownStep own (.answered now allowed)) rest
  | own, note :: rest => AnswersOfOwn rl (rl.ownStep own note) rest

/-- The bucket in the state is the key's own, or it was forgotten when it was full again. -/
def Agrees (rl : RateLimiter) (now : Int) (found own : Option TokenBucket) : Prop :=
  found = own ∨ found = none ∧ 1 <= rl.burst ∧
    exists b, own = some b ∧ Sound rl now b ∧ rl.short now b = false

theorem answersOfOwn_append {own : Option TokenBucket} {notes more : List Note}
    (h : AnswersOfOwn rl own notes) (hmore : AnswersOfOwn rl (notes.foldl rl.ownStep own) more) :
    AnswersOfOwn rl own (notes ++ more) := by
  induction notes generalizing own with
  | nil => exact hmore
  | cons note rest ih =>
      cases note with
      | answered now allowed => exact ⟨h.1, ih h.2 hmore⟩
      | refusedAtCap now | forgotten now short => exact ih h hmore

theorem gain_mono (rl : RateLimiter) (b : TokenBucket) {later : Int} (hle : now <= later) :
    rl.gain now b <= rl.gain later b := by
  apply mul_le_mul_of_nonneg_right _ (le_of_lt rl.rate_pos)
  apply seconds_mono
  rw [GoTime.toInt_sub, GoTime.toInt_sub]
  omega

theorem short_eq_false_iff (h : Sound rl now b) :
    rl.short now b = false <-> rl.burst <= b.tokens + rl.gain now b := by
  rw [short, refill_eq h, decide_eq_false_iff_not, not_lt, le_min_iff]
  simp

theorem take_of_full (h : Sound rl now b) (hshort : rl.short now b = false)
    (hburst : 1 <= rl.burst) : rl.take now b = (true, rl.fresh now) := by
  have hfull := (short_eq_false_iff h).mp hshort
  unfold take
  rw [refill_eq h, min_eq_left hfull]
  dsimp only
  rw [if_pos hburst]
  rfl

theorem agrees_tick {found own : Option TokenBucket} (h : Agrees rl now found own)
    (nanoseconds : Nat) : Agrees rl (now + nanoseconds) found own := by
  rcases h with hsame | ⟨hnone, hburst, b, hown, hsound, hshort⟩
  · exact Or.inl hsame
  · have hlater := sound_tick hsound nanoseconds
    have hgain := gain_mono rl b
      (Int.le_add_of_nonneg_right (a := now) (Int.natCast_nonneg nanoseconds))
    refine Or.inr ⟨hnone, hburst, b, hown, hlater, (short_eq_false_iff hlater).mpr ?_⟩
    exact le_trans ((short_eq_false_iff hsound).mp hshort) (by linarith)

theorem agrees_sweepLocked (hsound : AllSound rl st) {own : Option TokenBucket}
    (h : Agrees rl st.now (st.buckets.lookup key) own) :
    Agrees rl st.now ((rl.sweepLocked st).buckets.lookup key)
        ((rl.emitSweep key st).foldl rl.ownStep own) ∧
      AnswersOfOwn rl own (rl.emitSweep key st) := by
  rw [lookup_sweepLocked]
  unfold emitSweep
  cases hlookup : st.buckets.lookup key with
  | none =>
      rw [hlookup] at h
      exact ⟨h, trivial⟩
  | some b =>
      rw [hlookup] at h
      have hown : own = some b := by
        rcases h with hsame | ⟨hnone, -⟩
        · exact hsame.symm
        · cases hnone
      subst hown
      dsimp only
      change Agrees rl st.now _ ((if rl.forgets st b then _ else _ : List Note).foldl _ _) ∧
        AnswersOfOwn rl _ (if rl.forgets st b then _ else _)
      rw [Option.filter_some]
      cases hforgets : rl.forgets st b with
      | false => exact ⟨Or.inl rfl, trivial⟩
      | true =>
          refine ⟨?_, trivial⟩
          change Agrees rl st.now none
            (if rl.short st.now b || decide (rl.burst < 1) then none else some b)
          split
          · exact Or.inl rfl
          · rename_i hkept
            simp only [Bool.or_eq_true, decide_eq_true_eq, not_or, Bool.not_eq_true,
              not_lt] at hkept
            exact Or.inr ⟨rfl, hkept.2, b, rfl, hsound key b hlookup, hkept.1⟩

theorem agrees_answer {own : Option TokenBucket}
    (h : Agrees rl st.now (st.buckets.lookup key) own) :
    Agrees rl st.now ((rl.answer st key).2.buckets.lookup key)
        ((rl.emitCall key st).foldl rl.ownStep own) ∧
      AnswersOfOwn rl own (rl.emitCall key st) := by
  rw [lookup_answer, emitCall_eq]
  cases hlookup : st.buckets.lookup key with
  | none =>
      rw [hlookup] at h
      dsimp only
      cases hfull : rl.full st with
      | true => exact ⟨h, trivial⟩
      | false =>
          rcases h with hsame | ⟨-, hburst, b, hown, hsound, hshort⟩
          · subst hsame
            exact ⟨Or.inl rfl, rfl, trivial⟩
          · subst hown
            have htake := take_of_full hsound hshort hburst
            refine ⟨Or.inl ?_, ?_, trivial⟩
            · change some (rl.fresh st.now) = some (rl.take st.now b).2
              rw [htake]
            · change true = (rl.take st.now b).1
              rw [htake]
  | some b =>
      rw [hlookup] at h
      have hown : own = some b := by
        rcases h with hsame | ⟨hnone, -⟩
        · exact hsame.symm
        · cases hnone
      subst hown
      exact ⟨Or.inl rfl, rfl, trivial⟩

/-- The notes so far are answers of the key's own bucket, which the state still agrees with. -/
structure Follows (rl : RateLimiter) (key : Key) (st : State) (notes : List Note) : Prop where
  sound : AllSound rl st
  agrees : Agrees rl st.now (st.buckets.lookup key) (notes.foldl rl.ownStep none)
  answers : AnswersOfOwn rl none notes

theorem follows_step {notes : List Note} (hkey : key ≠ []) (h : Follows rl key st notes)
    (e : Event) : Follows rl key (step rl st e) (notes ++ emit rl key st e) := by
  refine ⟨allSound_step h.sound e, ?_, ?_⟩
  · rw [List.foldl_append]
    cases e with
    | tick nanoseconds => exact agrees_tick h.agrees nanoseconds
    | allow called =>
        simp only [step, allow, emit, if_neg hkey]
        by_cases hempty : called = []
        · rw [if_pos hempty, if_pos hempty]
          exact h.agrees
        · have hsweep := (agrees_sweepLocked h.sound h.agrees).1
          rw [if_neg hempty, if_neg hempty, List.foldl_append, now_answer, now_sweepLocked]
          by_cases hcalled : called = key
          · subst hcalled
            rw [if_pos rfl]
            rw [<- now_sweepLocked rl st] at hsweep ⊢
            exact (agrees_answer hsweep).1
          · rw [if_neg hcalled, lookup_answer_other hcalled]
            exact hsweep
  · apply answersOfOwn_append h.answers
    cases e with
    | tick nanoseconds => trivial
    | allow called =>
        simp only [emit, if_neg hkey]
        by_cases hempty : called = []
        · rw [if_pos hempty]
          trivial
        · have hsweep := agrees_sweepLocked h.sound h.agrees
          rw [if_neg hempty]
          apply answersOfOwn_append hsweep.2
          by_cases hcalled : called = key
          · subst hcalled
            have hagrees := hsweep.1
            rw [if_pos rfl]
            rw [<- now_sweepLocked rl st] at hagrees
            exact (agrees_answer hagrees).2
          · rw [if_neg hcalled]
            trivial

theorem answersOfOwn_notes (rl : RateLimiter) (hkey : key ≠ []) (start : Int)
    (events : List Event) : AnswersOfOwn rl none (rl.notes key start events) := by
  have hstep : forall st notes e, Follows rl key st notes -> True ->
      Follows rl key (step rl st e) (notes ++ emit rl key st e) := by
    intro st notes e h _
    exact follows_step hkey h e
  have hinit : Follows rl key (State.init start) [] :=
    ⟨allSound_init rl start, Or.inl rfl, trivial⟩
  exact (Transition.invariant_emitted hstep hinit (Transition.stepsMeet_true _ _ events)).answers

/-!
## Forgetting in time
-/

theorem short_of_idle (hrefills : rl.cap <= rl.rate * seconds rl.idleTTL.toInt)
    (hsound : Sound rl now b) (hidle : rl.idle now b = true) : rl.short now b = false := by
  rw [idle, decide_eq_true_iff, hsound.used, Int64.lt_iff_toInt_lt] at hidle
  have hgain : rl.rate * seconds rl.idleTTL.toInt <= rl.gain now b := by
    rw [gain, mul_comm]
    exact mul_le_mul_of_nonneg_right (seconds_mono (le_of_lt hidle)) (le_of_lt rl.rate_pos)
  have hlow := hsound.low
  rw [short_eq_false_iff hsound]
  linarith

def NeverShort (notes : List Note) : Prop :=
  forall now, Note.forgotten now true ∉ notes

theorem neverShort_emitCall (rl : RateLimiter) (key : Key) (st : State) :
    NeverShort (rl.emitCall key st) := by
  intro now hmem
  rw [emitCall_eq] at hmem
  split at hmem
  · split at hmem
    · simp at hmem
    · simp at hmem
  · simp at hmem

theorem neverShort_emitSweep (hrefills : rl.cap <= rl.rate * seconds rl.idleTTL.toInt)
    (hsound : AllSound rl st) (key : Key) : NeverShort (rl.emitSweep key st) := by
  intro now hmem
  unfold emitSweep at hmem
  split at hmem
  · cases hmem
  · rename_i b hlookup
    split at hmem
    · rename_i hforgets
      rw [Bool.and_eq_true] at hforgets
      rw [List.mem_singleton, Note.forgotten.injEq,
        short_of_idle hrefills (hsound key b hlookup) hforgets.2] at hmem
      cases hmem.2
    · cases hmem

theorem neverShort_emit (hrefills : rl.cap <= rl.rate * seconds rl.idleTTL.toInt)
    (hsound : AllSound rl st) (key : Key) (e : Event) : NeverShort (emit rl key st e) := by
  intro now hmem
  cases e with
  | tick nanoseconds => cases hmem
  | allow called =>
      simp only [emit] at hmem
      split at hmem
      · split at hmem
        · simp at hmem
        · cases hmem
      · rcases List.mem_append.mp hmem with hsweep | hcall
        · exact neverShort_emitSweep hrefills hsound key now hsweep
        · split at hcall
          · exact neverShort_emitCall rl key (rl.sweepLocked st) now hcall
          · cases hcall

theorem neverShort_notes (hrefills : rl.cap <= rl.rate * seconds rl.idleTTL.toInt) (key : Key)
    (start : Int) (events : List Event) : NeverShort (rl.notes key start events) := by
  have hstep : forall st notes e, AllSound rl st ∧ NeverShort notes -> True ->
      AllSound rl (step rl st e) ∧ NeverShort (notes ++ emit rl key st e) := by
    intro st notes e h _
    refine ⟨allSound_step h.1 e, ?_⟩
    intro now hmem
    rcases List.mem_append.mp hmem with hbefore | hnew
    · exact h.2 now hbefore
    · exact neverShort_emit hrefills h.1 key e now hnew
  have hinit : AllSound rl (State.init start) ∧ NeverShort [] :=
    ⟨allSound_init rl start, fun _ => List.not_mem_nil⟩
  exact (Transition.invariant_emitted hstep hinit (Transition.stepsMeet_true _ _ events)).2

/-!
## The limiter as a whole
-/

/-- How often a key is let through in an interval, how many buckets there are, whose decision an
answer is, and when no bucket is forgotten early. -/
theorem rate_limited (rl : RateLimiter) (start : Int) (events : List Event) :
    (forall key, key ≠ [] -> forall s t, s <= t ->
      ((rl.notes key start events).countP (Note.allowedIn s t) : Rat) <=
        max 1 rl.burst * (1 + (rl.notes key start events).countP (Note.shortIn s t)) +
          rl.rate * seconds (t - s)) ∧
      FiniteMap.size (rl.run start events).buckets <= rl.maxKeys.toInt ∧
      (forall key, key ≠ [] -> AnswersOfOwn rl none (rl.notes key start events)) ∧
      (max 1 rl.burst <= rl.rate * seconds rl.idleTTL.toInt ->
        forall key, NeverShort (rl.notes key start events)) := by
  refine ⟨?_, bounded_run rl start events, ?_, ?_⟩
  · intro key hkey s t hst
    exact allowed_le rl hkey start events hst
  · intro key hkey
    exact answersOfOwn_notes rl hkey start events
  · intro hrefills key
    exact neverShort_notes hrefills key start events

/-!
A limiter for two calls at once and one in ten seconds that keeps idle buckets for a second.  The
empty key is never limited, and a key that comes back after two seconds has its bucket
forgotten.
-/

def sampleLimiter : RateLimiter where
  rate := 1 / 10
  burst := 2
  idleTTL := 1000000000
  maxKeys := 10
  rate_pos := by decide +kernel
  burst_pos := by decide +kernel
  idleTTL_pos := by decide
  maxKeys_pos := by decide

def threeUnkeyed : List Event :=
  [.allow [], .allow [], .allow []]

def comesBack : List Event :=
  [.allow [0x61], .allow [0x61], .tick 2000000000, .allow [0x61], .allow [0x61]]

theorem returning_key_is_limited :
    ((sampleLimiter.notes [0x61] 0 comesBack).countP (Note.allowedIn 0 2000000000) : Rat) <=
      max 1 sampleLimiter.burst *
          (1 + (sampleLimiter.notes [0x61] 0 comesBack).countP (Note.shortIn 0 2000000000)) +
        sampleLimiter.rate * seconds (2000000000 - 0) :=
  (rate_limited sampleLimiter 0 comesBack).1 [0x61] (by decide) 0 2000000000 (by decide)

theorem bound_is_exceeded :
    (¬ forall (rl : RateLimiter) start events s t, s <= t ->
      ((rl.notes [] start events).countP (Note.allowedIn s t) : Rat) <=
        max 1 rl.burst + rl.rate * seconds (t - s)) ∧
      ¬ forall (rl : RateLimiter) start events key s t, key ≠ [] -> s <= t ->
        ((rl.notes key start events).countP (Note.allowedIn s t) : Rat) <=
          max 1 rl.burst + rl.rate * seconds (t - s) := by
  constructor
  · intro h
    have hcount : (sampleLimiter.notes [] 0 threeUnkeyed).countP (Note.allowedIn 0 0) = 3 := by
      decide +kernel
    have hbound := h sampleLimiter 0 threeUnkeyed 0 0 (le_refl 0)
    rw [hcount] at hbound
    exact absurd hbound (by decide +kernel)
  · intro h
    have hcount :
        (sampleLimiter.notes [0x61] 0 comesBack).countP (Note.allowedIn 0 2000000000) = 4 := by
      decide +kernel
    have hbound := h sampleLimiter 0 comesBack [0x61] 0 2000000000 (by decide) (by decide)
    rw [hcount] at hbound
    exact absurd hbound (by decide +kernel)

end RateLimit
end Server
end Ephor
