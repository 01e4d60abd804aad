import Ephor.Gateway.OutboundGuard

/-!
# Bad signals and the backoff

A failed report arms the backoff anew from its own time.  Two runs that differ in one failed
report are compared: the run with it has no fewer strikes, no shorter backoff, and by no time
more sends.
-/

namespace Ephor
namespace Gateway
namespace OutboundSenderGuard

open Foundation

variable {guard : OutboundSenderGuard}

/-!
## The backoff
-/

theorem backoffFactor_mono {shift more : Nat} (h : shift <= more) :
    backoffFactor shift <= backoffFactor more := by
  rw [backoffFactor, backoffFactor]
  by_cases hmore : more < 64
  · rw [if_pos hmore, if_pos (Nat.lt_of_le_of_lt h hmore)]
    exact Nat.pow_le_pow_right (by decide) h
  · rw [if_neg hmore]
    split
    · rename_i hshift
      have hpow : 2 ^ shift <= 2 ^ 63 := Nat.pow_le_pow_right (by decide) (Nat.le_of_lt_succ hshift)
      exact Nat.le_trans hpow (by decide)
    · exact Nat.le_refl _

theorem backoff_mono (guard : OutboundSenderGuard) {strikes more : Nat} (h : strikes <= more) :
    guard.backoff strikes <= guard.backoff more := by
  apply Saturating.saturate_mono
  apply Nat.mul_le_mul_left
  apply backoffFactor_mono
  exact min_le_min_right _ (Nat.sub_le_sub_right h 1)

/-- When the backoff of so many strikes ends that a report at this time arms. -/
def armedUntil (guard : OutboundSenderGuard) (now strikes : Nat) : Nat :=
  Saturating.saturate u64Max (now + guard.backoff strikes)

variable {now latest : Nat} {e : Event} {st st' : SenderState} {taken : List Nat}

theorem armedUntil_mono {later strikes more : Nat} (hnow : now <= later)
    (hstrikes : strikes <= more) : guard.armedUntil now strikes <= guard.armedUntil later more :=
  Saturating.saturate_mono _ (Nat.add_le_add hnow (backoff_mono guard hstrikes))

theorem authorize_reputation (guard : OutboundSenderGuard) (now : Nat) (st : SenderState) :
    (guard.authorize now st).2.strikes = st.strikes ∧
      (guard.authorize now st).2.backoffUntil = st.backoffUntil := by
  have houtcome := authorize_outcome guard now st
  generalize (guard.authorize now st).1 = verdict at houtcome
  generalize (guard.authorize now st).2 = st' at houtcome
  cases houtcome with
  | inBackoff _ | capReached _ _ | overRate _ _ _ | allowed _ _ _ => exact ⟨rfl, rfl⟩

theorem advance_reputation (guard : OutboundSenderGuard) (st : SenderState)
    (h : e.call = Call.authorizeSend) :
    (guard.advance st e).strikes = st.strikes ∧
      (guard.advance st e).backoffUntil = st.backoffUntil := by
  rw [advance, h]
  dsimp only
  split
  · exact authorize_reputation guard e.now.toNat st
  · exact ⟨rfl, rfl⟩

theorem strikes_le (guard : OutboundSenderGuard) (events : List Event) (account : Str) :
    (stateOf (guard.run events) account).strikes <= u32Max := by
  induction events using List.reverseRecOn with
  | nil => exact Nat.zero_le _
  | append_singleton events e ih =>
      rw [run_append, stateOf_step]
      split
      · cases hcall : e.call with
        | authorizeSend =>
            rw [(advance_reputation guard _ hcall).1]
            exact ih
        | reportOutcome delivered =>
            rw [advance, hcall]
            cases delivered with
            | true => exact Nat.le_trans (Nat.sub_le _ _) ih
            | false => exact Nat.min_le_left _ _
      · exact ih

/-!
## Delivered reports since the last failed one
-/

def sinceFailure (account : Str) (n : Nat) (e : Event) : Nat :=
  if account = e.account then
    match e.call with
    | Call.authorizeSend => n
    | Call.reportOutcome true => n + 1
    | Call.reportOutcome false => 0
  else
    n

def deliveredSince (account : Str) (events : List Event) : Nat :=
  events.foldl (sinceFailure account) 0

/-- The backoff is that of a report, since which no more strikes than these went away. -/
def Armed (guard : OutboundSenderGuard) (latest since : Nat) (st : SenderState) : Prop :=
  exists reported strikes, st.backoffUntil <= guard.armedUntil reported strikes ∧
    reported <= latest ∧ strikes <= st.strikes + since ∧ strikes <= u32Max

theorem Armed.wait {since : Nat} (h : Armed guard latest since st) (hclock : latest <= now) :
    Armed guard now since st := by
  rcases h with ⟨reported, strikes, hend, hreported, hstrikes, hmax⟩
  exact ⟨reported, strikes, hend, Nat.le_trans hreported hclock, hstrikes, hmax⟩

theorem Armed.advance {since : Nat} {account : Str} (h : Armed guard latest since st)
    (haccount : account = e.account) (hclock : latest <= e.now.toNat) :
    Armed guard e.now.toNat (sinceFailure account since e) (guard.advance st e) := by
  rw [sinceFailure, if_pos haccount]
  cases hcall : e.call with
  | authorizeSend =>
      have hsame := advance_reputation guard st hcall
      rcases h.wait hclock with ⟨reported, strikes, hend, hreported, hstrikes, hmax⟩
      refine ⟨reported, strikes, ?_, hreported, ?_, hmax⟩
      · rw [hsame.2]
        exact hend
      · rw [hsame.1]
        exact hstrikes
  | reportOutcome delivered =>
      rw [OutboundSenderGuard.advance, hcall]
      cases delivered with
      | true =>
          rcases h.wait hclock with ⟨reported, strikes, hend, hreported, hstrikes, hmax⟩
          refine ⟨reported, strikes, hend, hreported, ?_, hmax⟩
          show strikes <= st.strikes - 1 + (since + 1)
          omega
      | false =>
          exact ⟨e.now.toNat, Saturating.saturate u32Max (st.strikes + 1), Nat.le_refl _,
            Nat.le_refl _, Nat.le_refl _, Nat.min_le_left _ _⟩

theorem armed_run (guard : OutboundSenderGuard) (events : List Event)
    (hclock : events.Pairwise fun a b => clock a <= clock b) (account : Str) :
    Armed guard (Transition.latest clock events) (deliveredSince account events)
      (stateOf (guard.run events) account) := by
  apply Transition.invariant_clocked fun latest events =>
    Armed guard latest (deliveredSince account events) (stateOf (guard.run events) account)
  · exact ⟨0, 0, Nat.zero_le _, Nat.le_refl _, Nat.zero_le _, Nat.zero_le _⟩
  · intro events e harmed hle
    rw [run_append, stateOf_step, deliveredSince, List.foldl_concat]
    by_cases haccount : account = e.account
    · rw [if_pos haccount]
      exact harmed.advance haccount hle
    · rw [if_neg haccount, sinceFailure, if_neg haccount]
      exact harmed.wait hle
  · exact hclock

theorem backoffUntil_le_report {since : Nat} (h : Armed guard latest since st)
    (hclock : latest <= now) (hsince : since <= 1) :
    st.backoffUntil <= (guard.report now false st).backoffUntil := by
  rcases h with ⟨reported, strikes, hend, hreported, hstrikes, hmax⟩
  apply Nat.le_trans hend
  apply armedUntil_mono (Nat.le_trans hreported hclock)
  apply Nat.le_min.mpr
  exact ⟨hmax, by omega⟩

theorem le_backoffUntil_report (guard : OutboundSenderGuard) (st : SenderState)
    (hnow : now < 2 ^ 64) : now <= (guard.report now false st).backoffUntil :=
  Nat.le_min.mpr ⟨Nat.le_of_lt_succ hnow, Nat.le_add_right _ _⟩

/-!
## Two runs
-/

theorem judge_eq_allow_iff (h : Inv guard latest taken st) (hclock : latest <= e.now.toNat) :
    guard.judge st e = some SenderVerdict.allow <->
      e.call = Call.authorizeSend ∧ guard.isAuthenticated e.account = true ∧
        st.backoffUntil <= e.now.toNat ∧
        taken.countP (fun t => decide (e.now.toNat - guard.volumeWindowMs.toNat <= t)) <
          guard.volumeCap.toNat ∧
        taken.countP (fun t => decide (e.now.toNat - guard.rateWindowMs.toNat <= t)) <
          guard.rateLimit.toNat := by
  have hvolume : guard.volumeCap <= UInt32.ofNat (guard.recentVolume e.now.toNat st).length <->
      guard.volumeCap.toNat <= (guard.recentVolume e.now.toNat st).length :=
    limit_le_iff (h.volume.drop hclock)
  have hrate : guard.rateLimit <= UInt32.ofNat (guard.recentRate e.now.toNat st).length <->
      guard.rateLimit.toNat <= (guard.recentRate e.now.toNat st).length :=
    limit_le_iff (h.rate.drop hclock)
  rw [<- h.volume.length_recent hclock, <- h.rate.length_recent hclock]
  change _ <-> _ ∧ _ ∧ _ ∧ (guard.recentVolume e.now.toNat st).length < _ ∧
    (guard.recentRate e.now.toNat st).length < _
  rw [<- Nat.not_le, <- Nat.not_le, <- hvolume, <- hrate, judge]
  cases hcall : e.call with
  | reportOutcome delivered =>
      apply iff_of_false
      · intro hallow
        cases hallow
      · intro hsend
        cases hsend.1
  | authorizeSend =>
      dsimp only
      rw [Option.some_inj, eq_self, true_and]
      by_cases hauth : guard.isAuthenticated e.account = true
      · rw [if_pos hauth, and_iff_right hauth]
        have houtcome := authorize_outcome guard e.now.toNat st
        generalize (guard.authorize e.now.toNat st).1 = verdict at houtcome
        generalize (guard.authorize e.now.toNat st).2 = st' at houtcome
        cases houtcome with
        | inBackoff hbackoff =>
            exact iff_of_false (by simp [inBackoff]) fun hsend =>
              absurd hsend.1 (Nat.not_le.mpr hbackoff)
        | capReached _ hcap => exact iff_of_false (by decide) fun hsend => hsend.2.1 hcap
        | overRate _ _ hlimit =>
            exact iff_of_false (by simp [overRate]) fun hsend => hsend.2.2 hlimit
        | allowed hbackoff hcap hlimit => exact iff_of_true rfl ⟨hbackoff, hcap, hlimit⟩
      · rw [if_neg hauth]
        exact iff_of_false (by decide) fun hsend => hauth hsend.1

structure Worse (guard : OutboundSenderGuard) (latest : Nat) (taken taken' : List Nat)
    (st st' : SenderState) : Prop where
  inv : Inv guard latest taken st
  inv' : Inv guard latest taken' st'
  strikes : st.strikes <= st'.strikes
  backoffUntil : st.backoffUntil <= st'.backoffUntil
  behind : SlidingWindow.Behind taken' taken

theorem Worse.wait {taken' : List Nat} (h : Worse guard latest taken taken' st st')
    (hclock : latest <= now) : Worse guard now taken taken' st st' :=
  { h with
    inv := h.inv.wait hclock
    inv' := h.inv'.wait hclock }

theorem reputation_advance (hstrikes : st.strikes <= st'.strikes)
    (hbackoff : st.backoffUntil <= st'.backoffUntil) (e : Event) :
    (guard.advance st e).strikes <= (guard.advance st' e).strikes ∧
      (guard.advance st e).backoffUntil <= (guard.advance st' e).backoffUntil := by
  cases hcall : e.call with
  | authorizeSend =>
      have hsame := advance_reputation guard st hcall
      have hsame' := advance_reputation guard st' hcall
      rw [hsame.1, hsame.2, hsame'.1, hsame'.2]
      exact ⟨hstrikes, hbackoff⟩
  | reportOutcome delivered =>
      rw [advance, advance, hcall]
      cases delivered with
      | true => exact ⟨Nat.sub_le_sub_right hstrikes 1, hbackoff⟩
      | false =>
          have hmore := Saturating.saturate_mono u32Max (Nat.add_le_add_right hstrikes 1)
          exact ⟨hmore, armedUntil_mono (Nat.le_refl _) hmore⟩

theorem Worse.behind_of_send {taken' : List Nat} (h : Worse guard latest taken taken' st st')
    (hclock : latest <= e.now.toNat) (hnot : Not (guard.judge st e = some SenderVerdict.allow))
    (hsend : guard.judge st' e = some SenderVerdict.allow) :
    SlidingWindow.Behind (taken' ++ [e.now.toNat]) taken := by
  rcases (judge_eq_allow_iff h.inv' hclock).mp hsend with ⟨hcall, hauth, hend, hvolume, hrate⟩
  have hpast : forall t, t ∈ taken -> t <= e.now.toNat := (h.inv.rate.wait hclock).past
  have hfull : Not (_ ∧ _) := fun hroom => hnot ((judge_eq_allow_iff h.inv hclock).mpr
    ⟨hcall, hauth, Nat.le_trans h.backoffUntil hend, hroom⟩)
  rcases not_and_or.mp hfull with hfull | hfull
  · exact h.behind.hit_slow hpast (Nat.lt_of_lt_of_le hvolume (Nat.not_lt.mp hfull))
  · exact h.behind.hit_slow hpast (Nat.lt_of_lt_of_le hrate (Nat.not_lt.mp hfull))

theorem Worse.advance {taken' : List Nat} (h : Worse guard latest taken taken' st st')
    (hclock : latest <= e.now.toNat) :
    Worse guard e.now.toNat (taken ++ hitOf guard st e) (taken' ++ hitOf guard st' e)
      (guard.advance st e) (guard.advance st' e) where
  inv := h.inv.advance hclock
  inv' := h.inv'.advance hclock
  strikes := (reputation_advance h.strikes h.backoffUntil e).1
  backoffUntil := (reputation_advance h.strikes h.backoffUntil e).2
  behind := by
    rw [hitOf, hitOf]
    by_cases hsend : guard.judge st e = some SenderVerdict.allow
    · rw [if_pos hsend]
      split
      · exact h.behind.hit_both _
      · rw [List.append_nil]
        exact h.behind.hit_fast _
    · rw [if_neg hsend, List.append_nil]
      split
      · rename_i hsend'
        exact h.behind_of_send hclock hsend hsend'
      · rw [List.append_nil]
        exact h.behind

theorem Worse.allows (h : Worse guard latest taken taken st st')
    (hclock : latest <= e.now.toNat) (hsend : guard.judge st' e = some SenderVerdict.allow) :
    guard.judge st e = some SenderVerdict.allow := by
  rcases (judge_eq_allow_iff h.inv' hclock).mp hsend with ⟨hcall, hauth, hend, hroom⟩
  exact (judge_eq_allow_iff h.inv hclock).mpr
    ⟨hcall, hauth, Nat.le_trans h.backoffUntil hend, hroom⟩

/-!
## A further failure in a history
-/

theorem Worse.append {account : Str} {events events' : List Event}
    (h : Worse guard latest (allowedTimes account (guard.answers events))
      (allowedTimes account (guard.answers events')) (stateOf (guard.run events) account)
      (stateOf (guard.run events') account)) (hclock : latest <= e.now.toNat) :
    Worse guard e.now.toNat (allowedTimes account (guard.answers (events ++ [e])))
      (allowedTimes account (guard.answers (events' ++ [e])))
      (stateOf (guard.run (events ++ [e])) account)
      (stateOf (guard.run (events' ++ [e])) account) := by
  rw [allowedTimes_run_append, allowedTimes_run_append, run_append, run_append, stateOf_step,
    stateOf_step]
  by_cases haccount : account = e.account
  · rw [if_pos haccount, if_pos haccount, if_pos haccount, if_pos haccount]
    exact h.advance hclock
  · rw [if_neg haccount, if_neg haccount, if_neg haccount, if_neg haccount, List.append_nil,
      List.append_nil]
    exact h.wait hclock

section Inserted

variable {front : List Event} {failed : Event}

theorem allowedTimes_failed (hfailed : failed.call = Call.reportOutcome false) (account : Str) :
    allowedTimes account (guard.answers (front ++ [failed])) =
      allowedTimes account (guard.answers front) := by
  have hnone : hitOf guard (stateOf (guard.run front) account) failed = [] := by
    rw [hitOf, judge, hfailed]
    rfl
  rw [allowedTimes_run_append, hnone, ite_self, List.append_nil]

theorem pairwise_inserted {back : List Event}
    (h : (front ++ failed :: (back ++ [e])).Pairwise fun a b => clock a <= clock b) :
    ((front ++ failed :: back).Pairwise fun a b => clock a <= clock b) ∧
      Transition.latest clock (failed :: back) <= clock e := by
  rw [<- List.cons_append, <- List.append_assoc] at h
  rcases List.pairwise_append.mp h with ⟨hbefore, _, hlast⟩
  exact ⟨hbefore, Transition.latest_le fun earlier hmem =>
    hlast earlier (List.mem_append_right front hmem) e List.mem_cons_self⟩

variable (guard) (hfailed : failed.call = Call.reportOutcome false)
  (hend : (stateOf (guard.run front) failed.account).backoffUntil <=
    (stateOf (guard.run (front ++ [failed])) failed.account).backoffUntil)

include hfailed hend

theorem worse_failed (hclock : (front ++ [failed]).Pairwise fun a b => clock a <= clock b)
    (account : Str) :
    Worse guard (clock failed) (allowedTimes account (guard.answers front))
      (allowedTimes account (guard.answers (front ++ [failed])))
      (stateOf (guard.run front) account) (stateOf (guard.run (front ++ [failed])) account) := by
  have hle := Transition.latest_le_of_pairwise hclock
  have hinv := (inv_run guard front (List.pairwise_append.mp hclock).1 account).wait hle
  have hinv' := inv_run guard (front ++ [failed]) hclock account
  rw [Transition.latest_concat] at hinv'
  have hbehind : SlidingWindow.Behind (allowedTimes account (guard.answers (front ++ [failed])))
      (allowedTimes account (guard.answers front)) := by
    rw [allowedTimes_failed hfailed]
    exact SlidingWindow.Behind.refl _
  by_cases haccount : account = failed.account
  · rw [<- haccount] at hend
    refine ⟨hinv, hinv', ?_, hend, hbehind⟩
    rw [run_append, stateOf_step, if_pos haccount, OutboundSenderGuard.advance, hfailed]
    exact Nat.le_min.mpr ⟨strikes_le guard front account, Nat.le_succ _⟩
  · have hsame : stateOf (guard.run (front ++ [failed])) account =
        stateOf (guard.run front) account := by
      rw [run_append, stateOf_step, if_neg haccount]
    refine ⟨hinv, hinv', ?_, ?_, hbehind⟩
    · rw [hsame]
    · rw [hsame]

theorem worse_run {back : List Event}
    (hclock : (front ++ failed :: back).Pairwise fun a b => clock a <= clock b) (account : Str) :
    Worse guard (Transition.latest clock (failed :: back))
      (allowedTimes account (guard.answers (front ++ back)))
      (allowedTimes account (guard.answers (front ++ failed :: back)))
      (stateOf (guard.run (front ++ back)) account)
      (stateOf (guard.run (front ++ failed :: back)) account) := by
  induction back using List.reverseRecOn with
  | nil =>
      rw [List.append_nil]
      exact worse_failed guard hfailed hend hclock account
  | append_singleton back e ih =>
      rcases pairwise_inserted hclock with ⟨hbefore, hle⟩
      rw [<- List.cons_append, <- List.append_assoc, <- List.append_assoc,
        Transition.latest_concat]
      exact (ih hbefore).append hle

theorem same_sends {middle : List Event}
    (hclock : (front ++ failed :: middle).Pairwise fun a b => clock a <= clock b) {account : Str}
    (hallowed : forall before x after, middle = before ++ x :: after -> x.account = account ->
      guard.verdict (guard.run (front ++ before)) x = some SenderVerdict.allow ->
      guard.verdict (guard.run (front ++ failed :: before)) x = some SenderVerdict.allow) :
    allowedTimes account (guard.answers (front ++ failed :: middle)) =
      allowedTimes account (guard.answers (front ++ middle)) := by
  induction middle using List.reverseRecOn with
  | nil =>
      rw [List.append_nil]
      exact allowedTimes_failed hfailed account
  | append_singleton middle e ih =>
      rcases pairwise_inserted hclock with ⟨hbefore, hle⟩
      have hsame := ih hbefore (by
        intro before x after hmiddle
        apply hallowed before x (after ++ [e])
        rw [hmiddle, List.append_assoc, List.cons_append])
      rw [<- List.cons_append, <- List.append_assoc, <- List.append_assoc, allowedTimes_run_append,
        allowedTimes_run_append, hsame]
      congr 1
      by_cases haccount : account = e.account
      · have hworse := worse_run guard hfailed hend hbefore account
        rw [hsame] at hworse
        have hsends := hallowed middle e [] rfl haccount.symm
        rw [verdict_eq, verdict_eq, <- haccount] at hsends
        rw [if_pos haccount, if_pos haccount, hitOf, hitOf]
        exact if_congr ⟨fun hsend => hworse.allows hle hsend, hsends⟩ rfl rfl
      · rw [if_neg haccount, if_neg haccount]

end Inserted

/-!
## The sender is not helped
-/

theorem bad_signal (guard : OutboundSenderGuard) (front back : List Event) (failed : Event)
    (hclock : (front ++ failed :: back).Pairwise fun a b => a.now <= b.now)
    (hfailed : failed.call = Call.reportOutcome false) :
    ((stateOf (guard.run front) failed.account).backoffUntil <= failed.now.toNat ∨
        deliveredSince failed.account front <= 1 ->
      (stateOf (guard.run front) failed.account).backoffUntil <=
        (stateOf (guard.run (front ++ [failed])) failed.account).backoffUntil) ∧
    ((stateOf (guard.run front) failed.account).backoffUntil <=
        (stateOf (guard.run (front ++ [failed])) failed.account).backoffUntil ->
      (forall middle e rest, back = middle ++ e :: rest ->
        (forall before x after, middle = before ++ x :: after -> x.account = e.account ->
          guard.verdict (guard.run (front ++ before)) x = some SenderVerdict.allow ->
          guard.verdict (guard.run (front ++ failed :: before)) x = some SenderVerdict.allow) ->
        guard.verdict (guard.run (front ++ failed :: middle)) e = some SenderVerdict.allow ->
        guard.verdict (guard.run (front ++ middle)) e = some SenderVerdict.allow) ∧
      (forall account bound,
        (allowedTimes account (guard.answers (front ++ failed :: back))).countP
            (fun t => decide (t <= bound)) <=
          (allowedTimes account (guard.answers (front ++ back))).countP
            fun t => decide (t <= bound))) := by
  have hclock := clock_pairwise hclock
  have hfirst : (front ++ [failed]).Pairwise fun a b => clock a <= clock b := by
    rw [List.append_cons] at hclock
    exact (List.pairwise_append.mp hclock).1
  constructor
  · intro hcalm
    rw [run_append, stateOf_step, if_pos rfl, advance, hfailed]
    rcases hcalm with hended | hsince
    · exact Nat.le_trans hended (le_backoffUntil_report guard _ failed.now.toNat_lt)
    · have harmed := armed_run guard front (List.pairwise_append.mp hfirst).1 failed.account
      exact backoffUntil_le_report harmed (Transition.latest_le_of_pairwise hfirst) hsince
  · intro hend
    constructor
    · intro middle e rest hback hallowed hsend
      rw [hback, List.append_cons middle, <- List.cons_append, <- List.append_assoc] at hclock
      rcases pairwise_inserted (List.pairwise_append.mp hclock).1 with ⟨hbefore, hle⟩
      have hworse := worse_run guard hfailed hend hbefore e.account
      rw [same_sends guard hfailed hend hbefore hallowed] at hworse
      rw [verdict_eq] at hsend ⊢
      exact hworse.allows hle hsend
    · intro account
      exact (worse_run guard hfailed hend hclock account).behind

def briefGuard : OutboundSenderGuard :=
  { slowGuard with backoffBaseMs := 10 }

def reportAt (now : UInt64) (delivered : Bool) : Event :=
  ⟨now, "acct-alice".toList, Call.reportOutcome delivered⟩

/--
A failure after two delivered reports ends the backoff earlier, and one that holds a send off
makes room for a later one.
-/
theorem bad_signal_helps :
    ((stateOf (briefGuard.run [reportAt 0 false, reportAt 0 false, reportAt 0 true,
        reportAt 0 true]) "acct-alice".toList).backoffUntil = 20 ∧
      (stateOf (briefGuard.run [reportAt 0 false, reportAt 0 false, reportAt 0 true,
        reportAt 0 true, reportAt 0 false]) "acct-alice".toList).backoffUntil = 10) ∧
    (briefGuard.verdict (briefGuard.run [sendAt 5]) (sendAt 20) = some (overRate 59985) ∧
      briefGuard.verdict (briefGuard.run [reportAt 0 false, sendAt 5]) (sendAt 20) =
        some SenderVerdict.allow) := by
  decide +kernel

def recovered : List Event :=
  [reportAt 0 false, reportAt 11 true, reportAt 12 true]

/-- A sender that has recovered fails again. -/
theorem bad_signal_after_recovery :
    (stateOf (briefGuard.run recovered) "acct-alice".toList).backoffUntil <=
        (stateOf (briefGuard.run (recovered ++ [reportAt 15 false]))
          "acct-alice".toList).backoffUntil ∧
      forall account, (allowedTimes account (briefGuard.answers
          (recovered ++ [reportAt 15 false, sendAt 30]))).countP (fun t => decide (t <= 30)) <=
        (allowedTimes account (briefGuard.answers (recovered ++ [sendAt 30]))).countP
          fun t => decide (t <= 30) := by
  have h := bad_signal briefGuard recovered [sendAt 30] (reportAt 15 false) (by decide) rfl
  have hend := h.1 (Or.inl (by decide +kernel))
  exact ⟨hend, fun account => (h.2 hend).2 account 30⟩

end OutboundSenderGuard
end Gateway
end Ephor
