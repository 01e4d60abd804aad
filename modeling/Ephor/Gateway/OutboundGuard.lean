import Ephor.Foundation.FiniteMap
import Ephor.Foundation.Saturating
import Ephor.Foundation.SlidingWindow
import Ephor.Foundation.Transition
import Ephor.Gateway.Inbound

/-!
# The outbound sender guard

`OutboundSenderGuard` of `pier-gateway/src/outbound_guard.rs`: the sends of an account are held to
a rate limit, to a volume cap and to a backoff that its failed deliveries arm.  Times are
milliseconds in a `u64`; the sum behind the retry hint wraps, every other one saturates.
-/

namespace Ephor
namespace Gateway

open Foundation
open Foundation.Text

inductive SenderVerdict where
  | allow
  | throttle (retryAfterMs : Nat) (reason : String)
  | refuse (reason : String)
deriving DecidableEq

structure SenderState where
  rateHits : List Nat
  volumeHits : List Nat
  strikes : Nat
  backoffUntil : Nat
deriving DecidableEq

def SenderState.empty : SenderState :=
  ⟨[], [], 0, 0⟩

abbrev SenderStates :=
  FiniteMap Str SenderState

structure OutboundSenderGuard where
  rateLimit : UInt32
  rateWindowMs : UInt64
  volumeCap : UInt32
  volumeWindowMs : UInt64
  backoffBaseMs : UInt64
  backoffMaxShift : UInt32
  registered : Option (List Str)

namespace OutboundSenderGuard

/-- The defaults of `with_clock`. -/
def new : OutboundSenderGuard where
  rateLimit := 20
  rateWindowMs := 60000
  volumeCap := 500
  volumeWindowMs := 24 * 3600000
  backoffBaseMs := 300000
  backoffMaxShift := 3
  registered := none

def u64Max : Nat :=
  2 ^ 64 - 1

def u32Max : Nat :=
  2 ^ 32 - 1

def denied : SenderVerdict :=
  SenderVerdict.refuse "5.7.1 outbound relay denied: sender is not an authenticated account"

def inBackoff (retryAfterMs : Nat) : SenderVerdict :=
  SenderVerdict.throttle retryAfterMs
    "4.7.1 sender in reputation backoff after prior delivery failures"

def capReached : SenderVerdict :=
  SenderVerdict.refuse "5.7.1 outbound volume cap reached for this sender; relay refused"

def overRate (retryAfterMs : Nat) : SenderVerdict :=
  SenderVerdict.throttle retryAfterMs
    "4.7.1 per-sender outbound rate limit exceeded; slow down"

variable (guard : OutboundSenderGuard)

def isAuthenticated (account : Str) : Bool :=
  if trim account = [] then
    false
  else
    match guard.registered with
    | some set => set.contains account
    | none => false

/-- How long until the oldest hit falls out of the window. -/
def retryAfter (now : Nat) (rateHits : List Nat) : Nat :=
  match rateHits.head? with
  | some oldest => (oldest + guard.rateWindowMs.toNat) % 2 ^ 64 - now
  | none => guard.rateWindowMs.toNat

def recentRate (now : Nat) (st : SenderState) : List Nat :=
  SlidingWindow.recent guard.rateWindowMs.toNat now st.rateHits

def recentVolume (now : Nat) (st : SenderState) : List Nat :=
  SlidingWindow.recent guard.volumeWindowMs.toNat now st.volumeHits

/-- The part of `authorize_send` behind the authentication, on the entry of the account. -/
def authorize (now : Nat) (st : SenderState) : SenderVerdict × SenderState :=
  if now < st.backoffUntil then
    (inBackoff (st.backoffUntil - now), st)
  else
    let volumeHits := guard.recentVolume now st
    let rateHits := guard.recentRate now st
    if guard.volumeCap <= UInt32.ofNat volumeHits.length then
      (capReached, { st with volumeHits := volumeHits })
    else if guard.rateLimit <= UInt32.ofNat rateHits.length then
      (overRate (max (guard.retryAfter now rateHits) 1),
        { st with volumeHits := volumeHits, rateHits := rateHits })
    else
      (SenderVerdict.allow,
        { st with volumeHits := volumeHits ++ [now], rateHits := rateHits ++ [now] })

/-- `1u64.checked_shl(shift)`, or the largest number. -/
def backoffFactor (shift : Nat) : Nat :=
  if shift < 64 then 2 ^ shift else u64Max

/-- How long the backoff of so many strikes takes. -/
def backoff (strikes : Nat) : Nat :=
  Saturating.saturate u64Max
    (guard.backoffBaseMs.toNat * backoffFactor (min (strikes - 1) guard.backoffMaxShift.toNat))

/-- The part of `report_outcome` on the entry of the account. -/
def report (now : Nat) (delivered : Bool) (st : SenderState) : SenderState :=
  if delivered then
    { st with strikes := st.strikes - 1 }
  else
    let strikes := Saturating.saturate u32Max (st.strikes + 1)
    { st with
      strikes := strikes
      backoffUntil := Saturating.saturate u64Max (now + guard.backoff strikes) }

/-- The entry of the account, made when there is none. -/
def stateOf (states : SenderStates) (account : Str) : SenderState :=
  (states.lookup account).getD SenderState.empty

def authorizeSend (now : UInt64) (states : SenderStates) (account : Str) :
    SenderVerdict × SenderStates :=
  if guard.isAuthenticated account then
    let (verdict, st) := guard.authorize now.toNat (stateOf states account)
    (verdict, states.insert account st)
  else
    (denied, states)

def reportOutcome (now : UInt64) (states : SenderStates) (account : Str) (delivered : Bool) :
    SenderStates :=
  states.insert account (guard.report now.toNat delivered (stateOf states account))

/-!
## Runs
-/

inductive Call where
  | authorizeSend
  | reportOutcome (delivered : Bool)
deriving DecidableEq

/-- A call for an account, and what the clock says. -/
structure Event where
  now : UInt64
  account : Str
  call : Call
deriving DecidableEq

def step (states : SenderStates) (e : Event) : SenderStates :=
  match e.call with
  | Call.authorizeSend => (guard.authorizeSend e.now states e.account).2
  | Call.reportOutcome delivered => guard.reportOutcome e.now states e.account delivered

/-- What the call answers, if it is one for a send. -/
def verdict (states : SenderStates) (e : Event) : Option SenderVerdict :=
  match e.call with
  | Call.authorizeSend => some (guard.authorizeSend e.now states e.account).1
  | Call.reportOutcome _ => none

def run (events : List Event) : SenderStates :=
  Transition.after guard.step ∅ events

def answers (events : List Event) : List (Event × Option SenderVerdict) :=
  Transition.emitted guard.step (fun states e => [(e, guard.verdict states e)]) ∅ events

def allowedTimes (account : Str) (outs : List (Event × Option SenderVerdict)) : List Nat :=
  (outs.filter fun out => out.1.account == account && out.2 == some SenderVerdict.allow).map
    fun out => out.1.now.toNat

/-!
## One account
-/

/-- What a call does to the entry of its account. -/
def advance (st : SenderState) (e : Event) : SenderState :=
  match e.call with
  | Call.authorizeSend =>
      if guard.isAuthenticated e.account then (guard.authorize e.now.toNat st).2 else st
  | Call.reportOutcome delivered => guard.report e.now.toNat delivered st

def judge (st : SenderState) (e : Event) : Option SenderVerdict :=
  match e.call with
  | Call.authorizeSend =>
      some (if guard.isAuthenticated e.account then (guard.authorize e.now.toNat st).1 else denied)
  | Call.reportOutcome _ => none

theorem stateOf_insert (states : SenderStates) (account other : Str) (st : SenderState) :
    stateOf (states.insert account st) other =
      if other = account then st else stateOf states other := by
  by_cases hother : other = account
  · rw [if_pos hother, stateOf, hother, Finmap.lookup_insert]
    rfl
  · rw [if_neg hother, stateOf, Finmap.lookup_insert_of_ne _ hother]
    rfl

theorem stateOf_step (states : SenderStates) (e : Event) (account : Str) :
    stateOf (guard.step states e) account =
      if account = e.account then guard.advance (stateOf states account) e
      else stateOf states account := by
  rw [step, advance]
  cases e.call with
  | authorizeSend =>
      dsimp only
      rw [authorizeSend]
      split
      · dsimp only
        rw [stateOf_insert]
        split
        · rename_i haccount
          rw [haccount]
        · rfl
      · rw [ite_self]
  | reportOutcome delivered =>
      dsimp only
      rw [reportOutcome, stateOf_insert]
      split
      · rename_i haccount
        rw [haccount]
      · rfl

theorem verdict_eq (states : SenderStates) (e : Event) :
    guard.verdict states e = guard.judge (stateOf states e.account) e := by
  rw [verdict, judge]
  cases e.call with
  | authorizeSend =>
      dsimp only
      rw [authorizeSend]
      split
      · rfl
      · rfl
  | reportOutcome _ => rfl

variable {guard}

/-- What one call can do to an account that is authenticated. -/
inductive Outcome (guard : OutboundSenderGuard) (now : Nat) (st : SenderState) :
    SenderVerdict -> SenderState -> Prop where
  | inBackoff : now < st.backoffUntil ->
      Outcome guard now st (inBackoff (st.backoffUntil - now)) st
  | capReached : st.backoffUntil <= now ->
      guard.volumeCap <= UInt32.ofNat (guard.recentVolume now st).length ->
      Outcome guard now st capReached { st with volumeHits := guard.recentVolume now st }
  | overRate : st.backoffUntil <= now ->
      ¬ guard.volumeCap <= UInt32.ofNat (guard.recentVolume now st).length ->
      guard.rateLimit <= UInt32.ofNat (guard.recentRate now st).length ->
      Outcome guard now st (overRate (max (guard.retryAfter now (guard.recentRate now st)) 1))
        { st with
          volumeHits := guard.recentVolume now st
          rateHits := guard.recentRate now st }
  | allowed : st.backoffUntil <= now ->
      ¬ guard.volumeCap <= UInt32.ofNat (guard.recentVolume now st).length ->
      ¬ guard.rateLimit <= UInt32.ofNat (guard.recentRate now st).length ->
      Outcome guard now st SenderVerdict.allow
        { st with
          volumeHits := guard.recentVolume now st ++ [now]
          rateHits := guard.recentRate now st ++ [now] }

theorem authorize_outcome (guard : OutboundSenderGuard) (now : Nat) (st : SenderState) :
    Outcome guard now st (guard.authorize now st).1 (guard.authorize now st).2 := by
  rw [authorize]
  split
  · rename_i hbackoff
    exact Outcome.inBackoff hbackoff
  rename_i hbackoff
  have hbackoff := Nat.le_of_not_lt hbackoff
  dsimp only
  split
  · rename_i hcap
    exact Outcome.capReached hbackoff hcap
  rename_i hvolume
  split
  · rename_i hlimit
    exact Outcome.overRate hbackoff hvolume hlimit
  · rename_i hrate
    exact Outcome.allowed hbackoff hvolume hrate

/-!
## The windows
-/

structure Inv (guard : OutboundSenderGuard) (latest : Nat) (taken : List Nat) (st : SenderState) :
    Prop where
  rate : SlidingWindow.Tracks guard.rateWindowMs.toNat guard.rateLimit.toNat latest taken
    st.rateHits
  volume : SlidingWindow.Tracks guard.volumeWindowMs.toNat guard.volumeCap.toNat latest taken
    st.volumeHits

theorem Inv.start (guard : OutboundSenderGuard) : Inv guard 0 [] SenderState.empty :=
  ⟨SlidingWindow.Tracks.start _ _, SlidingWindow.Tracks.start _ _⟩

variable {latest now : Nat} {taken : List Nat} {st : SenderState} {e : Event}

theorem Inv.wait (h : Inv guard latest taken st) (hclock : latest <= now) :
    Inv guard now taken st :=
  ⟨h.rate.wait hclock, h.volume.wait hclock⟩

theorem limit_le_iff {limit : UInt32} {window : Nat} {kept : List Nat}
    (h : SlidingWindow.Tracks window limit.toNat latest taken kept) :
    limit <= UInt32.ofNat kept.length <-> limit.toNat <= kept.length := by
  have hsmall := Nat.lt_of_le_of_lt h.bounded limit.toNat_lt
  rw [UInt32.le_iff_toNat_le, UInt32.toNat_ofNat', Nat.mod_eq_of_lt hsmall]

/-- When the account was allowed to send by this call. -/
def hitOf (guard : OutboundSenderGuard) (st : SenderState) (e : Event) : List Nat :=
  if guard.judge st e = some SenderVerdict.allow then [e.now.toNat] else []

theorem Inv.advance (h : Inv guard latest taken st) (hclock : latest <= e.now.toNat) :
    Inv guard e.now.toNat (taken ++ hitOf guard st e) (guard.advance st e) := by
  have hrate := h.rate.drop hclock
  have hvolume := h.volume.drop hclock
  rw [hitOf, judge, OutboundSenderGuard.advance]
  cases e.call with
  | reportOutcome delivered =>
      dsimp only
      rw [if_neg (by decide), List.append_nil, report]
      split
      · exact ⟨h.rate.wait hclock, h.volume.wait hclock⟩
      · exact ⟨h.rate.wait hclock, h.volume.wait hclock⟩
  | authorizeSend =>
      dsimp only
      split
      · have houtcome := authorize_outcome guard e.now.toNat st
        generalize (guard.authorize e.now.toNat st).1 = verdict at houtcome
        generalize (guard.authorize e.now.toNat st).2 = st' at houtcome
        cases houtcome with
        | inBackoff _ =>
            rw [if_neg (by simp [OutboundSenderGuard.inBackoff]), List.append_nil]
            exact h.wait hclock
        | capReached _ _ =>
            rw [if_neg (by decide), List.append_nil]
            exact ⟨h.rate.wait hclock, hvolume⟩
        | overRate _ _ _ =>
            rw [if_neg (by simp [OutboundSenderGuard.overRate]), List.append_nil]
            exact ⟨hrate, hvolume⟩
        | allowed _ hcap hlimit =>
            rw [if_pos rfl]
            have hcap := Nat.lt_of_not_le (mt (limit_le_iff hvolume).mpr hcap)
            have hlimit := Nat.lt_of_not_le (mt (limit_le_iff hrate).mpr hlimit)
            exact ⟨hrate.hit hlimit, hvolume.hit hcap⟩
      · rw [if_neg (by decide), List.append_nil]
        exact h.wait hclock

/-!
## A whole run
-/

theorem run_append (events : List Event) (e : Event) :
    guard.run (events ++ [e]) = guard.step (guard.run events) e :=
  Transition.after_concat guard.step ∅ events e

theorem answers_append (events : List Event) (e : Event) :
    guard.answers (events ++ [e]) =
      guard.answers events ++ [(e, guard.verdict (guard.run events) e)] :=
  Transition.emitted_concat guard.step _ ∅ events e

def clock (e : Event) : Nat :=
  e.now.toNat

theorem clock_pairwise {events : List Event} (h : events.Pairwise fun a b => a.now <= b.now) :
    events.Pairwise fun a b => clock a <= clock b :=
  h.imp UInt64.le_iff_toNat_le.mp

theorem allowedTimes_append (account : Str) (outs : List (Event × Option SenderVerdict))
    (e : Event) (answer : Option SenderVerdict) :
    allowedTimes account (outs ++ [(e, answer)]) =
      allowedTimes account outs ++
        if account = e.account then
          if answer = some SenderVerdict.allow then [e.now.toNat] else []
        else [] := by
  rw [allowedTimes, List.filter_append, List.map_append, List.filter_cons, List.filter_nil]
  by_cases haccount : account = e.account
  · rw [if_pos haccount, haccount, beq_self_eq_true, Bool.true_and]
    by_cases hanswer : answer = some SenderVerdict.allow
    · rw [if_pos hanswer, if_pos (beq_iff_eq.mpr hanswer)]
      rfl
    · rw [if_neg hanswer, if_neg (fun h => hanswer (beq_iff_eq.mp h))]
      rfl
  · rw [if_neg haccount, beq_false_of_ne (Ne.symm haccount), Bool.false_and]
    rfl

theorem allowedTimes_run_append (events : List Event) (e : Event) (account : Str) :
    allowedTimes account (guard.answers (events ++ [e])) =
      allowedTimes account (guard.answers events) ++
        if account = e.account then hitOf guard (stateOf (guard.run events) account) e else [] := by
  rw [answers_append, allowedTimes_append, verdict_eq]
  by_cases haccount : account = e.account
  · rw [if_pos haccount, if_pos haccount, hitOf, haccount]
  · rw [if_neg haccount, if_neg haccount]

theorem inv_run (guard : OutboundSenderGuard) (events : List Event)
    (hclock : events.Pairwise fun a b => clock a <= clock b) (account : Str) :
    Inv guard (Transition.latest clock events) (allowedTimes account (guard.answers events))
      (stateOf (guard.run events) account) := by
  apply Transition.invariant_clocked fun latest events =>
    Inv guard latest (allowedTimes account (guard.answers events))
      (stateOf (guard.run events) account)
  · exact Inv.start guard
  · intro events e hinv hle
    rw [run_append, allowedTimes_run_append, stateOf_step]
    by_cases haccount : account = e.account
    · rw [if_pos haccount, if_pos haccount]
      exact hinv.advance hle
    · rw [if_neg haccount, if_neg haccount, List.append_nil]
      exact hinv.wait hle
  · exact hclock

/-!
## Accounts apart
-/

theorem stateOf_run_filter (guard : OutboundSenderGuard) (events : List Event) (account : Str) :
    stateOf (guard.run (events.filter fun e => e.account == account)) account =
      stateOf (guard.run events) account := by
  induction events using List.reverseRecOn with
  | nil => rfl
  | append_singleton events e ih =>
      rw [List.filter_append, List.filter_cons, List.filter_nil, run_append, stateOf_step]
      by_cases haccount : account = e.account
      · rw [if_pos (beq_iff_eq.mpr haccount.symm), if_pos haccount, run_append, stateOf_step,
          if_pos haccount, ih]
      · rw [if_neg (fun h => haccount (beq_iff_eq.mp h).symm), if_neg haccount, List.append_nil,
          ih]

theorem answers_filter (guard : OutboundSenderGuard) (events : List Event) (account : Str) :
    (guard.answers events).filter (fun out => out.1.account == account) =
      guard.answers (events.filter fun e => e.account == account) := by
  induction events using List.reverseRecOn with
  | nil => rfl
  | append_singleton events e ih =>
      rw [List.filter_append, List.filter_cons, List.filter_nil, answers_append,
        List.filter_append, List.filter_cons, List.filter_nil, ih]
      by_cases haccount : e.account = account
      · rw [if_pos (beq_iff_eq.mpr haccount), if_pos (beq_iff_eq.mpr haccount), answers_append,
          verdict_eq, verdict_eq, haccount, stateOf_run_filter]
      · rw [if_neg (fun h => haccount (beq_iff_eq.mp h)),
          if_neg (fun h => haccount (beq_iff_eq.mp h)), List.append_nil, List.append_nil]

theorem stateOf_run_append {middle : List Event} {account : Str}
    (h : forall e, e ∈ middle -> e.account ≠ account) (front : List Event) :
    stateOf (guard.run (front ++ middle)) account = stateOf (guard.run front) account := by
  have hnone : middle.filter (fun e => e.account == account) = [] := by
    apply List.filter_eq_nil_iff.mpr
    intro e he
    rw [beq_iff_eq]
    exact h e he
  rw [<- stateOf_run_filter, List.filter_append, hnone, List.append_nil, stateOf_run_filter]

/-!
## Retry hints
-/

def Throttled (verdict : Option SenderVerdict) : Prop :=
  exists retryAfterMs reason, verdict = some (SenderVerdict.throttle retryAfterMs reason)

/--
The hint is long enough: at the end of a backoff the volume cap is reached or the rate window has
room, and the oldest hit of a full rate window is exactly one window old.
-/
def HintHolds (guard : OutboundSenderGuard) (st : SenderState) (now : Nat) : Prop :=
  (now < st.backoffUntil ∧
    (guard.volumeCap.toNat <= (guard.recentVolume st.backoffUntil st).length ∨
      (guard.recentRate st.backoffUntil st).length < guard.rateLimit.toNat)) ∨
  (st.backoffUntil <= now ∧
    exists oldest, (guard.recentRate now st).head? = some oldest ∧
      now = oldest + guard.rateWindowMs.toNat)

theorem throttled_authorize_iff (h : Inv guard latest taken st) (hclock : latest <= now) :
    Throttled (some (guard.authorize now st).1) <->
      now < st.backoffUntil ∨
        (guard.recentVolume now st).length < guard.volumeCap.toNat ∧
          guard.rateLimit.toNat <= (guard.recentRate now st).length := by
  have hvolume := limit_le_iff (h.volume.drop hclock)
  have hrate := limit_le_iff (h.rate.drop hclock)
  have houtcome := authorize_outcome guard now st
  generalize (guard.authorize now st).1 = verdict at houtcome
  generalize (guard.authorize now st).2 = st' at houtcome
  cases houtcome with
  | inBackoff hbackoff => exact iff_of_true ⟨_, _, rfl⟩ (Or.inl hbackoff)
  | capReached hbackoff hcap =>
      apply iff_of_false
      · intro hthrottled
        rcases hthrottled with ⟨retry, reason, hverdict⟩
        cases hverdict
      · intro hthrottled
        rcases hthrottled with hlt | ⟨hlt, _⟩
        · exact absurd hlt (Nat.not_lt.mpr hbackoff)
        · exact absurd hlt (Nat.not_lt.mpr (hvolume.mp hcap))
  | overRate hbackoff hcap hlimit =>
      exact iff_of_true ⟨_, _, rfl⟩
        (Or.inr ⟨Nat.lt_of_not_le (mt hvolume.mpr hcap), hrate.mp hlimit⟩)
  | allowed hbackoff hcap hlimit =>
      apply iff_of_false
      · intro hthrottled
        rcases hthrottled with ⟨retry, reason, hverdict⟩
        cases hverdict
      · intro hthrottled
        rcases hthrottled with hlt | ⟨_, hle⟩
        · exact absurd hlt (Nat.not_lt.mpr hbackoff)
        · exact hlimit (hrate.mpr hle)

theorem oldest_lt_iff {window oldest : Nat} (hwindow : window < 2 ^ 64) (hpast : oldest <= now)
    (hrecent : now - window <= oldest)
    (hlater : now + max ((oldest + window) % 2 ^ 64 - now) 1 < 2 ^ 64) :
    oldest + window < now + max ((oldest + window) % 2 ^ 64 - now) 1 <-> now = oldest + window := by
  by_cases hwraps : oldest + window < 2 ^ 64
  · rw [Nat.mod_eq_of_lt hwraps]
    omega
  · rw [Nat.mod_eq_sub_mod (Nat.le_of_not_lt hwraps), Nat.mod_eq_of_lt (by omega)] at hlater ⊢
    omega

theorem hint_iff {retry : Nat} {reason : String} (h : Inv guard latest taken st)
    (hclock : latest <= now) (hlater : now + retry < 2 ^ 64)
    (hthrottle : (guard.authorize now st).1 = SenderVerdict.throttle retry reason) :
    Not (Throttled (some (guard.authorize (now + retry) (guard.authorize now st).2).1)) <->
      HintHolds guard st now := by
  have hrate : SlidingWindow.Tracks guard.rateWindowMs.toNat guard.rateLimit.toNat now taken
      (guard.recentRate now st) := h.rate.drop hclock
  have hvolume : SlidingWindow.Tracks guard.volumeWindowMs.toNat guard.volumeCap.toNat now taken
      (guard.recentVolume now st) := h.volume.drop hclock
  have houtcome := authorize_outcome guard now st
  rw [hthrottle] at houtcome
  generalize (guard.authorize now st).2 = st' at houtcome
  rw [HintHolds]
  generalize hverdict : SenderVerdict.throttle retry reason = verdict at houtcome
  cases houtcome with
  | inBackoff hbackoff =>
      have hend : now + retry = st.backoffUntil := by
        cases hverdict
        omega
      have hnot : Not (st.backoffUntil <= now ∧ exists oldest,
          (guard.recentRate now st).head? = some oldest ∧
            now = oldest + guard.rateWindowMs.toNat) :=
        fun hle => absurd hbackoff (Nat.not_lt.mpr hle.1)
      rw [throttled_authorize_iff h (by omega), hend, or_iff_right (Nat.lt_irrefl _),
        or_iff_left hnot, and_iff_right hbackoff, not_and_or, Nat.not_lt, Nat.not_le]
  | capReached _ _ | allowed _ _ _ => cases hverdict
  | overRate hbackoff hcap hlimit =>
      cases hverdict
      have hinv : Inv guard now taken { st with
          volumeHits := guard.recentVolume now st
          rateHits := guard.recentRate now st } := ⟨hrate, hvolume⟩
      -- The volume window has room still, and the rate window is exactly full.
      have hcap := Nat.lt_of_not_le (mt (limit_le_iff hvolume).mpr hcap)
      have hfull := Nat.le_antisymm ((limit_le_iff hrate).mp hlimit) hrate.bounded
      have hroom : forall later, (guard.recentVolume later { st with
          volumeHits := guard.recentVolume now st
          rateHits := guard.recentRate now st }).length < guard.volumeCap.toNat := by
        intro later
        exact Nat.lt_of_le_of_lt (SlidingWindow.length_recent_le _ _ _) hcap
      rw [throttled_authorize_iff hinv (Nat.le_add_right _ _),
        or_iff_right (by
          show Not (_ < st.backoffUntil)
          omega),
        and_iff_right (hroom _), Nat.not_le,
        or_iff_right (fun hlt => absurd hlt.1 (Nat.not_lt.mpr hbackoff)), and_iff_right hbackoff,
        hfull]
      change (SlidingWindow.recent _ _ (guard.recentRate now st)).length <
        (guard.recentRate now st).length <-> _
      rw [SlidingWindow.length_recent_lt_iff hrate.sorted]
      apply exists_congr
      intro oldest
      apply and_congr_right
      intro hhead
      have hmem := List.mem_of_mem_head? hhead
      have hrecent := of_decide_eq_true (List.mem_filter.mp hmem).2
      rw [retryAfter, hhead] at hlater ⊢
      exact oldest_lt_iff guard.rateWindowMs.toNat_lt (hrate.past oldest (hrate.subset hmem))
        hrecent hlater

theorem authorize_of_verdict {states : SenderStates} {retry : Nat} {reason : String}
    (h : guard.verdict states e = some (SenderVerdict.throttle retry reason)) :
    e.call = Call.authorizeSend ∧ guard.isAuthenticated e.account = true ∧
      (guard.authorize e.now.toNat (stateOf states e.account)).1 =
        SenderVerdict.throttle retry reason := by
  rw [verdict_eq, judge] at h
  cases hcall : e.call with
  | reportOutcome delivered =>
      rw [hcall] at h
      cases h
  | authorizeSend =>
      rw [hcall] at h
      have h := Option.some_inj.mp h
      split at h
      · rename_i hauth
        exact ⟨rfl, hauth, h⟩
      · cases h

theorem verdict_of_authenticated {states : SenderStates} (hcall : e.call = Call.authorizeSend)
    (hauth : guard.isAuthenticated e.account = true) :
    guard.verdict states e = some (guard.authorize e.now.toNat (stateOf states e.account)).1 := by
  rw [verdict_eq, judge, hcall]
  dsimp only
  rw [if_pos hauth]

theorem stateOf_run_authorize {events : List Event} (hcall : e.call = Call.authorizeSend)
    (hauth : guard.isAuthenticated e.account = true) :
    stateOf (guard.run (events ++ [e])) e.account =
      (guard.authorize e.now.toNat (stateOf (guard.run events) e.account)).2 := by
  rw [run_append, stateOf_step, if_pos rfl, OutboundSenderGuard.advance, hcall]
  dsimp only
  rw [if_pos hauth]

theorem hint_run_iff (guard : OutboundSenderGuard) {front middle : List Event}
    {first second : Event} {retry : Nat} {reason : String}
    (hclock : (front ++ [first]).Pairwise fun a b => clock a <= clock b)
    (hmiddle : forall e, e ∈ middle -> e.account ≠ first.account)
    (hcall : second.call = Call.authorizeSend) (haccount : second.account = first.account)
    (hthrottle : guard.verdict (guard.run front) first = some (SenderVerdict.throttle retry reason))
    (hlater : second.now.toNat = first.now.toNat + retry) :
    Not (Throttled (guard.verdict (guard.run (front ++ first :: middle)) second)) <->
      HintHolds guard (stateOf (guard.run front) first.account) first.now.toNat := by
  rcases authorize_of_verdict hthrottle with ⟨hfirst, hauth, hauthorize⟩
  have hinv := inv_run guard front (List.pairwise_append.mp hclock).1 first.account
  have hle := Transition.latest_le_of_pairwise hclock
  have hbound : first.now.toNat + retry < 2 ^ 64 := by
    rw [<- hlater]
    exact second.now.toNat_lt
  have hauth' : guard.isAuthenticated second.account = true := by
    rw [haccount]
    exact hauth
  rw [verdict_of_authenticated hcall hauth', haccount, hlater, List.append_cons,
    stateOf_run_append hmiddle, stateOf_run_authorize hfirst hauth]
  exact hint_iff hinv hle hbound hauthorize

theorem outbound_guard (guard : OutboundSenderGuard) (events : List Event)
    (hclock : events.Pairwise fun a b => a.now <= b.now) :
    (forall account start,
      (SlidingWindow.within guard.rateWindowMs.toNat start
        (allowedTimes account (guard.answers events))).length <= guard.rateLimit.toNat ∧
      (SlidingWindow.within guard.volumeWindowMs.toNat start
        (allowedTimes account (guard.answers events))).length <= guard.volumeCap.toNat) ∧
    (forall account, (guard.answers events).filter (fun out => out.1.account == account) =
      guard.answers (events.filter fun e => e.account == account)) ∧
    (forall front first middle second back retry reason,
      events = front ++ first :: (middle ++ second :: back) ->
      (forall e, e ∈ middle -> e.account ≠ first.account) ->
      second.call = Call.authorizeSend -> second.account = first.account ->
      guard.verdict (guard.run front) first = some (SenderVerdict.throttle retry reason) ->
      second.now.toNat = first.now.toNat + retry ->
      (Not (Throttled (guard.verdict (guard.run (front ++ first :: middle)) second)) <->
        HintHolds guard (stateOf (guard.run front) first.account) first.now.toNat)) := by
  refine ⟨?_, answers_filter guard events, ?_⟩
  · intro account start
    have hinv := inv_run guard events (clock_pairwise hclock) account
    exact ⟨hinv.rate.capped start, hinv.volume.capped start⟩
  · intro front first middle second back retry reason hevents hmiddle hcall haccount hthrottle
      hlater
    rw [hevents, List.append_cons] at hclock
    exact hint_run_iff guard (clock_pairwise (List.pairwise_append.mp hclock).1) hmiddle hcall
      haccount hthrottle hlater

def slowGuard : OutboundSenderGuard :=
  { new with
    rateLimit := 1
    registered := some ["acct-alice".toList] }

def sendAt (now : UInt64) : Event :=
  ⟨now, "acct-alice".toList, Call.authorizeSend⟩

/-- The hint ends when the oldest send is a window old, and then it still counts. -/
theorem early_hint :
    slowGuard.verdict (slowGuard.run [sendAt 1000000]) (sendAt 1000001) =
        some (overRate 59999) ∧
      (sendAt 1060000).now.toNat = (sendAt 1000001).now.toNat + 59999 ∧
      slowGuard.verdict (slowGuard.run [sendAt 1000000, sendAt 1000001]) (sendAt 1060000) =
        some (overRate 1) := by
  decide +kernel

theorem hint_at_the_end :
    Not (Throttled (slowGuard.verdict (slowGuard.run [sendAt 1000000, sendAt 1060000])
      (sendAt 1060001))) := by
  have h := (outbound_guard slowGuard [sendAt 1000000, sendAt 1060000, sendAt 1060001]
    (by decide)).2.2 [sendAt 1000000] (sendAt 1060000) [] (sendAt 1060001) [] 1
    "4.7.1 per-sender outbound rate limit exceeded; slow down" rfl (by decide) rfl rfl
    (by decide +kernel) (by decide)
  have hfull : (slowGuard.recentRate 1060000 (stateOf (slowGuard.run [sendAt 1000000])
      "acct-alice".toList)).head? = some 1000000 := by decide +kernel
  have hidle : (stateOf (slowGuard.run [sendAt 1000000]) "acct-alice".toList).backoffUntil = 0 := by
    decide +kernel
  apply h.mpr
  exact Or.inr ⟨Nat.le_trans (Nat.le_of_eq hidle) (Nat.zero_le _), 1000000, hfull, by decide⟩

end OutboundSenderGuard

end Gateway
end Ephor
