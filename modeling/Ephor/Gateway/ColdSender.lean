import Ephor.Foundation.FiniteMap
import Ephor.Foundation.SlidingWindow
import Ephor.Foundation.Transition
import Ephor.Gateway.Inbound

/-!
# The cold-sender gate

`ColdSenderGate` of `pier-gateway/src/inbound.rs`: block lists, known contacts, greylisting and
a rate limit for each address.  Times are milliseconds, and no time is added to another one.
-/

namespace Ephor
namespace Gateway

open Foundation
open Foundation.Text
open AbuseDecision

structure GateState where
  greylist : FiniteMap (Str × Str) Nat
  accepts : FiniteMap Str (List Nat)

def GateState.start : GateState :=
  ⟨∅, ∅⟩

structure ColdSenderGate where
  knownIpPrefixes : List Str
  knownSenders : List Str
  blockedIpPrefixes : List Str
  blockedSenders : List Str
  greylistMinRetryMs : Nat
  greylistTtlMs : Nat
  rateLimit : UInt32
  rateWindowMs : Nat

namespace ColdSenderGate

/-- The defaults of `with_clock`. -/
def new : ColdSenderGate where
  knownIpPrefixes := []
  knownSenders := []
  blockedIpPrefixes := []
  blockedSenders := []
  greylistMinRetryMs := 60000
  greylistTtlMs := 12 * 3600000
  rateLimit := 60
  rateWindowMs := 60000

variable (gate : ColdSenderGate)

def blockSender (addr : Str) : ColdSenderGate :=
  { gate with blockedSenders := gate.blockedSenders ++ [lower addr] }

def isKnown (peerIp mailFrom : Str) : Bool :=
  gate.knownIpPrefixes.any (fun p => p.isPrefixOf peerIp) ||
    gate.knownSenders.contains (lower mailFrom)

def isBlocked (peerIp mailFrom : Str) : Bool :=
  gate.blockedIpPrefixes.any (fun p => p.isPrefixOf peerIp) ||
    gate.blockedSenders.contains (lower mailFrom)

def blocked : AbuseDecision :=
  reject 554 "5.7.1 sender blocked by policy"

def rateLimited : AbuseDecision :=
  reject 451 "4.7.1 rate limit exceeded, slow down and retry later"

def greylisted : AbuseDecision :=
  reject 451
    "4.7.1 greylisted — please retry shortly (cost for cold contact, §9)"

def retriedTooSoon : AbuseDecision :=
  reject 451 "4.7.1 greylisted — retry interval not yet elapsed"

/-- The accepted messages of the address that its rate window still counts. -/
def hits (now : Nat) (st : GateState) (peerIp : Str) : List Nat :=
  SlidingWindow.recent gate.rateWindowMs now ((st.accepts.lookup peerIp).getD [])

def defer (now : Nat) (st : GateState) (key : Str × Str) : AbuseDecision × GateState :=
  (greylisted, { st with greylist := st.greylist.insert key now })

def check (now : Nat) (st : GateState) (peerIp mailFrom : Str) : AbuseDecision × GateState :=
  if gate.isBlocked peerIp mailFrom then
    (blocked, st)
  else if gate.isKnown peerIp mailFrom then
    (accept, st)
  else
    let hits := gate.hits now st peerIp
    let st := { st with accepts := st.accepts.insert peerIp hits }
    if gate.rateLimit <= UInt32.ofNat hits.length then
      (rateLimited, st)
    else
      let key := (peerIp, mailFrom)
      match st.greylist.lookup key with
      | none => defer now st key
      | some ts =>
          if gate.greylistTtlMs < now - ts then
            defer now st key
          else if now - ts < gate.greylistMinRetryMs then
            (retriedTooSoon, st)
          else
            (accept,
              { st with accepts := st.accepts.insert peerIp (hits ++ [now]) })

/-!
## Runs
-/

/-- One call of `check`, and what the clock says. -/
structure Check where
  now : Nat
  peerIp : Str
  mailFrom : Str

def step (st : GateState) (c : Check) : GateState :=
  (gate.check c.now st c.peerIp c.mailFrom).2

def decision (st : GateState) (c : Check) : AbuseDecision :=
  (gate.check c.now st c.peerIp c.mailFrom).1

def run (checks : List Check) : GateState :=
  Transition.after gate.step GateState.start checks

def answers (checks : List Check) : List (Check × AbuseDecision) :=
  Transition.emitted gate.step (fun st c => [(c, gate.decision st c)]) GateState.start checks

/-- When messages of senders that are not known were accepted from the address. -/
def acceptedTimes (peerIp : Str) (outs : List (Check × AbuseDecision)) : List Nat :=
  (outs.filter fun out => out.1.peerIp == peerIp && out.2 == accept &&
    !gate.isKnown peerIp out.1.mailFrom).map fun out => out.1.now

/-!
## One call
-/

def dropped (now : Nat) (st : GateState) (peerIp : Str) : GateState :=
  { st with accepts := st.accepts.insert peerIp (gate.hits now st peerIp) }

inductive Outcome (now : Nat) (st : GateState) (peerIp mailFrom : Str) :
    AbuseDecision -> GateState -> Prop where
  | blocked : gate.isBlocked peerIp mailFrom = true ->
      Outcome now st peerIp mailFrom blocked st
  | known : gate.isBlocked peerIp mailFrom = false -> gate.isKnown peerIp mailFrom = true ->
      Outcome now st peerIp mailFrom accept st
  | limited : gate.isBlocked peerIp mailFrom = false -> gate.isKnown peerIp mailFrom = false ->
      gate.rateLimit <= UInt32.ofNat (gate.hits now st peerIp).length ->
      Outcome now st peerIp mailFrom rateLimited (gate.dropped now st peerIp)
  | deferred : gate.isBlocked peerIp mailFrom = false -> gate.isKnown peerIp mailFrom = false ->
      ¬ gate.rateLimit <= UInt32.ofNat (gate.hits now st peerIp).length ->
      (forall ts, st.greylist.lookup (peerIp, mailFrom) = some ts ->
        gate.greylistTtlMs < now - ts) ->
      Outcome now st peerIp mailFrom greylisted
        (defer now (gate.dropped now st peerIp) (peerIp, mailFrom)).2
  | tooSoon (ts : Nat) : gate.isBlocked peerIp mailFrom = false ->
      gate.isKnown peerIp mailFrom = false ->
      ¬ gate.rateLimit <= UInt32.ofNat (gate.hits now st peerIp).length ->
      st.greylist.lookup (peerIp, mailFrom) = some ts -> now - ts <= gate.greylistTtlMs ->
      now - ts < gate.greylistMinRetryMs ->
      Outcome now st peerIp mailFrom retriedTooSoon (gate.dropped now st peerIp)
  | accepted (ts : Nat) : gate.isBlocked peerIp mailFrom = false ->
      gate.isKnown peerIp mailFrom = false ->
      ¬ gate.rateLimit <= UInt32.ofNat (gate.hits now st peerIp).length ->
      st.greylist.lookup (peerIp, mailFrom) = some ts -> now - ts <= gate.greylistTtlMs ->
      gate.greylistMinRetryMs <= now - ts ->
      Outcome now st peerIp mailFrom accept
        { st with accepts := st.accepts.insert peerIp (gate.hits now st peerIp ++ [now]) }

theorem check_outcome (now : Nat) (st : GateState) (peerIp mailFrom : Str) :
    gate.Outcome now st peerIp mailFrom (gate.check now st peerIp mailFrom).1
      (gate.check now st peerIp mailFrom).2 := by
  rw [check]
  split
  · rename_i hblocked
    exact Outcome.blocked hblocked
  rename_i hblocked
  have hblocked := Bool.eq_false_iff.mpr hblocked
  split
  · rename_i hknown
    exact Outcome.known hblocked hknown
  rename_i hknown
  have hknown := Bool.eq_false_iff.mpr hknown
  dsimp only
  split
  · rename_i hlimited
    exact Outcome.limited hblocked hknown hlimited
  rename_i hroom
  split
  · rename_i hnone
    apply Outcome.deferred hblocked hknown hroom
    intro ts hts
    rw [hnone] at hts
    cases hts
  · rename_i ts hts
    split
    · rename_i hexpired
      apply Outcome.deferred hblocked hknown hroom
      intro ts' hts'
      rw [hts] at hts'
      cases hts'
      exact hexpired
    · rename_i hfresh
      split
      · rename_i hsoon
        exact Outcome.tooSoon ts hblocked hknown hroom hts (Nat.le_of_not_lt hfresh) hsoon
      · rename_i hlate
        have hinsert : (st.accepts.insert peerIp (gate.hits now st peerIp)).insert peerIp
            (gate.hits now st peerIp ++ [now]) =
            st.accepts.insert peerIp (gate.hits now st peerIp ++ [now]) :=
          Finmap.insert_insert st.accepts
        rw [hinsert]
        exact Outcome.accepted ts hblocked hknown hroom hts (Nat.le_of_not_lt hfresh)
          (Nat.le_of_not_lt hlate)

/-!
## What holds of the state after a run

The time stamp of a greylisted pair is that of a deferral, and the accepted messages of an
address are tracked in its rate window.
-/

def kept (st : GateState) (peerIp : Str) : List Nat :=
  (st.accepts.lookup peerIp).getD []

structure Inv (latest : Nat) (st : GateState) (outs : List (Check × AbuseDecision)) : Prop where
  deferred : forall peerIp mailFrom ts, st.greylist.lookup (peerIp, mailFrom) = some ts ->
    exists c, (c, greylisted) ∈ outs ∧ c.peerIp = peerIp ∧ c.mailFrom = mailFrom ∧ c.now = ts
  counted : forall peerIp, SlidingWindow.Tracks gate.rateWindowMs gate.rateLimit.toNat latest
    (gate.acceptedTimes peerIp outs) (kept st peerIp)

variable {gate}

theorem kept_insert (st : GateState) (peerIp other : Str) (times : List Nat) :
    kept { st with accepts := st.accepts.insert peerIp times } other =
      if other = peerIp then times else kept st other := by
  by_cases hother : other = peerIp
  · rw [if_pos hother, hother]
    show ((st.accepts.insert peerIp times).lookup peerIp).getD [] = times
    rw [Finmap.lookup_insert]
    rfl
  · rw [if_neg hother]
    show ((st.accepts.insert peerIp times).lookup other).getD [] = _
    rw [Finmap.lookup_insert_of_ne _ hother]
    rfl

theorem acceptedTimes_append (peerIp : Str) (outs more : List (Check × AbuseDecision)) :
    gate.acceptedTimes peerIp (outs ++ more) =
      gate.acceptedTimes peerIp outs ++ gate.acceptedTimes peerIp more := by
  rw [acceptedTimes, List.filter_append, List.map_append]
  rfl

theorem acceptedTimes_single (peerIp : Str) (c : Check) (answer : AbuseDecision) :
    gate.acceptedTimes peerIp [(c, answer)] =
      if peerIp = c.peerIp ∧ answer = accept ∧
        gate.isKnown c.peerIp c.mailFrom = false then [c.now] else [] := by
  have hcounts : (c.peerIp == peerIp && answer == accept &&
      !gate.isKnown peerIp c.mailFrom) = true <->
      peerIp = c.peerIp ∧ answer = accept ∧
        gate.isKnown c.peerIp c.mailFrom = false := by
    rw [Bool.and_eq_true, Bool.and_eq_true, beq_iff_eq, beq_iff_eq, Bool.not_eq_true', and_assoc]
    constructor
    · intro h
      rw [h.1]
      exact ⟨rfl, h.2⟩
    · intro h
      rw [h.1]
      exact ⟨rfl, h.2⟩
  rw [acceptedTimes, List.filter_cons, List.filter_nil]
  by_cases h : peerIp = c.peerIp ∧ answer = accept ∧
      gate.isKnown c.peerIp c.mailFrom = false
  · rw [if_pos (hcounts.mpr h), if_pos h]
    rfl
  · rw [if_neg (fun hbool => h (hcounts.mp hbool)), if_neg h]
    rfl

theorem Inv.of_not_counted {latest : Nat} {st st' : GateState}
    {outs : List (Check × AbuseDecision)} {c : Check} {answer : AbuseDecision}
    (h : Inv gate latest st outs) (hclock : latest <= c.now)
    (hgreylist : forall key ts, st'.greylist.lookup key = some ts ->
      st.greylist.lookup key = some ts ∨
        (answer = greylisted ∧ key = (c.peerIp, c.mailFrom) ∧ ts = c.now))
    (hkept : forall peerIp, kept st' peerIp = kept st peerIp ∨
      kept st' peerIp = SlidingWindow.recent gate.rateWindowMs c.now (kept st peerIp))
    (hnot : answer ≠ accept ∨ gate.isKnown c.peerIp c.mailFrom = true) :
    Inv gate c.now st' (outs ++ [(c, answer)]) where
  deferred := by
    intro peerIp mailFrom ts hts
    rcases hgreylist (peerIp, mailFrom) ts hts with hold | ⟨hanswer, hkey, hnow⟩
    · rcases h.deferred peerIp mailFrom ts hold with ⟨earlier, hmem, hearlier⟩
      exact ⟨earlier, List.mem_append_left _ hmem, hearlier⟩
    · cases hkey
      refine ⟨c, ?_, rfl, rfl, hnow.symm⟩
      rw [hanswer]
      exact List.mem_append_right _ List.mem_cons_self
  counted := by
    intro peerIp
    have hnone : ¬ (peerIp = c.peerIp ∧ answer = accept ∧
        gate.isKnown c.peerIp c.mailFrom = false) := by
      intro hcounts
      rcases hnot with hother | hknown
      · exact hother hcounts.2.1
      · rw [hknown] at hcounts
        cases hcounts.2.2
    rw [acceptedTimes_append, acceptedTimes_single, if_neg hnone, List.append_nil]
    rcases hkept peerIp with hsame | hdropped
    · rw [hsame]
      exact (h.counted peerIp).wait hclock
    · rw [hdropped]
      exact (h.counted peerIp).drop hclock

theorem kept_dropped (now : Nat) (st : GateState) (peerIp other : Str) :
    kept (gate.dropped now st peerIp) other = kept st other ∨
      kept (gate.dropped now st peerIp) other =
        SlidingWindow.recent gate.rateWindowMs now (kept st other) := by
  rw [dropped, kept_insert]
  split
  · rename_i hother
    rw [hother]
    exact Or.inr rfl
  · exact Or.inl rfl

theorem Inv.step {latest : Nat} {st : GateState} {outs : List (Check × AbuseDecision)}
    (h : Inv gate latest st outs) {c : Check} (hclock : latest <= c.now) :
    Inv gate c.now (gate.step st c) (outs ++ [(c, gate.decision st c)]) := by
  have houtcome := gate.check_outcome c.now st c.peerIp c.mailFrom
  rw [ColdSenderGate.step, decision]
  generalize (gate.check c.now st c.peerIp c.mailFrom).1 = answer at houtcome
  generalize (gate.check c.now st c.peerIp c.mailFrom).2 = st' at houtcome
  cases houtcome with
  | blocked _ =>
      exact h.of_not_counted hclock (fun _ _ hts => Or.inl hts) (fun _ => Or.inl rfl)
        (Or.inl (by decide))
  | known _ hknown =>
      exact h.of_not_counted hclock (fun _ _ hts => Or.inl hts) (fun _ => Or.inl rfl)
        (Or.inr hknown)
  | limited _ _ _ | tooSoon _ _ _ _ _ _ _ =>
      exact h.of_not_counted hclock (fun _ _ hts => Or.inl hts)
        (kept_dropped c.now st c.peerIp) (Or.inl (by decide))
  | deferred _ _ _ _ =>
      have hnot : greylisted ≠ accept ∨
          gate.isKnown c.peerIp c.mailFrom = true := Or.inl (by decide)
      refine h.of_not_counted hclock ?_ (kept_dropped c.now st c.peerIp) hnot
      intro key ts hts
      rcases FiniteMap.lookup_insert_eq_some.mp hts with ⟨hkey, hnow⟩ | ⟨_, hold⟩
      · exact Or.inr ⟨rfl, hkey, hnow⟩
      · exact Or.inl hold
  | accepted ts _ hknown hroom _ _ _ =>
      constructor
      · intro peerIp mailFrom ts hts
        rcases h.deferred peerIp mailFrom ts hts with ⟨earlier, hmem, hearlier⟩
        exact ⟨earlier, List.mem_append_left _ hmem, hearlier⟩
      · intro peerIp
        rw [acceptedTimes_append, acceptedTimes_single, kept_insert]
        by_cases hip : peerIp = c.peerIp
        · rw [if_pos ⟨hip, rfl, hknown⟩, if_pos hip]
          have htracks : SlidingWindow.Tracks gate.rateWindowMs gate.rateLimit.toNat c.now
              (gate.acceptedTimes c.peerIp outs) (gate.hits c.now st c.peerIp) :=
            (h.counted c.peerIp).drop hclock
          have hlength : (gate.hits c.now st c.peerIp).length < gate.rateLimit.toNat := by
            -- The limit is a `u32`, so the number of hits is not cut down to 32 bits.
            have hsmall := Nat.lt_of_le_of_lt htracks.bounded gate.rateLimit.toNat_lt
            rw [UInt32.le_iff_toNat_le, UInt32.toNat_ofNat', Nat.mod_eq_of_lt hsmall] at hroom
            exact Nat.lt_of_not_le hroom
          rw [hip]
          exact htracks.hit hlength
        · rw [if_neg (fun hcounts => hip hcounts.1), if_neg hip, List.append_nil]
          exact (h.counted peerIp).wait hclock

/-!
## A whole run
-/

theorem run_append (checks : List Check) (c : Check) :
    gate.run (checks ++ [c]) = gate.step (gate.run checks) c :=
  Transition.after_concat gate.step GateState.start checks c

theorem answers_append (checks : List Check) (c : Check) :
    gate.answers (checks ++ [c]) =
      gate.answers checks ++ [(c, gate.decision (gate.run checks) c)] :=
  Transition.emitted_concat gate.step _ GateState.start checks c

theorem inv_run (checks : List Check) (hclock : checks.Pairwise fun a b => a.now <= b.now) :
    Inv gate (Transition.latest Check.now checks) (gate.run checks) (gate.answers checks) := by
  apply Transition.invariant_clocked fun latest checks =>
    Inv gate latest (gate.run checks) (gate.answers checks)
  · constructor
    · intro peerIp mailFrom ts hts
      cases hts
    · intro peerIp
      exact SlidingWindow.Tracks.start gate.rateWindowMs gate.rateLimit.toNat
  · intro checks c hinv hle
    rw [run_append, answers_append]
    exact hinv.step hle
  · exact hclock

theorem mem_of_mem_answers {checks : List Check} {c : Check} {answer : AbuseDecision}
    (h : (c, answer) ∈ gate.answers checks) : c ∈ checks := by
  induction checks using List.reverseRecOn with
  | nil => cases h
  | append_singleton checks last ih =>
      rw [answers_append] at h
      rcases List.mem_append.mp h with h | h
      · exact List.mem_append_left _ (ih h)
      · cases List.mem_singleton.mp h
        exact List.mem_append_right _ List.mem_cons_self

theorem Inv.accepted {latest : Nat} {st : GateState} {outs : List (Check × AbuseDecision)}
    (h : Inv gate latest st outs) {c : Check}
    (hclock : forall earlier answer, (earlier, answer) ∈ outs -> earlier.now <= c.now)
    (haccept : gate.decision st c = accept) :
    gate.isBlocked c.peerIp c.mailFrom = false ∧
      (gate.isKnown c.peerIp c.mailFrom = true ∨
        exists earlier, (earlier, greylisted) ∈ outs ∧ earlier.peerIp = c.peerIp ∧
          earlier.mailFrom = c.mailFrom ∧ earlier.now + gate.greylistMinRetryMs <= c.now ∧
          c.now <= earlier.now + gate.greylistTtlMs) := by
  have houtcome := gate.check_outcome c.now st c.peerIp c.mailFrom
  rw [decision] at haccept
  rw [haccept] at houtcome
  generalize (gate.check c.now st c.peerIp c.mailFrom).2 = st' at houtcome
  cases houtcome with
  | known hblocked hknown => exact ⟨hblocked, Or.inl hknown⟩
  | accepted ts hblocked _ _ hts hfresh hlate =>
      rcases h.deferred c.peerIp c.mailFrom ts hts with ⟨earlier, hmem, hip, hfrom, hnow⟩
      have hle := hclock earlier greylisted hmem
      refine ⟨hblocked, Or.inr ⟨earlier, hmem, hip, hfrom, ?_, ?_⟩⟩
      · omega
      · omega

theorem cold_sender_gate (gate : ColdSenderGate) (checks : List Check)
    (hclock : checks.Pairwise fun a b => a.now <= b.now) :
    (forall front c back, checks = front ++ c :: back ->
      gate.decision (gate.run front) c = accept ->
        gate.isBlocked c.peerIp c.mailFrom = false ∧
          (gate.isKnown c.peerIp c.mailFrom = true ∨
            exists earlier, (earlier, greylisted) ∈ gate.answers front ∧
              earlier.peerIp = c.peerIp ∧ earlier.mailFrom = c.mailFrom ∧
              earlier.now + gate.greylistMinRetryMs <= c.now ∧
              c.now <= earlier.now + gate.greylistTtlMs)) ∧
    (forall peerIp start,
      (SlidingWindow.within gate.rateWindowMs start
        (gate.acceptedTimes peerIp (gate.answers checks))).length <= gate.rateLimit.toNat) := by
  constructor
  · intro front c back hchecks haccept
    rw [hchecks] at hclock
    rcases List.pairwise_append.mp hclock with ⟨hfront, _, hlater⟩
    apply (inv_run front hfront).accepted _ haccept
    intro earlier answer hmem
    exact hlater earlier (mem_of_mem_answers hmem) c List.mem_cons_self
  · intro peerIp start
    exact ((inv_run checks hclock).counted peerIp).capped start

def coldRetry : List Check :=
  [⟨1000, "192.0.2.1".toList, "a@example.org".toList⟩,
    ⟨61000, "192.0.2.1".toList, "a@example.org".toList⟩]

theorem cold_retry_accepted :
    (exists earlier, (earlier, greylisted) ∈ new.answers (coldRetry.take 1) ∧
      earlier.now + 60000 <= 61000) ∧
    (SlidingWindow.within 60000 1000
      (new.acceptedTimes "192.0.2.1".toList (new.answers coldRetry))).length <= 60 := by
  have h := cold_sender_gate new coldRetry (by decide)
  have haccepted := h.1 (coldRetry.take 1)
    ⟨61000, "192.0.2.1".toList, "a@example.org".toList⟩ [] rfl (by decide +kernel)
  constructor
  · rcases haccepted.2 with hknown | ⟨earlier, hmem, _, _, hretry, _⟩
    · exact absurd hknown (by decide +kernel)
    · exact ⟨earlier, hmem, hretry⟩
  · exact h.2 "192.0.2.1".toList 1000

end ColdSenderGate

end Gateway
end Ephor
