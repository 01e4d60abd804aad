import Ephor.Server.CpTokens

/-!
# A revoked install credential

A revoke answer purges the entry of its credential, in a section of its own.  A call whose
request was out when the revoke was answered may still store what it was told, and the purged
entry is back.  An entry also expires the TTL after it is stored, and so outlives its answer by
the time that the answer waited.  Apart from these two, a call is let through on a current answer
of the control plane alone.
-/

namespace Ephor
namespace Server
namespace CpTokens

open Foundation
open Foundation.GoText (lit)
open Foundation.Transition (after emitted StepsMeet)

variable (s : CPTokenStore)

/-!
## What the calls promise
-/

/-- One answer, no older than the limit, lists the name for the account. -/
def Vouched (limit : Int) (notes : List Note) (now : Int) (p : Presented) (account : Bytes) :
    Prop :=
  exists i p' ent answeredAt, Note.read i p' ent answeredAt ∈ notes ∧ s.digest p' = s.digest p ∧
    ent.accountID = account ∧ account ≠ [] ∧
    (exists name, name ∈ ent.authorizedRelayNames ∧
      Proxy.normalizeName s.lowerRune name = p.norm) ∧
    now - answeredAt <= limit

/-- Every call that is let through is vouched for when it is. -/
def AnswersVouch (limit now : Int) (events : List Event) : Prop :=
  forall front e rest, events = front ++ e :: rest -> forall i p account,
    (s.run now front).calls i ≠ .returned p (.ok account) ->
    (s.run now (front ++ [e])).calls i = .returned p (.ok account) ->
    Vouched s limit (emitted (step s) emit (State.init now) front) (s.run now front).now p account

/-- The call's request was out, or its answer not yet stored, when the revoke was answered. -/
def begunBefore (revoked : State) (i : Nat) : Bool :=
  match revoked.calls i with
  | .reading _ => true
  | .storing _ _ _ => true
  | _ => false

/-- A read that was begun after the revoke has answered with an entitlement. -/
def FreshRead (revoked : State) (h : Digest) (notes : List Note) : Prop :=
  exists i p ent answeredAt, Note.read i p ent answeredAt ∈ notes ∧ s.digest p = h ∧
    begunBefore revoked i = false

/-- The answer of a call is a revoke, and the call goes on to the purge after the events. -/
structure Revokes (before : State) (i : Nat) (a : Answer) (mid : List Event) (p : Presented) :
    Prop where
  reading : before.calls i = .reading p
  revoke : doEntitlement a = .error .credentialRevoked
  purging : (after (step s) (step s before (.answer i a)) mid).calls i = .purging p

/-- From the purge on, no call that begins after it is let through before a read begun after the
revoke has answered. -/
def KeepsPurge (revoked : State) (mid : List Event) (h : Digest) (later : List Event) : Prop :=
  forall front e rest, later = front ++ e :: rest -> forall j p account, s.digest p = h ->
    (after (step s) revoked mid).calls j = .idle ->
    (after (step s) revoked (mid ++ front)).calls j ≠ .returned p (.ok account) ->
    (after (step s) revoked (mid ++ (front ++ [e]))).calls j = .returned p (.ok account) ->
    FreshRead s revoked h (emitted (step s) emit revoked (mid ++ front))

/-!
## Where the calls fall short
-/

/-- The step stores an answer that has waited longer than this since it came. -/
def storesAfter (wait : Nat) (st : State) : Event -> Bool
  | .advance i =>
      match st.calls i with
      | .storing _ _ answeredAt => decide (answeredAt + wait < st.now)
      | _ => false
  | _ => false

/-- The step stores an answer of a read that was begun before the revoke was answered. -/
def CPTokenStore.storesStale (revoked : State) (h : Digest) (st : State) : Event -> Bool
  | .advance i =>
      match st.calls i with
      | .storing p _ _ => decide (s.digest p = h) && begunBefore revoked i
      | _ => false
  | _ => false

variable {s} {st revoked : State} {e : Event} {notes : List Note}

/-!
## Current answers
-/

def Noted (s : CPTokenStore) (notes : List Note) (h : Digest) (account : Bytes)
    (names : List Bytes) (answeredAt : Int) : Prop :=
  exists i p ent, Note.read i p ent answeredAt ∈ notes ∧ s.digest p = h ∧
    ent.accountID = account ∧ account ≠ [] ∧ s.namesOf ent = names

/-- The entries, and the answers about to be stored, were read, and an entry outlives its answer
by no more than the wait. -/
structure Sourced (s : CPTokenStore) (wait : Nat) (st : State) (notes : List Note) : Prop where
  entries : forall h entry, st.cache.lookup h = some entry ->
    Noted s notes h entry.account entry.names entry.answeredAt ∧
      entry.expires <= GoTime.add (entry.answeredAt + wait) s.ttl
  answers : forall i p ent answeredAt, st.calls i = .storing p ent answeredAt ->
    Noted s notes (s.digest p) ent.accountID (s.namesOf ent) answeredAt

variable {account : Bytes} {p : Presented} {wait : Nat}

theorem Noted.mono {h : Digest} {names : List Bytes} {answeredAt : Int}
    (hnoted : Noted s notes h account names answeredAt) (more : List Note) :
    Noted s (notes ++ more) h account names answeredAt := by
  rcases hnoted with ⟨i, p, ent, hread, hrest⟩
  exact ⟨i, p, ent, List.mem_append_left more hread, hrest⟩

theorem sourced_init (s : CPTokenStore) (wait : Nat) (now : Int) :
    Sourced s wait (State.init now) [] := by
  constructor
  · intro h entry hentry
    cases hentry
  · intro i p ent answeredAt hcall
    cases hcall

theorem le_of_prompt {i : Nat} {ent : Entitlement} {answeredAt : Int}
    (hmeets : storesAfter wait st (.advance i) = false)
    (hcall : st.calls i = .storing p ent answeredAt) : st.now <= answeredAt + wait := by
  simpa [storesAfter, hcall] using hmeets

theorem sourced_step (h : Sourced s wait st notes) (hmeets : storesAfter wait st e = false) :
    Sourced s wait (step s st e) (notes ++ emit st e) := by
  constructor
  · intro digest entry hentry
    have hafter := entry_step s st e digest
    rw [hentry] at hafter
    generalize hc : some entry = c at hafter
    cases hafter with
    | same =>
        rcases h.entries digest entry hc.symm with ⟨hnoted, hexpires⟩
        exact ⟨hnoted.mono _, hexpires⟩
    | none => cases hc
    | stored i p ent answeredAt hevent hcall hdigest =>
        cases hc
        subst hdigest hevent
        exact ⟨(h.answers i p ent answeredAt hcall).mono _,
          Int.add_le_add_right (le_of_prompt hmeets hcall) _⟩
  · intro i p ent answeredAt hcall
    rcases storing_of_step hcall with hheld | ⟨hread, hreading, haccount⟩
    · exact (h.answers i p ent answeredAt hheld).mono _
    · exact ⟨i, p, ent, List.mem_append_right _ hread, rfl, rfl, haccount, rfl⟩

theorem sourced_run {now : Int} {events : List Event}
    (hmeet : StepsMeet (step s) (fun st e => storesAfter wait st e = false) (State.init now)
      events) :
    Sourced s wait (s.run now events) (emitted (step s) emit (State.init now) events) :=
  Transition.invariant_emitted (fun _ _ _ h hmeets => sourced_step h hmeets)
    (sourced_init s wait now) hmeet

theorem mem_namesOf {ent : Entitlement} {norm : Bytes} (h : norm ∈ s.namesOf ent) :
    exists name, name ∈ ent.authorizedRelayNames ∧ Proxy.normalizeName s.lowerRune name = norm := by
  rw [CPTokenStore.namesOf, List.mem_filter, List.mem_map] at h
  exact h.1

theorem vouched_of_noted {names : List Bytes} {answeredAt limit now : Int}
    (hnoted : Noted s notes (s.digest p) account names answeredAt) (hname : p.norm ∈ names)
    (hage : now - answeredAt <= limit) : Vouched s limit notes now p account := by
  rcases hnoted with ⟨i, p', ent, hread, hdigest, haccount, hnonempty, hnames⟩
  subst hnames
  exact ⟨i, p', ent, answeredAt, hread, hdigest, haccount, hnonempty, mem_namesOf hname, hage⟩

theorem vouched_of_letThrough {i : Nat} (httl : 0 <= s.ttl.toInt)
    (hsourced : Sourced s wait st notes) (hmeets : storesAfter wait st e = false)
    (h : LetThrough s st e i p account) :
    Vouched s (s.ttl.toInt + wait) notes st.now p account := by
  cases h with
  | found entry hevent hcall hfound haccount hname =>
      subst hevent haccount
      rcases lookup_eq_some hfound with ⟨hentry, hfresh⟩
      rcases hsourced.entries _ entry hentry with ⟨hnoted, hexpires⟩
      apply vouched_of_noted hnoted hname
      unfold GoTime.add at hexpires
      omega
  | stored ent answeredAt hevent hcall haccount hname =>
      subst hevent haccount
      have hprompt := le_of_prompt hmeets hcall
      exact vouched_of_noted (hsourced.answers i p ent answeredAt hcall) hname (by omega)

theorem answersVouch_of_meets {now : Int} {events : List Event} (httl : 0 <= s.ttl.toInt)
    (hmeet : StepsMeet (step s) (fun st e => storesAfter wait st e = false) (State.init now)
      events) :
    AnswersVouch s (s.ttl.toInt + wait) now events := by
  intro front e rest hevents i p account hbefore hafter
  subst hevents
  rcases Transition.stepsMeet_of_append hmeet with ⟨hfront, hrest⟩
  rw [CPTokenStore.run, Transition.after_concat] at hafter
  exact vouched_of_letThrough httl (sourced_run hfront) hrest.1
    (letThrough_of_step hbefore hafter)

theorem ttl_newCPTokenStore (lowerRune : Char -> Char) (sum256 : Bytes -> Digest)
    (ttl : GoTime.Duration) : 0 <= (newCPTokenStore lowerRune sum256 ttl).ttl.toInt := by
  unfold newCPTokenStore
  dsimp only
  split
  · decide
  · rename_i hpositive
    exact Int.le_of_lt (Int64.lt_iff_toInt_lt.mp (Int64.not_le.mp hpositive))

/-!
## After the purge
-/

/-- An answer that a call is about to store was read before the revoke or is noted. -/
def ReadSince (s : CPTokenStore) (revoked st : State) (h : Digest) (notes : List Note) : Prop :=
  forall i p ent answeredAt, st.calls i = .storing p ent answeredAt -> s.digest p = h ->
    begunBefore revoked i = false -> Note.read i p ent answeredAt ∈ notes

/-- An entry of the credential comes from a read begun after the revoke. -/
structure Watched (s : CPTokenStore) (revoked st : State) (h : Digest) (notes : List Note) :
    Prop where
  reads : ReadSince s revoked st h notes
  fresh : FreshRead s revoked h notes ∨ st.cache.lookup h = none

variable {h : Digest}

theorem FreshRead.mono (hfresh : FreshRead s revoked h notes) (more : List Note) :
    FreshRead s revoked h (notes ++ more) := by
  rcases hfresh with ⟨i, p, ent, answeredAt, hread, hrest⟩
  exact ⟨i, p, ent, answeredAt, List.mem_append_left more hread, hrest⟩

theorem readSince_start (s : CPTokenStore) (revoked : State) (h : Digest) :
    ReadSince s revoked revoked h [] := by
  intro i p ent answeredAt hcall _ hbegun
  rw [begunBefore, hcall] at hbegun
  cases hbegun

theorem readSince_step (hreads : ReadSince s revoked st h notes) :
    ReadSince s revoked (step s st e) h (notes ++ emit st e) := by
  intro i p ent answeredAt hcall hdigest hbegun
  rcases storing_of_step hcall with hheld | ⟨hread, _, _⟩
  · exact List.mem_append_left _ (hreads i p ent answeredAt hheld hdigest hbegun)
  · exact List.mem_append_right _ hread

theorem watched_step (hwatched : Watched s revoked st h notes)
    (hmeets : s.storesStale revoked h st e = false) :
    Watched s revoked (step s st e) h (notes ++ emit st e) := by
  refine ⟨readSince_step hwatched.reads, ?_⟩
  rcases hwatched.fresh with hfresh | hnone
  · exact Or.inl (hfresh.mono _)
  · have hafter := entry_step s st e h
    generalize (step s st e).cache.lookup h = c at hafter ⊢
    cases hafter with
    | same => exact Or.inr hnone
    | none => exact Or.inr rfl
    | stored i p ent answeredAt hevent hcall hdigest =>
        apply Or.inl
        subst hevent
        have hbegun : begunBefore revoked i = false := by
          simpa [CPTokenStore.storesStale, hcall, hdigest] using hmeets
        exact ⟨i, p, ent, answeredAt, List.mem_append_left _
          (hwatched.reads i p ent answeredAt hcall hdigest hbegun), hdigest, hbegun⟩

theorem begunBefore_of_idle {j : Nat} {mid : List Event}
    (hidle : (after (step s) revoked mid).calls j = .idle) : begunBefore revoked j = false := by
  rw [begunBefore, idle_of_after hidle]

theorem freshRead_of_letThrough {j : Nat} (hwatched : Watched s revoked st h notes)
    (hdigest : s.digest p = h) (hbegun : begunBefore revoked j = false)
    (hthrough : LetThrough s st e j p account) : FreshRead s revoked h notes := by
  cases hthrough with
  | found entry _ _ hfound _ _ =>
      rcases hwatched.fresh with hfresh | hnone
      · exact hfresh
      · rw [hdigest] at hfound
        rw [(lookup_eq_some hfound).1] at hnone
        cases hnone
  | stored ent answeredAt _ hcall _ _ =>
      exact ⟨j, p, ent, answeredAt, hwatched.reads j p ent answeredAt hcall hdigest hbegun, hdigest,
        hbegun⟩

theorem watched_purge {before : State} {i : Nat} {a : Answer} {mid : List Event}
    (hrevokes : Revokes s before i a mid p) :
    Watched s (step s before (.answer i a))
      (after (step s) (step s before (.answer i a)) (mid ++ [.advance i])) (s.digest p)
      (emitted (step s) emit (step s before (.answer i a)) (mid ++ [.advance i])) := by
  have hpurging := hrevokes.purging
  generalize step s before (.answer i a) = revoked at hpurging ⊢
  have hstep : forall st notes e, ReadSince s revoked st (s.digest p) notes -> True ->
      ReadSince s revoked (step s st e) (s.digest p) (notes ++ emit st e) := by
    intro st notes e h _
    exact readSince_step h
  constructor
  · exact Transition.invariant_emitted hstep (readSince_start s revoked _)
      (Transition.stepsMeet_true _ _ (mid ++ [.advance i]))
  · rw [Transition.after_concat]
    exact Or.inr (lookup_purge hpurging)

theorem keepsPurge_of_meets {before : State} {i : Nat} {a : Answer} {mid later : List Event}
    (hrevokes : Revokes s before i a mid p)
    (hmeet : StepsMeet (step s)
      (fun st e => s.storesStale (step s before (.answer i a)) (s.digest p) st e = false)
      (after (step s) (step s before (.answer i a)) (mid ++ [.advance i])) later) :
    KeepsPurge s (step s before (.answer i a)) (mid ++ [.advance i]) (s.digest p) later := by
  have hpurge := watched_purge hrevokes
  generalize step s before (.answer i a) = revoked at hpurge hmeet ⊢
  generalize mid ++ [.advance i] = upTo at hpurge hmeet ⊢
  have hstep : forall st notes e, Watched s revoked st (s.digest p) notes ->
      s.storesStale revoked (s.digest p) st e = false ->
      Watched s revoked (step s st e) (s.digest p) (notes ++ emit st e) := by
    intro st notes e h hmeets
    exact watched_step h hmeets
  intro front e rest hlater j p' account hdigest hidle hbefore hafter
  subst hlater
  rcases Transition.stepsMeet_of_append hmeet with ⟨hfront, -⟩
  have hwatched := Transition.invariant_emitted hstep hpurge hfront
  rw [<- Transition.emitted_append, <- Transition.after_append] at hwatched
  rw [<- List.append_assoc, Transition.after_concat] at hafter
  exact freshRead_of_letThrough hwatched hdigest (begunBefore_of_idle hidle)
    (letThrough_of_step hbefore hafter)

/-!
## Whole runs
-/

/-- In a run in which no answer waits longer than `wait` to be stored, every success rests on one
that is at most the TTL and `wait` old.  In a run that stores nothing after a purge that was read
before the revoke, the purge is kept. -/
theorem current_answers_only (lowerRune : Char -> Char) (sum256 : Bytes -> Digest)
    (ttl : GoTime.Duration) (now : Int) :
    let s := newCPTokenStore lowerRune sum256 ttl
    (forall wait events,
      StepsMeet (step s) (fun st e => storesAfter wait st e = false) (State.init now) events ->
        AnswersVouch s (s.ttl.toInt + wait) now events) ∧
    forall front i a mid p later, Revokes s (s.run now front) i a mid p ->
      StepsMeet (step s)
        (fun st e =>
          s.storesStale (step s (s.run now front) (.answer i a)) (s.digest p) st e = false)
        (after (step s) (step s (s.run now front) (.answer i a)) (mid ++ [.advance i])) later ->
      KeepsPurge s (step s (s.run now front) (.answer i a)) (mid ++ [.advance i]) (s.digest p)
        later := by
  intro s
  constructor
  · intro wait events hmeet
    exact answersVouch_of_meets (ttl_newCPTokenStore lowerRune sum256 ttl) hmeet
  · intro front i a mid p later hrevokes hmeet
    exact keepsPurge_of_meets hrevokes hmeet

/-!
Two calls present one credential and both have their requests out.  The second is told of the
revoke and purges.  The first was answered before; its answer is stored after the purge, and a
call that begins then is let through.
-/

def installDigest : Digest :=
  FixedBytes.ofNat 0x1e142e6277b12b7e1110478a24caee8f006a9349e86970c890203d6266209463

def sampleStore : CPTokenStore :=
  newCPTokenStore Char.toLower
    (fun token => if token = lit "install" then installDigest else FixedBytes.zero 32) 0

def bothReading : List Event :=
  [.begin 0 (lit "install") (lit "box"), .advance 0, .begin 1 (lit "install") (lit "box"),
    .advance 1]

def goodAnswer : Answer :=
  .response 200 (some ⟨lit "acct", false, [lit "box"]⟩)

def olderReturns : List Event :=
  [.answer 0 goodAnswer, .advance 0, .begin 2 (lit "install") (lit "box")]

def revokeAnswered : State :=
  step sampleStore (sampleStore.run 0 bothReading) (.answer 1 (.response 404 none))

theorem older_answer_rides :
    ¬ forall (s : CPTokenStore) (now : Int),
      (forall events, AnswersVouch s s.ttl.toInt now events) ∧
      forall front i a mid p later, Revokes s (s.run now front) i a mid p ->
        KeepsPurge s (step s (s.run now front) (.answer i a)) (mid ++ [.advance i]) (s.digest p)
          later := by
  intro h
  have hrevokes : Revokes sampleStore (sampleStore.run 0 bothReading) 1 (.response 404 none) []
      ⟨lit "install", lit "box", lit "box"⟩ :=
    ⟨by decide +kernel, by decide, by decide +kernel⟩
  have hkeeps := (h sampleStore 0).2 bothReading 1 (.response 404 none) [] _
    (olderReturns ++ [.advance 2]) hrevokes olderReturns (.advance 2) [] rfl 2 _ (lit "acct") rfl
    (by decide +kernel) (by decide +kernel) (by decide +kernel)
  have hnotes : emitted (step sampleStore) emit revokeAnswered ([.advance 1] ++ olderReturns) =
      [.read 0 ⟨lit "install", lit "box", lit "box"⟩ ⟨lit "acct", false, [lit "box"]⟩ 0] := by
    decide +kernel
  have hbegun : begunBefore revokeAnswered 0 = true := by
    decide +kernel
  rcases hkeeps with ⟨i, p, ent, answeredAt, hread, -, hfresh⟩
  change Note.read i p ent answeredAt ∈
    emitted (step sampleStore) emit revokeAnswered ([.advance 1] ++ olderReturns) at hread
  change begunBefore revokeAnswered i = false at hfresh
  rw [hnotes, List.mem_singleton, Note.read.injEq] at hread
  rw [hread.1, hbegun] at hfresh
  cases hfresh

end CpTokens
end Server
end Ephor
