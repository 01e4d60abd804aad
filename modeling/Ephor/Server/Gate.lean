import Ephor.Foundation.FiniteMap
import Ephor.Foundation.GoTime
import Ephor.Foundation.Transition

/-!
# The entitlement gate

`tunnel/server/gate.go` with the read of `cpclient.go` behind it.  The gate keeps one
decision per account.  A call looks at it under the mutex, and where it finds none that is
fresh it asks the control plane and writes the answer back under the mutex again.  A
section under the mutex is one step of the machine, and so is the answer of the control
plane; whatever other calls do in between, the clock included, is in the events.

A call is a number.  The machine also emits what the calls read, store and find.
-/

namespace Ephor
namespace Server
namespace Gate

open Foundation
open Foundation.Transition (after emitted)

/-!
## Reading the control plane
-/

structure Entitlement where
  relayAllowed : Bool
  overQuota : Bool
  revoked : Bool
deriving DecidableEq

inductive CpError where
  | noSharedSecret
  /-- The request could not be built, sent or answered in time. -/
  | transport
  /-- `ErrCredentialRevoked`. -/
  | credentialRevoked
  | status (code : Nat)
  | decode
deriving DecidableEq

/-- What comes back for a request; a body is kept as `json.Unmarshal` decodes it. -/
inductive Answer where
  | unanswered
  | response (statusCode : Nat) (body : Option Entitlement)

def doEntitlement : Answer -> Except CpError Entitlement
  | .unanswered => .error .transport
  | .response statusCode body =>
      if statusCode = 404 then .error .credentialRevoked
      else if statusCode ≠ 200 then .error (.status statusCode)
      else
        match body with
        | none => .error .decode
        | some ent => if ent.revoked then .error .credentialRevoked else .ok ent

structure CPClient where
  sharedSecret : String

def CPClient.entitlementForAccount (c : CPClient) (answer : Answer) :
    Except CpError Entitlement :=
  if c.sharedSecret = "" then .error .noSharedSecret else doEntitlement answer

/-!
## The cache
-/

structure GateDecision where
  allowed : Bool
  overQuota : Bool
  revoked : Bool
  expires : Int
deriving DecidableEq

/-- The value a map read gives for an account that is not there. -/
def GateDecision.zero : GateDecision :=
  ⟨false, false, false, 0⟩

abbrev Cache := FiniteMap String GateDecision

structure EntitlementGate where
  cp : Option CPClient
  ttl : GoTime.Duration

def newEntitlementGate (cp : Option CPClient) (ttl : GoTime.Duration) : EntitlementGate where
  cp := cp
  ttl := if ttl <= 0 then 30000000000 else ttl

def EntitlementGate.enabled (g : EntitlementGate) : Bool :=
  g.cp.isSome

def lookup (now : Int) (cache : Cache) (accountID : String) : Option GateDecision :=
  match cache.lookup accountID with
  | none => none
  | some d => if d.expires < now then none else some d

def stale (cache : Cache) (accountID : String) : Option GateDecision :=
  cache.lookup accountID

/-- The section of `refresh` after a definitive revoke. -/
def recordRevoke (ttl : GoTime.Duration) (now : Int) (cache : Cache) (accountID : String) :
    Cache :=
  let d := (cache.lookup accountID).getD .zero
  cache.insert accountID
    { d with revoked := true, allowed := false, expires := GoTime.add now ttl }

/-- The decision `refresh` makes of an entitlement: a revoke in the cache stays. -/
def settle (prev : Option GateDecision) (ent : Entitlement) (expires : Int) : GateDecision :=
  let d : GateDecision := ⟨ent.relayAllowed, ent.overQuota, ent.revoked, expires⟩
  if prev.any (·.revoked) then { d with revoked := true, allowed := false } else d

def markOverQuota (ttl : GoTime.Duration) (now : Int) (cache : Cache) (accountID : String) :
    Cache :=
  let d := (cache.lookup accountID).getD .zero
  cache.insert accountID
    { d with
      overQuota := true
      expires := if d.expires < now then GoTime.add now ttl else d.expires }

def GateDecision.permits (d : GateDecision) : Bool :=
  d.allowed && !d.overQuota && !d.revoked

/-!
## The calls
-/

inductive Kind where
  | allowConnect
  | allowContinue
  | definitivelyRevoked
deriving DecidableEq

/-- The answer of a call for an unbilled token, or without a control plane. -/
def Kind.unbilled : Kind -> Bool
  | .definitivelyRevoked => false
  | _ => true

def Kind.onRevoke : Kind -> Bool
  | .definitivelyRevoked => true
  | _ => false

def Kind.onDecision : Kind -> GateDecision -> Bool
  | .definitivelyRevoked, d => d.revoked
  | _, d => d.permits

/-- How far a call got: what it does next. -/
inductive Call where
  | idle
  /-- `stale`, for a revoke seen earlier. -/
  | checking (kind : Kind) (accountID : String)
  | looking (kind : Kind) (accountID : String)
  /-- The request of `refresh` is out. -/
  | reading (kind : Kind) (accountID : String)
  /-- `refresh` before its section that records the revoke. -/
  | revoking (kind : Kind) (accountID : String)
  /-- `refresh` before its section that stores the decision. -/
  | storing (kind : Kind) (accountID : String) (ent : Entitlement) (expires : Int)
  /-- `allowContinue` after a transient error, before its last `stale`. -/
  | recovering (accountID : String)
  | returned (kind : Kind) (accountID : String) (result : Bool)
deriving DecidableEq

structure State where
  now : Int
  cache : Cache
  calls : Nat -> Call

def State.init (now : Int) : State where
  now := now
  cache := ∅
  calls := fun _ => .idle

def State.setCall (s : State) (i : Nat) (c : Call) : State :=
  { s with calls := Function.update s.calls i c }

inductive Event where
  | begin (i : Nat) (kind : Kind) (accountID : String)
  | advance (i : Nat)
  | answer (i : Nat) (answer : Answer)
  | markOverQuota (accountID : String)
  | tick (nanoseconds : Nat)

variable (g : EntitlementGate)

def EntitlementGate.gates (accountID : String) : Bool :=
  g.enabled && accountID ≠ ""

/-- The read of `refresh`; without a control plane no call gets there. -/
def EntitlementGate.read (answer : Answer) : Except CpError Entitlement :=
  match g.cp with
  | some c => c.entitlementForAccount answer
  | none => .error .transport

/-- What a call does after a read that failed without a revoke. -/
def afterTransient : Kind -> String -> Call
  | .allowContinue, accountID => .recovering accountID
  | kind, accountID => .returned kind accountID false

def advance (s : State) (i : Nat) : State :=
  match s.calls i with
  | .checking kind accountID =>
      if (stale s.cache accountID).any (·.revoked) then
        s.setCall i (.returned kind accountID kind.onRevoke)
      else
        s.setCall i (.looking kind accountID)
  | .looking kind accountID =>
      match lookup s.now s.cache accountID with
      | some d => s.setCall i (.returned kind accountID (kind.onDecision d))
      | none => s.setCall i (.reading kind accountID)
  | .revoking kind accountID =>
      { s.setCall i (.returned kind accountID kind.onRevoke) with
        cache := recordRevoke g.ttl s.now s.cache accountID }
  | .storing kind accountID ent expires =>
      let d := settle (s.cache.lookup accountID) ent expires
      { s.setCall i (.returned kind accountID (kind.onDecision d)) with
        cache := s.cache.insert accountID d }
  | .recovering accountID =>
      match stale s.cache accountID with
      | some d => s.setCall i (.returned .allowContinue accountID d.permits)
      | none => s.setCall i (.returned .allowContinue accountID true)
  | _ => s

def step (s : State) : Event -> State
  | .begin i kind accountID =>
      match s.calls i with
      | .idle =>
          if !g.gates accountID then
            s.setCall i (.returned kind accountID kind.unbilled)
          else if kind = .allowConnect then
            s.setCall i (.looking kind accountID)
          else
            s.setCall i (.checking kind accountID)
      | _ => s
  | .advance i => advance g s i
  | .answer i answer =>
      match s.calls i with
      | .reading kind accountID =>
          match g.read answer with
          | .ok ent => s.setCall i (.storing kind accountID ent (GoTime.add s.now g.ttl))
          | .error .credentialRevoked => s.setCall i (.revoking kind accountID)
          | .error _ => s.setCall i (afterTransient kind accountID)
      | _ => s
  | .markOverQuota accountID =>
      if g.gates accountID then
        { s with cache := markOverQuota g.ttl s.now s.cache accountID }
      else
        s
  | .tick nanoseconds => { s with now := s.now + nanoseconds }

/-- What the calls do with the control plane's answers. -/
inductive Note where
  | read (i : Nat) (accountID : String) (ent : Entitlement)
  | stored (i : Nat) (accountID : String) (now : Int) (ent : Entitlement) (d : GateDecision)
  | found (i : Nat) (accountID : String) (now : Int) (d : GateDecision)
deriving DecidableEq

def emit (s : State) : Event -> List Note
  | .advance i =>
      match s.calls i with
      | .looking _ accountID =>
          match lookup s.now s.cache accountID with
          | some d => [.found i accountID s.now d]
          | none => []
      | .storing _ accountID ent expires =>
          [.stored i accountID s.now ent (settle (s.cache.lookup accountID) ent expires)]
      | _ => []
  | .answer i answer =>
      match s.calls i with
      | .reading _ accountID =>
          match g.read answer with
          | .ok ent => [.read i accountID ent]
          | .error _ => []
      | _ => []
  | _ => []

/-!
## What a step can do
-/

variable {i : Nat} {d : GateDecision} {kind : Kind} {ent : Entitlement}

section Steps

variable {g : EntitlementGate} {s : State} {e : Event}

theorem calls_setCall_same (s : State) (i : Nat) (c : Call) : (s.setCall i c).calls i = c := by
  simp [State.setCall]

theorem calls_setCall_other {j : Nat} (h : j ≠ i) (s : State) (c : Call) :
    (s.setCall i c).calls j = s.calls j := by
  simp [State.setCall, h]

inductive Written (s : State) (e : Event) (accountID : String) (d : GateDecision) : Prop where
  | revoked (hrevoked : d.revoked = true)
  | overQuota (hquota : d.overQuota = true)
      (hkeeps : forall prev, s.cache.lookup accountID = some prev -> d.revoked = prev.revoked)
  | settled (i : Nat) (kind : Kind) (ent : Entitlement) (expires : Int) (hevent : e = .advance i)
      (hcall : s.calls i = .storing kind accountID ent expires)
      (hsettle : d = settle (s.cache.lookup accountID) ent expires)

theorem cache_step (g : EntitlementGate) (s : State) (e : Event) :
    (step g s e).cache = s.cache ∨
      exists accountID d, (step g s e).cache = s.cache.insert accountID d ∧
        Written s e accountID d := by
  cases e with
  | begin i kind accountID =>
      apply Or.inl
      simp only [step]
      split
      · split
        · rfl
        · split <;> rfl
      · rfl
  | advance i =>
      simp only [step, advance]
      cases hcall : s.calls i with
      | checking kind accountID | looking kind accountID | recovering accountID =>
          apply Or.inl
          simp only
          split <;> rfl
      | revoking kind accountID =>
          exact Or.inr ⟨accountID, _, rfl, .revoked rfl⟩
      | storing kind accountID ent expires =>
          exact Or.inr ⟨accountID, _, rfl, .settled i kind ent expires rfl hcall rfl⟩
      | idle | reading kind accountID | returned kind accountID result => exact Or.inl rfl
  | answer i a =>
      apply Or.inl
      simp only [step]
      split
      · split <;> rfl
      · rfl
  | markOverQuota accountID =>
      simp only [step]
      split
      · apply Or.inr
        refine ⟨accountID, _, rfl, .overQuota rfl ?_⟩
        intro prev hprev
        rw [hprev]
        rfl
      · exact Or.inl rfl
  | tick nanoseconds => exact Or.inl rfl

/-- How a step can make a call return. -/
inductive Returns (g : EntitlementGate) (s : State) (e : Event) (i : Nat) (kind : Kind)
    (accountID : String) : Bool -> Prop where
  | unbilled (hgates : g.gates accountID = false) : Returns g s e i kind accountID kind.unbilled
  | revoked : Returns g s e i kind accountID kind.onRevoke
  | found (d : GateDecision) (hevent : e = .advance i)
      (hcall : s.calls i = .looking kind accountID)
      (hfound : lookup s.now s.cache accountID = some d) :
      Returns g s e i kind accountID (kind.onDecision d)
  | stored (ent : Entitlement) (expires : Int) (hevent : e = .advance i)
      (hcall : s.calls i = .storing kind accountID ent expires) :
      Returns g s e i kind accountID
        (kind.onDecision (settle (s.cache.lookup accountID) ent expires))
  | recovered (d : GateDecision) (hkind : kind = .allowContinue)
      (hstale : s.cache.lookup accountID = some d) :
      Returns g s e i kind accountID d.permits
  | unknown (hkind : kind = .allowContinue) (hstale : s.cache.lookup accountID = none) :
      Returns g s e i kind accountID true
  | transient : Returns g s e i kind accountID false

def Call.pending : Call -> Bool
  | .storing _ _ _ _ => false
  | .returned _ _ _ => false
  | _ => true

inductive Moves (g : EntitlementGate) (s : State) (e : Event) (i : Nat) : Call -> Prop where
  | same : Moves g s e i (s.calls i)
  | pending (c : Call) (hpending : c.pending = true) : Moves g s e i c
  | read (kind : Kind) (accountID : String) (ent : Entitlement) (a : Answer)
      (hevent : e = .answer i a) (hcall : s.calls i = .reading kind accountID)
      (hread : g.read a = .ok ent) :
      Moves g s e i (.storing kind accountID ent (GoTime.add s.now g.ttl))
  | returns (kind : Kind) (accountID : String) (b : Bool)
      (hreturns : Returns g s e i kind accountID b) :
      Moves g s e i (.returned kind accountID b)

theorem moves_setCall {j : Nat} {c : Call} (h : Moves g s e j c) :
    Moves g s e i ((s.setCall j c).calls i) := by
  by_cases hij : i = j
  · rw [hij, calls_setCall_same]
    exact h
  · rw [calls_setCall_other hij]
    exact .same

theorem moves_advance (g : EntitlementGate) (s : State) (i j : Nat) :
    Moves g s (.advance j) i ((advance g s j).calls i) := by
  unfold advance
  cases hcall : s.calls j with
  | checking kind accountID =>
      simp only
      split
      · exact moves_setCall (.returns _ _ _ .revoked)
      · exact moves_setCall (.pending _ rfl)
  | looking kind accountID =>
      simp only
      split
      · rename_i d hfound
        exact moves_setCall (.returns _ _ _ (.found d rfl hcall hfound))
      · exact moves_setCall (.pending _ rfl)
  | revoking kind accountID => exact moves_setCall (.returns _ _ _ .revoked)
  | storing kind accountID ent expires =>
      exact moves_setCall (.returns _ _ _ (.stored ent expires rfl hcall))
  | recovering accountID =>
      simp only
      split
      · rename_i d hstale
        exact moves_setCall (.returns _ _ _ (.recovered d rfl hstale))
      · rename_i hstale
        exact moves_setCall (.returns _ _ _ (.unknown rfl hstale))
  | idle | reading kind accountID | returned kind accountID result => exact .same

theorem moves_step (g : EntitlementGate) (s : State) (e : Event) (i : Nat) :
    Moves g s e i ((step g s e).calls i) := by
  cases e with
  | begin j kind accountID =>
      simp only [step]
      split
      · split
        · rename_i hgates
          have hgates' : g.gates accountID = false := by simpa using hgates
          exact moves_setCall (.returns _ _ _ (.unbilled hgates'))
        · split
          · exact moves_setCall (.pending _ rfl)
          · exact moves_setCall (.pending _ rfl)
      · exact .same
  | advance j => exact moves_advance g s i j
  | answer j a =>
      simp only [step]
      split
      · rename_i kind accountID hcall
        split
        · rename_i ent hread
          exact moves_setCall (.read kind accountID ent a rfl hcall hread)
        · exact moves_setCall (.pending _ rfl)
        · cases kind with
          | allowConnect | definitivelyRevoked => exact moves_setCall (.returns _ _ _ .transient)
          | allowContinue => exact moves_setCall (.pending _ rfl)
      · exact .same
  | markOverQuota accountID =>
      simp only [step]
      split
      · exact .same
      · exact .same
  | tick nanoseconds => exact .same

end Steps

/-!
## A denial in the cache

A cached denial is only ever replaced by a decision that a call stores; a revoke is not even
replaced by those.
-/

section Denial

variable {g : EntitlementGate} {s : State} {e : Event} {accountID : String}

/-- The cache holds a decision that refuses the account. -/
def Denied (s : State) (accountID : String) : Prop :=
  exists d, s.cache.lookup accountID = some d ∧ d.permits = false

def Revoked (s : State) (accountID : String) : Prop :=
  exists d, s.cache.lookup accountID = some d ∧ d.revoked = true

def Kind.Admits (kind : Kind) : Prop :=
  kind ≠ .definitivelyRevoked

theorem permits_of_revoked (h : d.revoked = true) : d.permits = false := by
  simp [GateDecision.permits, h]

theorem permits_of_overQuota (h : d.overQuota = true) : d.permits = false := by
  simp [GateDecision.permits, h]

theorem Kind.Admits.onRevoke_eq (h : kind.Admits) : kind.onRevoke = false := by
  cases kind with
  | allowConnect | allowContinue => rfl
  | definitivelyRevoked => exact absurd rfl h

theorem Kind.Admits.onDecision_eq (h : kind.Admits) (d : GateDecision) :
    kind.onDecision d = d.permits := by
  cases kind with
  | allowConnect | allowContinue => rfl
  | definitivelyRevoked => exact absurd rfl h

theorem revoked_settle {prev : GateDecision} (h : prev.revoked = true) (ent : Entitlement)
    (expires : Int) : (settle (some prev) ent expires).revoked = true := by
  simp [settle, h]

theorem lookup_eq_some {now : Int} {cache : Cache} (h : lookup now cache accountID = some d) :
    cache.lookup accountID = some d ∧ now <= d.expires := by
  unfold lookup at h
  split at h
  · cases h
  · rename_i d' hd'
    split at h
    · cases h
    · rename_i hfresh
      cases h
      exact ⟨hd', Int.not_lt.mp hfresh⟩

theorem revoked_step (h : Revoked s accountID) : Revoked (step g s e) accountID := by
  rcases h with ⟨prev, hprev, hrevoked⟩
  rcases cache_step g s e with hsame | ⟨account, d, hinsert, hwritten⟩
  · exact ⟨prev, hsame ▸ hprev, hrevoked⟩
  · rw [Revoked, hinsert]
    by_cases haccount : accountID = account
    · subst haccount
      refine ⟨d, Finmap.lookup_insert _, ?_⟩
      cases hwritten with
      | revoked hd => exact hd
      | overQuota _ hkeeps => exact (hkeeps prev hprev).trans hrevoked
      | settled i kind ent expires _ _ hsettle =>
          rw [hsettle, hprev]
          exact revoked_settle hrevoked ent expires
    · exact ⟨prev, (Finmap.lookup_insert_of_ne _ haccount).trans hprev, hrevoked⟩

def StoresNoPermit (accountID : String) (notes : List Note) : Prop :=
  forall i now ent d, Note.stored i accountID now ent d ∈ notes -> d.permits = false

theorem mem_emit_settle {expires : Int} (hcall : s.calls i = .storing kind accountID ent expires) :
    Note.stored i accountID s.now ent (settle (s.cache.lookup accountID) ent expires) ∈
      emit g s (.advance i) := by
  simp [emit, hcall]

theorem storing_of_stored {now : Int} (hmem : Note.stored i accountID now ent d ∈ emit g s e) :
    exists kind expires, s.calls i = .storing kind accountID ent expires ∧
      d = settle (s.cache.lookup accountID) ent expires := by
  cases e with
  | advance j =>
      simp only [emit] at hmem
      split at hmem
      · split at hmem <;> simp at hmem
      · rename_i kind account ent' expires hcall
        simp only [List.mem_singleton, Note.stored.injEq] at hmem
        rcases hmem with ⟨rfl, rfl, -, rfl, hd⟩
        exact ⟨kind, expires, hcall, hd⟩
      · cases hmem
  | answer j a =>
      simp only [emit] at hmem
      split at hmem
      · split at hmem <;> simp at hmem
      · cases hmem
  | begin j kind account | markOverQuota account | tick nanoseconds => cases hmem

theorem Revoked.storesNoPermit (h : Revoked s accountID) :
    StoresNoPermit accountID (emit g s e) := by
  rcases h with ⟨prev, hprev, hrevoked⟩
  intro i now ent d hmem
  rcases storing_of_stored hmem with ⟨kind, expires, -, rfl⟩
  rw [hprev]
  exact permits_of_revoked (revoked_settle hrevoked _ _)

theorem denied_step (h : Denied s accountID) (hstores : StoresNoPermit accountID (emit g s e)) :
    Denied (step g s e) accountID := by
  rcases h with ⟨prev, hprev, hdenies⟩
  rcases cache_step g s e with hsame | ⟨account, d, hinsert, hwritten⟩
  · exact ⟨prev, hsame ▸ hprev, hdenies⟩
  · rw [Denied, hinsert]
    by_cases haccount : accountID = account
    · subst haccount
      refine ⟨d, Finmap.lookup_insert _, ?_⟩
      cases hwritten with
      | revoked hd => exact permits_of_revoked hd
      | overQuota hd _ => exact permits_of_overQuota hd
      | settled i kind ent expires hevent hcall hsettle =>
          subst hevent
          rw [hsettle]
          exact hstores i s.now ent _ (mem_emit_settle hcall)
    · exact ⟨prev, (Finmap.lookup_insert_of_ne _ haccount).trans hprev, hdenies⟩

theorem Denied.returns_false {b : Bool} (h : Denied s accountID)
    (hgates : g.gates accountID = true) (hkind : kind.Admits)
    (hstores : StoresNoPermit accountID (emit g s e))
    (hreturns : Returns g s e i kind accountID b) : b = false := by
  rcases h with ⟨prev, hprev, hdenies⟩
  cases hreturns with
  | unbilled hnot =>
      rw [hgates] at hnot
      cases hnot
  | revoked => exact hkind.onRevoke_eq
  | found d _ _ hfound =>
      have hd := (lookup_eq_some hfound).1
      rw [hprev] at hd
      cases hd
      rw [hkind.onDecision_eq]
      exact hdenies
  | stored ent expires hevent hcall =>
      subst hevent
      rw [hkind.onDecision_eq]
      exact hstores i s.now ent _ (mem_emit_settle hcall)
  | recovered d _ hstale =>
      rw [hprev] at hstale
      cases hstale
      exact hdenies
  | unknown _ hstale =>
      rw [hprev] at hstale
      cases hstale
  | transient => rfl

theorem refuses_step (hkind : kind.Admits) (hgates : g.gates accountID = true)
    (hdenied : Denied s accountID) (hstores : StoresNoPermit accountID (emit g s e))
    (h : s.calls i ≠ .returned kind accountID true) :
    (step g s e).calls i ≠ .returned kind accountID true := by
  intro hreturned
  have hmoves := moves_step g s e i
  rw [hreturned] at hmoves
  generalize hc : Call.returned kind accountID true = c at hmoves
  cases hmoves with
  | same => exact h hc.symm
  | pending c hpending =>
      rw [<- hc] at hpending
      cases hpending
  | read kind' account ent a _ _ _ => cases hc
  | returns kind' account b hreturns =>
      cases hc
      cases hdenied.returns_false hgates hkind hstores hreturns

theorem refuses_after (hkind : kind.Admits) (hgates : g.gates accountID = true)
    (later : List Event) (hdenied : Denied s accountID)
    (hstores : StoresNoPermit accountID (emitted (step g) (emit g) s later))
    (h : s.calls i ≠ .returned kind accountID true) :
    (after (step g) s later).calls i ≠ .returned kind accountID true := by
  induction later generalizing s with
  | nil => exact h
  | cons e rest ih =>
      have hhere : StoresNoPermit accountID (emit g s e) := fun j now ent d hmem =>
        hstores j now ent d (List.mem_append_left _ hmem)
      have hrest : StoresNoPermit accountID (emitted (step g) (emit g) (step g s e) rest) :=
        fun j now ent d hmem => hstores j now ent d (List.mem_append_right _ hmem)
      exact ih (denied_step hdenied hhere) hrest (refuses_step hkind hgates hdenied hhere h)

theorem Revoked.denied (h : Revoked s accountID) : Denied s accountID := by
  rcases h with ⟨d, hd, hrevoked⟩
  exact ⟨d, hd, permits_of_revoked hrevoked⟩

theorem Revoked.storesNoPermit_emitted (h : Revoked s accountID) (later : List Event) :
    StoresNoPermit accountID (emitted (step g) (emit g) s later) := by
  intro i now ent d hmem
  have hkeeps : forall t e, Revoked t accountID -> Revoked (step g t e) accountID :=
    fun _ _ ht => revoked_step ht
  rcases Transition.exists_of_mem_emitted hmem h hkeeps with ⟨t, e, ht, hhere⟩
  exact ht.storesNoPermit i now ent d hhere

end Denial

/-!
## What a connect rests on
-/

section Vetting

variable {g : EntitlementGate} {s : State} {e : Event} {accountID : String}
  {notes : List Note}

/-- The response says allowed, not over quota and not revoked. -/
def Entitlement.Grants (ent : Entitlement) : Prop :=
  ent.relayAllowed = true ∧ ent.overQuota = false ∧ ent.revoked = false

/--
A granting response that the call read itself, or that another call stored at most `ttl`
before this one found it.
-/
def Vetted (ttl : GoTime.Duration) (notes : List Note) (i : Nat) (accountID : String) : Prop :=
  exists ent : Entitlement, ent.Grants ∧
    (Note.read i accountID ent ∈ notes ∨
      exists j stored found d, Note.read j accountID ent ∈ notes ∧
        Note.stored j accountID stored ent d ∈ notes ∧
        Note.found i accountID found d ∈ notes ∧
        stored <= found ∧ found <= GoTime.add stored ttl)

/-- A cached decision that permits was made of a granting response, and expires with it. -/
def Backed (ttl : GoTime.Duration) (s : State) (notes : List Note) : Prop :=
  forall accountID d, s.cache.lookup accountID = some d -> d.permits = true ->
    exists ent j stored, ent.Grants ∧ Note.read j accountID ent ∈ notes ∧
      Note.stored j accountID stored ent d ∈ notes ∧
      stored <= s.now ∧ d.expires <= GoTime.add stored ttl

/-- An entitlement that a call is about to store was read by it. -/
def Reads (ttl : GoTime.Duration) (s : State) (notes : List Note) : Prop :=
  forall i kind accountID ent expires, s.calls i = .storing kind accountID ent expires ->
    Note.read i accountID ent ∈ notes ∧ expires <= GoTime.add s.now ttl

def ConnectsVetted (g : EntitlementGate) (s : State) (notes : List Note) : Prop :=
  forall i accountID, g.gates accountID = true ->
    s.calls i = .returned .allowConnect accountID true -> Vetted g.ttl notes i accountID

structure Inv (g : EntitlementGate) (s : State) (notes : List Note) : Prop where
  backed : Backed g.ttl s notes
  reads : Reads g.ttl s notes
  vetted : ConnectsVetted g s notes

theorem Vetted.mono {ttl : GoTime.Duration} {more : List Note}
    (h : Vetted ttl notes i accountID) : Vetted ttl (notes ++ more) i accountID := by
  rcases h with ⟨ent, hgrants, hread | ⟨j, stored, found, d, hread, hstored, hfound, htime⟩⟩
  · exact ⟨ent, hgrants, Or.inl (List.mem_append_left _ hread)⟩
  · exact ⟨ent, hgrants, Or.inr ⟨j, stored, found, d, List.mem_append_left _ hread,
      List.mem_append_left _ hstored, List.mem_append_left _ hfound, htime⟩⟩

theorem add_mono {t u : Int} (h : t <= u) (d : GoTime.Duration) :
    GoTime.add t d <= GoTime.add u d :=
  Int.add_le_add_right h d.toInt

theorem now_le_step (g : EntitlementGate) (s : State) (e : Event) : s.now <= (step g s e).now := by
  cases e with
  | begin i kind account =>
      simp only [step]
      split
      · split
        · exact Int.le_refl _
        · split <;> exact Int.le_refl _
      · exact Int.le_refl _
  | advance i =>
      simp only [step, advance]
      split
      · split <;> exact Int.le_refl _
      · split <;> exact Int.le_refl _
      · exact Int.le_refl _
      · exact Int.le_refl _
      · split <;> exact Int.le_refl _
      · exact Int.le_refl _
  | answer i a =>
      simp only [step]
      split
      · split <;> exact Int.le_refl _
      · exact Int.le_refl _
  | markOverQuota account =>
      simp only [step]
      split <;> exact Int.le_refl _
  | tick nanoseconds => exact Int.le_add_of_nonneg_right (Int.natCast_nonneg _)

theorem grants_of_permits_settle {prev : Option GateDecision} {expires : Int}
    (h : (settle prev ent expires).permits = true) :
    ent.Grants ∧ (settle prev ent expires).expires = expires := by
  unfold settle at h ⊢
  simp only at h ⊢
  split at h
  · simp [GateDecision.permits] at h
  · rename_i hprev
    rw [if_neg hprev]
    simp only [GateDecision.permits, Bool.and_eq_true, Bool.not_eq_true'] at h
    exact ⟨⟨h.1.1, h.1.2, h.2⟩, rfl⟩

theorem mem_emit_found (hcall : s.calls i = .looking kind accountID)
    (hfound : lookup s.now s.cache accountID = some d) :
    Note.found i accountID s.now d ∈ emit g s (.advance i) := by
  simp [emit, hcall, hfound]

theorem mem_emit_read {a : Answer} (hcall : s.calls i = .reading kind accountID)
    (hread : g.read a = .ok ent) : Note.read i accountID ent ∈ emit g s (.answer i a) := by
  simp [emit, hcall, hread]

theorem backed_step (hinv : Inv g s notes) : Backed g.ttl (step g s e) (notes ++ emit g s e) := by
  intro account d hd hpermits
  have hold : s.cache.lookup account = some d -> exists ent j stored, ent.Grants ∧
      Note.read j account ent ∈ notes ++ emit g s e ∧
      Note.stored j account stored ent d ∈ notes ++ emit g s e ∧
      stored <= (step g s e).now ∧ d.expires <= GoTime.add stored g.ttl := by
    intro hd
    rcases hinv.backed account d hd hpermits with
      ⟨ent, j, stored, hgrants, hread, hstored, hle, hexpires⟩
    exact ⟨ent, j, stored, hgrants, List.mem_append_left _ hread,
      List.mem_append_left _ hstored, Int.le_trans hle (now_le_step g s e), hexpires⟩
  rcases cache_step g s e with hsame | ⟨account', d', hinsert, hwritten⟩
  · rw [hsame] at hd
    exact hold hd
  · rw [hinsert, FiniteMap.lookup_insert_eq_some] at hd
    rcases hd with ⟨haccount, hd⟩ | ⟨-, hd⟩
    · subst haccount
      subst hd
      cases hwritten with
      | revoked hrevoked =>
          rw [permits_of_revoked hrevoked] at hpermits
          cases hpermits
      | overQuota hquota _ =>
          rw [permits_of_overQuota hquota] at hpermits
          cases hpermits
      | settled i kind ent expires hevent hcall hsettle =>
          subst hevent
          subst hsettle
          rcases grants_of_permits_settle hpermits with ⟨hgrants, hexpires⟩
          rcases hinv.reads i kind _ ent expires hcall with ⟨hread, hle⟩
          exact ⟨ent, i, s.now, hgrants, List.mem_append_left _ hread,
            List.mem_append_right _ (mem_emit_settle hcall), now_le_step g s _,
            Int.le_trans (Int.le_of_eq hexpires) hle⟩
    · exact hold hd

theorem reads_step (hinv : Inv g s notes) : Reads g.ttl (step g s e) (notes ++ emit g s e) := by
  intro i kind account ent expires hcall
  have hmoves := moves_step g s e i
  rw [hcall] at hmoves
  generalize hc : Call.storing kind account ent expires = c at hmoves
  cases hmoves with
  | same =>
      rcases hinv.reads i kind account ent expires hc.symm with ⟨hread, hle⟩
      exact ⟨List.mem_append_left _ hread,
        Int.le_trans hle (add_mono (now_le_step g s e) g.ttl)⟩
  | pending c hpending =>
      rw [<- hc] at hpending
      cases hpending
  | read kind' account' ent' a hevent hreading hread =>
      cases hc
      subst hevent
      exact ⟨List.mem_append_right _ (mem_emit_read hreading hread),
        add_mono (now_le_step g s _) g.ttl⟩
  | returns kind' account' b _ => cases hc

theorem vetted_of_returns (hinv : Inv g s notes) (hgates : g.gates accountID = true)
    (hreturns : Returns g s e i .allowConnect accountID true) :
    Vetted g.ttl (notes ++ emit g s e) i accountID := by
  generalize hb : true = b at hreturns
  cases hreturns with
  | unbilled hnot =>
      rw [hgates] at hnot
      cases hnot
  | revoked | transient => cases hb
  | found d hevent hcall hfound =>
      subst hevent
      rcases lookup_eq_some hfound with ⟨hd, hfresh⟩
      rcases hinv.backed accountID d hd hb.symm with
        ⟨ent, j, stored, hgrants, hread, hstored, hle, hexpires⟩
      exact ⟨ent, hgrants, Or.inr ⟨j, stored, s.now, d, List.mem_append_left _ hread,
        List.mem_append_left _ hstored, List.mem_append_right _ (mem_emit_found hcall hfound),
        hle, Int.le_trans hfresh hexpires⟩⟩
  | stored ent expires hevent hcall =>
      have hgrants := (grants_of_permits_settle hb.symm).1
      have hread := (hinv.reads i _ accountID ent expires hcall).1
      exact ⟨ent, hgrants, Or.inl (List.mem_append_left _ hread)⟩
  | recovered d hkind _ | unknown hkind _ => cases hkind

theorem connectsVetted_step (hinv : Inv g s notes) :
    ConnectsVetted g (step g s e) (notes ++ emit g s e) := by
  intro i account hgates hreturned
  have hmoves := moves_step g s e i
  rw [hreturned] at hmoves
  generalize hc : Call.returned .allowConnect account true = c at hmoves
  cases hmoves with
  | same => exact (hinv.vetted i account hgates hc.symm).mono
  | pending c hpending =>
      rw [<- hc] at hpending
      cases hpending
  | read kind' account' ent a _ _ _ => cases hc
  | returns kind' account' b hreturns =>
      cases hc
      exact vetted_of_returns hinv hgates hreturns

theorem inv_step (hinv : Inv g s notes) : Inv g (step g s e) (notes ++ emit g s e) :=
  ⟨backed_step hinv, reads_step hinv, connectsVetted_step hinv⟩

theorem inv_init (g : EntitlementGate) (now : Int) : Inv g (State.init now) [] where
  backed := by
    intro account d hd
    cases hd
  reads := by
    intro i kind account ent expires hcall
    cases hcall
  vetted := by
    intro i account _ hcall
    cases hcall

end Vetting

/-!
## The gate over whole runs
-/

def EntitlementGate.run (now : Int) (events : List Event) : State :=
  after (step g) (State.init now) events

/-- What the calls of a run read, stored and found. -/
def EntitlementGate.notes (now : Int) (events : List Event) : List Note :=
  emitted (step g) (emit g) (State.init now) events

/-- The read failed, and not with a revoke. -/
def Transient (answer : Answer) : Prop :=
  exists err, g.read answer = .error err ∧ err ≠ .credentialRevoked

/-- A call stored what it made of a granting response for the account. -/
def StoresGrant (accountID : String) (notes : List Note) : Prop :=
  exists i now ent d, Note.stored i accountID now ent d ∈ notes ∧ ent.Grants

variable {g}

theorem storesNoPermit_of_not_storesGrant {s : State} {accountID : String} (later : List Event)
    (h : Not (StoresGrant accountID (emitted (step g) (emit g) s later))) :
    StoresNoPermit accountID (emitted (step g) (emit g) s later) := by
  intro i now ent d hmem
  by_contra hpermits
  have hkeeps : forall (t : State) (e : Event), True -> True := fun _ _ _ => trivial
  rcases Transition.exists_of_mem_emitted hmem trivial hkeeps with ⟨t, e, -, hhere⟩
  rcases storing_of_stored hhere with ⟨kind, expires, -, rfl⟩
  have hgrants := grants_of_permits_settle (Bool.eq_true_of_not_eq_false hpermits)
  exact h ⟨i, now, ent, _, hmem, hgrants.1⟩

theorem step_transient {s : State} {accountID : String} {answer : Answer}
    (hcall : s.calls i = .reading kind accountID) (h : Transient g answer) :
    step g s (.answer i answer) = s.setCall i (afterTransient kind accountID) := by
  rcases h with ⟨err, hread, herr⟩
  simp only [step, hcall, hread]

/--
Over every run of the gate.  After a revoke is in the cache no admitting call that begins is
let through.  A connect is let through only on a granting response that it read itself or
that was stored within `ttl`.  A transient error writes nothing and its call either refuses
or looks at the cache again; and a call that runs while the cache holds a denial is let
through only after a granting response is stored.
-/
theorem gate_fails_closed (accountID : String) (hgates : g.gates accountID = true) (now : Int)
    (events : List Event) :
    (Revoked (g.run now events) accountID -> forall (kind : Kind) (i : Nat) (later : List Event),
      kind.Admits -> (g.run now events).calls i = .idle ->
      (g.run now (events ++ .begin i kind accountID :: later)).calls i ≠
        .returned kind accountID true) ∧
    (forall i, (g.run now events).calls i = .returned .allowConnect accountID true ->
      Vetted g.ttl (g.notes now events) i accountID) ∧
    (forall i kind answer, (g.run now events).calls i = .reading kind accountID ->
      Transient g answer ->
      (g.run now (events ++ [.answer i answer])).cache = (g.run now events).cache ∧
        (g.run now (events ++ [.answer i answer])).calls i = afterTransient kind accountID) ∧
    (Denied (g.run now events) accountID -> forall (kind : Kind) (i : Nat) (later : List Event),
      kind.Admits -> (g.run now events).calls i ≠ .returned kind accountID true ->
      (g.run now (events ++ later)).calls i = .returned kind accountID true ->
      StoresGrant accountID (emitted (step g) (emit g) (g.run now events) later)) := by
  have hinv : Inv g (g.run now events) (g.notes now events) :=
    Transition.invariant_emitted (fun s notes e hinv _ => inv_step hinv) (inv_init g now)
      (Transition.stepsMeet_true (step g) (State.init now) events)
  have hrun : forall later, g.run now (events ++ later) =
      after (step g) (g.run now events) later :=
    Transition.after_append (step g) (State.init now) events
  refine ⟨?_, ?_, ?_, ?_⟩
  · intro hrevoked kind i later hkind hidle
    rw [hrun]
    apply refuses_after hkind hgates _ hrevoked.denied (hrevoked.storesNoPermit_emitted _)
    rw [hidle]
    exact Call.noConfusion
  · intro i hreturned
    exact hinv.vetted i accountID hgates hreturned
  · intro i kind answer hcall htransient
    rw [hrun]
    have hstep := step_transient hcall htransient
    constructor
    · change (step g (g.run now events) (.answer i answer)).cache = _
      rw [hstep]
      rfl
    · exact (congrFun (congrArg State.calls hstep) i).trans (calls_setCall_same _ i _)
  · intro hdenied kind i later hkind hnot hreturned
    by_contra hgrant
    rw [hrun] at hreturned
    exact refuses_after hkind hgates later hdenied
      (storesNoPermit_of_not_storesGrant later hgrant) hnot hreturned

/-!
Two calls read at once.  The second read is answered by a revoke and writes it; the first one
comes back with a grant only then, and what it stores stays revoked.
-/

def sampleGate : EntitlementGate :=
  newEntitlementGate (some ⟨"secret"⟩) 0

def grantingAnswer : Answer :=
  .response 200 (some ⟨true, false, false⟩)

def racingReads : List Event :=
  [.begin 0 .allowConnect "acct", .advance 0, .begin 1 .definitivelyRevoked "acct", .advance 1,
    .advance 1, .answer 0 grantingAnswer, .answer 1 (.response 404 none), .advance 1, .advance 0]

def grantedConnect : List Event :=
  [.begin 0 .allowConnect "acct", .advance 0, .answer 0 grantingAnswer, .advance 0]

theorem racingReads_refused :
    (Revoked (sampleGate.run 0 racingReads) "acct" ∧
      (sampleGate.run 0 (racingReads ++ .begin 2 .allowContinue "acct" ::
        [.tick 60000000000, .advance 2])).calls 2 ≠ .returned .allowContinue "acct" true) ∧
    ((sampleGate.run 0 grantedConnect).calls 0 = .returned .allowConnect "acct" true ∧
      Vetted sampleGate.ttl (sampleGate.notes 0 grantedConnect) 0 "acct") := by
  have hgates : sampleGate.gates "acct" = true := by decide
  have hrevoked : Revoked (sampleGate.run 0 racingReads) "acct" :=
    ⟨⟨false, false, true, 30000000000⟩, by decide, rfl⟩
  have hadmits : Kind.allowContinue.Admits := Kind.noConfusion
  have hgranted : (sampleGate.run 0 grantedConnect).calls 0 =
      .returned .allowConnect "acct" true := by decide
  exact ⟨⟨hrevoked, (gate_fails_closed "acct" hgates 0 racingReads).1 hrevoked .allowContinue 2 _
      hadmits (by decide)⟩,
    hgranted, (gate_fails_closed "acct" hgates 0 grantedConnect).2.1 0 hgranted⟩

end Gate
end Server
end Ephor
