import Ephor.Server.Proxy
import Ephor.Foundation.GoTime
import Ephor.Foundation.Transition

/-!
# Install credentials

`CPTokenStore` of `tunnel/server/cpclient.go`.  `Authorize` looks a credential up in the cache
under the mutex, asks the control plane without it where it finds none that is fresh, and
stores the answer, or removes the entry of a revoked credential, under the mutex again.  A
section under the mutex is one step of the machine, and so is the answer of the control plane.

A call is a number, and an instant that an answer came at is kept with what was made of it.
-/

namespace Ephor
namespace Server
namespace CpTokens

open Foundation
open Foundation.Transition (after emitted StepsMeet)

/-!
## Reading the control plane
-/

structure Entitlement where
  accountID : Bytes
  revoked : Bool
  authorizedRelayNames : List Bytes
deriving DecidableEq

inductive CpError where
  /-- The request could not be built, sent or answered in time. -/
  | transport
  /-- `ErrCredentialRevoked`. -/
  | credentialRevoked
  | status (code : Nat)
  | decode
deriving DecidableEq

/-- What comes back for a request; a body is kept as `json.Unmarshal` decodes it. -/
inductive Answer where
  | unanswered
  | response (statusCode : Nat) (body : Option Entitlement)

def doEntitlement : Answer -> Except CpError Entitlement
  | .unanswered => .error .transport
  | .response statusCode body =>
      if statusCode = 404 then .error .credentialRevoked
      else if statusCode ≠ 200 then .error (.status statusCode)
      else
        match body with
        | none => .error .decode
        | some ent => if ent.revoked then .error .credentialRevoked else .ok ent

/-!
## The store
-/

abbrev Digest := FixedBytes 32

structure CacheEntry where
  account : Bytes
  names : List Bytes
  expires : Int
  /-- When the answer came that the entry was made of; the code does not keep it. -/
  answeredAt : Int
deriving DecidableEq

abbrev Cache := FiniteMap Digest CacheEntry

/-- The store, with the functions of Go's library that it calls. -/
structure CPTokenStore where
  ttl : GoTime.Duration
  lowerRune : Char -> Char
  sum256 : Bytes -> Digest

def newCPTokenStore (lowerRune : Char -> Char) (sum256 : Bytes -> Digest)
    (ttl : GoTime.Duration) : CPTokenStore where
  ttl := if ttl <= 0 then 60000000000 else ttl
  lowerRune := lowerRune
  sum256 := sum256

inductive AuthError where
  | emptyToken
  | invalidName
  | notAuthorized (name : Bytes)
  | credentialRevoked
  | validationFailed
  | unknownCredential
deriving DecidableEq

/-- What a call was given: the token without the white space around it, the name, and the name
in its canonical form. -/
structure Presented where
  token : Bytes
  name : Bytes
  norm : Bytes
deriving DecidableEq

variable (s : CPTokenStore)

def CPTokenStore.present (token name : Bytes) : Presented where
  token := GoText.trimSpace token
  name := name
  norm := Proxy.normalizeName s.lowerRune name

def CPTokenStore.digest (p : Presented) : Digest :=
  s.sum256 p.token

/-- The names the control plane lists, each in its canonical form. -/
def CPTokenStore.namesOf (ent : Entitlement) : List Bytes :=
  (ent.authorizedRelayNames.map (Proxy.normalizeName s.lowerRune)).filter (· ≠ [])

def lookup (now : Int) (cache : Cache) (h : Digest) : Option CacheEntry :=
  match cache.lookup h with
  | none => none
  | some e => if now < e.expires then some e else none

def CPTokenStore.store (now : Int) (cache : Cache) (p : Presented) (ent : Entitlement)
    (answeredAt : Int) : Cache :=
  let cache := cache.insert (s.digest p)
    ⟨ent.accountID, s.namesOf ent, GoTime.add now s.ttl, answeredAt⟩
  if 4096 < FiniteMap.size cache then
    FiniteMap.filter (fun _ e => !decide (e.expires < now)) cache
  else
    cache

def bindName (p : Presented) (account : Bytes) (names : List Bytes) : Except AuthError Bytes :=
  if p.norm ∈ names then .ok account else .error (.notAuthorized p.name)

/-!
## The calls
-/

/-- How far a call got: what it does next. -/
inductive Call where
  | idle
  | looking (p : Presented)
  | reading (p : Presented)
  | purging (p : Presented)
  | storing (p : Presented) (ent : Entitlement) (answeredAt : Int)
  | returned (p : Presented) (result : Except AuthError Bytes)
deriving DecidableEq

structure State where
  now : Int
  cache : Cache
  calls : Nat -> Call

def State.init (now : Int) : State where
  now := now
  cache := ∅
  calls := fun _ => .idle

def State.setCall (st : State) (i : Nat) (c : Call) : State :=
  { st with calls := Function.update st.calls i c }

inductive Event where
  | begin (i : Nat) (token name : Bytes)
  | advance (i : Nat)
  | answer (i : Nat) (answer : Answer)
  | tick (nanoseconds : Nat)

def CPTokenStore.authorize (token name : Bytes) : Call :=
  let p := s.present token name
  if p.token = [] then .returned p (.error .emptyToken)
  else if p.norm = [] then .returned p (.error .invalidName)
  else .looking p

/-- `Authorize` after the control plane's answer. -/
def answered (now : Int) (p : Presented) (a : Answer) : Call :=
  match doEntitlement a with
  | .error .credentialRevoked => .purging p
  | .error _ => .returned p (.error .validationFailed)
  | .ok ent =>
      if ent.accountID = [] then .returned p (.error .unknownCredential)
      else .storing p ent now

def advance (st : State) (i : Nat) : State :=
  match st.calls i with
  | .looking p =>
      match lookup st.now st.cache (s.digest p) with
      | some e => st.setCall i (.returned p (bindName p e.account e.names))
      | none => st.setCall i (.reading p)
  | .purging p =>
      { st.setCall i (.returned p (.error .credentialRevoked)) with
        cache := st.cache.erase (s.digest p) }
  | .storing p ent answeredAt =>
      { st.setCall i (.returned p (bindName p ent.accountID (s.namesOf ent))) with
        cache := s.store st.now st.cache p ent answeredAt }
  | _ => st

def step (st : State) : Event -> State
  | .begin i token name =>
      match st.calls i with
      | .idle => st.setCall i (s.authorize token name)
      | _ => st
  | .advance i => advance s st i
  | .answer i a =>
      match st.calls i with
      | .reading p => st.setCall i (answered st.now p a)
      | _ => st
  | .tick nanoseconds => { st with now := st.now + nanoseconds }

def CPTokenStore.run (now : Int) (events : List Event) : State :=
  after (step s) (State.init now) events

inductive Note where
  | read (i : Nat) (p : Presented) (ent : Entitlement) (answeredAt : Int)
deriving DecidableEq

def emit (st : State) : Event -> List Note
  | .answer i a =>
      match st.calls i with
      | .reading p =>
          match doEntitlement a with
          | .ok ent => [.read i p ent st.now]
          | .error _ => []
      | _ => []
  | _ => []

/-!
## What a step can do
-/

section Steps

variable {s : CPTokenStore} {st : State} {e : Event}

theorem calls_setCall_same (st : State) (i : Nat) (c : Call) : (st.setCall i c).calls i = c := by
  simp [State.setCall]

variable {i : Nat} {p : Presented}

theorem calls_setCall_other {j : Nat} (h : j ≠ i) (st : State) (c : Call) :
    (st.setCall i c).calls j = st.calls j := by
  simp [State.setCall, h]

inductive Moves (s : CPTokenStore) (st : State) (e : Event) (i : Nat) : Call -> Prop where
  | same : Moves s st e i (st.calls i)
  | begins (p : Presented) (hcall : st.calls i = .idle) : Moves s st e i (.looking p)
  | asks (p : Presented) (hcall : st.calls i = .looking p) : Moves s st e i (.reading p)
  | revoked (p : Presented) : Moves s st e i (.purging p)
  | read (p : Presented) (ent : Entitlement) (a : Answer) (hevent : e = .answer i a)
      (hcall : st.calls i = .reading p) (hread : doEntitlement a = .ok ent)
      (haccount : ent.accountID ≠ []) : Moves s st e i (.storing p ent st.now)
  | found (p : Presented) (entry : CacheEntry) (hevent : e = .advance i)
      (hcall : st.calls i = .looking p)
      (hfound : lookup st.now st.cache (s.digest p) = some entry) :
      Moves s st e i (.returned p (bindName p entry.account entry.names))
  | stored (p : Presented) (ent : Entitlement) (answeredAt : Int) (hevent : e = .advance i)
      (hcall : st.calls i = .storing p ent answeredAt) :
      Moves s st e i (.returned p (bindName p ent.accountID (s.namesOf ent)))
  | refused (p : Presented) (err : AuthError) : Moves s st e i (.returned p (.error err))

theorem moves_setCall {j : Nat} {c : Call} (h : Moves s st e j c) :
    Moves s st e i ((st.setCall j c).calls i) := by
  by_cases hij : i = j
  · rw [hij, calls_setCall_same]
    exact h
  · rw [calls_setCall_other hij]
    exact .same

theorem moves_authorize (token name : Bytes) (hcall : st.calls i = .idle) :
    Moves s st e i (s.authorize token name) := by
  unfold CPTokenStore.authorize
  dsimp only
  split
  · exact .refused _ _
  · split
    · exact .refused _ _
    · exact .begins _ hcall

theorem moves_answered {a : Answer} (hevent : e = .answer i a) (hcall : st.calls i = .reading p) :
    Moves s st e i (answered st.now p a) := by
  unfold answered
  split
  · exact .revoked _
  · exact .refused _ _
  · rename_i ent hread
    split
    · exact .refused _ _
    · rename_i haccount
      exact .read p ent a hevent hcall hread haccount

theorem moves_advance (s : CPTokenStore) (st : State) (i j : Nat) :
    Moves s st (.advance j) i ((advance s st j).calls i) := by
  unfold advance
  cases hcall : st.calls j with
  | looking p =>
      simp only
      split
      · rename_i entry hfound
        exact moves_setCall (.found p entry rfl hcall hfound)
      · exact moves_setCall (.asks p hcall)
  | purging p => exact moves_setCall (.refused _ _)
  | storing p ent answeredAt => exact moves_setCall (.stored p ent answeredAt rfl hcall)
  | idle | reading p | returned p result => exact .same

theorem moves_step (s : CPTokenStore) (st : State) (e : Event) (i : Nat) :
    Moves s st e i ((step s st e).calls i) := by
  cases e with
  | begin j token name =>
      simp only [step]
      split
      · rename_i hcall
        exact moves_setCall (moves_authorize token name hcall)
      · exact .same
  | advance j => exact moves_advance s st i j
  | answer j a =>
      simp only [step]
      split
      · rename_i p hcall
        exact moves_setCall (moves_answered rfl hcall)
      · exact .same
  | tick nanoseconds => exact .same

theorem idle_of_step (h : (step s st e).calls i = .idle) : st.calls i = .idle := by
  have hmoves := moves_step s st e i
  rw [h] at hmoves
  generalize hc : Call.idle = c at hmoves
  cases hmoves with
  | same => rfl
  | begins p _ | asks p _ | revoked p | read p ent a _ _ _ _ | found p entry _ _ _
  | stored p ent answeredAt _ _ | refused p err => cases hc

theorem idle_of_after {events : List Event} (h : (after (step s) st events).calls i = .idle) :
    st.calls i = .idle := by
  induction events generalizing st with
  | nil => exact h
  | cons e rest ih => exact idle_of_step (ih h)

theorem storing_of_step {ent : Entitlement} {answeredAt : Int}
    (h : (step s st e).calls i = .storing p ent answeredAt) :
    st.calls i = .storing p ent answeredAt ∨
      Note.read i p ent answeredAt ∈ emit st e ∧ st.calls i = .reading p ∧ ent.accountID ≠ [] := by
  have hmoves := moves_step s st e i
  rw [h] at hmoves
  generalize hc : Call.storing p ent answeredAt = c at hmoves
  cases hmoves with
  | same => exact Or.inl rfl
  | read p' ent' a hevent hcall hread haccount =>
      cases hc
      subst hevent
      apply Or.inr
      refine ⟨?_, hcall, haccount⟩
      simp [emit, hcall, hread]
  | begins p' _ | asks p' _ | revoked p' | found p' entry _ _ _ | stored p' ent' answeredAt' _ _
  | refused p' err => cases hc

/-- How a call can be let through: by a fresh entry, or by the answer it stores. -/
inductive LetThrough (s : CPTokenStore) (st : State) (e : Event) (i : Nat) (p : Presented)
    (account : Bytes) : Prop where
  | found (entry : CacheEntry) (hevent : e = .advance i) (hcall : st.calls i = .looking p)
      (hfound : lookup st.now st.cache (s.digest p) = some entry)
      (haccount : entry.account = account) (hname : p.norm ∈ entry.names)
  | stored (ent : Entitlement) (answeredAt : Int) (hevent : e = .advance i)
      (hcall : st.calls i = .storing p ent answeredAt) (haccount : ent.accountID = account)
      (hname : p.norm ∈ s.namesOf ent)

theorem bindName_eq_ok {account account' : Bytes} {names : List Bytes}
    (h : bindName p account names = .ok account') : account = account' ∧ p.norm ∈ names := by
  unfold bindName at h
  split at h
  · rename_i hname
    cases h
    exact ⟨rfl, hname⟩
  · cases h

theorem letThrough_of_step {account : Bytes} (hbefore : st.calls i ≠ .returned p (.ok account))
    (h : (step s st e).calls i = .returned p (.ok account)) : LetThrough s st e i p account := by
  have hmoves := moves_step s st e i
  rw [h] at hmoves
  generalize hc : Call.returned p (.ok account) = c at hmoves
  cases hmoves with
  | same => exact absurd hc.symm hbefore
  | found p' entry hevent hcall hfound =>
      rw [Call.returned.injEq] at hc
      rcases hc with ⟨hp, hresult⟩
      subst hp
      rcases bindName_eq_ok hresult.symm with ⟨haccount, hname⟩
      exact .found entry hevent hcall hfound haccount hname
  | stored p' ent answeredAt hevent hcall =>
      rw [Call.returned.injEq] at hc
      rcases hc with ⟨hp, hresult⟩
      subst hp
      rcases bindName_eq_ok hresult.symm with ⟨haccount, hname⟩
      exact .stored ent answeredAt hevent hcall haccount hname
  | refused p' err | begins p' _ | asks p' _ | revoked p' | read p' ent a _ _ _ _ => cases hc

/-- What a step can do to the entry of a credential. -/
inductive Entry (s : CPTokenStore) (st : State) (e : Event) (h : Digest) :
    Option CacheEntry -> Prop where
  | same : Entry s st e h (st.cache.lookup h)
  | none : Entry s st e h none
  | stored (i : Nat) (p : Presented) (ent : Entitlement) (answeredAt : Int)
      (hevent : e = .advance i) (hcall : st.calls i = .storing p ent answeredAt)
      (hdigest : s.digest p = h) :
      Entry s st e h
        (some ⟨ent.accountID, s.namesOf ent, GoTime.add st.now s.ttl, answeredAt⟩)

theorem lookup_store (s : CPTokenStore) (now : Int) (cache : Cache) (p : Presented)
    (ent : Entitlement) (answeredAt : Int) (h : Digest) :
    (s.store now cache p ent answeredAt).lookup h =
        (cache.insert (s.digest p)
          ⟨ent.accountID, s.namesOf ent, GoTime.add now s.ttl, answeredAt⟩).lookup h ∨
      (s.store now cache p ent answeredAt).lookup h = none := by
  unfold CPTokenStore.store
  dsimp only
  split
  · cases hlookup : (FiniteMap.filter _ _).lookup h with
    | none => exact Or.inr rfl
    | some entry => exact Or.inl (FiniteMap.lookup_filter_eq_some.mp hlookup).1.symm
  · exact Or.inl rfl

theorem entry_step (s : CPTokenStore) (st : State) (e : Event) (h : Digest) :
    Entry s st e h ((step s st e).cache.lookup h) := by
  cases e with
  | begin i token name | answer i a =>
      simp only [step]
      split <;> exact .same
  | advance i =>
      simp only [step, advance]
      cases hcall : st.calls i with
      | looking p =>
          simp only
          split <;> exact .same
      | purging p =>
          simp only
          by_cases hdigest : h = s.digest p
          · rw [hdigest, Finmap.lookup_erase]
            exact .none
          · rw [Finmap.lookup_erase_ne hdigest]
            exact .same
      | storing p ent answeredAt =>
          simp only
          rcases lookup_store s st.now st.cache p ent answeredAt h with hkept | hdropped
          · rw [hkept]
            by_cases hdigest : h = s.digest p
            · rw [hdigest, Finmap.lookup_insert]
              exact .stored i p ent answeredAt rfl hcall rfl
            · rw [Finmap.lookup_insert_of_ne _ hdigest]
              exact .same
          · rw [hdropped]
            exact .none
      | idle | reading p | returned p result => exact .same
  | tick nanoseconds => exact .same

theorem lookup_purge (hcall : st.calls i = .purging p) :
    (step s st (.advance i)).cache.lookup (s.digest p) = none := by
  simp only [step, advance, hcall]
  exact Finmap.lookup_erase _ _

theorem lookup_eq_some {now : Int} {cache : Cache} {h : Digest} {entry : CacheEntry}
    (hlookup : lookup now cache h = some entry) :
    cache.lookup h = some entry ∧ now < entry.expires := by
  unfold lookup at hlookup
  split at hlookup
  · cases hlookup
  · rename_i entry' hentry
    split at hlookup
    · rename_i hfresh
      cases hlookup
      exact ⟨hentry, hfresh⟩
    · cases hlookup

end Steps

end CpTokens
end Server
end Ephor
