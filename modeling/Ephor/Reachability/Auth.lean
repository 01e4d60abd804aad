import Ephor.Reachability.Tunnel

/-!
# The tunnel handshake

`pier-reachability-adapter/src/auth.rs`: a box announces its key and its registration, the
adapter answers with a nonce, and the box signs the nonce and its name.  The frames travel
in the clear, so whoever sits on the network decides which bytes each end reads.  Signing
and verifying are functions of another crate and stand as the parameters of `Identity`.
-/

namespace Ephor
namespace Reachability
namespace Auth

open Foundation
open Foundation.Text

/-- The functions of `kotva_core::identity` that the handshake calls. -/
structure Identity where
  Key : Type
  publicArray : Key -> FixedBytes 32
  signDomain : Key -> Bytes -> Bytes -> Bytes
  verifyDomain : FixedBytes 32 -> Bytes -> Bytes -> FixedBytes 64 -> Bool

/-- `PIER-REACH-v0/tunnel-auth` with the zero byte. -/
def tunnelAuthDs : Bytes :=
  utf8 "PIER-REACH-v0/tunnel-auth".toList ++ [0]

inductive TunnelError where
  | io
  | malformedRegistration (why : String)
deriving DecidableEq

inductive AuthError where
  | io
  | malformed (why : String)
  | registration (e : TunnelError)
  | nonceReplayed
  | badSignature
deriving DecidableEq

structure AuthAnnounce where
  claimedIk : FixedBytes 32
  registration : Registration
deriving DecidableEq

structure AuthenticatedRegistration where
  registration : Registration
  authenticatedIk : Bytes
deriving DecidableEq

def signingPreimage (nonce : FixedBytes 32) (name : Str) : Bytes :=
  nonce.toBytes ++ utf8 name

/-!
## Frames

A read takes its bytes from the front of the stream and leaves the rest; a stream that
ends too early is an I/O error.
-/

def readExact {ε : Type} (eof : ε) (n : Nat) (stream : Bytes) : Except ε (FixedBytes n × Bytes) :=
  if h : n <= stream.length then
    .ok (⟨stream.take n, List.length_take_of_le h⟩, stream.drop n)
  else
    .error eof

def readU16 (stream : Bytes) : Except TunnelError (Nat × Bytes) :=
  match stream with
  | high :: low :: rest => .ok (high.toNat * 256 + low.toNat, rest)
  | _ => .error .io

def maxRegistrationFieldBytes : Nat := 4096

def maxRegistrationServices : Nat := 256

def readLengthPrefixedString (stream : Bytes) : Except TunnelError (Str × Bytes) := do
  let (len, stream) <- readU16 stream
  if len > maxRegistrationFieldBytes then
    throw (.malformedRegistration "field exceeds max length")
  let (buf, stream) <- readExact TunnelError.io len stream
  match fromUtf8 buf.toBytes with
  | some text => return (text, stream)
  | none => throw (.malformedRegistration "field is not UTF-8")

def readServices : Nat -> Finset Str -> Bytes -> Except TunnelError (Finset Str × Bytes)
  | 0, services, stream => .ok (services, stream)
  | count + 1, services, stream => do
      let (service, stream) <- readLengthPrefixedString stream
      readServices count (insert service services) stream

def readRegistration (stream : Bytes) : Except TunnelError (Registration × Bytes) := do
  let (name, stream) <- readLengthPrefixedString stream
  if name = [] then
    throw (.malformedRegistration "name is empty")
  let (count, stream) <- readU16 stream
  if count > maxRegistrationServices then
    throw (.malformedRegistration "too many declared services")
  let (services, stream) <- readServices count ∅ stream
  return (⟨name, services⟩, stream)

def readAnnounce (stream : Bytes) : Except AuthError (AuthAnnounce × Bytes) := do
  let (ik, stream) <- readExact AuthError.io 32 stream
  let (registration, stream) <- (readRegistration stream).mapError AuthError.registration
  return (⟨ik, registration⟩, stream)

/-- `write_u16` of a length, which `as u16` cuts to its low sixteen bits. -/
def writeU16 (n : Nat) : Bytes :=
  [UInt8.ofNat (n / 256), UInt8.ofNat n]

def writeLengthPrefixedString (text : Str) : Bytes :=
  writeU16 (utf8 text).length ++ utf8 text

/-- The frame, with the services in the order in which the set yields them. -/
def writeRegistration (registration : Registration) (order : List Str) : Bytes :=
  writeLengthPrefixedString registration.name ++
    (writeU16 registration.allowedServices.card ++ order.flatMap writeLengthPrefixedString)

def writeAnnounce (announce : AuthAnnounce) (order : List Str) : Bytes :=
  announce.claimedIk.toBytes ++ writeRegistration announce.registration order

/-!
## Nonces
-/

structure NonceState where
  pending : Finset (FixedBytes 32)
  order : List (FixedBytes 32)

def maxPendingNonces : Nat := 10000

/-- At capacity the oldest nonce still pending is dropped first. -/
def NonceState.evict (state : NonceState) : NonceState :=
  if maxPendingNonces <= state.order.length then
    match state.order with
    | [] => state
    | oldest :: order => ⟨state.pending.erase oldest, order⟩
  else
    state

def NonceState.issue (state : NonceState) (nonce : FixedBytes 32) : NonceState :=
  ⟨insert nonce state.evict.pending, state.evict.order ++ [nonce]⟩

/-- `NonceRegistry::consume`: whether the nonce was live, and the state without it. -/
def NonceState.consume (state : NonceState) (nonce : FixedBytes 32) : Bool × NonceState :=
  (nonce ∈ state.pending, { state with pending := state.pending.erase nonce })

/-!
## Runs of both ends

Any number of boxes and of adapter connections run at the same time.  An event carries the
bytes that the end reads, which are whatever the network delivers to it.
-/

/-- How far a run of `authenticate_as_box` got. -/
inductive BoxStage where
  | announced
  | signed (nonce : FixedBytes 32)
  | failed (e : AuthError)

structure BoxRun (I : Identity) where
  key : I.Key
  registration : Registration
  stage : BoxStage

/-- How far a run of `authenticate_box_connection` got. -/
inductive AdapterRun where
  /-- The challenge is out; `unread` was sent behind the announce. -/
  | challenged (announce : AuthAnnounce) (nonce : FixedBytes 32) (unread : Bytes)
  | accepted (result : AuthenticatedRegistration) (nonce : FixedBytes 32)
  | failed (e : AuthError)

structure System (I : Identity) where
  boxes : List (BoxRun I)
  adapters : List AdapterRun
  nonces : NonceState

def System.init (I : Identity) : System I := ⟨[], [], ⟨∅, []⟩⟩

inductive Event (I : Identity) where
  | dial (key : I.Key) (registration : Registration)
  | challenge (i : Nat) (stream : Bytes)
  | announce (stream : Bytes) (nonce : FixedBytes 32)
  | respond (j : Nat) (stream : Bytes)

variable {I : Identity}

/-- The rest of `authenticate_as_box` once the announce is written. -/
def answerChallenge (box : BoxRun I) (stream : Bytes) : BoxStage :=
  match readExact AuthError.io 32 stream with
  | .error e => .failed e
  | .ok (nonce, _) =>
      let sig := I.signDomain box.key tunnelAuthDs (signingPreimage nonce box.registration.name)
      if sig.length = 64 then .signed nonce
      else .failed (.malformed "IK signature was not 64 bytes")

/-- The rest of `authenticate_box_connection` once the challenge is written. -/
def checkResponse (I : Identity) (nonces : NonceState) (announce : AuthAnnounce)
    (nonce : FixedBytes 32) (stream : Bytes) : AdapterRun × NonceState :=
  match readExact AuthError.io 64 stream with
  | .error e => (.failed e, nonces)
  | .ok (sig, _) =>
      let (live, nonces) := nonces.consume nonce
      if !live then (.failed .nonceReplayed, nonces)
      else if I.verifyDomain announce.claimedIk tunnelAuthDs
          (signingPreimage nonce announce.registration.name) sig then
        (.accepted ⟨announce.registration, announce.claimedIk.toBytes⟩ nonce, nonces)
      else
        (.failed .badSignature, nonces)

def step (s : System I) : Event I -> System I
  | .dial key registration =>
      { s with boxes := s.boxes ++ [⟨key, registration, .announced⟩] }
  | .challenge i stream =>
      match s.boxes[i]? with
      | some ⟨key, registration, .announced⟩ =>
          let box : BoxRun I := ⟨key, registration, .announced⟩
          { s with boxes := s.boxes.set i { box with stage := answerChallenge box stream } }
      | _ => s
  | .announce stream nonce =>
      match readAnnounce stream with
      | .error e => { s with adapters := s.adapters ++ [.failed e] }
      | .ok (announce, unread) =>
          { s with
            adapters := s.adapters ++ [.challenged announce nonce unread]
            nonces := s.nonces.issue nonce }
  | .respond j stream =>
      match s.adapters[j]? with
      | some (.challenged announce nonce unread) =>
          let (run, nonces) := checkResponse I s.nonces announce nonce (unread ++ stream)
          { s with adapters := s.adapters.set j run, nonces }
      | _ => s

/-!
## The attacker and the condition

`held` are the keys of the attacker.  It has no signature of any other key but those that
the boxes of that key made.  What the boxes sign is the nonce and the name; that the
services are the ones they announced is a condition of its own.
-/

def Accepts (s : System I) (j : Nat) (stream : Bytes) (announce : AuthAnnounce)
    (nonce : FixedBytes 32) : Prop :=
  exists unread sig rest, s.adapters[j]? = some (.challenged announce nonce unread) ∧
    readExact AuthError.io 64 (unread ++ stream) = .ok (sig, rest) ∧
    nonce ∈ s.nonces.pending ∧
    I.verifyDomain announce.claimedIk tunnelAuthDs
      (signingPreimage nonce announce.registration.name) sig = true

def Signed (s : System I) (ik : FixedBytes 32) (preimage : Bytes) : Prop :=
  exists i box nonce, s.boxes[(i : Nat)]? = some box ∧ I.publicArray box.key = ik ∧
    box.stage = .signed nonce ∧ signingPreimage nonce box.registration.name = preimage

variable (held : Bytes -> Prop)

/-- No signature is forged: one that verifies under a key the attacker does not hold was
made by a box of that key. -/
def Unforged (s : System I) : Event I -> Prop
  | .respond j stream => forall announce nonce, Accepts s j stream announce nonce ->
      held announce.claimedIk.toBytes ∨
        Signed s announce.claimedIk (signingPreimage nonce announce.registration.name)
  | _ => True

def Fresh (s : System I) : Event I -> Prop
  | .announce _ nonce => forall j result, s.adapters[(j : Nat)]? ≠ some (.accepted result nonce)
  | _ => True

/-- The services in the announce that the adapter read are those that the boxes announced
that signed its nonce under its name. -/
def ServicesKept (s : System I) : Event I -> Prop
  | .respond j stream => forall announce nonce, Accepts s j stream announce nonce ->
      ¬ held announce.claimedIk.toBytes -> forall i box, s.boxes[(i : Nat)]? = some box ->
        I.publicArray box.key = announce.claimedIk -> box.stage = .signed nonce ->
        box.registration.name = announce.registration.name ->
        box.registration.allowedServices = announce.registration.allowedServices
  | _ => True

/-- The condition under which the handshake agrees on all that it accepts. -/
def Condition (s : System I) (e : Event I) : Prop :=
  Fresh s e ∧ ServicesKept held s e

def Guarded (s : System I) (e : Event I) : Prop :=
  Unforged held s e ∧ Condition held s e

/-!
## What every reachable state keeps
-/

variable {nonce : FixedBytes 32} {s : System I} {j : Nat} {announce : AuthAnnounce}
    {stream : Bytes}

theorem signingPreimage_inj {nonce' : FixedBytes 32} {name name' : Str}
    (h : signingPreimage nonce name = signingPreimage nonce' name') :
    nonce = nonce' ∧ name = name' := by
  rcases FixedBytes.append_toBytes_inj h with ⟨hnonce, hname⟩
  exact ⟨hnonce, utf8_injective hname⟩

/-- The box at this place announced the registration and signed the nonce. -/
structure Answered (s : System I) (i : Nat) (ik : Bytes) (registration : Registration)
    (nonce : FixedBytes 32) : Prop where
  run : exists box, s.boxes[i]? = some box ∧ (I.publicArray box.key).toBytes = ik ∧
    box.registration = registration ∧ box.stage = .signed nonce

structure Invariant (s : System I) : Prop where
  answered : forall j result nonce, s.adapters[(j : Nat)]? = some (.accepted result nonce) ->
    ¬ held result.authenticatedIk ->
      exists i, Answered s i result.authenticatedIk result.registration nonce
  apart : forall j j' result result' nonce,
    s.adapters[(j : Nat)]? = some (.accepted result nonce) ->
    s.adapters[(j' : Nat)]? = some (.accepted result' nonce) -> j = j'
  consumed : forall j result nonce, s.adapters[(j : Nat)]? = some (.accepted result nonce) ->
    nonce ∉ s.nonces.pending

variable {held}

theorem init_invariant : Invariant held (System.init I) where
  answered := by
    intro j result nonce h
    cases h
  apart := by
    intro j j' result result' nonce h
    cases h
  consumed := by
    intro j result nonce h
    cases h

theorem Invariant.of_boxes (h : Invariant held s) {boxes : List (BoxRun I)}
    (hboxes : forall i box nonce, s.boxes[(i : Nat)]? = some box -> box.stage = .signed nonce ->
      boxes[i]? = some box) : Invariant held { s with boxes } where
  answered := by
    intro j result nonce hj hheld
    rcases h.answered j result nonce hj hheld with ⟨i, ⟨box, hbox, hik, hreg, hstage⟩⟩
    exact ⟨i, ⟨box, hboxes i box nonce hbox hstage, hik, hreg, hstage⟩⟩
  apart := h.apart
  consumed := h.consumed

theorem Invariant.of_adapters (h : Invariant held s) {adapters : List AdapterRun}
    {nonces : NonceState}
    (hadapters : forall j result nonce, adapters[(j : Nat)]? = some (.accepted result nonce) ->
      s.adapters[j]? = some (.accepted result nonce) ∧ nonce ∉ nonces.pending) :
    Invariant held { s with adapters, nonces } where
  answered := by
    intro j result nonce hj hheld
    rcases h.answered j result nonce (hadapters j result nonce hj).1 hheld with ⟨i, ⟨hrun⟩⟩
    exact ⟨i, ⟨hrun⟩⟩
  apart := by
    intro j j' result result' nonce hj hj'
    exact h.apart j j' result result' nonce (hadapters j result nonce hj).1
      (hadapters j' result' nonce hj').1
  consumed := by
    intro j result nonce hj
    exact (hadapters j result nonce hj).2

theorem getElem?_of_append_singleton {α : Type} {xs : List α} {x y : α}
    (h : (xs ++ [x])[j]? = some y) (hne : y ≠ x) : xs[j]? = some y := by
  rcases Nat.lt_trichotomy j xs.length with hlt | heq | hgt
  · rw [List.getElem?_append_left hlt] at h
    exact h
  · rw [heq, List.getElem?_concat_length] at h
    cases h
    exact absurd rfl hne
  · rw [List.getElem?_eq_none (by rw [List.length_append]; exact hgt)] at h
    cases h

theorem step_dial_invariant (h : Invariant held s) (key : I.Key) (registration : Registration) :
    Invariant held (step s (.dial key registration)) := by
  apply h.of_boxes
  intro i box nonce hbox _
  rw [List.getElem?_append_left (List.getElem?_eq_some_iff.mp hbox).1]
  exact hbox

theorem step_challenge_invariant (h : Invariant held s) (i : Nat) (stream : Bytes) :
    Invariant held (step s (.challenge i stream)) := by
  rw [step]
  split
  · rename_i key registration hannounced
    apply h.of_boxes
    intro i' box nonce hbox hstage
    by_cases heq : i = i'
    · -- A run that signed waits for no challenge any more.
      rw [<- heq, hannounced] at hbox
      cases hbox
      cases hstage
    · rw [List.getElem?_set_ne heq]
      exact hbox
  · exact h

theorem not_mem_issue {state : NonceState} {drawn : FixedBytes 32} (h : nonce ∉ state.pending)
    (hne : nonce ≠ drawn) : nonce ∉ (state.issue drawn).pending := by
  have hevict : nonce ∉ state.evict.pending := by
    rw [NonceState.evict]
    split
    · split
      · exact h
      · intro hmem
        exact h (Finset.mem_of_mem_erase hmem)
    · exact h
  intro hmem
  rcases Finset.mem_insert.mp hmem with heq | hmem
  · exact hne heq
  · exact hevict hmem

theorem step_announce_invariant (h : Invariant held s) (stream : Bytes) (drawn : FixedBytes 32)
    (hfresh : Fresh s (.announce stream drawn)) :
    Invariant held (step s (.announce stream drawn)) := by
  rw [step]
  split
  · apply h.of_adapters
    intro j result nonce hj
    have hold := getElem?_of_append_singleton hj (by intro heq; cases heq)
    exact ⟨hold, h.consumed j result nonce hold⟩
  · apply h.of_adapters
    intro j result nonce hj
    have hold := getElem?_of_append_singleton hj (by intro heq; cases heq)
    refine ⟨hold, not_mem_issue (h.consumed j result nonce hold) ?_⟩
    intro heq
    exact hfresh j result (heq ▸ hold)

theorem checkResponse_cases {nonces : NonceState} :
    ((exists e, (checkResponse I nonces announce nonce stream).1 = .failed e) ∧
      (checkResponse I nonces announce nonce stream).2.pending ⊆ nonces.pending) ∨
    exists sig rest, readExact AuthError.io 64 stream = .ok (sig, rest) ∧
      nonce ∈ nonces.pending ∧
      I.verifyDomain announce.claimedIk tunnelAuthDs
        (signingPreimage nonce announce.registration.name) sig = true ∧
      checkResponse I nonces announce nonce stream =
        (.accepted ⟨announce.registration, announce.claimedIk.toBytes⟩ nonce,
          { nonces with pending := nonces.pending.erase nonce }) := by
  rw [checkResponse]
  cases hread : readExact AuthError.io 64 stream with
  | error e => exact Or.inl ⟨⟨e, rfl⟩, fun _ hmem => hmem⟩
  | ok read =>
      rcases read with ⟨sig, rest⟩
      by_cases hlive : nonce ∈ nonces.pending
      · cases hverify : I.verifyDomain announce.claimedIk tunnelAuthDs
            (signingPreimage nonce announce.registration.name) sig with
        | false =>
            apply Or.inl
            simp only [NonceState.consume, hlive, hverify]
            exact ⟨⟨_, rfl⟩, Finset.erase_subset _ _⟩
        | true =>
            apply Or.inr
            refine ⟨sig, rest, rfl, hlive, hverify, ?_⟩
            simp only [NonceState.consume, hlive, hverify]
            rfl
      · apply Or.inl
        simp only [NonceState.consume, hlive]
        exact ⟨⟨_, rfl⟩, Finset.erase_subset _ _⟩

theorem answered_of_accepts (haccepts : Accepts s j stream announce nonce)
    (hguard : Guarded held s (.respond j stream)) (hheld : ¬ held announce.claimedIk.toBytes) :
    exists i, Answered s i announce.claimedIk.toBytes announce.registration nonce := by
  rcases hguard with ⟨hunforged, _, hservices⟩
  rcases hunforged announce nonce haccepts with hattacker | hsigned
  · exact absurd hattacker hheld
  · rcases hsigned with ⟨i, box, nonce', hbox, hik, hstage, hpreimage⟩
    rcases signingPreimage_inj hpreimage with ⟨rfl, hname⟩
    have hallowed := hservices announce nonce' haccepts hheld i box hbox hik hstage hname
    have hregistration : box.registration = announce.registration := by
      cases hbreg : box.registration
      cases hareg : announce.registration
      rw [hbreg, hareg] at hname hallowed
      rw [Registration.mk.injEq]
      exact ⟨hname, hallowed⟩
    exact ⟨i, ⟨box, hbox, congrArg FixedBytes.toBytes hik, hregistration, hstage⟩⟩

theorem step_respond {unread : Bytes}
    (h : s.adapters[j]? = some (.challenged announce nonce unread)) :
    step s (.respond j stream) =
      { s with
        adapters := s.adapters.set j
          (checkResponse I s.nonces announce nonce (unread ++ stream)).1
        nonces := (checkResponse I s.nonces announce nonce (unread ++ stream)).2 } := by
  rw [step, h]

def AuthAnnounce.result (announce : AuthAnnounce) : AuthenticatedRegistration :=
  ⟨announce.registration, announce.claimedIk.toBytes⟩

theorem accepted_of_set (h : Invariant held s) (hlt : j < s.adapters.length)
    (hlive : nonce ∈ s.nonces.pending) {j' : Nat} {result : AuthenticatedRegistration}
    {nonce' : FixedBytes 32}
    (hj' : (s.adapters.set j (.accepted announce.result nonce))[j']? =
      some (.accepted result nonce')) :
    (j' = j ∧ result = announce.result ∧ nonce' = nonce) ∨
      (s.adapters[j']? = some (.accepted result nonce') ∧ nonce' ≠ nonce) := by
  by_cases heq : j = j'
  · rw [<- heq, List.getElem?_set_self hlt] at hj'
    cases hj'
    exact Or.inl ⟨heq.symm, rfl, rfl⟩
  · rw [List.getElem?_set_ne heq] at hj'
    refine Or.inr ⟨hj', ?_⟩
    intro hsame
    exact h.consumed j' result nonce' hj' (hsame ▸ hlive)

theorem Invariant.accept (h : Invariant held s) (haccepts : Accepts s j stream announce nonce)
    (hguard : Guarded held s (.respond j stream)) :
    Invariant held
      { s with
        adapters := s.adapters.set j (.accepted announce.result nonce)
        nonces := { s.nonces with pending := s.nonces.pending.erase nonce } } := by
  rcases haccepts with ⟨unread, sig, rest, hchallenged, hread, hlive, hverify⟩
  have hlt := (List.getElem?_eq_some_iff.mp hchallenged).1
  constructor
  · intro j' result nonce' hj' hheld
    rcases accepted_of_set h hlt hlive hj' with ⟨_, rfl, rfl⟩ | ⟨hold, _⟩
    · rcases answered_of_accepts ⟨unread, sig, rest, hchallenged, hread, hlive, hverify⟩
        hguard hheld with ⟨i, ⟨hrun⟩⟩
      exact ⟨i, ⟨hrun⟩⟩
    · rcases h.answered j' result nonce' hold hheld with ⟨i, ⟨hrun⟩⟩
      exact ⟨i, ⟨hrun⟩⟩
  · intro j₁ j₂ result₁ result₂ nonce' hj₁ hj₂
    rcases accepted_of_set h hlt hlive hj₁ with ⟨heq₁, _, hn₁⟩ | ⟨hold₁, hne₁⟩
    · rcases accepted_of_set h hlt hlive hj₂ with ⟨heq₂, _, _⟩ | ⟨_, hne₂⟩
      · rw [heq₁, heq₂]
      · exact absurd hn₁ hne₂
    · rcases accepted_of_set h hlt hlive hj₂ with ⟨_, _, hn₂⟩ | ⟨hold₂, _⟩
      · exact absurd hn₂ hne₁
      · exact h.apart j₁ j₂ result₁ result₂ nonce' hold₁ hold₂
  · intro j' result nonce' hj' hmem
    rcases Finset.mem_erase.mp hmem with ⟨hne, hpending⟩
    rcases accepted_of_set h hlt hlive hj' with ⟨_, _, hsame⟩ | ⟨hold, _⟩
    · exact hne hsame
    · exact h.consumed j' result nonce' hold hpending

theorem step_respond_invariant (h : Invariant held s) (j : Nat) (stream : Bytes)
    (hguard : Guarded held s (.respond j stream)) :
    Invariant held (step s (.respond j stream)) := by
  by_cases hwaits : exists announce nonce unread,
      s.adapters[j]? = some (.challenged announce nonce unread)
  · rcases hwaits with ⟨announce, nonce, unread, hchallenged⟩
    have hlt := (List.getElem?_eq_some_iff.mp hchallenged).1
    rw [step_respond hchallenged]
    rcases checkResponse_cases (I := I) with ⟨⟨e, hrun⟩, hfewer⟩ | hpasses
    · apply h.of_adapters
      intro j' result nonce' hj'
      by_cases heq : j = j'
      · rw [<- heq, List.getElem?_set_self hlt, hrun] at hj'
        cases hj'
      · rw [List.getElem?_set_ne heq] at hj'
        exact ⟨hj', fun hmem => h.consumed j' result nonce' hj' (hfewer hmem)⟩
    · rcases hpasses with ⟨sig, rest, hread, hlive, hverify, hresult⟩
      rw [hresult]
      exact h.accept ⟨unread, sig, rest, hchallenged, hread, hlive, hverify⟩ hguard
  · have hsame : step s (.respond j stream) = s := by
      rw [step]
      split
      · rename_i announce nonce unread hchallenged
        exact absurd ⟨announce, nonce, unread, hchallenged⟩ hwaits
      · rfl
    rw [hsame]
    exact h

theorem step_invariant {e : Event I} (h : Invariant held s) (hguard : Guarded held s e) :
    Invariant held (step s e) := by
  cases e with
  | dial key registration => exact step_dial_invariant h key registration
  | challenge i stream => exact step_challenge_invariant h i stream
  | announce stream nonce => exact step_announce_invariant h stream nonce hguard.2.1
  | respond j stream => exact step_respond_invariant h j stream hguard

/-!
## Agreement
-/

/-- The connection accepted this result, for a key that the attacker does not hold. -/
def Accepted (held : Bytes -> Prop) (s : System I) (j : Nat)
    (result : AuthenticatedRegistration) : Prop :=
  (exists nonce, s.adapters[j]? = some (.accepted result nonce)) ∧ ¬ held result.authenticatedIk

/-- The box at this place announced the result under its key. -/
def Announced (s : System I) (i : Nat) (result : AuthenticatedRegistration) : Prop :=
  exists box, s.boxes[i]? = some box ∧
    (I.publicArray box.key).toBytes = result.authenticatedIk ∧
    box.registration = result.registration

/-- Every accepted result is one that a box of its key announced, and no announcement
stands behind two of them. -/
def Agreement (held : Bytes -> Prop) (s : System I) : Prop :=
  exists announcer : Nat -> Nat,
    (forall j result, Accepted held s j result -> Announced s (announcer j) result) ∧
    (forall j j' result result', Accepted held s j result -> Accepted held s j' result' ->
      announcer j = announcer j' -> j = j')

theorem Invariant.agreement (h : Invariant held s) : Agreement held s := by
  have hexists : forall j, exists i, forall result nonce,
      s.adapters[(j : Nat)]? = some (.accepted result nonce) ->
      ¬ held result.authenticatedIk ->
      Answered s i result.authenticatedIk result.registration nonce := by
    intro j
    by_cases haccepted : exists result nonce,
        s.adapters[j]? = some (.accepted result nonce) ∧ ¬ held result.authenticatedIk
    · rcases haccepted with ⟨result, nonce, hj, hheld⟩
      rcases h.answered j result nonce hj hheld with ⟨i, hanswered⟩
      refine ⟨i, ?_⟩
      intro result' nonce' hj' _
      cases hj.symm.trans hj'
      exact hanswered
    · refine ⟨0, ?_⟩
      intro result nonce hj hheld
      exact absurd ⟨result, nonce, hj, hheld⟩ haccepted
  choose announcer hannouncer using hexists
  refine ⟨announcer, ?_, ?_⟩
  · intro j result haccepted
    rcases haccepted with ⟨⟨nonce, hj⟩, hheld⟩
    rcases hannouncer j result nonce hj hheld with ⟨box, hbox, hik, hreg, _⟩
    exact ⟨box, hbox, hik, hreg⟩
  · intro j j' result result' haccepted haccepted' hsame
    rcases haccepted with ⟨⟨nonce, hj⟩, hheld⟩
    rcases haccepted' with ⟨⟨nonce', hj'⟩, hheld'⟩
    rcases hannouncer j result nonce hj hheld with ⟨box, hbox, _, _, hstage⟩
    rcases hannouncer j' result' nonce' hj' hheld' with ⟨box', hbox', _, _, hstage'⟩
    -- One run of a box signs one nonce.
    rw [hsame] at hbox
    cases hbox.symm.trans hbox'
    cases hstage.symm.trans hstage'
    exact h.apart j j' result result' nonce hj hj'

theorem authentication_agreement (held : Bytes -> Prop) (events : List (Event I))
    (hattacker : Transition.StepsMeet step (Unforged held) (System.init I) events)
    (hcondition : Transition.StepsMeet step (Condition held) (System.init I) events) :
    Agreement held (Transition.after step (System.init I) events) := by
  have hmeet := Transition.stepsMeet_and hattacker hcondition
  exact (Transition.invariant_after (fun _ _ => step_invariant) init_invariant hmeet).agreement

def alicePublic : FixedBytes 32 :=
  FixedBytes.ofNat 0x79b5562e8fe654f94078b112e8a98ba7901f853ae695bed7e0e3910bad049664

def aliceNonce : FixedBytes 32 where
  toBytes := (List.range 32).map UInt8.ofNat
  length_eq := rfl

def aliceRegistration : Registration :=
  ⟨"alice.reach.example".toList, {"443".toList}⟩

def alicePreimage : Bytes :=
  signingPreimage aliceNonce aliceRegistration.name

def aliceSignature : FixedBytes 64 :=
  FixedBytes.ofNat (0x7b6a47c391863e7a5318065557c4cfd8ee5da0dbd1f937a505d1ed26df6f0d62 <<< 256 +
    0xeeaec51a5780e1b2fa7d1381ce60cad353ea375fac9a6fb418d298c9ed250a0e)

def aliceIdentity : Identity where
  Key := Unit
  publicArray := fun _ => alicePublic
  signDomain := fun _ ds message =>
    if ds = tunnelAuthDs ∧ message = alicePreimage then aliceSignature.toBytes else []
  verifyDomain := fun ik ds message sig =>
    decide (ik = alicePublic ∧ ds = tunnelAuthDs ∧ message = alicePreimage ∧
      sig = aliceSignature)

/-- Alice's box dials, and the network hands the adapter these bytes for its announce. -/
def aliceRun (announced : Bytes) : List (Event aliceIdentity) :=
  [.dial () aliceRegistration, .announce announced aliceNonce,
    .challenge 0 aliceNonce.toBytes, .respond 0 aliceSignature.toBytes]

def aliceChallenged (announce : AuthAnnounce) : System aliceIdentity :=
  ⟨[⟨(), aliceRegistration, .signed aliceNonce⟩], [.challenged announce aliceNonce []],
    ⟨{aliceNonce}, [aliceNonce]⟩⟩

theorem aliceRun_challenged {announced : Bytes} (h : readAnnounce announced = .ok (announce, [])) :
    step (step (step (System.init aliceIdentity) (.dial () aliceRegistration))
      (.announce announced aliceNonce)) (.challenge 0 aliceNonce.toBytes) =
        aliceChallenged announce := by
  have hannounced : step (step (System.init aliceIdentity) (.dial () aliceRegistration))
      (.announce announced aliceNonce) =
        ⟨[⟨(), aliceRegistration, .announced⟩], [.challenged announce aliceNonce []],
          ⟨{aliceNonce}, [aliceNonce]⟩⟩ := by
    rw [step, h]
    rfl
  rw [hannounced]
  rfl

theorem aliceChallenged_signed {announce' : AuthAnnounce}
    (h : Accepts (aliceChallenged announce) 0 stream announce' nonce) :
    Signed (aliceChallenged announce) announce'.claimedIk
      (signingPreimage nonce announce'.registration.name) := by
  rcases h with ⟨_, sig, _, _, _, _, hverify⟩
  have hmessage := of_decide_eq_true hverify
  exact ⟨0, ⟨(), aliceRegistration, .signed aliceNonce⟩, aliceNonce, rfl, hmessage.1.symm, rfl,
    hmessage.2.2.1.symm⟩

theorem aliceRun_unforged {announced : Bytes} (h : readAnnounce announced = .ok (announce, [])) :
    Transition.StepsMeet step (Unforged (fun _ => False)) (System.init aliceIdentity)
      (aliceRun announced) := by
  refine ⟨trivial, trivial, trivial, ?_, trivial⟩
  rw [aliceRun_challenged h]
  intro announce' nonce haccepts
  exact Or.inr (aliceChallenged_signed haccepts)

theorem aliceRun_fresh (announced : Bytes) :
    Transition.StepsMeet step Fresh (System.init aliceIdentity) (aliceRun announced) := by
  refine ⟨trivial, ?_, trivial, trivial, trivial⟩
  intro j result hj
  cases hj

def aliceAnnounce : AuthAnnounce := ⟨alicePublic, aliceRegistration⟩

def honestRun : List (Event aliceIdentity) :=
  aliceRun (writeAnnounce aliceAnnounce ["443".toList])

theorem honestRun_services :
    Transition.StepsMeet step (ServicesKept (fun _ => False)) (System.init aliceIdentity)
      honestRun := by
  refine ⟨trivial, trivial, trivial, ?_, trivial⟩
  have hread : readAnnounce (writeAnnounce aliceAnnounce ["443".toList]) =
      .ok (aliceAnnounce, []) := rfl
  rw [aliceRun_challenged hread]
  intro announce nonce haccepts _ i box hbox _ _ _
  rcases haccepts with ⟨_, _, _, hchallenged, _⟩
  cases hchallenged
  cases i with
  | zero =>
      cases hbox
      rfl
  | succ i => cases hbox

theorem honestRun_agrees :
    (Transition.after step (System.init aliceIdentity) honestRun).adapters =
        [.accepted aliceAnnounce.result aliceNonce] ∧
      Agreement (fun _ => False) (Transition.after step (System.init aliceIdentity) honestRun) := by
  refine ⟨rfl, authentication_agreement (fun _ => False) honestRun (aliceRun_unforged rfl) ?_⟩
  exact Transition.stepsMeet_and (aliceRun_fresh _) honestRun_services

def tamperedAnnounce : AuthAnnounce :=
  ⟨alicePublic, ⟨aliceRegistration.name, {"ssh".toList, "443".toList}⟩⟩

def tamperedRun : List (Event aliceIdentity) :=
  aliceRun (writeAnnounce tamperedAnnounce ["443".toList, "ssh".toList])

theorem tamperedRun_disagrees :
    Transition.StepsMeet step (Unforged (fun _ => False)) (System.init aliceIdentity) tamperedRun ∧
      Transition.StepsMeet step Fresh (System.init aliceIdentity) tamperedRun ∧
      ¬ Agreement (fun _ => False)
        (Transition.after step (System.init aliceIdentity) tamperedRun) := by
  have hread : readAnnounce (writeAnnounce tamperedAnnounce ["443".toList, "ssh".toList]) =
      .ok (tamperedAnnounce, []) := rfl
  refine ⟨aliceRun_unforged hread, aliceRun_fresh _, ?_⟩
  intro hagreement
  rcases hagreement with ⟨announcer, hannounced, _⟩
  have hadapters : (Transition.after step (System.init aliceIdentity) tamperedRun).adapters =
      [.accepted tamperedAnnounce.result aliceNonce] := rfl
  have hboxes : (Transition.after step (System.init aliceIdentity) tamperedRun).boxes =
      [⟨(), aliceRegistration, .signed aliceNonce⟩] := rfl
  have haccepted : Accepted (fun _ => False)
      (Transition.after step (System.init aliceIdentity) tamperedRun) 0
      tamperedAnnounce.result := by
    refine ⟨⟨aliceNonce, ?_⟩, id⟩
    rw [hadapters]
    rfl
  rcases hannounced 0 tamperedAnnounce.result haccepted with ⟨box, hbox, _, hregistration⟩
  rw [hboxes] at hbox
  have hwhole : box.registration = aliceRegistration := by
    rcases List.mem_singleton.mp (List.mem_of_getElem? hbox) with rfl
    rfl
  rw [hwhole] at hregistration
  have hdifferent : aliceRegistration ≠ tamperedAnnounce.result.registration := by decide +kernel
  exact hdifferent hregistration

end Auth
end Reachability
end Ephor
