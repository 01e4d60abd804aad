import Ephor.Foundation.CanonicalCbor
import Ephor.Foundation.Transition
import Ephor.Gateway.AliasAllocator

/-!
# Admission challenges

`authz.rs`: a sender is admitted for signing a challenge that the gateway issued.  The ledger keeps
the challenges that are issued and not spent.  Calls of `admit` run next to each other: each looks
the nonce up, decides, and then spends the nonce if it is still there.
-/

namespace Ephor
namespace Gateway
namespace Authz

open Foundation
open Foundation.Text
open Foundation.CanonicalCbor (bigEndian)
open Foundation.Transition

inductive AuthzMode where
  | keyRegistered
  | openPublic
deriving DecidableEq

structure Challenge where
  nonce : FixedBytes 32
  issuedAt : Nat
deriving DecidableEq

def Challenge.signingBody (c : Challenge) : Bytes :=
  c.nonce.toBytes ++ bigEndian 8 c.issuedAt

def admissionDs : Bytes := utf8 "DMTAP-v0/gateway-admission\x00".toList

/-- A registered sender, less its quota, which admission does not read. -/
structure RegisteredIdentity where
  publicKey : Bytes
  account : Str
  domain : Str
deriving DecidableEq

structure Admission where
  account : Str
  domain : Str
  publicKey : Bytes
deriving DecidableEq

inductive AdmissionError where
  | challengeExpired
  | badSignature
  | unknownKey
  | unknownOrConsumedChallenge
deriving DecidableEq

structure IdentityRegistry where
  mode : AuthzMode
  challengeTtlMs : Nat
  entries : List RegisteredIdentity
  issuedNonces : FiniteMap (FixedBytes 32) Nat

/-- What a caller of `admit` presents, and the time. -/
structure Answer where
  challenge : Challenge
  presentedKey : Bytes
  sig : Bytes
  now : Nat
deriving DecidableEq

/-- What the gateway takes from the substrate: the digest of a content address, and the check of a
signature of a key, under a label, over a text. -/
structure Substrate where
  contentDigest : Bytes -> FixedBytes 32
  verifyDomain : Bytes -> Bytes -> Bytes -> Bytes -> Bool

namespace IdentityRegistry

def identityForKey (r : IdentityRegistry) (publicKey : Bytes) : Option RegisteredIdentity :=
  r.entries.find? fun e => e.publicKey == publicKey

def issueChallenge (r : IdentityRegistry) (c : Challenge) : IdentityRegistry :=
  { r with
    issuedNonces := (FiniteMap.filter (fun _ t => decide (c.issuedAt - r.challengeTtlMs <= t))
      r.issuedNonces).insert c.nonce c.issuedAt }

def peekIssuedAt (r : IdentityRegistry) (nonce : FixedBytes 32) : Option Nat :=
  r.issuedNonces.lookup nonce

def consumeNonce (r : IdentityRegistry) (nonce : FixedBytes 32) (presentedIssuedAt : Nat) :
    Except AdmissionError Nat × IdentityRegistry :=
  match r.issuedNonces.lookup nonce with
  | some stored =>
      if stored = presentedIssuedAt then
        (.ok stored, { r with issuedNonces := r.issuedNonces.erase nonce })
      else (.error .unknownOrConsumedChallenge, r)
  | none => (.error .unknownOrConsumedChallenge, r)

variable (K : Substrate) (r : IdentityRegistry)

def keyFingerprint (presentedKey : Bytes) : Str :=
  encodeBase32Lower ((K.contentDigest presentedKey).toBytes.take 10)

def admissionFor (presentedKey : Bytes) : Except AdmissionError Admission :=
  match r.mode, r.identityForKey presentedKey with
  | _, some id => .ok ⟨id.account, id.domain, presentedKey⟩
  | .keyRegistered, none => .error .unknownKey
  | .openPublic, none => .ok ⟨"anon:".toList ++ keyFingerprint K presentedKey, [], presentedKey⟩

/-- The checks of `admit` between the look at the ledger and the spending of the nonce. -/
def decideAdmission (peeked : Option Nat) (a : Answer) : Except AdmissionError Admission :=
  let effectiveIssuedAt := peeked.getD a.challenge.issuedAt
  if a.now < effectiveIssuedAt ∨ a.now - effectiveIssuedAt > r.challengeTtlMs then
    .error .challengeExpired
  else if !K.verifyDomain a.presentedKey admissionDs a.challenge.signingBody a.sig then
    .error .badSignature
  else r.admissionFor K a.presentedKey

/-- `admit` after its look at the ledger. -/
def finishAdmit (peeked : Option Nat) (a : Answer) :
    Except AdmissionError Admission × IdentityRegistry :=
  match r.decideAdmission K peeked a with
  | .error e => (.error e, r)
  | .ok admission =>
      match r.consumeNonce a.challenge.nonce a.challenge.issuedAt with
      | (.error e, r) => (.error e, r)
      | (.ok _, r) => (.ok admission, r)

def admitAnswer (a : Answer) : Except AdmissionError Admission × IdentityRegistry :=
  r.finishAdmit K (r.peekIssuedAt a.challenge.nonce) a

end IdentityRegistry

/-!
## Calls next to each other
-/

inductive Event where
  | issue (c : Challenge)
  /-- A call of `admit` under a number of its own looks at the ledger. -/
  | peek (call : Nat) (a : Answer)
  | consume (call : Nat)
deriving DecidableEq

/-- The registry, the calls that have looked and not finished, and what was issued and admitted. -/
structure Run where
  registry : IdentityRegistry
  calls : FiniteMap Nat (Answer × Option Nat)
  issued : List Challenge
  admitted : List (Answer × Admission)

variable (K : Substrate)

def step (s : Run) : Event -> Run
  | .issue c =>
      { s with registry := s.registry.issueChallenge c, issued := s.issued ++ [c] }
  | .peek call a =>
      { s with calls := s.calls.insert call (a, s.registry.peekIssuedAt a.challenge.nonce) }
  | .consume call =>
      match s.calls.lookup call with
      | none => s
      | some (a, peeked) =>
          let done := s.registry.finishAdmit K peeked a
          { registry := done.2
            calls := s.calls.erase call
            issued := s.issued
            admitted := match done.1 with
              | .ok admission => s.admitted ++ [(a, admission)]
              | .error _ => s.admitted }

def start (r : IdentityRegistry) : Run where
  registry := { r with issuedNonces := ∅ }
  calls := ∅
  issued := []
  admitted := []

def Fresh (s : Run) : Event -> Prop
  | .issue c => forall d, d ∈ s.issued -> d.nonce ≠ c.nonce
  | _ => True

def Spent (s : Run) (nonce : FixedBytes 32) : Prop :=
  exists used, used ∈ s.admitted ∧ used.1.challenge.nonce = nonce

/-- A challenge was issued after the whole window of this one. -/
def Overtaken (s : Run) (c : Challenge) : Prop :=
  exists d, d ∈ s.issued ∧ c.issuedAt + s.registry.challengeTtlMs < d.issuedAt

/-- The answer is a signature of its key over a challenge of this registry, within the window. -/
structure Correct (s : Run) (a : Answer) : Prop where
  issued : a.challenge ∈ s.issued
  notBefore : a.challenge.issuedAt <= a.now
  notAfter : a.now <= a.challenge.issuedAt + s.registry.challengeTtlMs
  signed : K.verifyDomain a.presentedKey admissionDs a.challenge.signingBody a.sig = true
  registered : s.registry.mode = .keyRegistered ->
    exists id, id ∈ s.registry.entries ∧ id.publicKey = a.presentedKey

/-!
## What a step does
-/

section Steps

variable {K} {r : IdentityRegistry} {s : Run} {a : Answer} {peeked : Option Nat}

theorem consumeNonce_cases (r : IdentityRegistry) (nonce : FixedBytes 32) (t : Nat) :
    r.issuedNonces.lookup nonce = some t ∧
        r.consumeNonce nonce t = (.ok t, { r with issuedNonces := r.issuedNonces.erase nonce }) ∨
      r.issuedNonces.lookup nonce ≠ some t ∧
        r.consumeNonce nonce t = (.error .unknownOrConsumedChallenge, r) := by
  unfold IdentityRegistry.consumeNonce
  cases r.issuedNonces.lookup nonce with
  | none => simp
  | some stored =>
      by_cases heq : stored = t
      · simp [heq]
      · simp [heq]

theorem admissionFor_eq_ok {presentedKey : Bytes} :
    (exists admission, r.admissionFor K presentedKey = .ok admission) <->
      (r.mode = .keyRegistered -> exists id, id ∈ r.entries ∧ id.publicKey = presentedKey) := by
  unfold IdentityRegistry.admissionFor
  cases hfound : r.identityForKey presentedKey with
  | some id =>
      have hid : id ∈ r.entries ∧ id.publicKey = presentedKey :=
        ⟨List.mem_of_find?_eq_some hfound, by simpa using List.find?_some hfound⟩
      exact iff_of_true ⟨_, by cases r.mode <;> rfl⟩ fun _ => ⟨id, hid⟩
  | none =>
      have hnone : forall id, id ∈ r.entries -> id.publicKey ≠ presentedKey := by
        simpa using List.find?_eq_none.mp hfound
      cases r.mode with
      | keyRegistered => simpa using hnone
      | openPublic => simp

theorem publicKey_of_admissionFor {presentedKey : Bytes} {admission : Admission}
    (h : r.admissionFor K presentedKey = .ok admission) : admission.publicKey = presentedKey := by
  unfold IdentityRegistry.admissionFor at h
  split at h <;> cases h <;> rfl

theorem decideAdmission_eq {admission : Admission} :
    r.decideAdmission K peeked a = .ok admission <->
      (peeked.getD a.challenge.issuedAt <= a.now ∧
        a.now <= peeked.getD a.challenge.issuedAt + r.challengeTtlMs) ∧
      K.verifyDomain a.presentedKey admissionDs a.challenge.signingBody a.sig = true ∧
      r.admissionFor K a.presentedKey = .ok admission := by
  unfold IdentityRegistry.decideAdmission
  dsimp only
  split_ifs with hwindow hsig
  · simp only [false_iff]
    omega
  · simp_all
  · have hinside : peeked.getD a.challenge.issuedAt <= a.now ∧
        a.now <= peeked.getD a.challenge.issuedAt + r.challengeTtlMs := by omega
    simp_all

theorem finishAdmit_cases (K : Substrate) (r : IdentityRegistry) (peeked : Option Nat)
    (a : Answer) :
    (exists admission, r.decideAdmission K peeked a = .ok admission ∧
      r.issuedNonces.lookup a.challenge.nonce = some a.challenge.issuedAt ∧
      r.finishAdmit K peeked a = (.ok admission,
        { r with issuedNonces := r.issuedNonces.erase a.challenge.nonce })) ∨
    exists e, r.finishAdmit K peeked a = (.error e, r) ∧
      ((exists admission, r.decideAdmission K peeked a = .ok admission) ->
        r.issuedNonces.lookup a.challenge.nonce ≠ some a.challenge.issuedAt) := by
  unfold IdentityRegistry.finishAdmit
  cases hdecided : r.decideAdmission K peeked a with
  | error e => exact Or.inr ⟨e, rfl, by simp⟩
  | ok admission =>
      rcases consumeNonce_cases r a.challenge.nonce a.challenge.issuedAt with
        ⟨hheld, hconsumed⟩ | ⟨hlost, hconsumed⟩
      · exact Or.inl ⟨admission, rfl, hheld, by rw [hconsumed]⟩
      · exact Or.inr ⟨_, by rw [hconsumed], fun _ => hlost⟩

theorem step_step_alone (K : Substrate) (s : Run) (call : Nat) (a : Answer) :
    (step K (step K s (.peek call a)) (.consume call)).registry =
      (s.registry.admitAnswer K a).2 := by
  simp [step, IdentityRegistry.admitAnswer]

theorem lookup_issueChallenge (r : IdentityRegistry) (c : Challenge) (nonce : FixedBytes 32)
    (t : Nat) :
    (r.issueChallenge c).issuedNonces.lookup nonce = some t <->
      nonce = c.nonce ∧ t = c.issuedAt ∨ nonce ≠ c.nonce ∧
        r.issuedNonces.lookup nonce = some t ∧ c.issuedAt <= t + r.challengeTtlMs := by
  unfold IdentityRegistry.issueChallenge
  by_cases heq : nonce = c.nonce
  · rw [heq, Finmap.lookup_insert]
    simp [eq_comm]
  · rw [Finmap.lookup_insert_of_ne _ heq, FiniteMap.lookup_filter_eq_some]
    simp [heq]

/-!
## What holds in a run
-/

structure Kept (K : Substrate) (s : Run) : Prop where
  distinct : forall c d, c ∈ s.issued -> d ∈ s.issued -> c.nonce = d.nonce -> c = d
  recorded : forall nonce t, s.registry.issuedNonces.lookup nonce = some t ->
    ⟨nonce, t⟩ ∈ s.issued ∧ ¬ Spent s nonce
  live : forall c, c ∈ s.issued ->
    s.registry.issuedNonces.lookup c.nonce = some c.issuedAt ∨ Spent s c.nonce ∨ Overtaken s c
  peeked : forall call a t, s.calls.lookup call = some (a, some t) ->
    ⟨a.challenge.nonce, t⟩ ∈ s.issued
  once : (s.admitted.map fun used => used.1.challenge.nonce).Nodup
  sound : forall used, used ∈ s.admitted ->
    Correct K s used.1 ∧ used.2.publicKey = used.1.presentedKey

theorem Correct.mono {t : Run} {ledger : FiniteMap (FixedBytes 32) Nat} (h : Correct K s a)
    (hissued : forall c, c ∈ s.issued -> c ∈ t.issued)
    (hregistry : t.registry = { s.registry with issuedNonces := ledger }) : Correct K t a := by
  have hissued := hissued _ h.issued
  rcases h with ⟨_, hbefore, hafter, hsigned, hregistered⟩
  constructor <;> (try rw [hregistry]) <;> assumption

theorem Kept.effective (h : Kept K s) {call : Nat} (hcall : s.calls.lookup call = some (a, peeked))
    (hissued : a.challenge ∈ s.issued) :
    peeked.getD a.challenge.issuedAt = a.challenge.issuedAt := by
  cases peeked with
  | none => rfl
  | some t =>
      have heq := h.distinct _ _ (h.peeked call a t hcall) hissued rfl
      rw [<- heq]
      rfl

theorem Kept.decides_iff (h : Kept K s) {call : Nat}
    (hcall : s.calls.lookup call = some (a, peeked)) (hissued : a.challenge ∈ s.issued) :
    (exists admission, s.registry.decideAdmission K peeked a = .ok admission) <->
      Correct K s a := by
  simp only [decideAdmission_eq, h.effective hcall hissued]
  constructor
  · rintro ⟨admission, ⟨hbefore, hafter⟩, hsigned, hfor⟩
    exact ⟨hissued, hbefore, hafter, hsigned, admissionFor_eq_ok.mp ⟨admission, hfor⟩⟩
  · intro hcorrect
    rcases admissionFor_eq_ok.mpr hcorrect.registered with ⟨admission, hfor⟩
    exact ⟨admission, ⟨hcorrect.notBefore, hcorrect.notAfter⟩, hcorrect.signed, hfor⟩

theorem kept_start (r : IdentityRegistry) : Kept K (start r) := by
  constructor <;> simp [start]

theorem kept_issue (h : Kept K s) (c : Challenge) (hfresh : Fresh s (.issue c)) :
    Kept K (step K s (.issue c)) := by
  have hspent : ¬ Spent s c.nonce := by
    rintro ⟨used, hused, hnonce⟩
    exact hfresh _ (h.sound used hused).1.issued hnonce
  constructor
  · intro d e hd he hsame
    rcases List.mem_append.mp hd with hd | hd <;> rcases List.mem_append.mp he with he | he
    · exact h.distinct d e hd he hsame
    · rw [List.mem_singleton.mp he] at hsame
      exact absurd hsame (hfresh d hd)
    · rw [List.mem_singleton.mp hd] at hsame
      exact absurd hsame.symm (hfresh e he)
    · rw [List.mem_singleton.mp hd, List.mem_singleton.mp he]
  · intro nonce t hlookup
    rcases (lookup_issueChallenge _ _ _ _).mp hlookup with ⟨rfl, rfl, _⟩ | ⟨_, hold, _⟩
    · exact ⟨List.mem_append_right _ List.mem_cons_self, hspent⟩
    · exact ⟨List.mem_append_left _ (h.recorded nonce t hold).1, (h.recorded nonce t hold).2⟩
  · intro d hd
    rcases List.mem_append.mp hd with hd | hd
    · rcases h.live d hd with hheld | hspent | ⟨e, he, hlater⟩
      · by_cases hwindow : c.issuedAt <= d.issuedAt + s.registry.challengeTtlMs
        · apply Or.inl
          exact (lookup_issueChallenge _ _ _ _).mpr (Or.inr ⟨hfresh d hd, hheld, hwindow⟩)
        · exact Or.inr (Or.inr ⟨c, List.mem_append_right _ List.mem_cons_self,
            Nat.not_le.mp hwindow⟩)
      · exact Or.inr (Or.inl hspent)
      · exact Or.inr (Or.inr ⟨e, List.mem_append_left _ he, hlater⟩)
    · rw [List.mem_singleton.mp hd]
      exact Or.inl ((lookup_issueChallenge _ _ _ _).mpr (Or.inl ⟨rfl, rfl⟩))
  · intro call a t hcall
    exact List.mem_append_left _ (h.peeked call a t hcall)
  · exact h.once
  · intro used hused
    exact ⟨(h.sound used hused).1.mono (fun d hd => List.mem_append_left _ hd) rfl,
      (h.sound used hused).2⟩

theorem kept_peek (h : Kept K s) (call : Nat) (a : Answer) : Kept K (step K s (.peek call a)) where
  distinct := h.distinct
  recorded := h.recorded
  live := h.live
  peeked := by
    intro other b t hlookup
    by_cases hsame : other = call
    · rw [hsame, step, Finmap.lookup_insert] at hlookup
      injection hlookup with hpair
      injection hpair with hanswer hpeeked
      rw [<- hanswer]
      exact (h.recorded _ t hpeeked).1
    · rw [step, Finmap.lookup_insert_of_ne _ hsame] at hlookup
      exact h.peeked other b t hlookup
  once := h.once
  sound := fun used hused =>
    ⟨(h.sound used hused).1.mono (fun _ hd => hd) rfl, (h.sound used hused).2⟩

theorem kept_consume (h : Kept K s) (call : Nat) : Kept K (step K s (.consume call)) := by
  cases hcall : s.calls.lookup call with
  | none =>
      rw [step, hcall]
      exact h
  | some held =>
      rcases held with ⟨a, peeked⟩
      have hcalls : forall other b t, (s.calls.erase call).lookup other = some (b, some t) ->
          ⟨b.challenge.nonce, t⟩ ∈ s.issued := by
        intro other b t hlookup
        by_cases hsame : other = call
        · rw [hsame, Finmap.lookup_erase] at hlookup
          cases hlookup
        · rw [Finmap.lookup_erase_ne hsame] at hlookup
          exact h.peeked other b t hlookup
      rw [step, hcall]
      rcases finishAdmit_cases K s.registry peeked a with
        ⟨admission, hdecided, hheld, hdone⟩ | ⟨e, hdone, _⟩
      · simp only [hdone]
        have hrecorded := h.recorded _ _ hheld
        have hcorrect := (h.decides_iff hcall hrecorded.1).mp ⟨admission, hdecided⟩
        constructor
        · exact h.distinct
        · intro nonce t hlookup
          have hne : nonce ≠ a.challenge.nonce := by
            rintro rfl
            rw [Finmap.lookup_erase] at hlookup
            cases hlookup
          rw [Finmap.lookup_erase_ne hne] at hlookup
          refine ⟨(h.recorded nonce t hlookup).1, ?_⟩
          rintro ⟨used, hused, rfl⟩
          rcases List.mem_append.mp hused with hused | hused
          · exact (h.recorded _ t hlookup).2 ⟨used, hused, rfl⟩
          · rw [List.mem_singleton.mp hused] at hne
            exact hne rfl
        · intro c hc
          by_cases hsame : c.nonce = a.challenge.nonce
          · exact Or.inr (Or.inl ⟨(a, admission), List.mem_append_right _ List.mem_cons_self,
              hsame.symm⟩)
          · rcases h.live c hc with hlive | ⟨used, hused, hnonce⟩ | hlater
            · exact Or.inl ((Finmap.lookup_erase_ne hsame).trans hlive)
            · exact Or.inr (Or.inl ⟨used, List.mem_append_left _ hused, hnonce⟩)
            · exact Or.inr (Or.inr hlater)
        · exact hcalls
        · rw [List.map_append]
          apply List.Nodup.append h.once (List.nodup_singleton _)
          intro nonce hused hlast
          rcases List.mem_map.mp hused with ⟨used, hmem, rfl⟩
          exact hrecorded.2 ⟨used, hmem, List.mem_singleton.mp hlast⟩
        · intro used hused
          rcases List.mem_append.mp hused with hused | hused
          · exact ⟨(h.sound used hused).1.mono (fun _ hd => hd) rfl, (h.sound used hused).2⟩
          · rw [List.mem_singleton.mp hused]
            exact ⟨hcorrect.mono (fun _ hd => hd) rfl,
              publicKey_of_admissionFor (decideAdmission_eq.mp hdecided).2.2⟩
      · simp only [hdone]
        exact ⟨h.distinct, h.recorded, h.live, hcalls, h.once, fun used hused =>
          ⟨(h.sound used hused).1.mono (fun _ hd => hd) rfl, (h.sound used hused).2⟩⟩

theorem kept_step {e : Event} (h : Kept K s) (hfresh : Fresh s e) : Kept K (step K s e) := by
  cases e with
  | issue c => exact kept_issue h c hfresh
  | peek call a => exact kept_peek h call a
  | consume call => exact kept_consume h call

end Steps

/--
A nonce admits at most once, for a correct answer of the key that is admitted, and a call that
fails changes nothing.  A correct answer is admitted unless its nonce is spent, or the ledger was
pruned by a challenge that was issued after the whole window.
-/
theorem challenges_admit_once (r : IdentityRegistry) {events : List Event}
    (hfresh : StepsMeet (step K) Fresh (start r) events) :
    let s := after (step K) (start r) events
    (s.admitted.map fun used => used.1.challenge.nonce).Nodup ∧
    (forall used, used ∈ s.admitted ->
      Correct K s used.1 ∧ used.2.publicKey = used.1.presentedKey) ∧
    (forall call a, (step K s (.peek call a)).registry = s.registry) ∧
    forall call a peeked, s.calls.lookup call = some (a, peeked) ->
      (forall e, (s.registry.finishAdmit K peeked a).1 = .error e ->
        (step K s (.consume call)).registry = s.registry ∧
          (step K s (.consume call)).admitted = s.admitted) ∧
      (Correct K s a ->
        (exists admission, (s.registry.finishAdmit K peeked a).1 = .ok admission) ∨
          Spent s a.challenge.nonce ∨ Overtaken s a.challenge) := by
  intro s
  have h : Kept K s := invariant_after (fun _ _ => kept_step) (kept_start r) hfresh
  refine ⟨h.once, h.sound, fun _ _ => rfl, ?_⟩
  intro call a peeked hcall
  rcases finishAdmit_cases K s.registry peeked a with
    ⟨admission, hdecided, hheld, hdone⟩ | ⟨e, hdone, hlost⟩
  · rw [hdone]
    exact ⟨fun _ herror => (nomatch herror), fun _ => Or.inl ⟨admission, rfl⟩⟩
  · constructor
    · intro _ _
      rw [step, hcall]
      simp [hdone]
    · intro hcorrect
      rcases h.live _ hcorrect.issued with hheld | hspent | hlater
      · exact absurd hheld (hlost ((h.decides_iff hcall hcorrect.issued).mpr hcorrect))
      · exact Or.inr (Or.inl hspent)
      · exact Or.inr (Or.inr hlater)

def trusting : Substrate where
  contentDigest := fun _ => FixedBytes.zero 32
  verifyDomain := fun _ _ _ _ => true

def openRegistry : IdentityRegistry where
  mode := .openPublic
  challengeTtlMs := 300000
  entries := []
  issuedNonces := ∅

def lastAnswer : Answer where
  challenge := ⟨FixedBytes.zero 32, 0⟩
  presentedKey := [1]
  sig := []
  now := 300000

def laterChallenge : Challenge where
  nonce := ⟨List.replicate 32 1, rfl⟩
  issuedAt := 300001

theorem last_answer_is_admitted :
    ((after (step trusting) (start openRegistry) [.issue lastAnswer.challenge, .peek 0 lastAnswer,
      .consume 0]).admitted.map fun used => used.1.challenge.nonce).Nodup := by
  have hfresh : StepsMeet (step trusting) Fresh (start openRegistry)
      [.issue lastAnswer.challenge, .peek 0 lastAnswer, .consume 0] :=
    ⟨fun _ hd => (nomatch hd), trivial, trivial, trivial⟩
  exact (challenges_admit_once trusting openRegistry hfresh).1

/-- A challenge that is issued between the look at the ledger and the spending of the nonce takes
the nonce away from an answer in time. -/
theorem pruned_answer_is_refused :
    let s := after (step trusting) (start openRegistry)
      [.issue lastAnswer.challenge, .peek 0 lastAnswer, .issue laterChallenge]
    Correct trusting s lastAnswer ∧ s.admitted = [] ∧
      (step trusting s (.consume 0)).admitted = [] := by
  refine ⟨⟨List.mem_cons_self, by decide, by decide, rfl, nofun⟩, rfl, by decide +kernel⟩

end Authz
end Gateway
end Ephor
