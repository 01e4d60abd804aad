import Mathlib.Algebra.Order.Ring.Rat
import Mathlib.Data.Int.Cast.Lemmas
import Ephor.Client.Signaling

/-!
# Replayed frames

A signed frame is dispatched once as long as its nonce is in the cache, and not at all once
its timestamp has left the window.  The cache holds a thousand nonces of all peers
together, so the frame can come again in between when enough other frames push its nonce
out before the timestamp is too old.
-/

namespace Ephor
namespace Client
namespace Signaling

open Foundation
open Foundation.WebText
open Foundation.Json
open Foundation.Transition
open RelayBox

variable {Key : Type}

def SameFrame (a b : Signal Key) : Prop :=
  a.sender = b.sender ∧ a.payload.get nonceName = b.payload.get nonceName ∧
    a.payload.get tsName = b.payload.get tsName

/-- No frame that was verified under its sender's key is dispatched twice. -/
def DispatchedOnce (signals : List (Signal Key)) : Prop :=
  signals.Pairwise fun a b => a.key.isSome -> b.key.isSome -> Not (SameFrame a b)

def ClockForward (s : State Key) : Event -> Prop
  | Event.resume _ m => s.clock <= m.now
  | _ => True

/-- A timestamp that no later check takes for fresh. -/
def expired (now : Int) (p : Value) : Bool :=
  match asNumber (p.get tsName) with
  | some (Number.finite ts) => decide ((maxFrameAgeMs : Rat) < now - ts)
  | _ => true

/-- The nonce that a resumed call enters into the cache. -/
def recorded (env : Environment Key) (now : Int) (r : Registry Key) (sender : JsString)
    (p : Value) : Stage Key -> Option JsString
  | Stage.checkJoin key =>
      (truthyMember p sigName).bind fun sig => (joinNonceKeyOf env sender p).bind fun nonceKey =>
        if verifyFrame env key (canonicalJoin env sender p) sig && freshMember now p &&
            !r.seenNonces.contains nonceKey then some nonceKey
        else none
  | Stage.checkFrame key =>
      (truthyMember p sigName).bind fun sig => (nonceKeyOf env sender p).bind fun nonceKey =>
        if verifyFrame env key (canonical env sender p) sig && freshMember now p &&
            !r.seenNonces.contains nonceKey then some nonceKey
        else none
  | _ => none

/-- The nonce that a full cache would give up belongs to no frame inside the window. -/
def OldestExpired (env : Environment Key) (s : State Key) (now : Int) : Prop :=
  nonceCacheMax <= s.registry.seenNonces.length ->
    forall oldest, oldest ∈ s.registry.seenNonces.head? ->
      forall e, e ∈ s.signals -> e.key.isSome ->
        nonceKeyOf env e.sender e.payload = some oldest -> expired now e.payload = true

/-- A call that enters a nonce pushes none out that is still needed. -/
def Call.EvictsExpired (env : Environment Key) (s : State Key) (now : Int) : Call Key -> Prop
  | Call.signal sender p stage =>
      (recorded env now s.registry sender p stage).isSome -> OldestExpired env s now
  | _ => True

def EvictsExpired (env : Environment Key) (s : State Key) : Event -> Prop
  | Event.resume i m => forall call, call ∈ s.calls i -> call.EvictsExpired env s m.now
  | _ => True

instance (s : State Key) (e : Event) : Decidable (ClockForward s e) :=
  match e with
  | Event.resume _ m => inferInstanceAs (Decidable (s.clock <= m.now))
  | Event.arrive _ _ | Event.deposit _ _ | Event.checkDeposit _ _ _ =>
      inferInstanceAs (Decidable True)

theorem evictsExpired_of_room {env : Environment Key} {s : State Key}
    (hroom : s.registry.seenNonces.length < nonceCacheMax) (e : Event) : EvictsExpired env s e := by
  cases e with
  | resume i m =>
      intro call _
      cases call with
      | signal sender p stage =>
          intro _ hfull
          exact absurd hroom (Nat.not_lt.mpr hfull)
      | _ => trivial
  | _ => trivial

/-!
# The window
-/

variable {now : Int} {key : Bytes}

theorem expired_mono {now' : Int} (h : now <= now') {p : Value}
    (hexpired : expired now p = true) : expired now' p = true := by
  rw [expired] at hexpired ⊢
  split
  case h_1 ts hts =>
    rw [hts] at hexpired
    rw [decide_eq_true_eq] at hexpired ⊢
    have hcast : (now : Rat) <= now' := Int.cast_le.mpr h
    exact lt_of_lt_of_le hexpired (sub_le_sub_right hcast ts)
  case h_2 => rfl

theorem not_expired_of_fresh {p : Value} (h : freshMember now p = true) :
    expired now p = false := by
  rw [freshMember] at h
  split at h
  case h_1 ts hts =>
    rw [expired, hts]
    cases ts with
    | infinite negative => exact nomatch h
    | finite value =>
        rw [fresh, Bool.not_eq_true', Bool.or_eq_false_iff] at h
        exact h.2
  case h_2 => exact nomatch h

theorem expired_congr {p p' : Value} (h : p.get tsName = p'.get tsName) :
    expired now p = expired now p' := by
  rw [expired, expired, h]

theorem nonceKeyOf_congr {env : Environment Key} {sender : JsString} {p p' : Value}
    (h : p.get nonceName = p'.get nonceName) :
    nonceKeyOf env sender p = nonceKeyOf env sender p' := by
  rw [nonceKeyOf, nonceKeyOf, h]

/-!
# What a call dispatches and remembers
-/

def Next.keyed : Next Key -> Option Key
  | Next.dispatch key => key
  | _ => none

theorem withVerifyKey_keyed (env : Environment Key) (p : Value) (key : Option Key) :
    (withVerifyKey env p key).keyed = none := by
  cases key with
  | none | some key =>
      rw [withVerifyKey]
      split <;> rfl

theorem checkSender_keyed (env : Environment Key) (r : Registry Key) (sender : JsString)
    (p : Value) : (checkSender env r sender p).keyed = none := by
  rw [checkSender]
  split
  · split
    · exact withVerifyKey_keyed env p _
    · rfl
    · exact withVerifyKey_keyed env p none
  · rfl

theorem checkCommitment_keyed (env : Environment Key) (r : Registry Key) (sender : JsString)
    (p : Value) : (checkCommitment env r sender p).keyed = none := by
  rw [checkCommitment]
  split
  · rfl
  · exact checkSender_keyed env r sender p

theorem takePreKey_keyed (env : Environment Key) (r : Registry Key) (sender : JsString)
    (p : Value) : (takePreKey env r sender p).keyed = none := by
  rw [takePreKey]
  split
  · rfl
  · exact checkCommitment_keyed env r sender p

theorem start_keyed (env : Environment Key) (r : Registry Key) (sender : JsString)
    (p : Value) : (start env r sender p).2.keyed = none := by
  rw [start]
  split
  · split
    · rfl
    · exact takePreKey_keyed env _ sender p
  · rfl

theorem start_seenNonces (env : Environment Key) (r : Registry Key) (sender : JsString)
    (p : Value) : (start env r sender p).1.seenNonces = r.seenNonces := by
  rw [start]
  split
  · split
    · rfl
    · exact storeBoxKey_seenNonces r sender p
  · rfl

def remembered (seenNonces : List JsString) : Option JsString -> List JsString
  | some nonceKey =>
      (if nonceCacheMax <= seenNonces.length then seenNonces.drop 1 else seenNonces) ++
        [nonceKey]
  | none => seenNonces

theorem settleFrame_eq (env : Environment Key) (now : Int) (r : Registry Key)
    (sender : JsString) (p : Value) (key : Key) :
    settleFrame env now r sender p key =
      match recorded env now r sender p (Stage.checkFrame key) with
      | some nonceKey => (r.remember nonceKey, Next.dispatch (some key))
      | none => (r, Next.drop) := by
  rw [settleFrame, recorded]
  cases truthyMember p sigName with
  | none => rfl
  | some sig =>
      dsimp only
      rw [Option.bind_some]
      cases nonceKeyOf env sender p with
      | none =>
          split <;> rfl
      | some nonceKey =>
          rw [Option.bind_some]
          cases verifyFrame env key (canonical env sender p) sig && freshMember now p with
          | false => rfl
          | true =>
              cases hseen : r.seenNonces.contains nonceKey with
              | false | true =>
                  simp only [hseen]
                  rfl

theorem recorded_checkFrame {env : Environment Key} {r : Registry Key} {sender : JsString}
    {p : Value} {key : Key} {nonceKey : JsString}
    (h : recorded env now r sender p (Stage.checkFrame key) = some nonceKey) :
    nonceKeyOf env sender p = some nonceKey ∧ freshMember now p = true ∧
      nonceKey ∉ r.seenNonces := by
  rcases Option.bind_eq_some_iff.mp h with ⟨sig, _, hsig⟩
  rcases Option.bind_eq_some_iff.mp hsig with ⟨found, hfound, hif⟩
  split at hif
  case isTrue hvalid =>
    cases hif
    simp only [Bool.and_eq_true, Bool.not_eq_true', <- Bool.not_eq_true,
      List.contains_iff_mem] at hvalid
    exact ⟨hfound, hvalid.1.2, hvalid.2⟩
  case isFalse => exact nomatch hif

theorem resume_seenNonces (env : Environment Key) (now : Int) (r : Registry Key)
    (sender : JsString) (p : Value) (stage : Stage Key) :
    (resume env now r sender p stage).1.seenNonces =
      remembered r.seenNonces (recorded env now r sender p stage) := by
  cases stage with
  | importJoinKey raw =>
      simp only [resume]
      split <;> exact storeBoxKey_seenNonces _ sender p
  | checkPreKey preKey pubBytes | importFrameKey raw =>
      simp only [resume]
      split <;> rfl
  | checkJoin key =>
      simp only [resume, settleCommitment, recorded]
      cases truthyMember p sigName with
      | none => rfl
      | some sig =>
          cases joinNonceKeyOf env sender p with
          | none => rfl
          | some nonceKey =>
              simp only [Option.bind_some]
              split <;> rfl
  | checkFrame key =>
      rw [resume, settleFrame_eq]
      cases recorded env now r sender p (Stage.checkFrame key) <;> rfl

theorem resume_keyed {env : Environment Key} {r : Registry Key} {sender : JsString} {p : Value}
    {stage : Stage Key} (h : (resume env now r sender p stage).2.keyed.isSome) :
    exists nonceKey, nonceKeyOf env sender p = some nonceKey ∧
      recorded env now r sender p stage = some nonceKey ∧ freshMember now p = true ∧
      nonceKey ∉ r.seenNonces := by
  cases stage with
  | importJoinKey raw =>
      simp only [resume] at h
      split at h <;> rw [takeBoxKey, takePreKey_keyed] at h <;> cases h
  | checkPreKey preKey pubBytes =>
      simp only [resume] at h
      split at h <;> rw [checkCommitment_keyed] at h <;> cases h
  | importFrameKey raw =>
      simp only [resume] at h
      split at h <;> rw [withVerifyKey_keyed] at h <;> cases h
  | checkJoin key =>
      simp only [resume] at h
      rw [checkSender_keyed] at h
      cases h
  | checkFrame key =>
      rw [resume, settleFrame_eq] at h
      cases hrecorded : recorded env now r sender p (Stage.checkFrame key) with
      | none =>
          rw [hrecorded] at h
          cases h
      | some nonceKey =>
          have hfacts := recorded_checkFrame hrecorded
          exact ⟨nonceKey, hfacts.1, rfl, hfacts.2.1, hfacts.2.2⟩

/-!
# The invariant
-/

/-- A verified frame is remembered, or can never be fresh again. -/
structure Guarded (env : Environment Key) (s : State Key) : Prop where
  kept : forall e, e ∈ s.signals -> e.key.isSome ->
    exists nonceKey, nonceKeyOf env e.sender e.payload = some nonceKey ∧
      (nonceKey ∈ s.registry.seenNonces ∨ expired s.clock e.payload = true)
  once : DispatchedOnce s.signals

theorem guarded_initial (env : Environment Key) : Guarded env State.initial where
  kept := fun _ h => nomatch h
  once := List.Pairwise.nil

/-- What a step does to the cache and to the dispatched frames. -/
structure FrameTurn (env : Environment Key) (s s' : State Key) (next : Next Key)
    (sender : JsString) (p : Value) (nonceKey : Option JsString) : Prop where
  signals : s'.signals = s.signals ++ next.signals sender p
  seenNonces : s'.registry.seenNonces = remembered s.registry.seenNonces nonceKey
  clock : s.clock <= s'.clock
  room : nonceKey.isSome -> OldestExpired env s s'.clock
  keyed : next.keyed.isSome -> exists found, nonceKeyOf env sender p = some found ∧
    nonceKey = some found ∧ freshMember s'.clock p = true ∧ found ∉ s.registry.seenNonces

namespace FrameTurn

variable {env : Environment Key} {s s' : State Key} {next : Next Key} {sender : JsString}
  {p : Value} {nonceKey : Option JsString}

theorem mem_remembered {seenNonces : List JsString} {nonce : JsString}
    (h : nonce ∈ seenNonces) (nonceKey : Option JsString) :
    nonce ∈ remembered seenNonces nonceKey ∨
      (nonceKey.isSome ∧ nonceCacheMax <= seenNonces.length ∧ seenNonces.head? = some nonce) := by
  cases nonceKey with
  | none => exact Or.inl h
  | some new =>
      rw [remembered]
      split
      case isTrue hfull =>
        cases seenNonces with
        | nil => exact nomatch h
        | cons oldest rest =>
            rcases List.mem_cons.mp h with holdest | hrest
            · rw [holdest]
              exact Or.inr ⟨rfl, hfull, rfl⟩
            · exact Or.inl (List.mem_append_left _ hrest)
      case isFalse => exact Or.inl (List.mem_append_left _ h)

theorem kept_old (h : Guarded env s) (hturn : FrameTurn env s s' next sender p nonceKey)
    {e : Signal Key} (he : e ∈ s.signals) (hkey : e.key.isSome) :
    exists found, nonceKeyOf env e.sender e.payload = some found ∧
      (found ∈ s'.registry.seenNonces ∨ expired s'.clock e.payload = true) := by
  rcases h.kept e he hkey with ⟨found, hfound, hseen | hexpired⟩
  · refine ⟨found, hfound, ?_⟩
    rw [hturn.seenNonces]
    rcases mem_remembered hseen nonceKey with hmem | ⟨hsome, hfull, holdest⟩
    · exact Or.inl hmem
    · exact Or.inr (hturn.room hsome hfull found holdest e he hkey hfound)
  · exact ⟨found, hfound, Or.inr (expired_mono hturn.clock hexpired)⟩

theorem not_sameFrame (h : Guarded env s) (hturn : FrameTurn env s s' next sender p nonceKey)
    {e new : Signal Key} (he : e ∈ s.signals) (hkey : e.key.isSome)
    (hnew : new ∈ next.signals sender p) (hnewkey : new.key.isSome) : Not (SameFrame e new) := by
  intro hsame
  cases next with
  | suspend stage | drop => exact nomatch hnew
  | dispatch key =>
      cases List.mem_singleton.mp hnew
      rcases hturn.keyed hnewkey with ⟨found, hfound, _, hfresh, hunseen⟩
      rcases h.kept e he hkey with ⟨nonce, hnonce, hseen | hexpired⟩
      · rw [hsame.1, nonceKeyOf_congr hsame.2.1, hfound] at hnonce
        cases hnonce
        exact hunseen hseen
      · have hold := expired_mono hturn.clock hexpired
        rw [expired_congr hsame.2.2, not_expired_of_fresh hfresh] at hold
        exact nomatch hold

theorem guarded (h : Guarded env s) (hturn : FrameTurn env s s' next sender p nonceKey) :
    Guarded env s' where
  kept := by
    intro e he hkey
    rw [hturn.signals] at he
    rcases List.mem_append.mp he with hold | hnew
    · exact kept_old h hturn hold hkey
    · cases next with
      | suspend stage | drop => exact nomatch hnew
      | dispatch key =>
          cases List.mem_singleton.mp hnew
          rcases hturn.keyed hkey with ⟨found, hfound, hnonce, _, _⟩
          refine ⟨found, hfound, Or.inl ?_⟩
          rw [hturn.seenNonces, hnonce, remembered]
          exact List.mem_append_right _ (List.mem_singleton.mpr rfl)
  once := by
    rw [hturn.signals]
    apply List.pairwise_append.mpr
    refine ⟨h.once, ?_, ?_⟩
    · cases next with
      | suspend stage | drop => exact List.Pairwise.nil
      | dispatch key => exact List.pairwise_singleton _ _
    · intro e he new hnew hkey hnewkey
      exact not_sameFrame h hturn he hkey hnew hnewkey

end FrameTurn

theorem guarded_quiet {env : Environment Key} {s s' : State Key} (h : Guarded env s)
    (hsignals : s'.signals = s.signals)
    (hseen : s'.registry.seenNonces = s.registry.seenNonces) (hclock : s.clock <= s'.clock) :
    Guarded env s' where
  kept := by
    intro e he hkey
    rw [hsignals] at he
    rcases h.kept e he hkey with ⟨found, hfound, hmem | hexpired⟩
    · exact ⟨found, hfound, Or.inl (hseen ▸ hmem)⟩
    · exact ⟨found, hfound, Or.inr (expired_mono hclock hexpired)⟩
  once := by
    rw [hsignals]
    exact h.once

theorem guarded_step {env : Environment Key} (s : State Key) (e : Event) (h : Guarded env s)
    (hguard : ClockForward s e ∧ EvictsExpired env s e) : Guarded env (step env s e) := by
  cases e with
  | arrive sender p =>
      have hturn : FrameTurn env s (step env s (Event.arrive sender p))
          (start env s.registry sender p).2 sender p none := by
        rw [step_arrive]
        refine ⟨rfl, start_seenNonces env s.registry sender p, Int.le_refl _, ?_, ?_⟩
        · intro hnone
          exact nomatch hnone
        · intro hkeyed
          rw [start_keyed] at hkeyed
          exact nomatch hkeyed
      exact hturn.guarded h
  | deposit peer plaintext | checkDeposit sender message sig =>
      exact guarded_quiet h rfl rfl (Int.le_refl _)
  | resume i m =>
      cases hcall : s.calls i with
      | none =>
          rw [step, hcall]
          exact h
      | some call =>
          cases call with
          | signal sender p stage =>
              have hturn : FrameTurn env s (step env s (Event.resume i m))
                  (resume env m.now s.registry sender p stage).2 sender p
                  (recorded env m.now s.registry sender p stage) := by
                rw [step_resume_signal env m hcall]
                refine ⟨rfl, resume_seenNonces env m.now s.registry sender p stage, hguard.1,
                  ?_, ?_⟩
                · exact hguard.2 _ hcall
                · exact resume_keyed
              exact hturn.guarded h
          | deposit peer plaintext stage =>
              rcases step_resume_deposit env m hcall with ⟨r, next, sealed, key, hdeposit, hstep⟩
              have hseen : r.seenNonces = s.registry.seenNonces := by
                cases hdeposit <;> rfl
              rw [hstep]
              exact guarded_quiet h rfl hseen hguard.1
          | relayCheck sender message sig key =>
              rw [step_resume_relayCheck env m hcall]
              exact guarded_quiet h rfl rfl hguard.1

/--
In a run whose clock never runs backwards and whose cache gives up no nonce of a frame that
is still inside the window, no signed frame of a keyed peer is dispatched twice.
-/
theorem dispatchedOnce_of_evictsExpired (env : Environment Key) {events : List Event}
    (hmeet : StepsMeet (step env) (fun s e => ClockForward s e ∧ EvictsExpired env s e)
      State.initial events) :
    DispatchedOnce (after (step env) State.initial events).signals :=
  (invariant_after guarded_step (guarded_initial env) hmeet).once

/-!
# A frame that comes again
-/

section Delivery

variable {env : Environment Key}

theorem start_of_not_isJoin {p : Value} (haddressed : addressed env p = true)
    (hjoin : isJoin p = false) (r : Registry Key) (sender : JsString) :
    start env r sender p = (r, checkSender env r sender p) := by
  have hbox : storeBoxKey r sender p = r := by
    rw [storeBoxKey, hjoin]
  have hcommits : commits p = false := by
    rw [commits, hjoin]
    rfl
  rw [start, if_pos haddressed, hjoin]
  dsimp only
  rw [takeBoxKey, hbox, takePreKey, announcedPreKey, hjoin]
  dsimp only
  rw [checkCommitment, hcommits]

theorem deliver_frame {s : State Key} {sender : JsString} {p sig : Value} {key : Key}
    {nonceKey : JsString} (m : Moment) (hkey : s.registry.peerKeys sender = some key)
    (haddressed : addressed env p = true) (hframe : isFrame p = true)
    (hsig : truthyMember p sigName = some sig)
    (hvalid : verifyFrame env key (canonical env sender p) sig = true)
    (hnonce : truthy (p.get nonceName) = true) (hfresh : freshMember m.now p = true)
    (hnonceKey : nonceKeyOf env sender p = some nonceKey)
    (hunseen : nonceKey ∉ s.registry.seenNonces) :
    after (step env) s [Event.arrive sender p, Event.resume s.started m] =
      { s with
        registry := s.registry.remember nonceKey
        calls := Function.update s.calls s.started none
        started := s.started + 1
        clock := m.now
        signals := s.signals ++ [⟨sender, p, some key⟩]
        verified := s.verified ++ [(sender, key)] } := by
  have hts : (asNumber (p.get tsName)).isSome = true := by
    rw [freshMember] at hfresh
    split at hfresh
    case h_1 ts hts =>
      rw [hts]
      rfl
    case h_2 => exact nomatch hfresh
  have hsigned : truthy (p.get sigName) = true := by
    rcases Option.filter_eq_some_iff.mp hsig with ⟨hget, htruthy⟩
    rw [hget]
    exact htruthy
  have hstart : start env s.registry sender p =
      (s.registry, Next.suspend (Stage.checkFrame key)) := by
    rw [start_of_not_isJoin haddressed (not_isJoin_of_isFrame hframe), checkSender,
      if_pos hframe, hkey]
    dsimp only
    rw [withVerifyKey, hsigned, hnonce, hts]
    rfl
  have hrecorded : recorded env m.now s.registry sender p (Stage.checkFrame key) =
      some nonceKey := by
    have hcontains : s.registry.seenNonces.contains nonceKey = false := by
      rw [<- Bool.not_eq_true, List.contains_iff_mem]
      exact hunseen
    rw [recorded, hsig, Option.bind_some, hnonceKey, Option.bind_some, hvalid, hfresh,
      hcontains]
    rfl
  have hverified : verifiedUnder env sender p (Stage.checkFrame key) = some key := by
    rw [verifiedUnder, hsig, Option.bind_some, if_pos hvalid]
  rw [after, List.foldl_cons, List.foldl_cons, List.foldl_nil, step_arrive, hstart]
  rw [step_resume_signal env m (Function.update_self _ _ _), hverified, resume,
    settleFrame_eq, hrecorded]
  simp [Next.call, Next.signals]

end Delivery

section Flood

variable {env : Environment Bytes} {sender : JsString}

theorem get_signedFrame {name : JsString} {members : List (JsString × Value)} (h : name ≠ sigName) :
    (signedFrame env key sender members).get name = (Value.object members).get name := by
  have hother : (sigName == name) = false := by
    rw [beq_eq_false_iff_ne]
    exact h.symm
  rw [signedFrame, Value.get, Value.get, List.find?_append]
  cases members.find? (fun member => member.1 == name) with
  | some found => rfl
  | none =>
      rw [Option.none_or, List.find?_singleton, hother]
      rfl

theorem canonical_signedFrame {members : List (JsString × Value)} :
    canonical env sender (signedFrame env key sender members) =
      canonical env sender (Value.object members) := by
  have hget : forall name, name ≠ sigName ->
      (signedFrame env key sender members).get name = (Value.object members).get name :=
    fun _ h => get_signedFrame h
  rw [canonical, canonical, hget typeName (by decide), hget sessionName (by decide),
    hget toName (by decide), hget nonceName (by decide), hget tsName (by decide),
    hget sdpName (by decide), hget candidateName (by decide), hget pubKeyName (by decide)]

theorem truthyMember_signedFrame {members : List (JsString × Value)} (hkey : key ≠ [])
    (hmembers : (Value.object members).get sigName = none) :
    truthyMember (signedFrame env key sender members) sigName =
      some (sampleSign key (canonical env sender (Value.object members))) := by
  have hnone : members.find? (fun member => member.1 == sigName) = none :=
    Option.map_eq_none_iff.mp hmembers
  have htext : (btoa (key ++ Text.utf8 (canonical env sender (Value.object members))) != []) =
      true := by
    rw [bne_iff_ne]
    intro hnil
    have hlength := congrArg List.length hnil
    have hpos := List.length_pos_iff.mpr hkey
    rw [length_btoa, List.length_append, List.length_nil] at hlength
    omega
  rw [truthyMember, signedFrame, Value.get, List.find?_append, hnone, Option.none_or,
    List.find?_singleton, if_pos (beq_self_eq_true sigName), Option.map_some,
    Option.filter_some, if_pos]
  exact htext

theorem verifyFrame_sampleSign (requirePeerAuth : Bool) (key : Bytes) (message : List Char) :
    verifyFrame (sampleEnvironment requirePeerAuth) key message (sampleSign key message) =
      true := by
  have hsig : b64ToBytes (sampleEnvironment requirePeerAuth).platform
      (sampleSign key message) = some (key ++ Text.utf8 message) :=
    atob_btoa _
  rw [verifyFrame, verifyRaw, hsig]
  exact beq_self_eq_true _

def sampleFrame (key : Bytes) (sender nonce : JsString) : Value :=
  signedFrame (sampleEnvironment true) key sender
    [(typeName, Value.string iceType), (nonceName, Value.string nonce),
      (tsName, Value.number (Number.finite 5))]

def sampleNonceKey (sender nonce : JsString) : JsString :=
  sender ++ 0x3A :: nonce

def delivery (i : Nat) (sender : JsString) (p : Value) : List Event :=
  [Event.arrive sender p, Event.resume i (sampleMoment 5)]

theorem deliver_sampleFrame {s : State Bytes} {nonce : JsString}
    (hkey : s.registry.peerKeys sender = some key) (hne : key ≠ []) (hnonce : nonce ≠ [])
    (hunseen : sampleNonceKey sender nonce ∉ s.registry.seenNonces) :
    after (step (sampleEnvironment true)) s
        (delivery s.started sender (sampleFrame key sender nonce)) =
      { s with
        registry := s.registry.remember (sampleNonceKey sender nonce)
        calls := Function.update s.calls s.started none
        started := s.started + 1
        clock := 5
        signals := s.signals ++ [⟨sender, sampleFrame key sender nonce, some key⟩]
        verified := s.verified ++ [(sender, key)] } := by
  have hget : forall name, name ≠ sigName -> (sampleFrame key sender nonce).get name =
      (Value.object [(typeName, Value.string iceType), (nonceName, Value.string nonce),
        (tsName, Value.number (Number.finite 5))]).get name :=
    fun _ h => get_signedFrame h
  have htype := hget typeName (by decide)
  have hsession := hget sessionName (by decide)
  have hto := hget toName (by decide)
  have hnonceMember := hget nonceName (by decide)
  have hts := hget tsName (by decide)
  apply deliver_frame (sampleMoment 5) hkey
  · rw [addressed, hsession, hto]
    rfl
  · rw [isFrame, htype]
    rfl
  · exact truthyMember_signedFrame hne rfl
  · rw [sampleFrame, canonical_signedFrame]
    exact verifyFrame_sampleSign true key _
  · rw [hnonceMember]
    exact bne_iff_ne.mpr hnonce
  · rw [freshMember, hts]
    change fresh 5 (Number.finite 5) = true
    decide +kernel
  · rw [nonceKeyOf, hnonceMember]
    rfl
  · exact hunseen

def hostilePeer : JsString := ofText ['h']

def floodNonce (n : Nat) : JsString :=
  List.replicate (n + 1) 0x78

def victimNonce : JsString := ofText ['n']

def victimFrame : Value :=
  sampleFrame samplePoint samplePeer victimNonce

def floodFrame (n : Nat) : Value :=
  sampleFrame otherPoint hostilePeer (floodNonce n)

/-- Two peers announce their keys, and the first one sends a frame. -/
def beforeFlood : List Event :=
  delivery 0 samplePeer (keyedJoin samplePoint) ++
    delivery 1 hostilePeer (keyedJoin otherPoint) ++ delivery 2 samplePeer victimFrame

/-- The second peer sends as many frames as the cache has places. -/
def flood (count : Nat) : List Event :=
  (List.range count).flatMap fun n => delivery (3 + n) hostilePeer (floodFrame n)

def floodRun : List Event :=
  beforeFlood ++ flood nonceCacheMax ++ delivery (3 + nonceCacheMax) samplePeer victimFrame

def floodOrder (count : Nat) : List JsString :=
  sampleNonceKey samplePeer victimNonce ::
    (List.range count).map fun n => sampleNonceKey hostilePeer (floodNonce n)

structure Flooded (count : Nat) (s : State Bytes) : Prop where
  sampleKey : s.registry.peerKeys samplePeer = some samplePoint
  hostileKey : s.registry.peerKeys hostilePeer = some otherPoint
  started : s.started = 3 + count
  seenNonces : s.registry.seenNonces =
    (floodOrder count).drop ((floodOrder count).length - nonceCacheMax)
  signals : (⟨samplePeer, victimFrame, some samplePoint⟩ : Signal Bytes) ∈ s.signals

theorem length_floodOrder (count : Nat) : (floodOrder count).length = count + 1 := by
  rw [floodOrder, List.length_cons, List.length_map, List.length_range]

theorem floodOrder_succ (count : Nat) :
    floodOrder (count + 1) =
      floodOrder count ++ [sampleNonceKey hostilePeer (floodNonce count)] := by
  rw [floodOrder, floodOrder, List.range_succ, List.map_append]
  rfl

theorem floodNonce_notMem (count : Nat) :
    sampleNonceKey hostilePeer (floodNonce count) ∉ floodOrder count := by
  intro hmem
  rcases List.mem_cons.mp hmem with hvictim | hflood
  · exact nomatch (List.cons.inj hvictim).1
  · rcases List.mem_map.mp hflood with ⟨n, hn, hsame⟩
    have hlength := congrArg List.length hsame
    simp only [sampleNonceKey, floodNonce, List.length_append, List.length_cons,
      List.length_replicate] at hlength
    have hlt := List.mem_range.mp hn
    omega

theorem remembered_window (order : List JsString) (new : JsString) :
    remembered (order.drop (order.length - nonceCacheMax)) (some new) =
      (order ++ [new]).drop ((order ++ [new]).length - nonceCacheMax) := by
  rw [remembered, List.length_drop, List.length_append, List.length_singleton]
  split
  case isTrue hfull =>
    have hshift : order.length + 1 - nonceCacheMax = order.length - nonceCacheMax + 1 := by
      omega
    have hinside : order.length - nonceCacheMax + 1 <= order.length := by
      have hpos : 0 < nonceCacheMax := by decide
      omega
    rw [hshift, List.drop_append_of_le_length hinside, List.drop_drop]
  case isFalse hroom =>
    have hnone : order.length - nonceCacheMax = 0 := by omega
    have hstill : order.length + 1 - nonceCacheMax = 0 := by omega
    rw [hnone, hstill]
    rfl

theorem flooded_after (count : Nat) (s : State Bytes) (h : Flooded 0 s) :
    Flooded count (after (step (sampleEnvironment true)) s (flood count)) := by
  induction count with
  | zero => exact h
  | succ count ih =>
      have hflood : flood (count + 1) =
          flood count ++ delivery (3 + count) hostilePeer (floodFrame count) := by
        rw [flood, List.range_succ, List.flatMap_append, List.flatMap_singleton]
        rfl
      have hunseen : sampleNonceKey hostilePeer (floodNonce count) ∉
          (after (step (sampleEnvironment true)) s (flood count)).registry.seenNonces := by
        rw [ih.seenNonces]
        intro hmem
        exact floodNonce_notMem count (List.mem_of_mem_drop hmem)
      have hdeliver := deliver_sampleFrame ih.hostileKey (by decide) (by simp [floodNonce])
        hunseen
      rw [ih.started] at hdeliver
      rw [hflood, after_append]
      refine ⟨?_, ?_, ?_, ?_, ?_⟩
      all_goals rw [floodFrame, hdeliver]
      · exact ih.sampleKey
      · exact ih.hostileKey
      · rfl
      · rw [floodOrder_succ, <- remembered_window, <- ih.seenNonces]
        rfl
      · exact List.mem_append_left _ ih.signals

theorem flooded_zero {s : State Bytes} (hsample : s.registry.peerKeys samplePeer = some samplePoint)
    (hhostile : s.registry.peerKeys hostilePeer = some otherPoint)
    (hseen : s.registry.seenNonces = []) (hstarted : s.started = 2) :
    Flooded 0 (after (step (sampleEnvironment true)) s (delivery 2 samplePeer victimFrame)) := by
  have hunseen : sampleNonceKey samplePeer victimNonce ∉ s.registry.seenNonces := by
    rw [hseen]
    exact List.not_mem_nil
  have hdeliver := deliver_sampleFrame hsample (by decide) (by decide) hunseen
  rw [hstarted] at hdeliver
  rw [victimFrame, hdeliver]
  refine ⟨hsample, hhostile, rfl, ?_, ?_⟩
  · have hnone : (floodOrder 0).length - nonceCacheMax = 0 := by
      rw [length_floodOrder]
      exact Nat.sub_eq_zero_of_le (by decide)
    have hroom : Not (nonceCacheMax <= ([] : List JsString).length) := by decide
    dsimp only
    rw [Registry.remember, hseen, if_neg hroom, hnone]
    rfl
  · exact List.mem_append_right _ (List.mem_singleton.mpr rfl)

theorem flooded_beforeFlood :
    Flooded 0 (after (step (sampleEnvironment true)) State.initial beforeFlood) := by
  have hjoined : exists s, s = after (step (sampleEnvironment true)) State.initial
      (delivery 0 samplePeer (keyedJoin samplePoint) ++
        delivery 1 hostilePeer (keyedJoin otherPoint)) ∧
      s.registry.peerKeys samplePeer = some samplePoint ∧
      s.registry.peerKeys hostilePeer = some otherPoint ∧
      s.registry.seenNonces = [] ∧ s.started = 2 := by
    refine ⟨_, rfl, ?_⟩
    decide +kernel
  rcases hjoined with ⟨s, hs, hsample, hhostile, hseen, hstarted⟩
  rw [beforeFlood, after_append, <- hs]
  exact flooded_zero hsample hhostile hseen hstarted

def secondDelivery : List Event :=
  delivery 0 samplePeer (keyedJoin samplePoint) ++ delivery 1 samplePeer victimFrame ++
    delivery 2 samplePeer victimFrame

theorem secondDelivery_dropped :
    let s := after (step (sampleEnvironment true)) State.initial secondDelivery
    s.signals.map (fun e => (e.sender, e.key)) =
        [(samplePeer, none), (samplePeer, some samplePoint)] ∧
      DispatchedOnce s.signals := by
  have hrun : StepsMeet (step (sampleEnvironment true))
        (fun s e => ClockForward s e ∧ s.registry.seenNonces.length < nonceCacheMax)
        State.initial secondDelivery ∧
      (after (step (sampleEnvironment true)) State.initial
        secondDelivery).signals.map (fun e => (e.sender, e.key)) =
          [(samplePeer, none), (samplePeer, some samplePoint)] := by
    decide +kernel
  exact ⟨hrun.2, dispatchedOnce_of_evictsExpired (sampleEnvironment true)
    (stepsMeet_mono (fun _ e h => ⟨h.1, evictsExpired_of_room h.2 e⟩) hrun.1)⟩

theorem step_clock (env : Environment Bytes) (s : State Bytes) (e : Event) :
    (step env s e).clock = s.clock ∨
      exists i m, e = Event.resume i m ∧ (step env s e).clock = m.now := by
  cases e with
  | arrive sender p =>
      rw [step_arrive]
      exact Or.inl rfl
  | deposit peer plaintext | checkDeposit sender message sig => exact Or.inl rfl
  | resume i m =>
      cases hcall : s.calls i with
      | none =>
          rw [step, hcall]
          exact Or.inl rfl
      | some call =>
          refine Or.inr ⟨i, m, rfl, ?_⟩
          cases call with
          | signal sender p stage => rw [step_resume_signal env m hcall]
          | deposit peer plaintext stage =>
              rcases step_resume_deposit env m hcall with ⟨r, next, sealed, key, _, hstep⟩
              rw [hstep]
          | relayCheck sender message sig key => rw [step_resume_relayCheck env m hcall]

theorem clockForward_of_steady {events : List Event}
    (hsteady : forall i m, Event.resume i m ∈ events -> m.now = now) {s : State Bytes}
    (hclock : s.clock <= now) : StepsMeet (step env) ClockForward s events := by
  refine stepsMeet_of_invariant (fun s => s.clock <= now) ?_ ?_ hclock
  · intro s e he hclock
    cases e with
    | resume i m =>
        rw [ClockForward, hsteady i m he]
        exact hclock
    | _ => trivial
  · intro s e he hclock
    rcases step_clock env s e with hsame | ⟨i, m, hevent, hnow⟩
    · rw [hsame]
      exact hclock
    · rw [hnow, hsteady i m (hevent ▸ he)]

theorem floodRun_steady (i : Nat) (m : Moment) (h : Event.resume i m ∈ floodRun) : m.now = 5 := by
  have hdelivery : forall {j sender p}, Event.resume i m ∈ delivery j sender p -> m.now = 5 := by
    intro j sender p hmem
    rcases List.mem_cons.mp hmem with harrive | hresume
    · exact nomatch harrive
    · cases List.mem_singleton.mp hresume
      rfl
  rcases List.mem_append.mp h with hfirst | hlast
  · rcases List.mem_append.mp hfirst with hbefore | hflood
    · rcases List.mem_append.mp hbefore with hjoins | hvictim
      · rcases List.mem_append.mp hjoins with hone | htwo
        · exact hdelivery hone
        · exact hdelivery htwo
      · exact hdelivery hvictim
    · rcases List.mem_flatMap.mp hflood with ⟨n, _, hframe⟩
      exact hdelivery hframe
  · exact hdelivery hlast

/--
Two peers with stored keys, one clock reading for the whole run: after a thousand frames of
the second peer a frame of the first one is dispatched again.
-/
theorem flooded_frame_replayed :
    StepsMeet (step (sampleEnvironment true)) ClockForward State.initial floodRun ∧
      Not (DispatchedOnce
        (after (step (sampleEnvironment true)) State.initial floodRun).signals) := by
  constructor
  · apply clockForward_of_steady floodRun_steady
    decide
  · have hflooded := flooded_after nonceCacheMax _ flooded_beforeFlood
    rw [<- after_append] at hflooded
    have hunseen : sampleNonceKey samplePeer victimNonce ∉
        (after (step (sampleEnvironment true)) State.initial
          (beforeFlood ++ flood nonceCacheMax)).registry.seenNonces := by
      rw [hflooded.seenNonces, length_floodOrder, Nat.add_sub_cancel_left]
      intro hmem
      rcases List.mem_map.mp hmem with ⟨n, _, hsame⟩
      exact nomatch (List.cons.inj hsame).1
    have hdeliver := deliver_sampleFrame hflooded.sampleKey (by decide) (by decide) hunseen
    rw [hflooded.started] at hdeliver
    rw [floodRun, after_append, victimFrame, hdeliver]
    intro honce
    have hpair := (List.pairwise_append.mp honce).2.2 _ hflooded.signals _
      (List.mem_singleton.mpr rfl) rfl rfl
    exact hpair ⟨rfl, rfl, rfl⟩

end Flood

end Signaling
end Client
end Ephor
