import Mathlib.Algebra.BigOperators.Group.Finset.Piecewise
import Ephor.Client.RelayAuthentic

/-!
# Relayed messages are dispatched once

The only trace that a blob leaves at its receiver is the one-time prekey it used.  The
prekey is given up in the same turn in which the blob is opened, so overlapping polls cannot
open such a blob twice.  A blob without one is dispatched as often as the relay hands it
out.
-/

namespace Ephor
namespace Client
namespace Relay

open Foundation
open Foundation.WebText
open Foundation.Json
open Foundation.Transition
open RelayBox
open Signaling (Environment)

variable {Key : Type}

def sameBlob (blobB64 other : JsString) : Bool :=
  atob other == atob blobB64

def dispatched (blobB64 : JsString) (messages : List (Message Key)) : Nat :=
  messages.countP fun message => sameBlob blobB64 message.envelope.blobB64

def holdsBlob (blobB64 : JsString) (blob : Value) : Bool :=
  match asString (blob.get blobName) with
  | some other => sameBlob blobB64 other
  | none => false

def handedOut (blobB64 : JsString) (fetched : List Value) : Nat :=
  fetched.countP (holdsBlob blobB64)

def usedOneTime (platform : Platform) (blobB64 : JsString) : Option Value :=
  (parseRelayBlobV2 platform blobB64).bind oneTimeId

variable {blobB64 : JsString} {env : Environment Key}

theorem usedOneTime_congr {platform : Platform} {other : JsString}
    (h : sameBlob blobB64 other = true) :
    usedOneTime platform other = usedOneTime platform blobB64 := by
  rw [usedOneTime, usedOneTime, parseRelayBlobV2, parseRelayBlobV2, beq_iff_eq.mp h]

/-!
# One-time prekeys
-/

theorem relayBlobVersion_of_parse {platform : Platform} {parsed : ParsedRelayBlobV2}
    (h : parseRelayBlobV2 platform blobB64 = some parsed) :
    relayBlobVersion blobB64 = some boxVersionV2 := by
  rcases atob_of_parseRelayBlobV2 h with ⟨high, low, hatob⟩
  rw [relayBlobVersion, hatob]
  rfl

theorem consumed_of_openBlob {preKeys left : PreKeyStore} {e : Envelope} {plaintext : Bytes}
    {id : Value} (h : openBlob env preKeys e = some (plaintext, left))
    (hused : usedOneTime env.platform e.blobB64 = some id) :
    (preKeys.oneTimePreKeyPriv id).isSome ∧ left = preKeys.consumeOneTimePreKey id := by
  rcases Option.bind_eq_some_iff.mp hused with ⟨parsed, hparsed, hid⟩
  rcases left_of_openBlob h with ⟨hversion, _⟩ | ⟨other, hother, hpriv, hleft⟩
  · exact absurd (relayBlobVersion_of_parse hparsed) hversion
  · rw [hparsed] at hother
    cases hother
    rw [hid] at hpriv hleft
    exact ⟨Option.isSome_map.symm.trans hpriv, hleft⟩

theorem oneTimePreKeyPriv_consume {preKeys : PreKeyStore} {id : Value}
    (h : (preKeys.oneTimePreKeyPriv id).isSome) :
    (preKeys.consumeOneTimePreKey id).oneTimePreKeyPriv id = none := by
  cases id with
  | string id => exact Function.update_self id none preKeys.opks
  | _ => exact nomatch h

/-- The one-time prekeys that messages used are gone, and no two messages used the same. -/
structure SpentOnce (env : Environment Key) (s : State Key) : Prop where
  spent : forall message, message ∈ s.messages ->
    forall id, usedOneTime env.platform message.envelope.blobB64 = some id ->
      s.preKeys.oneTimePreKeyPriv id = none
  once : s.messages.Pairwise fun a b => forall id,
    usedOneTime env.platform a.envelope.blobB64 = some id ->
      usedOneTime env.platform b.envelope.blobB64 ≠ some id

theorem spentOnce_initial (env : Environment Key) (peerKeys : JsString -> Option Key)
    (preKeys : PreKeyStore) : SpentOnce env (State.initial peerKeys preKeys) where
  spent := fun _ h => nomatch h
  once := List.Pairwise.nil

theorem spent_of_leftOf {preKeys left : PreKeyStore} (hleft : LeftOf preKeys left) {id : Value}
    (h : preKeys.oneTimePreKeyPriv id = none) : left.oneTimePreKeyPriv id = none := by
  rw [Option.eq_none_iff_forall_ne_some] at h ⊢
  intro priv hpriv
  exact h priv (hleft.oneTimePreKeyPriv id priv hpriv)

theorem spentOnce_finished {s s' : State Key} (h : SpentOnce env s)
    (opened : Option (Envelope × Option Key))
    (hpreKeys : s'.preKeys = (finished env s.preKeys opened).1)
    (hmessages : s'.messages = s.messages ++ (finished env s.preKeys opened).2.toList) :
    SpentOnce env s' := by
  have hleft := leftOf_finished env s.preKeys opened
  have hnew : forall message, (finished env s.preKeys opened).2 = some message ->
      forall id, usedOneTime env.platform message.envelope.blobB64 = some id ->
        (s.preKeys.oneTimePreKeyPriv id).isSome ∧ s'.preKeys.oneTimePreKeyPriv id = none := by
    intro message hmessage id hid
    rcases message_of_finished hmessage with ⟨plaintext, left, _, hopen, hstore, _, _⟩
    rcases consumed_of_openBlob hopen hid with ⟨hpriv, hconsumed⟩
    rw [hpreKeys, hstore, hconsumed]
    exact ⟨hpriv, oneTimePreKeyPriv_consume hpriv⟩
  constructor
  · intro message hmem id hid
    rw [hmessages] at hmem
    rcases List.mem_append.mp hmem with hold | hmessage
    · rw [hpreKeys]
      exact spent_of_leftOf hleft (h.spent message hold id hid)
    · exact (hnew message (Option.mem_toList.mp hmessage) id hid).2
  · rw [hmessages]
    apply List.pairwise_append.mpr
    refine ⟨h.once, ?_, ?_⟩
    · cases (finished env s.preKeys opened).2 with
      | none => exact List.Pairwise.nil
      | some message => exact List.pairwise_singleton _ _
    · intro old hold message hmessage id hid hsame
      have hpriv := (hnew message (Option.mem_toList.mp hmessage) id hsame).1
      rw [h.spent old hold id hid] at hpriv
      cases hpriv

theorem spentOnce_step (s : State Key) (e : Event Key) (h : SpentOnce env s) :
    SpentOnce env (step env s e) := by
  cases e with
  | signal peerKeys => exact ⟨h.spent, h.once⟩
  | tick relayPeers =>
      rw [step]
      split
      · exact ⟨h.spent, h.once⟩
      · exact h
  | resume i answer =>
      cases hpoll : s.polls i with
      | none =>
          rw [step_resume_none env answer hpoll]
          exact h
      | some stage =>
          rcases step_resume env answer hpoll with ⟨next, fetched, opened, acks, _, hstep⟩
          rw [hstep]
          exact spentOnce_finished h opened rfl rfl

theorem countP_le_one {α : Type} {R : α -> α -> Prop} {p : α -> Bool} {l : List α}
    (hpairwise : l.Pairwise R) (hnot : forall a b, p a = true -> p b = true -> Not (R a b)) :
    l.countP p <= 1 := by
  induction hpairwise with
  | nil => exact Nat.zero_le 1
  | cons hfirst hrest ih =>
      rename_i first rest
      cases hp : p first with
      | false =>
          rw [List.countP_cons_of_neg (by rw [hp]; exact Bool.false_ne_true)]
          exact ih
      | true =>
          rw [List.countP_cons_of_pos hp]
          apply Nat.succ_le_succ
          apply Nat.le_of_eq
          apply List.countP_eq_zero.mpr
          intro other hmem hother
          exact hnot first other hp hother (hfirst other hmem)

theorem dispatched_of_spentOnce {s : State Key} (h : SpentOnce env s)
    (hused : (usedOneTime env.platform blobB64).isSome) : dispatched blobB64 s.messages <= 1 := by
  rcases Option.isSome_iff_exists.mp hused with ⟨id, hid⟩
  apply countP_le_one h.once
  intro a b ha hb hexclusive
  apply hexclusive id
  · rw [usedOneTime_congr ha, hid]
  · rw [usedOneTime_congr hb, hid]

/-!
# Blobs handed out once
-/

theorem handedOut_cons (blobB64 : JsString) (blob : Value) (blobs : List Value) :
    handedOut blobB64 (blob :: blobs) =
      (if holdsBlob blobB64 blob then 1 else 0) + handedOut blobB64 blobs := by
  rw [handedOut, List.countP_cons, Nat.add_comm]
  rfl

def pendingIn (blobB64 : JsString) : Option (PollStage Key) -> Nat
  | some (PollStage.looping blobs _) => handedOut blobB64 blobs
  | some (PollStage.processing e _ blobs _) =>
      (if sameBlob blobB64 e.blobB64 then 1 else 0) + handedOut blobB64 blobs
  | _ => 0

def pending (blobB64 : JsString) (s : State Key) : Nat :=
  Finset.sum (Finset.range s.started) fun i => pendingIn blobB64 (s.polls i)

theorem holdsBlob_of_read {blob : Value} {e : Envelope} (h : readEnvelope blob = some e)
    (blobB64 : JsString) : holdsBlob blobB64 blob = sameBlob blobB64 e.blobB64 := by
  rw [readEnvelope] at h
  split at h
  case h_1 text epk htext _ =>
    split at h
    · cases h
      rw [holdsBlob, htext]
    · exact nomatch h
  case h_2 => exact nomatch h

theorem pendingIn_advanced (blobB64 : JsString) {peerKeys : JsString -> Option Key}
    {ackIds blobs : List Value} {next : Option (PollStage Key)}
    (h : Advanced peerKeys ackIds blobs next) :
    pendingIn blobB64 next <= handedOut blobB64 blobs := by
  cases h with
  | ended | acking => exact Nat.zero_le _
  | began hread hstart =>
      rw [pendingIn, handedOut_cons, holdsBlob_of_read hread]
  | dropped blob blobs =>
      rw [pendingIn, handedOut_cons]
      exact Nat.le_add_left _ _

theorem pendingIn_turn (blobB64 : JsString) (preKeys : PreKeyStore)
    {peerKeys : JsString -> Option Key} {answer : List Value} {stage : PollStage Key}
    {next : Option (PollStage Key)} {fetched : List Value} {opened : Option (Envelope × Option Key)}
    (h : PollTurn env peerKeys answer stage next fetched opened) :
    pendingIn blobB64 next + dispatched blobB64 (finished env preKeys opened).2.toList <=
      pendingIn blobB64 (some stage) + handedOut blobB64 fetched := by
  cases h with
  | nothing | acked => exact Nat.zero_le _
  | fetched hadvanced =>
      exact Nat.le_trans (pendingIn_advanced blobB64 hadvanced) (Nat.le_add_left _ _)
  | looped hadvanced => exact pendingIn_advanced blobB64 hadvanced
  | passed blobs ackIds hpasses => exact Nat.le_refl _
  | refused e key blobs ackIds => exact Nat.le_add_left _ _
  | finished e key blobs ackIds ackIds' =>
      have hone : dispatched blobB64 (finished env preKeys (some (e, key))).2.toList <=
          if sameBlob blobB64 e.blobB64 then 1 else 0 := by
        cases hmessage : (finished env preKeys (some (e, key))).2 with
        | none => exact Nat.zero_le _
        | some message =>
            rcases message_of_finished hmessage with ⟨_, _, hopened, _⟩
            have henvelope := (Prod.mk.inj (Option.some.inj hopened)).1
            rw [dispatched, Option.toList_some, List.countP_singleton, henvelope]
      rw [pendingIn, pendingIn, Nat.add_comm]
      exact Nat.add_le_add_right hone _

theorem dispatched_append (blobB64 : JsString) (messages more : List (Message Key)) :
    dispatched blobB64 (messages ++ more) = dispatched blobB64 messages + dispatched blobB64 more :=
  List.countP_append

theorem handedOut_append (blobB64 : JsString) (fetched more : List Value) :
    handedOut blobB64 (fetched ++ more) = handedOut blobB64 fetched + handedOut blobB64 more :=
  List.countP_append

/-- Every message and every waiting copy of a blob was handed out. -/
structure Counted (blobB64 : JsString) (s : State Key) : Prop where
  numbered : forall i, s.started <= i -> s.polls i = none
  count : dispatched blobB64 s.messages + pending blobB64 s <= handedOut blobB64 s.fetched

theorem counted_initial (blobB64 : JsString) (peerKeys : JsString -> Option Key)
    (preKeys : PreKeyStore) : Counted blobB64 (State.initial peerKeys preKeys) where
  numbered := fun _ _ => rfl
  count := Nat.le_refl _

theorem counted_turn {s : State Key} (h : Counted blobB64 s) {i : Nat} {stage : PollStage Key}
    (hpoll : s.polls i = some stage) {next : Option (PollStage Key)} {s' : State Key}
    (hstarted : s'.started = s.started) (hpolls : s'.polls = Function.update s.polls i next)
    {messages : List (Message Key)} (hmessages : s'.messages = s.messages ++ messages)
    {fetched : List Value} (hfetched : s'.fetched = s.fetched ++ fetched)
    (hle : pendingIn blobB64 next + dispatched blobB64 messages <=
      pendingIn blobB64 (some stage) + handedOut blobB64 fetched) :
    Counted blobB64 s' := by
  have hi : i < s.started := by
    apply Nat.lt_of_not_le
    intro hle
    rw [h.numbered i hle] at hpoll
    exact nomatch hpoll
  constructor
  · intro j hj
    rw [hstarted] at hj
    rw [hpolls, Function.update_of_ne (Nat.ne_of_gt (Nat.lt_of_lt_of_le hi hj))]
    exact h.numbered j hj
  · have hmem := Finset.mem_range.mpr hi
    have hbefore := Finset.sum_eq_add_sum_sdiff_singleton_of_mem hmem
      (fun j => pendingIn blobB64 (s.polls j))
    have hafter := Finset.sum_update_of_mem hmem (fun j => pendingIn blobB64 (s.polls j))
      (pendingIn blobB64 next)
    have hsame : (fun j => pendingIn blobB64 (s'.polls j)) =
        Function.update (fun j => pendingIn blobB64 (s.polls j)) i (pendingIn blobB64 next) := by
      rw [hpolls]
      exact Function.comp_update (pendingIn blobB64) s.polls i next
    have hcount := h.count
    rw [pending, hbefore, hpoll] at hcount
    rw [hmessages, hfetched, dispatched_append, handedOut_append, pending, hstarted, hsame,
      hafter]
    omega

theorem counted_step (s : State Key) (e : Event Key) (h : Counted blobB64 s) :
    Counted blobB64 (step env s e) := by
  cases e with
  | signal peerKeys => exact ⟨h.numbered, h.count⟩
  | tick relayPeers =>
      rw [step]
      split
      · constructor
        · intro j hj
          have hne : j ≠ s.started := Nat.ne_of_gt (Nat.lt_of_succ_le hj)
          exact (Function.update_of_ne hne _ _).trans (h.numbered j (Nat.le_of_succ_le hj))
        · have hold : forall j, j ∈ Finset.range s.started ->
              pendingIn blobB64 (Function.update s.polls s.started (some PollStage.fetching) j) =
                pendingIn blobB64 (s.polls j) := by
            intro j hj
            rw [Function.update_of_ne (Nat.ne_of_lt (Finset.mem_range.mp hj))]
          have hcount := h.count
          rw [pending] at hcount
          simp only [State.suspend, pending]
          rw [Finset.sum_range_succ, Finset.sum_congr rfl hold, Function.update_self]
          exact hcount
      · exact h
  | resume i answer =>
      cases hpoll : s.polls i with
      | none =>
          rw [step_resume_none env answer hpoll]
          exact h
      | some stage =>
          rcases step_resume env answer hpoll with ⟨next, fetched, opened, acks, hturn, hstep⟩
          rw [hstep]
          exact counted_turn h hpoll rfl rfl rfl rfl (pendingIn_turn blobB64 s.preKeys hturn)

/--
In any run, whatever the relay hands out and however the polls overlap: a blob that names a
one-time prekey, or that is handed out once, leads to one message at most.
-/
theorem dispatched_le_one (env : Environment Key) (peerKeys : JsString -> Option Key)
    (preKeys : PreKeyStore) (events : List (Event Key)) (blobB64 : JsString)
    (h : (usedOneTime env.platform blobB64).isSome ∨ handedOut blobB64
      (after (step env) (State.initial peerKeys preKeys) events).fetched <= 1) :
    dispatched blobB64 (after (step env) (State.initial peerKeys preKeys) events).messages <=
      1 := by
  rcases h with hused | honce
  · have hspent : SpentOnce env (after (step env) (State.initial peerKeys preKeys) events) :=
      invariant_after (fun s e h _ => spentOnce_step s e h)
        (spentOnce_initial env peerKeys preKeys) (stepsMeet_true (step env) _ events)
    exact dispatched_of_spentOnce hspent hused
  · have hcounted : Counted blobB64 (after (step env) (State.initial peerKeys preKeys) events) :=
      invariant_after (fun s e h _ => counted_step s e h)
        (counted_initial blobB64 peerKeys preKeys) (stepsMeet_true (step env) _ events)
    exact Nat.le_trans (Nat.le_of_add_right_le hcounted.count) honce

/-!
# The same blob twice
-/

def sampleBlobV2 (oneTime : Option Signaling.OneTimePreKey) : JsString :=
  (Signaling.sealBlob
    { Signaling.sampleEnvironment true with peerId := Signaling.samplePeer }
    (Signaling.sampleMoment 5) (ofText ['m']) samplePayload
    ⟨Value.string sampleBoxPubKey, Value.null, none⟩ oneTime
    (some ⟨some (Value.string samplePreKeys.signedId), sampleBoxPubKey, [],
      Signaling.samplePoint⟩)).getD []

def sampleOneTime : Signaling.OneTimePreKey :=
  ⟨newKeyID (FixedBytes.zero 12), sampleBoxPubKey⟩

/-- Two polls overlap and are both handed the deposit of the blob. -/
def pollTwice (blobB64 : JsString) : List (Event Bytes) :=
  [Event.tick true, Event.tick true,
    Event.resume 0 [signedDeposit Signaling.samplePoint blobB64],
    Event.resume 1 [signedDeposit Signaling.samplePoint blobB64],
    Event.resume 0 [], Event.resume 1 [], Event.resume 0 [], Event.resume 1 []]

/-- The messages that the blob leads to when it is handed out twice. -/
def dispatchedTwice (blobB64 : JsString) : Nat :=
  dispatched blobB64 (after (step (Signaling.sampleEnvironment true))
    (State.initial sampleKeys samplePreKeys) (pollTwice blobB64)).messages

theorem oneTime_dispatched_once :
    dispatchedTwice (sampleBlobV2 (some sampleOneTime)) <= 1 ∧
      0 < dispatchedTwice (sampleBlobV2 (some sampleOneTime)) := by
  have hrun : (usedOneTime (Signaling.sampleEnvironment true).platform
      (sampleBlobV2 (some sampleOneTime))).isSome ∧
        0 < dispatchedTwice (sampleBlobV2 (some sampleOneTime)) := by
    decide +kernel
  exact ⟨dispatched_le_one (Signaling.sampleEnvironment true) sampleKeys samplePreKeys
    (pollTwice (sampleBlobV2 (some sampleOneTime))) _ (Or.inl hrun.1), hrun.2⟩

/-- Neither a blob of version 1 nor one of version 2 without a one-time prekey leaves a
trace. -/
theorem blob_dispatched_twice :
    dispatchedTwice sampleBlob = 2 ∧ dispatchedTwice (sampleBlobV2 none) = 2 := by
  decide +kernel

end Relay
end Client
end Ephor
