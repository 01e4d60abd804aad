import Ephor.Client.Signaling

/-!
# Picking up relayed messages

The receiving side of the relay fallback in `client/src/fabric.ts`.  A timer starts polls
whether or not earlier ones have ended; each of them fetches blobs, works through them one
after the other and acknowledges the ones it dispatched.  The relay is untrusted, so a
fetch may answer anything, and the signaling side may store keys between any two steps.
The prekeys exist before the first poll, as `connect` waits for them.
-/

namespace Ephor
namespace Client
namespace Relay

open Foundation
open Foundation.WebText
open Foundation.Json
open RelayBox
open Signaling (Environment toName fromName nonceName sigName sessionName idName truthyMember
  verifyFrame)

def maxPayloadBytes : Nat := 256 * 1024

def relayEnvelopeOverhead : Nat := 1 + 24 + 16

def maxRelayBlobB64 : Nat :=
  (maxPayloadBytes + relayEnvelopeOverhead + 2) / 3 * 4 + 4

def blobName : JsString := ofText ['b', 'l', 'o', 'b', '_', 'b', '6', '4']

def epkName : JsString := ofText ['e', 'p', 'k']

def dataName : JsString := ofText ['d', 'a', 't', 'a']

variable {Key : Type}

def sigMsg (platform : Platform) (recipient : JsString) (sender nonce : Option Value)
    (blobB64 : JsString) (epk : Value) : List Char :=
  stringify platform.numerals (literalObject
    [(toName, some (Value.string recipient)), (fromName, sender), (nonceName, nonce),
      (blobName, some (Value.string blobB64)), (epkName, some epk)])

/-!
# One call of `_processRelayBlob`
-/

/-- A fetched blob whose text and box key passed the first checks. -/
structure Envelope where
  blob : Value
  blobB64 : JsString
  epk : Value

def readEnvelope (blob : Value) : Option Envelope :=
  match asString (blob.get blobName), truthyMember blob epkName with
  | some blobB64, some epk =>
      if blobB64.length <= maxRelayBlobB64 then some ⟨blob, blobB64, epk⟩ else none
  | _, _ => none

namespace Envelope

def sender (e : Envelope) : Option Value :=
  e.blob.get fromName

/-- The key stored for the sender; only a string finds one. -/
def peerKey (e : Envelope) (peerKeys : JsString -> Option Key) : Option Key :=
  (asString e.sender).bind peerKeys

end Envelope

/-- The `await` at which the blob waits, with the key that was stored for its sender when
the signature check began. -/
inductive BlobStage (Key : Type) where
  | verifying (key : Option Key)
  | ensuring (key : Option Key)

/-- Up to the first `await`.  Without a signature the sender must have no key. -/
def startBlob (peerKeys : JsString -> Option Key) (e : Envelope) : Option (BlobStage Key) :=
  if truthy (e.blob.get sigName) && truthy (e.blob.get nonceName) then
    some (BlobStage.verifying (e.peerKey peerKeys))
  else if (e.peerKey peerKeys).isSome then none
  else some (BlobStage.ensuring none)

section Process

variable (env : Environment Key)

/-- Whether the answer of `verifyPeerSig` lets the blob through. -/
def passes (e : Envelope) : Option Key -> Bool
  | some key =>
      match truthyMember e.blob sigName with
      | some sig =>
          verifyFrame env key
            (sigMsg env.platform env.peerId e.sender (e.blob.get nonceName) e.blobB64 e.epk) sig
      | none => false
  | none => true

def oneTimeId (parsed : ParsedRelayBlobV2) : Option Value :=
  parsed.oneTimePreKeyId.filter fun id => truthy (some id)

/-- The private half of the named one-time prekey, which must still be there. -/
def oneTimePriv (preKeys : PreKeyStore) : Option Value -> Option (Option (FixedBytes 32))
  | some id => (preKeys.oneTimePreKeyPriv id).map some
  | none => some none

/-- A one-time prekey is given up once its blob has been opened. -/
def consumed (preKeys : PreKeyStore) : Option Value -> PreKeyStore
  | some id => preKeys.consumeOneTimePreKey id
  | none => preKeys

def openBlob (preKeys : PreKeyStore) (e : Envelope) : Option (Bytes × PreKeyStore) := do
  let sender <- templateText env.platform.numerals e.sender
  if relayBlobVersion e.blobB64 = some boxVersionV2 then
    let parsed <- parseRelayBlobV2 env.platform e.blobB64
    let spkPriv <- preKeys.signedPreKeyPriv parsed.signedPreKeyId
    let opkPriv <- oneTimePriv preKeys (oneTimeId parsed)
    let senderIdentityPub <- b64ToBytes env.platform e.epk
    let sk <- x3dhRespond env.platform env.prim env.boxPriv senderIdentityPub spkPriv opkPriv
      parsed.ephemeralPub e.sender env.peerId
    let plaintext <- openRelayBlobV2 env.prim parsed sk sender env.peerId env.session
    return (plaintext, consumed preKeys (oneTimeId parsed))
  else
    let plaintext <- openRelayBlob env.platform env.prim e.blobB64 env.boxPriv e.epk sender
      env.peerId env.session
    return (plaintext, preKeys)

def readPayload (plaintext : Bytes) : Option (Option Value) :=
  if maxPayloadBytes < (ofText (decode plaintext)).length then none
  else
    match parse env.platform.numerals (decode plaintext) with
    | some msg =>
        if asString (msg.get sessionName) = some env.session then some (msg.get dataName)
        else none
    | none => none

end Process

/-- A dispatched `message` event, with the blob it came in and the key that was stored for
its sender when the signature check began. -/
structure Message (Key : Type) where
  sender : Option Value
  data : Option Value
  envelope : Envelope
  key : Option Key

section Process

variable (env : Environment Key)

def finishBlob (preKeys : PreKeyStore) (e : Envelope) (key : Option Key) :
    PreKeyStore × Option (Message Key) :=
  match openBlob env preKeys e with
  | some (plaintext, left) =>
      (left, (readPayload env plaintext).map fun data => ⟨e.sender, data, e, key⟩)
  | none => (preKeys, none)

end Process

/-!
# The machine
-/

/-- The `await` at which a poll is suspended. -/
inductive PollStage (Key : Type) where
  | fetching
  | looping (blobs ackIds : List Value)
  | processing (e : Envelope) (stage : BlobStage Key) (blobs ackIds : List Value)
  | acking

structure State (Key : Type) where
  peerKeys : JsString -> Option Key
  preKeys : PreKeyStore
  polls : Nat -> Option (PollStage Key)
  started : Nat
  fetched : List Value
  messages : List (Message Key)
  /-- The ids acknowledged so far, one list for each poll. -/
  acks : List (List Value)

inductive Event (Key : Type) where
  | signal (peerKeys : JsString -> Option Key)
  /-- The timer fires; without peers to poll for it does nothing. -/
  | tick (relayPeers : Bool)
  | resume (i : Nat) (answer : List Value)

namespace State

def initial (peerKeys : JsString -> Option Key) (preKeys : PreKeyStore) : State Key where
  peerKeys := peerKeys
  preKeys := preKeys
  polls := fun _ => none
  started := 0
  fetched := []
  messages := []
  acks := []

def suspend (s : State Key) (i : Nat) (stage : Option (PollStage Key)) : State Key :=
  { s with polls := Function.update s.polls i stage }

/-- The loop of `_relayPoll` up to its next `await`. -/
def advance (s : State Key) (i : Nat) (ackIds : List Value) : List Value -> State Key
  | blob :: blobs =>
      match (readEnvelope blob).bind fun e => (startBlob s.peerKeys e).map fun stage => (e, stage)
        with
      | some (e, stage) => s.suspend i (some (PollStage.processing e stage blobs ackIds))
      | none => s.suspend i (some (PollStage.looping blobs ackIds))
  | [] =>
      if ackIds.isEmpty then s.suspend i none
      else { s with acks := s.acks ++ [ackIds] }.suspend i (some PollStage.acking)

end State

def ackIdsAfter (ackIds : List Value) : Option (Message Key) -> List Value
  | some message => ackIds ++ (truthyMember message.envelope.blob idName).toList
  | none => ackIds

section Machine

variable (env : Environment Key)

def resumePoll (answer : List Value) (s : State Key) (i : Nat) : PollStage Key -> State Key
  | PollStage.fetching =>
      match answer with
      | [] => s.suspend i none
      | _ :: _ => State.advance { s with fetched := s.fetched ++ answer } i [] answer
  | PollStage.looping blobs ackIds => s.advance i ackIds blobs
  | PollStage.processing e (BlobStage.verifying key) blobs ackIds =>
      if passes env e key then
        s.suspend i (some (PollStage.processing e (BlobStage.ensuring key) blobs ackIds))
      else
        s.suspend i (some (PollStage.looping blobs ackIds))
  | PollStage.processing e (BlobStage.ensuring key) blobs ackIds =>
      let out := finishBlob env s.preKeys e key
      State.suspend
        { s with preKeys := out.1, messages := s.messages ++ out.2.toList } i
        (some (PollStage.looping blobs (ackIdsAfter ackIds out.2)))
  | PollStage.acking => s.suspend i none

def step (s : State Key) : Event Key -> State Key
  | Event.signal peerKeys => { s with peerKeys := peerKeys }
  | Event.tick relayPeers =>
      if relayPeers then
        State.suspend { s with started := s.started + 1 } s.started (some PollStage.fetching)
      else s
  | Event.resume i answer =>
      match s.polls i with
      | some stage => resumePoll env answer s i stage
      | none => s

end Machine

/-!
# What a step does
-/

/-- Where the loop of a poll stands at its next `await`. -/
inductive Advanced (peerKeys : JsString -> Option Key) (ackIds : List Value) :
    List Value -> Option (PollStage Key) -> Prop where
  | ended : Advanced peerKeys ackIds [] none
  | acking : Advanced peerKeys ackIds [] (some PollStage.acking)
  | began {blob : Value} {blobs : List Value} {e : Envelope} {stage : BlobStage Key}
      (hread : readEnvelope blob = some e) (hstart : startBlob peerKeys e = some stage) :
      Advanced peerKeys ackIds (blob :: blobs)
        (some (PollStage.processing e stage blobs ackIds))
  | dropped (blob : Value) (blobs : List Value) :
      Advanced peerKeys ackIds (blob :: blobs) (some (PollStage.looping blobs ackIds))

/-- What a poll does from one `await` to the next: where it stands then, the blobs it has
fetched and the blob it has opened, with the key of its check. -/
inductive PollTurn (env : Environment Key) (peerKeys : JsString -> Option Key)
    (answer : List Value) :
    PollStage Key -> Option (PollStage Key) -> List Value -> Option (Envelope × Option Key) ->
      Prop where
  | nothing : PollTurn env peerKeys answer PollStage.fetching none [] none
  | fetched {next : Option (PollStage Key)} (hadvanced : Advanced peerKeys [] answer next) :
      PollTurn env peerKeys answer PollStage.fetching next answer none
  | looped {blobs ackIds : List Value} {next : Option (PollStage Key)}
      (hadvanced : Advanced peerKeys ackIds blobs next) :
      PollTurn env peerKeys answer (PollStage.looping blobs ackIds) next [] none
  | passed {e : Envelope} {key : Option Key} (blobs ackIds : List Value)
      (hpasses : passes env e key = true) :
      PollTurn env peerKeys answer
        (PollStage.processing e (BlobStage.verifying key) blobs ackIds)
        (some (PollStage.processing e (BlobStage.ensuring key) blobs ackIds)) [] none
  | refused (e : Envelope) (key : Option Key) (blobs ackIds : List Value) :
      PollTurn env peerKeys answer
        (PollStage.processing e (BlobStage.verifying key) blobs ackIds)
        (some (PollStage.looping blobs ackIds)) [] none
  | finished (e : Envelope) (key : Option Key) (blobs ackIds ackIds' : List Value) :
      PollTurn env peerKeys answer
        (PollStage.processing e (BlobStage.ensuring key) blobs ackIds)
        (some (PollStage.looping blobs ackIds')) [] (some (e, key))
  | acked : PollTurn env peerKeys answer PollStage.acking none [] none

/-- The prekeys and the message after the blob, if any, was opened. -/
def finished (env : Environment Key) (preKeys : PreKeyStore) :
    Option (Envelope × Option Key) -> PreKeyStore × Option (Message Key)
  | some (e, key) => finishBlob env preKeys e key
  | none => (preKeys, none)

theorem advance_eq (s : State Key) (i : Nat) (ackIds blobs : List Value) :
    exists next acks, Advanced s.peerKeys ackIds blobs next ∧
      s.advance i ackIds blobs =
        { s with polls := Function.update s.polls i next, acks := acks } := by
  cases blobs with
  | nil =>
      rw [State.advance]
      split
      · exact ⟨_, _, Advanced.ended, rfl⟩
      · exact ⟨_, _, Advanced.acking, rfl⟩
  | cons blob blobs =>
      rw [State.advance]
      split
      case h_1 e stage hbind =>
        rcases Option.bind_eq_some_iff.mp hbind with ⟨read, hread, hmap⟩
        rcases Option.map_eq_some_iff.mp hmap with ⟨started, hstart, hpair⟩
        cases hpair
        exact ⟨_, _, Advanced.began hread hstart, rfl⟩
      case h_2 => exact ⟨_, _, Advanced.dropped blob blobs, rfl⟩

variable {s : State Key} {i : Nat}

theorem step_resume (env : Environment Key) (answer : List Value) {stage : PollStage Key}
    (hpoll : s.polls i = some stage) :
    exists next fetched opened acks,
      PollTurn env s.peerKeys answer stage next fetched opened ∧
      step env s (Event.resume i answer) =
        { s with
          preKeys := (finished env s.preKeys opened).1
          polls := Function.update s.polls i next
          fetched := s.fetched ++ fetched
          messages := s.messages ++ (finished env s.preKeys opened).2.toList
          acks := acks } := by
  simp only [step, hpoll]
  cases stage with
  | fetching =>
      cases answer with
      | nil =>
          refine ⟨_, _, _, s.acks, PollTurn.nothing, ?_⟩
          simp [resumePoll, finished, State.suspend]
      | cons blob blobs =>
          rcases advance_eq { s with fetched := s.fetched ++ blob :: blobs } i []
            (blob :: blobs) with ⟨next, acks, hadvanced, hstate⟩
          refine ⟨_, _, _, acks, PollTurn.fetched hadvanced, ?_⟩
          rw [resumePoll, hstate]
          simp [finished]
  | looping blobs ackIds =>
      rcases advance_eq s i ackIds blobs with ⟨next, acks, hadvanced, hstate⟩
      refine ⟨_, _, _, acks, PollTurn.looped hadvanced, ?_⟩
      rw [resumePoll, hstate]
      simp [finished]
  | processing e stage blobs ackIds =>
      cases stage with
      | verifying key =>
          rw [resumePoll]
          split
          case isTrue hpasses =>
            refine ⟨_, _, _, s.acks, PollTurn.passed blobs ackIds hpasses, ?_⟩
            simp [finished, State.suspend]
          case isFalse =>
            refine ⟨_, _, _, s.acks, PollTurn.refused e key blobs ackIds, ?_⟩
            simp [finished, State.suspend]
      | ensuring key =>
          refine ⟨_, _, _, s.acks, PollTurn.finished e key blobs ackIds
            (ackIdsAfter ackIds (finishBlob env s.preKeys e key).2), ?_⟩
          simp [resumePoll, finished, State.suspend]
  | acking =>
      refine ⟨_, _, _, s.acks, PollTurn.acked, ?_⟩
      simp [resumePoll, finished, State.suspend]

theorem step_resume_none (env : Environment Key) (answer : List Value) (hpoll : s.polls i = none) :
    step env s (Event.resume i answer) = s := by
  simp only [step, hpoll]

theorem message_of_finished {env : Environment Key} {preKeys : PreKeyStore}
    {opened : Option (Envelope × Option Key)} {message : Message Key}
    (h : (finished env preKeys opened).2 = some message) :
    exists plaintext left, opened = some (message.envelope, message.key) ∧
      openBlob env preKeys message.envelope = some (plaintext, left) ∧
      (finished env preKeys opened).1 = left ∧
      readPayload env plaintext = some message.data ∧ message.sender = message.envelope.sender := by
  rcases opened with _ | ⟨e, key⟩
  · exact nomatch h
  · rw [finished, finishBlob] at h ⊢
    split at h
    case h_1 plaintext left hopen =>
      rcases Option.map_eq_some_iff.mp h with ⟨data, hdata, rfl⟩
      exact ⟨plaintext, left, rfl, hopen, rfl, hdata, rfl⟩
    case h_2 => exact nomatch h

/-!
# A poll on its own
-/

def poll (i : Nat) (blob : Value) : List (Event Key) :=
  [Event.tick true, Event.resume i [blob], Event.resume i [], Event.resume i [],
    Event.resume i [], Event.resume i []]

/-- `_processRelayBlob` when nothing happens at its `await`s. -/
def processRelayBlob (env : Environment Key) (peerKeys : JsString -> Option Key)
    (preKeys : PreKeyStore) (blob : Value) : Option (Message Key) :=
  (readEnvelope blob).bind fun e => (startBlob peerKeys e).bind fun stage =>
    match stage with
    | BlobStage.verifying key =>
        if passes env e key then (finishBlob env preKeys e key).2 else none
    | BlobStage.ensuring key => (finishBlob env preKeys e key).2

def PollStage.Over : Option (PollStage Key) -> Prop
  | none => True
  | some (PollStage.looping blobs _) => blobs = []
  | some PollStage.acking => True
  | _ => False

theorem over_step {env : Environment Key} {s : State Key} {i : Nat}
    (h : PollStage.Over (s.polls i)) :
    PollStage.Over ((step env s (Event.resume i [])).polls i) ∧
      (step env s (Event.resume i [])).messages = s.messages := by
  cases hpoll : s.polls i with
  | none =>
      rw [step_resume_none env [] hpoll]
      exact ⟨h, rfl⟩
  | some stage =>
      rw [hpoll] at h
      cases stage with
      | fetching | processing e stage blobs ackIds => exact h.elim
      | acking =>
          simp only [step, hpoll, resumePoll, State.suspend, Function.update_self]
          exact ⟨trivial, trivial⟩
      | looping blobs ackIds =>
          cases h
          simp only [step, hpoll, resumePoll, State.advance]
          split <;> simp only [State.suspend, Function.update_self] <;> exact ⟨trivial, trivial⟩

theorem over_after {env : Environment Key} (h : PollStage.Over (s.polls i)) (n : Nat) :
    (Transition.after (step env) s (List.replicate n (Event.resume i []))).messages =
      s.messages := by
  induction n generalizing s with
  | zero => rfl
  | succ n ih =>
      have hstep := @over_step _ env s i h
      exact (ih hstep.1).trans hstep.2

theorem ensuring_after {env : Environment Key} {e : Envelope} {key : Option Key}
    {ackIds : List Value}
    (h : s.polls i = some (PollStage.processing e (BlobStage.ensuring key) [] ackIds)) (n : Nat) :
    (Transition.after (step env) s (List.replicate (n + 1) (Event.resume i []))).messages =
      s.messages ++ (finishBlob env s.preKeys e key).2.toList := by
  have hover : PollStage.Over ((step env s (Event.resume i [])).polls i) := by
    simp only [step, h, resumePoll, State.suspend, Function.update_self]
    rfl
  refine (over_after hover n).trans ?_
  simp only [step, h, resumePoll, State.suspend]

theorem verifying_after {env : Environment Key} {e : Envelope} {key : Option Key}
    {ackIds : List Value}
    (h : s.polls i = some (PollStage.processing e (BlobStage.verifying key) [] ackIds))
    (n : Nat) :
    (Transition.after (step env) s (List.replicate (n + 2) (Event.resume i []))).messages =
      s.messages ++
        (if passes env e key then (finishBlob env s.preKeys e key).2 else none).toList := by
  cases hpasses : passes env e key with
  | true =>
      have hstep : step env s (Event.resume i []) =
          s.suspend i (some (PollStage.processing e (BlobStage.ensuring key) [] ackIds)) := by
        simp only [step, h, resumePoll, hpasses, if_true]
      rw [List.replicate_succ, Transition.after, List.foldl_cons, hstep]
      exact ensuring_after (Function.update_self i _ _) n
  | false =>
      have hover : PollStage.Over ((step env s (Event.resume i [])).polls i) := by
        simp only [step, h, resumePoll, hpasses, Bool.false_eq_true, if_false, State.suspend,
          Function.update_self]
        rfl
      refine (over_after hover (n + 1)).trans ?_
      simp only [step, h, resumePoll, hpasses, Bool.false_eq_true, if_false, State.suspend,
        Option.toList_none, List.append_nil]

theorem poll_messages (env : Environment Key) (s : State Key) (blob : Value) :
    (Transition.after (step env) s (poll s.started blob)).messages =
      s.messages ++ (processRelayBlob env s.peerKeys s.preKeys blob).toList := by
  let fetched : State Key := step env (step env s (Event.tick true))
    (Event.resume s.started [blob])
  have hrest : Transition.after (step env) s (poll s.started blob) =
      Transition.after (step env) fetched (List.replicate 4 (Event.resume s.started [])) :=
    rfl
  have hfetched : fetched = State.advance
      { s with
        polls := Function.update s.polls s.started (some PollStage.fetching)
        started := s.started + 1
        fetched := s.fetched ++ [blob] } s.started [] [blob] := by
    simp only [fetched, step, if_true, State.suspend, Function.update_self, resumePoll]
  rw [hrest, processRelayBlob]
  cases hread : readEnvelope blob with
  | none =>
      rw [State.advance, hread] at hfetched
      have hover : PollStage.Over (fetched.polls s.started) := by
        rw [hfetched]
        simp only [Option.bind_none, State.suspend, Function.update_self]
        rfl
      rw [over_after hover, hfetched]
      simp [State.suspend]
  | some e =>
      rw [State.advance, hread, Option.bind_some] at hfetched
      rw [Option.bind_some]
      cases hstart : startBlob s.peerKeys e with
      | none =>
          rw [hstart] at hfetched
          have hover : PollStage.Over (fetched.polls s.started) := by
            rw [hfetched]
            simp only [Option.map_none, State.suspend, Function.update_self]
            rfl
          rw [over_after hover, hfetched]
          simp [State.suspend]
      | some stage =>
          rw [hstart] at hfetched
          have hpoll : fetched.polls s.started =
              some (PollStage.processing e stage [] []) := by
            rw [hfetched]
            exact Function.update_self s.started _ _
          have hpreKeys : fetched.preKeys = s.preKeys := by
            rw [hfetched]
            rfl
          have hmessages : fetched.messages = s.messages := by
            rw [hfetched]
            rfl
          rw [Option.bind_some]
          cases stage with
          | verifying key => rw [verifying_after hpoll 2, hpreKeys, hmessages]
          | ensuring key => rw [ensuring_after hpoll 3, hpreKeys, hmessages]

/-!
# A small deposit

Both box keys are zero, and the blob is sealed in version 1.
-/

def samplePreKeys : PreKeyStore where
  signedId := newKeyID (FixedBytes.zero 12)
  signedPriv := FixedBytes.zero 32
  opks := Function.update (fun _ => none) (newKeyID (FixedBytes.zero 12))
    (some (FixedBytes.zero 32))
  signedId_generated := ⟨_, rfl⟩
  opks_generated := by
    intro id hid
    by_cases hsame : id = newKeyID (FixedBytes.zero 12)
    · exact ⟨_, hsame⟩
    · rw [Function.update_of_ne hsame] at hid
      exact nomatch hid

def sampleBoxPubKey : JsString :=
  bytesToB64 (FixedBytes.zero 32).toBytes

def samplePayload : Bytes :=
  Text.utf8 (stringify samplePlatform.numerals
    (Value.object [(sessionName, Value.string (ofText ['r'])),
      (dataName, Value.string (ofText ['d']))]))

def sampleBlob : JsString :=
  (sealRelayBlob samplePlatform samplePrimitives (FixedBytes.zero 24) samplePayload
    (FixedBytes.zero 32) (Value.string sampleBoxPubKey) Signaling.samplePeer (ofText ['m'])
    (ofText ['r'])).getD []

def signedDeposit (key : Bytes) (blobB64 : JsString) : Value :=
  Value.object
    [(idName, Value.string (ofText ['i'])), (fromName, Value.string Signaling.samplePeer),
      (blobName, Value.string blobB64), (epkName, Value.string sampleBoxPubKey),
      (nonceName, Value.string (ofText ['n'])),
      (sigName, Signaling.sampleSign key (sigMsg samplePlatform (ofText ['m'])
        (some (Value.string Signaling.samplePeer)) (some (Value.string (ofText ['n'])))
        blobB64 (Value.string sampleBoxPubKey)))]

def sampleKeys : JsString -> Option Bytes :=
  Function.update (fun _ => none) Signaling.samplePeer (some Signaling.samplePoint)

end Relay
end Client
end Ephor
