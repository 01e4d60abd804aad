import Mathlib.Logic.Function.Basic
import Ephor.Foundation.Transition
import Ephor.Client.RelayBox

/-!
# The signaling client

`_processSignal` of `client/src/signaling.ts` together with what `client/src/fabric.ts`
does with the keys it collects.  The frames come from an untrusted server, and no two
calls are serialised: each one runs to its next `await` and then waits there while others
run.  A state therefore holds the registries and the suspended calls; a step starts a
call or resumes one.
-/

namespace Ephor
namespace Client
namespace Signaling

open Foundation
open Foundation.WebText
open Foundation.Json
open RelayBox

variable {p : Value}

/-- ECDSA P-256 of the platform: importing a raw public key may fail. -/
structure Ecdsa (Key : Type) where
  importKey : Bytes -> Option Key
  verify : Key -> Bytes -> Bytes -> Bool

/-- The client's own parameters and the libraries it calls. -/
structure Environment (Key : Type) where
  platform : Platform
  prim : Primitives
  ecdsa : Ecdsa Key
  session : JsString
  peerId : JsString
  requirePeerAuth : Bool
  boxPriv : FixedBytes 32

def nonceCacheMax : Nat := 1000

def maxFrameAgeMs : Int := 30000

def maxClockSkewMs : Int := 5000

/-!
# Members of a payload
-/

def typeName : JsString := ofText ['t', 'y', 'p', 'e']

def sessionName : JsString := ofText ['s', 'e', 's', 's', 'i', 'o', 'n']

def toName : JsString := ofText ['t', 'o']

def fromName : JsString := ofText ['f', 'r', 'o', 'm']

def nonceName : JsString := ofText ['n', 'o', 'n', 'c', 'e']

def tsName : JsString := ofText ['t', 's']

def sigName : JsString := ofText ['s', 'i', 'g']

def sdpName : JsString := ofText ['s', 'd', 'p']

def candidateName : JsString := ofText ['c', 'a', 'n', 'd', 'i', 'd', 'a', 't', 'e']

def pubKeyName : JsString := ofText ['p', 'u', 'b', 'K', 'e', 'y']

def depositPubKeyName : JsString :=
  ofText ['d', 'e', 'p', 'o', 's', 'i', 't', 'P', 'u', 'b', 'K', 'e', 'y']

def boxPubKeyName : JsString := ofText ['b', 'o', 'x', 'P', 'u', 'b', 'K', 'e', 'y']

def signedPreKeyName : JsString :=
  ofText ['s', 'i', 'g', 'n', 'e', 'd', 'P', 'r', 'e', 'K', 'e', 'y']

def supportsV2Name : JsString :=
  ofText ['s', 'u', 'p', 'p', 'o', 'r', 't', 's', 'V', '2']

def idName : JsString := ofText ['i', 'd']

def pubName : JsString := ofText ['p', 'u', 'b']

def claimedPreKeyName : JsString :=
  ofText ['s', 'i', 'g', 'n', 'e', 'd', '_', 'p', 'r', 'e', 'k', 'e', 'y']

def oneTimePreKeyName : JsString :=
  ofText ['o', 'n', 'e', '_', 't', 'i', 'm', 'e', '_', 'p', 'r', 'e', 'k', 'e', 'y']

def joinType : JsString := ofText ['j', 'o', 'i', 'n']

def offerType : JsString := ofText ['o', 'f', 'f', 'e', 'r']

def answerType : JsString := ofText ['a', 'n', 's', 'w', 'e', 'r']

def iceType : JsString := ofText ['i', 'c', 'e']

def isJoin (p : Value) : Bool :=
  asString (p.get typeName) == some joinType

def isFrame (p : Value) : Bool :=
  asString (p.get typeName) == some offerType || asString (p.get typeName) == some answerType ||
    asString (p.get typeName) == some iceType

def truthyMember (p : Value) (name : JsString) : Option Value :=
  (p.get name).filter fun v => truthy (some v)

/-!
# Signed messages
-/

section Crypto

variable {Key : Type} (env : Environment Key)

def canonical (sender : JsString) (p : Value) : List Char :=
  stringify env.platform.numerals (literalObject
    [(typeName, p.get typeName), (sessionName, p.get sessionName),
      (toName, some (orNull (p.get toName))), (fromName, some (Value.string sender)),
      (nonceName, p.get nonceName), (tsName, p.get tsName), (sdpName, p.get sdpName),
      (candidateName, p.get candidateName), (pubKeyName, p.get pubKeyName)])

def canonicalJoin (sender : JsString) (p : Value) : List Char :=
  stringify env.platform.numerals (literalObject
    [(typeName, some (Value.string joinType)), (sessionName, p.get sessionName),
      (fromName, some (Value.string sender)),
      (depositPubKeyName, some (orNull (p.get depositPubKeyName))),
      (boxPubKeyName, some (orNull (p.get boxPubKeyName))),
      (supportsV2Name, some (Value.bool (truthy (p.get supportsV2Name)))),
      (nonceName, p.get nonceName), (tsName, p.get tsName)])

def importPeerKey (raw : Value) : Option Key :=
  (b64ToBytes env.platform raw).bind env.ecdsa.importKey

def verifyRaw (key : Key) (message : Bytes) (sig : Value) : Bool :=
  match b64ToBytes env.platform sig with
  | some sigBuf => env.ecdsa.verify key sigBuf message
  | none => false

def verifyFrame (key : Key) (message : List Char) (sig : Value) : Bool :=
  verifyRaw env key (Text.utf8 message) sig

end Crypto

/-!
# Registries
-/

/-- A box key, with the join that announced it and the signing key that was stored for its
sender when it was taken. -/
structure BoxKey (Key : Type) where
  raw : Value
  join : Value
  under : Option Key

/-- A signed prekey, with the signing key under which its signature was checked. -/
structure PreKey (Key : Type) where
  id : Option Value
  pub : JsString
  sig : JsString
  under : Key

structure Registry (Key : Type) where
  peerKeys : JsString -> Option Key
  peerBoxKeys : JsString -> Option (BoxKey Key)
  peerSignedPreKeys : JsString -> Option (PreKey Key)
  peerV2Capable : JsString -> Bool
  /-- The oldest entry first. -/
  seenNonces : List JsString

namespace Registry

variable {Key : Type}

def empty : Registry Key where
  peerKeys := fun _ => none
  peerBoxKeys := fun _ => none
  peerSignedPreKeys := fun _ => none
  peerV2Capable := fun _ => false
  seenNonces := []

def setPeerKey (r : Registry Key) (peer : JsString) (key : Key) : Registry Key :=
  { r with peerKeys := Function.update r.peerKeys peer (some key) }

def setPreKey (r : Registry Key) (peer : JsString) (preKey : PreKey Key) : Registry Key :=
  { r with peerSignedPreKeys := Function.update r.peerSignedPreKeys peer (some preKey) }

def pin (r : Registry Key) (peer : JsString) : Registry Key :=
  { r with peerV2Capable := Function.update r.peerV2Capable peer true }

/-- The nonce enters the cache; a full cache gives up its oldest entry. -/
def remember (r : Registry Key) (nonceKey : JsString) : Registry Key :=
  { r with
    seenNonces :=
      (if nonceCacheMax <= r.seenNonces.length then r.seenNonces.drop 1 else r.seenNonces) ++
        [nonceKey] }

end Registry

/-!
# One call of `_processSignal`
-/

/-- The `await` at which a call is suspended. -/
inductive Stage (Key : Type) where
  /-- The import of a join's `depositPubKey`. -/
  | importJoinKey (raw : Value)
  | checkPreKey (preKey : PreKey Key) (pubBytes : Bytes)
  | checkJoin (key : Key)
  /-- The import of a frame's `pubKey`. -/
  | importFrameKey (raw : Value)
  | checkFrame (key : Key)

/-- What a call does after its synchronous part.  A dispatched frame carries the key it was
verified under, if any. -/
inductive Next (Key : Type) where
  | suspend (stage : Stage Key)
  | dispatch (key : Option Key)
  | drop

section Call

variable {Key : Type} (env : Environment Key)

/-- The frame once the key to check it with is known; without one `requirePeerAuth`
decides. -/
def withVerifyKey (p : Value) : Option Key -> Next Key
  | some key =>
      if truthy (p.get sigName) && truthy (p.get nonceName) &&
          (asNumber (p.get tsName)).isSome then
        Next.suspend (Stage.checkFrame key)
      else
        Next.drop
  | none => if env.requirePeerAuth then Next.drop else Next.dispatch none

def checkSender (r : Registry Key) (sender : JsString) (p : Value) : Next Key :=
  if isFrame p then
    match r.peerKeys sender, truthyMember p pubKeyName with
    | some key, _ => withVerifyKey env p (some key)
    | none, some raw => Next.suspend (Stage.importFrameKey raw)
    | none, none => withVerifyKey env p none
  else
    Next.dispatch none

/-- A join that commits to version 2 and carries what its signature covers. -/
def commits (p : Value) : Bool :=
  isJoin p && truthy (p.get sigName) && isTrue (p.get supportsV2Name) &&
    (asString (p.get nonceName)).isSome && (asNumber (p.get tsName)).isSome

def checkCommitment (r : Registry Key) (sender : JsString) (p : Value) : Next Key :=
  match commits p, r.peerKeys sender with
  | true, some key => Next.suspend (Stage.checkJoin key)
  | _, _ => checkSender env r sender p

/-- The announced prekey, when the sender's key is there to check it with and none is
stored yet. -/
def announcedPreKey (r : Registry Key) (sender : JsString) (p : Value) :
    Option (PreKey Key × Bytes) :=
  match isJoin p, truthyMember p signedPreKeyName, r.peerSignedPreKeys sender,
      r.peerKeys sender with
  | true, some spk, none, some key =>
      match asString (spk.get pubName), asString (spk.get sigName) with
      | some pub, some sig =>
          (atob pub).map fun pubBytes => (⟨spk.get idName, pub, sig, key⟩, pubBytes)
      | _, _ => none
  | _, _, _, _ => none

def takePreKey (r : Registry Key) (sender : JsString) (p : Value) : Next Key :=
  match announcedPreKey r sender p with
  | some (preKey, pubBytes) => Next.suspend (Stage.checkPreKey preKey pubBytes)
  | none => checkCommitment env r sender p

def storeBoxKey (r : Registry Key) (sender : JsString) (p : Value) : Registry Key :=
  match isJoin p, truthyMember p boxPubKeyName, r.peerBoxKeys sender with
  | true, some raw, none =>
      { r with
        peerBoxKeys :=
          Function.update r.peerBoxKeys sender (some ⟨raw, p, r.peerKeys sender⟩) }
  | _, _, _ => r

def takeBoxKey (r : Registry Key) (sender : JsString) (p : Value) : Registry Key × Next Key :=
  (storeBoxKey r sender p, takePreKey env (storeBoxKey r sender p) sender p)

/-- Whether the payload is for this session and this peer. -/
def addressed (p : Value) : Bool :=
  truthy (some p) &&
    (!truthy (p.get sessionName) || asString (p.get sessionName) == some env.session) &&
    (!truthy (p.get toName) || asString (p.get toName) == some env.peerId)

/-- `_processSignal` up to its first `await`. -/
def start (r : Registry Key) (sender : JsString) (p : Value) : Registry Key × Next Key :=
  if addressed env p then
    match isJoin p, truthyMember p depositPubKeyName, r.peerKeys sender with
    | true, some raw, none => (r, Next.suspend (Stage.importJoinKey raw))
    | _, _, _ => takeBoxKey env r sender p
  else
    (r, Next.drop)

def fresh (now : Int) : Number -> Bool
  | Number.finite ts => !(decide ((now + maxClockSkewMs : Int) < ts) ||
      decide ((maxFrameAgeMs : Rat) < now - ts))
  | Number.infinite _ => false

def freshMember (now : Int) (p : Value) : Bool :=
  match asNumber (p.get tsName) with
  | some ts => fresh now ts
  | none => false

def nonceKeyOf (sender : JsString) (p : Value) : Option JsString :=
  (templateText env.platform.numerals (p.get nonceName)).map fun nonce =>
    sender ++ 0x3A :: nonce

def joinNonceKeyOf (sender : JsString) (p : Value) : Option JsString :=
  (templateText env.platform.numerals (p.get nonceName)).map fun nonce =>
    joinType ++ 0x3A :: sender ++ 0x3A :: nonce

/-- The registries after a signed join was verified under the key: it is remembered and
its sender is pinned, or nothing happens. -/
def settleCommitment (now : Int) (r : Registry Key) (sender : JsString) (p : Value)
    (key : Key) : Registry Key :=
  match truthyMember p sigName, joinNonceKeyOf env sender p with
  | some sig, some nonceKey =>
      if verifyFrame env key (canonicalJoin env sender p) sig && freshMember now p &&
          !r.seenNonces.contains nonceKey then
        (r.remember nonceKey).pin sender
      else r
  | _, _ => r

/-- The end of a signed frame: it must verify, be fresh and bring a nonce that is not in
the cache.  A nonce that cannot be converted to a string makes the call fail. -/
def settleFrame (now : Int) (r : Registry Key) (sender : JsString) (p : Value) (key : Key) :
    Registry Key × Next Key :=
  match truthyMember p sigName with
  | some sig =>
      if verifyFrame env key (canonical env sender p) sig && freshMember now p then
        match nonceKeyOf env sender p with
        | some nonceKey =>
            if r.seenNonces.contains nonceKey then (r, Next.drop)
            else (r.remember nonceKey, Next.dispatch (some key))
        | none => (r, Next.drop)
      else (r, Next.drop)
  | none => (r, Next.drop)

/-- The rest of the call after the `await`, up to the next one. -/
def resume (now : Int) (r : Registry Key) (sender : JsString) (p : Value) :
    Stage Key -> Registry Key × Next Key
  | Stage.importJoinKey raw =>
      match importPeerKey env raw with
      | some key => takeBoxKey env (r.setPeerKey sender key) sender p
      | none => takeBoxKey env r sender p
  | Stage.checkPreKey preKey pubBytes =>
      if verifyRaw env preKey.under pubBytes (Value.string preKey.sig) then
        let r := (r.setPreKey sender preKey).pin sender
        (r, checkCommitment env r sender p)
      else
        (r, checkCommitment env r sender p)
  | Stage.checkJoin key =>
      let r := settleCommitment env now r sender p key
      (r, checkSender env r sender p)
  | Stage.importFrameKey raw =>
      match importPeerKey env raw with
      | some key => (r.setPeerKey sender key, withVerifyKey env p (some key))
      | none => (r, withVerifyKey env p none)
  | Stage.checkFrame key => settleFrame env now r sender p key

/-- The key under which a signature was found valid when the call was resumed. -/
def verifiedUnder (sender : JsString) (p : Value) : Stage Key -> Option Key
  | Stage.checkPreKey preKey pubBytes =>
      if verifyRaw env preKey.under pubBytes (Value.string preKey.sig) then some preKey.under
      else none
  | Stage.checkJoin key =>
      (truthyMember p sigName).bind fun sig =>
        if verifyFrame env key (canonicalJoin env sender p) sig then some key else none
  | Stage.checkFrame key =>
      (truthyMember p sigName).bind fun sig =>
        if verifyFrame env key (canonical env sender p) sig then some key else none
  | _ => none

end Call

/-!
# Sealing for a peer

`_relayDeposit` and `_sealForPeer` read the registries between their own `await`s, and the
host that serves the claim of a prekey bundle is as untrusted as the server.
-/

structure OneTimePreKey where
  id : JsString
  pub : JsString

/-- What the outside supplies when a call is resumed: the clock, the answer to a claim and
the random bytes. -/
structure Moment where
  now : Int
  claim : Option Value
  nonce : FixedBytes 24
  ephemeral : FixedBytes 32

/-- The `await` at which a deposit is suspended. -/
inductive DepositStage (Key : Type) where
  | preparing
  | ensuring (box : BoxKey Key)
  | claiming (box : BoxKey Key) (preKey : Option (PreKey Key))
  /-- The check of the claimed prekey, which is `none` when it has failed already. -/
  | checkingClaim (box : BoxKey Key) (claim : Value) (preKey : Option (PreKey Key × Bytes))

/-- A sealed payload, with the keys of the recipient that went into it. -/
structure Seal (Key : Type) where
  peer : JsString
  box : BoxKey Key
  preKey : Option (PreKey Key)
  oneTime : Option OneTimePreKey
  blob : JsString

section Sealing

variable {Key : Type} (env : Environment Key)

def oneTimePub : Option OneTimePreKey -> Option (Option Bytes)
  | some opk => (atob opk.pub).map some
  | none => some none

/-- The choice between the two versions at the end of `_sealForPeer`. -/
def sealBlob (m : Moment) (peer : JsString) (plaintext : Bytes) (box : BoxKey Key)
    (oneTime : Option OneTimePreKey) : Option (PreKey Key) -> Option JsString
  | some preKey => do
      let recipientIdentityPub <- b64ToBytes env.platform box.raw
      let signedPreKeyPub <- atob preKey.pub
      let oneTimePreKeyPub <- oneTimePub oneTime
      let (ephemeralPub, sk) <- x3dhInitiate env.platform env.prim m.ephemeral env.boxPriv
        recipientIdentityPub signedPreKeyPub oneTimePreKeyPub env.peerId peer
      sealRelayBlobV2 env.platform env.prim m.nonce plaintext sk ephemeralPub preKey.id
        (oneTime.map OneTimePreKey.id) env.peerId peer env.session
  | none =>
      sealRelayBlob env.platform env.prim m.nonce plaintext env.boxPriv box.raw env.peerId
        peer env.session

/-- The seal of a payload; a pinned peer without a prekey gets none. -/
def sealFor (m : Moment) (r : Registry Key) (peer : JsString) (plaintext : Bytes)
    (box : BoxKey Key) (oneTime : Option OneTimePreKey) (preKey : Option (PreKey Key)) :
    Option (Seal Key) :=
  if preKey.isNone && r.peerV2Capable peer then none
  else
    (sealBlob env m peer plaintext box oneTime preKey).map fun blob =>
      ⟨peer, box, preKey, oneTime, blob⟩

/-- The one-time prekey of the claim, which needs a signed prekey beside it. -/
def claimedOneTime (claim : Value) (preKey : Option (PreKey Key)) : Option OneTimePreKey :=
  match preKey, truthyMember claim oneTimePreKeyName with
  | some _, some c =>
      match asString (c.get idName), asString (c.get pubName) with
      | some id, some pub => some ⟨id, pub⟩
      | _, _ => none
  | _, _ => none

/-- `verifyPeerSignedPreKey` up to its `await`. -/
def claimedPreKey (r : Registry Key) (peer : JsString) (spk : Value) :
    Option (PreKey Key × Bytes) :=
  match r.peerKeys peer, asString (spk.get pubName), asString (spk.get sigName) with
  | some key, some pub, some sig =>
      match atob pub with
      | some pubBytes =>
          if pubBytes.length = x25519Len then
            some (⟨spk.get idName, pub, sig, key⟩, pubBytes)
          else none
      | none => none
  | _, _, _ => none

/-- The claimed prekey, if its signature is valid. -/
def settleClaim : Option (PreKey Key × Bytes) -> Option (PreKey Key)
  | some (preKey, pubBytes) =>
      if verifyRaw env preKey.under pubBytes (Value.string preKey.sig) then some preKey
      else none
  | none => none

end Sealing

/-!
# The machine
-/

inductive Call (Key : Type) where
  | signal (sender : JsString) (p : Value) (stage : Stage Key)
  | deposit (peer : JsString) (plaintext : Bytes) (stage : DepositStage Key)
  /-- `verifyPeerSig` on a relay deposit. -/
  | relayCheck (sender : JsString) (message : List Char) (sig : Value) (key : Key)

/-- A dispatched `signal` event, with the key that its frame was verified under. -/
structure Signal (Key : Type) where
  sender : JsString
  payload : Value
  key : Option Key

structure State (Key : Type) where
  registry : Registry Key
  calls : Nat -> Option (Call Key)
  started : Nat
  /-- The last time that was read. -/
  clock : Int
  signals : List (Signal Key)
  /-- The successful signature checks so far: the peer and the key used. -/
  verified : List (JsString × Key)
  seals : List (Seal Key)

inductive Event where
  | arrive (sender : JsString) (p : Value)
  | deposit (peer : JsString) (plaintext : Bytes)
  | checkDeposit (sender : JsString) (message : List Char) (sig : Value)
  | resume (i : Nat) (m : Moment)

namespace State

variable {Key : Type}

def initial : State Key where
  registry := Registry.empty
  calls := fun _ => none
  started := 0
  clock := 0
  signals := []
  verified := []
  seals := []

/-- A call of its own number; calls that end at once leave no trace. -/
def suspend (s : State Key) (i : Nat) (call : Option (Call Key)) : State Key :=
  { s with calls := Function.update s.calls i call }

/-- What a call of `_processSignal` has done by its next `await`. -/
def conclude (s : State Key) (i : Nat) (sender : JsString) (p : Value) :
    Registry Key × Next Key -> State Key
  | (r, Next.suspend stage) =>
      suspend { s with registry := r } i (some (Call.signal sender p stage))
  | (r, Next.dispatch key) =>
      suspend { s with registry := r, signals := s.signals ++ [⟨sender, p, key⟩] } i none
  | (r, Next.drop) => suspend { s with registry := r } i none

def record (s : State Key) (peer : JsString) (key : Option Key) : State Key :=
  { s with verified := s.verified ++ (key.map fun key => (peer, key)).toList }

def finishDeposit (s : State Key) (i : Nat) (sealed : Option (Seal Key)) : State Key :=
  suspend { s with seals := s.seals ++ sealed.toList } i none

end State

section Machine

variable {Key : Type} (env : Environment Key)

/-- A deposit from one `await` to the next. -/
def resumeDeposit (m : Moment) (s : State Key) (i : Nat) (peer : JsString)
    (plaintext : Bytes) : DepositStage Key -> State Key
  | DepositStage.preparing =>
      s.suspend i ((s.registry.peerBoxKeys peer).map fun box =>
        Call.deposit peer plaintext (DepositStage.ensuring box))
  | DepositStage.ensuring box =>
      s.suspend i (some (Call.deposit peer plaintext
        (DepositStage.claiming box (s.registry.peerSignedPreKeys peer))))
  | DepositStage.claiming box preKey =>
      match m.claim.filter (fun v => truthy (some v)) with
      | none =>
          s.finishDeposit i (sealFor env m s.registry peer plaintext box none preKey)
      | some claim =>
          match preKey, truthyMember claim claimedPreKeyName with
          | none, some spk =>
              s.suspend i (some (Call.deposit peer plaintext
                (DepositStage.checkingClaim box claim (claimedPreKey s.registry peer spk))))
          | preKey, _ =>
              s.finishDeposit i (sealFor env m s.registry peer plaintext box
                (claimedOneTime claim preKey) preKey)
  | DepositStage.checkingClaim box claim check =>
      match settleClaim env check with
      | some preKey =>
          let pinned := { s with registry := s.registry.pin peer }
          (pinned.record peer (some preKey.under)).finishDeposit i
            (sealFor env m pinned.registry peer plaintext box
              (claimedOneTime claim (some preKey)) (some preKey))
      | none =>
          s.finishDeposit i (sealFor env m s.registry peer plaintext box none none)

def resumeCall (m : Moment) (s : State Key) (i : Nat) : Call Key -> State Key
  | Call.signal sender p stage =>
      (s.record sender (verifiedUnder env sender p stage)).conclude i sender p
        (resume env m.now s.registry sender p stage)
  | Call.deposit peer plaintext stage => resumeDeposit env m s i peer plaintext stage
  | Call.relayCheck sender message sig key =>
      (s.record sender (if verifyFrame env key message sig then some key else none)).suspend i
        none

def step (s : State Key) : Event -> State Key
  | Event.arrive sender p =>
      State.conclude { s with started := s.started + 1 } s.started sender p
        (start env s.registry sender p)
  | Event.deposit peer plaintext =>
      State.suspend { s with started := s.started + 1 } s.started
        (some (Call.deposit peer plaintext DepositStage.preparing))
  | Event.checkDeposit sender message sig =>
      State.suspend { s with started := s.started + 1 } s.started
        ((s.registry.peerKeys sender).map fun key => Call.relayCheck sender message sig key)
  | Event.resume i m =>
      match s.calls i with
      | some call => resumeCall env m { s with clock := m.now } i call
      | none => s

end Machine

/-!
# What a call leaves alone
-/

section Frame

variable {Key : Type} {env : Environment Key}

@[simp] theorem storeBoxKey_peerKeys (r : Registry Key) (sender : JsString) (p : Value) :
    (storeBoxKey r sender p).peerKeys = r.peerKeys := by
  rw [storeBoxKey]
  split <;> rfl

@[simp] theorem storeBoxKey_peerSignedPreKeys (r : Registry Key) (sender : JsString)
    (p : Value) : (storeBoxKey r sender p).peerSignedPreKeys = r.peerSignedPreKeys := by
  rw [storeBoxKey]
  split <;> rfl

@[simp] theorem storeBoxKey_seenNonces (r : Registry Key) (sender : JsString) (p : Value) :
    (storeBoxKey r sender p).seenNonces = r.seenNonces := by
  rw [storeBoxKey]
  split <;> rfl

theorem settleCommitment_cases (env : Environment Key) (now : Int) (r : Registry Key)
    (sender : JsString) (p : Value) (key : Key) :
    settleCommitment env now r sender p key = r ∨
      exists nonceKey, settleCommitment env now r sender p key =
        (r.remember nonceKey).pin sender := by
  rw [settleCommitment]
  split
  · split
    · exact Or.inr ⟨_, rfl⟩
    · exact Or.inl rfl
  · exact Or.inl rfl

theorem settleFrame_cases (env : Environment Key) (now : Int) (r : Registry Key)
    (sender : JsString) (p : Value) (key : Key) :
    settleFrame env now r sender p key = (r, Next.drop) ∨
      exists nonceKey, nonceKeyOf env sender p = some nonceKey ∧
        freshMember now p = true ∧ nonceKey ∉ r.seenNonces ∧
        settleFrame env now r sender p key =
          (r.remember nonceKey, Next.dispatch (some key)) := by
  rw [settleFrame]
  split
  · split
    case isTrue hvalid =>
      rw [Bool.and_eq_true] at hvalid
      split
      case h_1 nonceKey hnonce =>
        split
        case isTrue => exact Or.inl rfl
        case isFalse hunseen =>
          rw [List.contains_iff_mem] at hunseen
          exact Or.inr ⟨nonceKey, hnonce, hvalid.2, hunseen, rfl⟩
      case h_2 => exact Or.inl rfl
    case isFalse => exact Or.inl rfl
  · exact Or.inl rfl

theorem not_isFrame_of_isJoin (h : isJoin p = true) : isFrame p = false := by
  rw [isJoin, beq_iff_eq] at h
  rw [isFrame, h]
  rfl

theorem not_isJoin_of_isFrame (h : isFrame p = true) : isJoin p = false := by
  rw [<- Bool.not_eq_true]
  intro hjoin
  rw [not_isFrame_of_isJoin hjoin] at h
  exact nomatch h

/-!
# Where a call is suspended next

Each stage was reached with the registries that the call saw last: an import means that no
key was stored for the sender, a check that the key it uses was.
-/

inductive Reached (r : Registry Key) (sender : JsString) (p : Value) : Stage Key -> Prop where
  | checkPreKey {preKey : PreKey Key} {pubBytes : Bytes}
      (hkey : r.peerKeys sender = some preKey.under) (hpub : atob preKey.pub = some pubBytes) :
      Reached r sender p (Stage.checkPreKey preKey pubBytes)
  | checkJoin {key : Key} (hkey : r.peerKeys sender = some key) :
      Reached r sender p (Stage.checkJoin key)
  | importFrameKey {raw : Value} (hkey : r.peerKeys sender = none) (hframe : isFrame p = true)
      (hraw : truthyMember p pubKeyName = some raw) :
      Reached r sender p (Stage.importFrameKey raw)
  | checkFrame {key : Key} (hkey : r.peerKeys sender = some key) :
      Reached r sender p (Stage.checkFrame key)

variable {r : Registry Key} {stage : Stage Key}

theorem reached_withVerifyKey {sender : JsString} {key : Option Key}
    (hkey : r.peerKeys sender = key) (h : withVerifyKey env p key = Next.suspend stage) :
    Reached r sender p stage := by
  cases key with
  | none =>
      rw [withVerifyKey] at h
      split at h <;> exact nomatch h
  | some key =>
      rw [withVerifyKey] at h
      split at h
      · cases h
        exact Reached.checkFrame hkey
      · exact nomatch h

theorem reached_checkSender {sender : JsString}
    (h : checkSender env r sender p = Next.suspend stage) : Reached r sender p stage := by
  rw [checkSender] at h
  split at h
  case isTrue hframe =>
    split at h
    case h_1 key hkey => exact reached_withVerifyKey hkey h
    case h_2 raw hkey hraw =>
      cases h
      exact Reached.importFrameKey hkey hframe hraw
    case h_3 hkey _ => exact reached_withVerifyKey hkey h
  case isFalse => exact nomatch h

theorem reached_checkCommitment {sender : JsString}
    (h : checkCommitment env r sender p = Next.suspend stage) : Reached r sender p stage := by
  rw [checkCommitment] at h
  split at h
  case h_1 key _ hkey =>
    cases h
    exact Reached.checkJoin hkey
  case h_2 => exact reached_checkSender h

theorem announcedPreKey_eq_some {sender : JsString} {preKey : PreKey Key} {pubBytes : Bytes}
    (h : announcedPreKey r sender p = some (preKey, pubBytes)) :
    r.peerKeys sender = some preKey.under ∧ atob preKey.pub = some pubBytes := by
  rw [announcedPreKey] at h
  split at h
  case h_1 spk key _ _ _ hkey =>
    split at h
    case h_1 pub sig _ _ =>
      rcases Option.map_eq_some_iff.mp h with ⟨bytes, hbytes, hpair⟩
      cases hpair
      exact ⟨hkey, hbytes⟩
    case h_2 => exact nomatch h
  case h_2 => exact nomatch h

theorem reached_takePreKey {sender : JsString}
    (h : takePreKey env r sender p = Next.suspend stage) : Reached r sender p stage := by
  rw [takePreKey] at h
  split at h
  case h_1 preKey pubBytes hannounced =>
    cases h
    have hpreKey := announcedPreKey_eq_some hannounced
    exact Reached.checkPreKey hpreKey.1 hpreKey.2
  case h_2 => exact reached_checkCommitment h

theorem reached_start {sender : JsString} (h : (start env r sender p).2 = Next.suspend stage) :
    addressed env p = true ∧
      ((exists raw, stage = Stage.importJoinKey raw ∧ r.peerKeys sender = none ∧
        isJoin p = true ∧ truthyMember p depositPubKeyName = some raw) ∨
      Reached (start env r sender p).1 sender p stage) := by
  rw [start] at h ⊢
  split
  case isTrue haddressed =>
    rw [if_pos haddressed] at h
    split
    case h_1 raw hjoin hraw hkey =>
      rw [hjoin, hraw, hkey] at h
      cases h
      exact ⟨haddressed, Or.inl ⟨raw, rfl, hkey, hjoin, hraw⟩⟩
    case h_2 hother =>
      split at h
      case h_1 raw hjoin hraw hkey => exact absurd hkey (hother raw hjoin hraw)
      case h_2 => exact ⟨haddressed, Or.inr (reached_takePreKey h)⟩
  case isFalse haddressed =>
    rw [if_neg haddressed] at h
    exact nomatch h

theorem reached_resume {now : Int} {sender : JsString} {next : Stage Key}
    (h : (resume env now r sender p stage).2 = Next.suspend next) :
    Reached (resume env now r sender p stage).1 sender p next := by
  cases stage with
  | importJoinKey raw =>
      simp only [resume] at h ⊢
      split at h <;> exact reached_takePreKey h
  | checkPreKey preKey pubBytes =>
      simp only [resume] at h ⊢
      split
      case isTrue hvalid =>
        rw [if_pos hvalid] at h
        exact reached_checkCommitment h
      case isFalse hvalid =>
        rw [if_neg hvalid] at h
        exact reached_checkCommitment h
  | checkJoin key => exact reached_checkSender h
  | importFrameKey raw =>
      simp only [resume] at h ⊢
      split at h
      case h_1 key _ =>
        change withVerifyKey env p (some key) = Next.suspend next at h
        exact reached_withVerifyKey (Function.update_self sender _ _) h
      case h_2 =>
        simp only [withVerifyKey] at h
        split at h <;> exact nomatch h
  | checkFrame key =>
      rcases settleFrame_cases env now r sender p key with hdrop | ⟨_, _, _, _, hout⟩
      · rw [resume, hdrop] at h
        exact nomatch h
      · rw [resume, hout] at h
        exact nomatch h

/-!
# Signing keys
-/

def Stage.imported (env : Environment Key) : Stage Key -> Option Key
  | Stage.importJoinKey raw => importPeerKey env raw
  | Stage.importFrameKey raw => importPeerKey env raw
  | _ => none

def storeKey (keys : JsString -> Option Key) (peer : JsString) : Option Key ->
    JsString -> Option Key
  | some key => Function.update keys peer (some key)
  | none => keys

theorem start_peerKeys (r : Registry Key) (sender : JsString) (p : Value) :
    (start env r sender p).1.peerKeys = r.peerKeys := by
  rw [start]
  split
  · split
    · rfl
    · exact storeBoxKey_peerKeys r sender p
  · rfl

theorem resume_peerKeys (now : Int) (r : Registry Key) (sender : JsString) (p : Value)
    (stage : Stage Key) :
    (resume env now r sender p stage).1.peerKeys =
      storeKey r.peerKeys sender (stage.imported env) := by
  cases stage with
  | importJoinKey raw =>
      simp only [resume, Stage.imported]
      split
      case h_1 key himport =>
        rw [himport]
        exact storeBoxKey_peerKeys (r.setPeerKey sender key) sender p
      case h_2 himport =>
        rw [himport]
        exact storeBoxKey_peerKeys r sender p
  | checkPreKey preKey pubBytes =>
      simp only [resume]
      split <;> rfl
  | checkJoin key =>
      rcases settleCommitment_cases env now r sender p key with hsame | ⟨nonceKey, hsame⟩
      · simp only [resume, hsame]
        rfl
      · simp only [resume, hsame]
        rfl
  | importFrameKey raw =>
      simp only [resume, Stage.imported]
      split
      case h_1 key himport =>
        rw [himport]
        rfl
      case h_2 himport =>
        rw [himport]
        rfl
  | checkFrame key =>
      rcases settleFrame_cases env now r sender p key with hdrop | ⟨_, _, _, _, hout⟩
      · simp only [resume, hdrop]
        rfl
      · simp only [resume, hout]
        rfl

end Frame

/-!
# What a step does to the suspended calls
-/

section Conclude

variable {Key : Type}

def Next.call (sender : JsString) (p : Value) : Next Key -> Option (Call Key)
  | Next.suspend stage => some (Call.signal sender p stage)
  | _ => none

def Next.signals (sender : JsString) (p : Value) : Next Key -> List (Signal Key)
  | Next.dispatch key => [⟨sender, p, key⟩]
  | _ => []

theorem conclude_eq (s : State Key) (i : Nat) (sender : JsString) (p : Value)
    (out : Registry Key × Next Key) :
    s.conclude i sender p out =
      { s with
        registry := out.1
        calls := Function.update s.calls i (out.2.call sender p)
        signals := s.signals ++ out.2.signals sender p } := by
  rcases out with ⟨r, next⟩
  cases next with
  | dispatch key => rfl
  | suspend stage | drop => simp [State.conclude, State.suspend, Next.call, Next.signals]

theorem step_arrive (env : Environment Key) (s : State Key) (sender : JsString) (p : Value) :
    step env s (Event.arrive sender p) =
      { s with
        registry := (start env s.registry sender p).1
        calls := Function.update s.calls s.started
          ((start env s.registry sender p).2.call sender p)
        started := s.started + 1
        signals := s.signals ++ (start env s.registry sender p).2.signals sender p } :=
  conclude_eq _ _ _ _ _

theorem step_resume_signal (env : Environment Key) {s : State Key} {i : Nat} (m : Moment)
    {sender : JsString} {stage : Stage Key}
    (hcall : s.calls i = some (Call.signal sender p stage)) :
    step env s (Event.resume i m) =
      { s with
        registry := (resume env m.now s.registry sender p stage).1
        calls := Function.update s.calls i
          ((resume env m.now s.registry sender p stage).2.call sender p)
        clock := m.now
        signals := s.signals ++ (resume env m.now s.registry sender p stage).2.signals sender p
        verified := s.verified ++
          ((verifiedUnder env sender p stage).map fun key => (sender, key)).toList } := by
  rw [step, hcall]
  exact conclude_eq _ _ _ _ _

/-- What a deposit does from one `await` to the next: the registries and the suspended call
it leaves, the seal it makes and the key of a valid claim. -/
inductive DepositTurn (env : Environment Key) (m : Moment) (r : Registry Key)
    (peer : JsString) (plaintext : Bytes) :
    DepositStage Key -> Registry Key -> Option (DepositStage Key) -> Option (Seal Key) ->
      Option Key -> Prop where
  | unknown (hbox : r.peerBoxKeys peer = none) :
      DepositTurn env m r peer plaintext DepositStage.preparing r none none none
  | boxed {box : BoxKey Key} (hbox : r.peerBoxKeys peer = some box) :
      DepositTurn env m r peer plaintext DepositStage.preparing r
        (some (DepositStage.ensuring box)) none none
  | ensured (box : BoxKey Key) :
      DepositTurn env m r peer plaintext (DepositStage.ensuring box) r
        (some (DepositStage.claiming box (r.peerSignedPreKeys peer))) none none
  | claimed (box : BoxKey Key) (preKey : Option (PreKey Key))
      (oneTime : Option OneTimePreKey) :
      DepositTurn env m r peer plaintext (DepositStage.claiming box preKey) r none
        (sealFor env m r peer plaintext box oneTime preKey) none
  | checking (box : BoxKey Key) (claim spk : Value) :
      DepositTurn env m r peer plaintext (DepositStage.claiming box none) r
        (some (DepositStage.checkingClaim box claim (claimedPreKey r peer spk))) none none
  | verified {box : BoxKey Key} {claim : Value} {preKey : PreKey Key} {pubBytes : Bytes}
      (hvalid : verifyRaw env preKey.under pubBytes (Value.string preKey.sig) = true)
      (oneTime : Option OneTimePreKey) :
      DepositTurn env m r peer plaintext
        (DepositStage.checkingClaim box claim (some (preKey, pubBytes))) (r.pin peer) none
        (sealFor env m (r.pin peer) peer plaintext box oneTime (some preKey))
        (some preKey.under)
  | refused (box : BoxKey Key) (claim : Value) (check : Option (PreKey Key × Bytes)) :
      DepositTurn env m r peer plaintext (DepositStage.checkingClaim box claim check) r none
        (sealFor env m r peer plaintext box none none) none

theorem settleClaim_eq_some {env : Environment Key} {check : Option (PreKey Key × Bytes)}
    {preKey : PreKey Key} (h : settleClaim env check = some preKey) :
    exists pubBytes, check = some (preKey, pubBytes) ∧
      verifyRaw env preKey.under pubBytes (Value.string preKey.sig) = true := by
  rcases check with _ | ⟨claimed, pubBytes⟩
  · exact nomatch h
  · rw [settleClaim] at h
    split at h
    case isTrue hvalid =>
      cases h
      exact ⟨pubBytes, rfl, hvalid⟩
    case isFalse => exact nomatch h

theorem depositTurn (env : Environment Key) (m : Moment) (s : State Key) (i : Nat)
    (peer : JsString) (plaintext : Bytes) (stage : DepositStage Key) :
    exists r next sealed key, DepositTurn env m s.registry peer plaintext stage r next sealed key ∧
      resumeDeposit env m s i peer plaintext stage =
        { s with
          registry := r
          calls := Function.update s.calls i (next.map (Call.deposit peer plaintext))
          seals := s.seals ++ sealed.toList
          verified := s.verified ++ (key.map fun key => (peer, key)).toList } := by
  cases stage with
  | preparing =>
      cases hbox : s.registry.peerBoxKeys peer with
      | none =>
          refine ⟨_, _, _, _, DepositTurn.unknown hbox, ?_⟩
          simp [resumeDeposit, hbox, State.suspend]
      | some box =>
          refine ⟨_, _, _, _, DepositTurn.boxed hbox, ?_⟩
          simp [resumeDeposit, hbox, State.suspend]
  | ensuring box =>
      refine ⟨_, _, _, _, DepositTurn.ensured box, ?_⟩
      simp [resumeDeposit, State.suspend]
  | claiming box preKey =>
      rw [resumeDeposit]
      split
      case h_1 =>
        refine ⟨_, _, _, _, DepositTurn.claimed box preKey none, ?_⟩
        simp [State.finishDeposit, State.suspend]
      case h_2 claim _ =>
        cases preKey with
        | some preKey =>
            refine ⟨_, _, _, _,
              DepositTurn.claimed box _ (claimedOneTime claim (some preKey)), ?_⟩
            simp [State.finishDeposit, State.suspend]
        | none =>
            cases truthyMember claim claimedPreKeyName with
            | some spk =>
                refine ⟨_, _, _, _, DepositTurn.checking box claim spk, ?_⟩
                simp [State.suspend]
            | none =>
                refine ⟨_, _, _, _,
                  DepositTurn.claimed box none
                    (claimedOneTime claim (none : Option (PreKey Key))), ?_⟩
                simp [State.finishDeposit, State.suspend]
  | checkingClaim box claim check =>
      rw [resumeDeposit]
      split
      case h_1 preKey hsettle =>
        rcases settleClaim_eq_some hsettle with ⟨pubBytes, rfl, hvalid⟩
        refine ⟨_, _, _, _,
          DepositTurn.verified hvalid (claimedOneTime claim (some preKey)), ?_⟩
        simp [State.finishDeposit, State.suspend, State.record]
      case h_2 =>
        refine ⟨_, _, _, _, DepositTurn.refused box claim check, ?_⟩
        simp [State.finishDeposit, State.suspend]

theorem claimedPreKey_eq_some {r : Registry Key} {peer : JsString} {spk : Value}
    {preKey : PreKey Key} {pubBytes : Bytes}
    (h : claimedPreKey r peer spk = some (preKey, pubBytes)) :
    r.peerKeys peer = some preKey.under ∧ atob preKey.pub = some pubBytes := by
  rw [claimedPreKey] at h
  split at h
  case h_1 key pub sig hkey _ _ =>
    split at h
    case h_1 bytes hbytes =>
      split at h
      · cases h
        exact ⟨hkey, hbytes⟩
      · exact nomatch h
    case h_2 => exact nomatch h
  case h_2 => exact nomatch h

theorem step_resume_deposit (env : Environment Key) {s : State Key} {i : Nat} (m : Moment)
    {peer : JsString} {plaintext : Bytes} {stage : DepositStage Key}
    (hcall : s.calls i = some (Call.deposit peer plaintext stage)) :
    exists r next sealed key, DepositTurn env m s.registry peer plaintext stage r next sealed key ∧
      step env s (Event.resume i m) =
        { s with
          registry := r
          calls := Function.update s.calls i (next.map (Call.deposit peer plaintext))
          clock := m.now
          seals := s.seals ++ sealed.toList
          verified := s.verified ++ (key.map fun key => (peer, key)).toList } := by
  rcases depositTurn env m { s with clock := m.now } i peer plaintext stage with
    ⟨r, next, sealed, key, hturn, hresume⟩
  refine ⟨r, next, sealed, key, hturn, ?_⟩
  rw [step, hcall]
  exact hresume

theorem step_resume_relayCheck (env : Environment Key) {s : State Key} {i : Nat} (m : Moment)
    {sender : JsString} {message : List Char} {sig : Value} {key : Key}
    (hcall : s.calls i = some (Call.relayCheck sender message sig key)) :
    step env s (Event.resume i m) =
      { s with
        calls := Function.update s.calls i none
        clock := m.now
        verified := s.verified ++
          ((if verifyFrame env key message sig then some key else none).map
            fun key => (sender, key)).toList } := by
  rw [step, hcall]
  rfl

end Conclude

/-!
# A small environment

Signing keys are raw points of the curve, and a signature shows the key and the message.
-/

def samplePoint : Bytes :=
  (@FixedBytes.ofNat 65 (0x04 <<< 512 +
    0x6b17d1f2e12c4247f8bce6e563a440f277037d812deb33a0f4a13945d898c296 <<< 256 +
    0x4fe342e2fe1a7f9b8ee7eb4a7c0f9e162bce33576b315ececbb6406837bf51f5)).toBytes

def otherPoint : Bytes :=
  (@FixedBytes.ofNat 65 (0x04 <<< 512 +
    0x7cf27b188d034f7e8a52380304b51ac3c08969e277f21b35a60b48fc47669978 <<< 256 +
    0x07775510db8ed040293d9ac69f7430dbba7dade63ce982299e04b79d227873d1)).toBytes

def sampleEcdsa : Ecdsa Bytes where
  importKey := fun raw => if raw.length = 65 ∧ raw.head? = some 0x04 then some raw else none
  verify := fun key sig message => sig == key ++ message

def sampleSign (key : Bytes) (message : List Char) : Value :=
  Value.string (btoa (key ++ Text.utf8 message))

def sampleEnvironment (requirePeerAuth : Bool) : Environment Bytes where
  platform := samplePlatform
  prim := samplePrimitives
  ecdsa := sampleEcdsa
  session := ofText ['r']
  peerId := ofText ['m']
  requirePeerAuth := requirePeerAuth
  boxPriv := FixedBytes.zero 32

def sampleMoment (now : Int) : Moment where
  now := now
  claim := none
  nonce := FixedBytes.zero 24
  ephemeral := FixedBytes.zero 32

def signedFrame (env : Environment Bytes) (key : Bytes) (sender : JsString)
    (members : List (JsString × Value)) : Value :=
  Value.object (members ++
    [(sigName, sampleSign key (canonical env sender (Value.object members)))])

def samplePeer : JsString := ofText ['p']

def keyedJoin (key : Bytes) : Value :=
  Value.object
    [(typeName, Value.string joinType), (depositPubKeyName, Value.string (btoa key))]

end Signaling
end Client
end Ephor
