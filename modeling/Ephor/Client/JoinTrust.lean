import Mathlib.Algebra.Order.BigOperators.Group.List
import Ephor.Client.Relay

/-!
# Joins that do not verify

The box key of a join is stored before its signature is checked, and the check decides about
nothing but the pin.  Where each first box key comes with a join that verifies, no tampered
join is used, and what is sealed for an honest peer goes to keys of its own.
-/

namespace Ephor
namespace Client
namespace Signaling

open Foundation
open Foundation.WebText
open Foundation.Json
open Foundation.Transition
open RelayBox
open Relay (sigMsg)

variable {Key : Type}

/-- A join that carries a signature and the commitment to version 2. -/
def committed (p : Value) : Bool :=
  truthy (p.get sigName) && isTrue (p.get supportsV2Name)

/-- Whether the signature of a join is valid under the key stored for its sender. -/
def joinVerifies (env : Environment Key) (sender : JsString) (p : Value) : Option Key -> Bool
  | some key =>
      match truthyMember p sigName with
      | some sig => verifyFrame env key (canonicalJoin env sender p) sig
      | none => false
  | none => false

/-- The payload was sealed with the box key of a join whose signature is not valid. -/
def Seal.Tampered (env : Environment Key) (sealed : Seal Key) : Prop :=
  committed sealed.box.join = true ∧
    joinVerifies env sealed.peer sealed.box.join sealed.box.under = false

/-!
# Honest peers
-/

/-- An honest peer: its id, its signing key and the private keys that it generated. -/
structure Holder (Key : Type) where
  id : JsString
  key : Key
  boxPriv : FixedBytes 32
  preKeyPrivs : List (FixedBytes 32)

namespace Holder

def boxPubKey (env : Environment Key) (h : Holder Key) : JsString :=
  bytesToB64 (env.prim.getPublicKey h.boxPriv).toBytes

/-- All that the client of an honest peer signs: its joins, which carry its own box key, its
frames, its deposits and its prekeys. -/
inductive Signed (env : Environment Key) (h : Holder Key) : Bytes -> Prop where
  | join {p : Value} {session deposit : JsString}
      (hsession : p.get sessionName = some (Value.string session))
      (hdeposit : p.get depositPubKeyName = some (Value.string deposit))
      (hbox : p.get boxPubKeyName = some (Value.string (h.boxPubKey env))) :
      Signed env h (Text.utf8 (canonicalJoin env h.id p))
  | frame {p : Value} {kind session : JsString}
      (htype : p.get typeName = some (Value.string kind))
      (hsession : p.get sessionName = some (Value.string session)) :
      Signed env h (Text.utf8 (canonical env h.id p))
  | deposit (recipient nonce blobB64 epk : JsString) :
      Signed env h (Text.utf8 (sigMsg env.platform recipient (some (Value.string h.id))
        (some (Value.string nonce)) blobB64 (Value.string epk)))
  | preKey {priv : FixedBytes 32} (hpriv : priv ∈ h.preKeyPrivs) :
      Signed env h (env.prim.getPublicKey priv).toBytes

/-- The recipient's keys that went into the seal are public keys of the peer. -/
structure Owns (env : Environment Key) (h : Holder Key) (sealed : Seal Key) : Prop where
  box : b64ToBytes env.platform sealed.box.raw =
    some (env.prim.getPublicKey h.boxPriv).toBytes
  preKey : forall preKey, sealed.preKey = some preKey ->
    exists priv, priv ∈ h.preKeyPrivs ∧
      atob preKey.pub = some (env.prim.getPublicKey priv).toBytes

def Genuine (h : Holder Key) (s : State Key) : Prop :=
  forall key, s.registry.peerKeys h.id = some key -> key = h.key

end Holder

/-!
# What a signed text says
-/

def joinMembers (sender : JsString) (p : Value) : List (JsString × Option Value) :=
  [(sessionName, p.get sessionName), (fromName, some (Value.string sender)),
    (depositPubKeyName, some (orNull (p.get depositPubKeyName))),
    (boxPubKeyName, some (orNull (p.get boxPubKeyName))),
    (supportsV2Name, some (Value.bool (truthy (p.get supportsV2Name)))),
    (nonceName, p.get nonceName), (tsName, p.get tsName)]

def written (members : List (JsString × Option Value)) : List (JsString × Value) :=
  members.filterMap fun member => member.2.map fun v => (member.1, v)

theorem written_some (name : JsString) (v : Value) (rest : List (JsString × Option Value)) :
    written ((name, some v) :: rest) = (name, v) :: written rest :=
  rfl

theorem written_none (name : JsString) (rest : List (JsString × Option Value)) :
    written ((name, none) :: rest) = written rest :=
  rfl

theorem canonicalJoin_eq (env : Environment Key) (sender : JsString) (p : Value) :
    canonicalJoin env sender p = '{' :: (quote typeName ++ ':' :: (quote joinType ++
      tailText env.platform.numerals (written (joinMembers sender p)))) :=
  stringify_object _ _ _ _

variable {sender peer : JsString} {p : Value} {box : BoxKey Key} {r : Registry Key}
    {stage : Stage Key} {s : State Key} {plaintext : Bytes}

theorem boxPubKey_of_canonicalJoin_eq {env : Environment Key} {q : Value}
    {session deposit box : JsString} (hsession : q.get sessionName = some (Value.string session))
    (hdeposit : q.get depositPubKeyName = some (Value.string deposit))
    (hbox : q.get boxPubKeyName = some (Value.string box))
    (h : canonicalJoin env sender p = canonicalJoin env sender q) :
    orNull (p.get boxPubKeyName) = Value.string box := by
  rw [canonicalJoin_eq, canonicalJoin_eq] at h
  have htail := List.append_cancel_left (List.cons.inj (List.append_cancel_left
    (List.cons.inj h).2)).2
  rw [joinMembers, joinMembers, hsession, hdeposit, hbox, orNull, orNull, written_some,
    written_some, written_some, written_some] at htail
  cases hmember : p.get sessionName with
  | none =>
      rw [hmember, written_none, written_some] at htail
      exact absurd (tailText_name_inj htail) (by decide)
  | some v =>
      rw [hmember, written_some, written_some, written_some, written_some] at htail
      have hfrom := (tailText_string_inj htail).2.2
      have hdepositTail := (tailText_string_inj hfrom).2.2
      have hboxTail := (tailText_string_inj hdepositTail).2.2
      exact (tailText_string_inj hboxTail).2.1

theorem canonicalJoin_ne_canonical {env : Environment Key} {q : Value} {kind session : JsString}
    (htype : q.get typeName = some (Value.string kind))
    (hsession : q.get sessionName = some (Value.string session)) :
    canonicalJoin env sender p ≠ canonical env sender q := by
  intro h
  have hframe : canonical env sender q = '{' :: (quote typeName ++ ':' :: (quote kind ++
      tailText env.platform.numerals (written
        [(sessionName, q.get sessionName), (toName, some (orNull (q.get toName))),
          (fromName, some (Value.string sender)), (nonceName, q.get nonceName),
          (tsName, q.get tsName), (sdpName, q.get sdpName),
          (candidateName, q.get candidateName), (pubKeyName, q.get pubKeyName)]))) := by
    rw [canonical, htype]
    exact stringify_object _ _ _ _
  rw [canonicalJoin_eq, hframe] at h
  have htail := (quote_append_inj (List.cons.inj (List.append_cancel_left
    (List.cons.inj h).2)).2).2
  rw [joinMembers, hsession, written_some, written_some] at htail
  cases hmember : p.get sessionName with
  | none =>
      rw [hmember, written_none, written_some] at htail
      exact absurd (tailText_name_inj htail) (by decide)
  | some v =>
      rw [hmember, written_some, written_some] at htail
      exact absurd (tailText_name_inj (tailText_string_inj htail).2.2) (by decide)

theorem canonicalJoin_ne_sigMsg {env : Environment Key} {recipient blobB64 : JsString}
    {from' nonce : Option Value} {epk : Value} :
    canonicalJoin env sender p ≠ sigMsg env.platform recipient from' nonce blobB64 epk := by
  intro h
  have hdeposit : sigMsg env.platform recipient from' nonce blobB64 epk =
      '{' :: (quote toName ++ ':' :: (quote recipient ++
        tailText env.platform.numerals (written
          [(fromName, from'), (nonceName, nonce), (Relay.blobName, some (Value.string blobB64)),
            (Relay.epkName, some epk)]))) :=
    stringify_object _ _ _ _
  rw [canonicalJoin_eq, hdeposit] at h
  exact absurd (quote_colon_inj (List.cons.inj h).2).1 (by decide)

/-!
# Signed texts are longer than keys
-/

theorem length_le_utf8 (text : List Char) : text.length <= (Text.utf8 text).length := by
  induction text with
  | nil => exact Nat.le_refl _
  | cons c text ih =>
      have hpos : 0 < (String.utf8EncodeChar c).length := by
        rw [String.length_utf8EncodeChar]
        exact Char.utf8Size_pos c
      rw [Text.utf8, List.flatMap_cons, List.length_append, List.length_cons, Nat.add_comm]
      exact Nat.add_le_add hpos ih

/-- The names of an object's members, with what surrounds them. -/
def namesLength (members : List (JsString × Value)) : Nat :=
  (members.map fun member => (quote member.1).length + 2).sum

theorem namesLength_lt (numerals : Numerals) (members : List (JsString × Value)) :
    namesLength members < (stringify numerals (Value.object members)).length := by
  have htail : forall rest : List (JsString × Value),
      namesLength rest < (tailText numerals rest).length := by
    intro rest
    induction rest with
    | nil => exact Nat.zero_lt_one
    | cons first rest ih =>
        rw [namesLength, List.map_cons, List.sum_cons, <- namesLength, tailText_cons]
        simp only [List.length_cons, List.length_append]
        omega
  cases members with
  | nil => exact Nat.zero_lt_two
  | cons first rest =>
      have hrest := htail rest
      rw [namesLength, List.map_cons, List.sum_cons, <- namesLength, stringify_object]
      simp only [List.length_cons, List.length_append]
      omega

theorem length_ne_of_names {numerals : Numerals} (members : List (JsString × Value))
    {all : List (JsString × Value)} (hmembers : members.Sublist all) (h : 32 <= namesLength members) :
    (Text.utf8 (stringify numerals (Value.object all))).length ≠ 32 := by
  have hlt := namesLength_lt numerals all
  have hle := length_le_utf8 (stringify numerals (Value.object all))
  have hsum : namesLength members <= namesLength all :=
    (hmembers.map _).sum_le_sum fun _ _ => Nat.zero_le _
  omega

theorem length_canonicalJoin (env : Environment Key) (sender : JsString) (p : Value) :
    (Text.utf8 (canonicalJoin env sender p)).length ≠ 32 := by
  apply length_ne_of_names [(typeName, Value.string joinType),
    (fromName, Value.string sender), (depositPubKeyName, orNull (p.get depositPubKeyName))]
  · cases p.get sessionName with
    | none => exact List.sublist_append_left _ _
    | some v => exact ((List.sublist_append_left _ _).cons (sessionName, v)).cons_cons _
  · simp only [namesLength, List.map_cons, List.map_nil]
    decide

namespace Holder

variable {env : Environment Key} {h : Holder Key}

theorem boxPubKey_of_signed (hsigned : h.Signed env (Text.utf8 (canonicalJoin env h.id p))) :
    orNull (p.get boxPubKeyName) = Value.string (h.boxPubKey env) := by
  generalize htext : Text.utf8 (canonicalJoin env h.id p) = text at hsigned
  cases hsigned with
  | join hsession hdeposit hbox =>
      exact boxPubKey_of_canonicalJoin_eq hsession hdeposit hbox (Text.utf8_injective htext)
  | frame htype hsession =>
      exact absurd (Text.utf8_injective htext) (canonicalJoin_ne_canonical htype hsession)
  | deposit recipient nonce blobB64 epk =>
      exact absurd (Text.utf8_injective htext) canonicalJoin_ne_sigMsg
  | preKey hpriv =>
      have hlength := congrArg List.length htext
      rw [FixedBytes.length_eq] at hlength
      exact absurd hlength (length_canonicalJoin env h.id p)

theorem preKey_of_signed {text : Bytes} (hsigned : h.Signed env text) (hlength : text.length = 32) :
    exists priv, priv ∈ h.preKeyPrivs ∧ text = (env.prim.getPublicKey priv).toBytes := by
  cases hsigned with
  | join hsession hdeposit hbox => exact absurd hlength (length_canonicalJoin env h.id _)
  | @frame p kind session htype hsession =>
      rw [canonical, htype, hsession] at hlength
      refine absurd hlength (length_ne_of_names [(typeName, Value.string kind),
        (sessionName, Value.string session), (toName, orNull (p.get toName)),
        (fromName, Value.string h.id)] (List.sublist_append_left _ _) ?_)
      simp only [namesLength, List.map_cons, List.map_nil]
      decide
  | deposit recipient nonce blobB64 epk =>
      refine absurd hlength (length_ne_of_names [(toName, Value.string recipient),
        (fromName, Value.string h.id), (nonceName, Value.string nonce),
        (Relay.blobName, Value.string blobB64)] (List.sublist_append_left _ _) ?_)
      simp only [namesLength, List.map_cons, List.map_nil]
      decide
  | @preKey priv hpriv => exact ⟨priv, hpriv, rfl⟩

end Holder

/-!
# The joins that bring box keys
-/

/-- The join waits for the import of its key before anything else. -/
def importsFirst (r : Registry Key) (sender : JsString) (p : Value) : Bool :=
  isJoin p && (truthyMember p depositPubKeyName).isSome && (r.peerKeys sender).isNone

/-- The join carries a box key, and its sender has none yet. -/
def bringsBoxKey (r : Registry Key) (sender : JsString) (p : Value) : Bool :=
  isJoin p && (truthyMember p boxPubKeyName).isSome && (r.peerBoxKeys sender).isNone

/-- A join that commits to version 2, or is to be one of the peer, verifies. -/
def VerifiedFor (env : Environment Key) (h : Holder Key) (sender : JsString) (p : Value)
    (key : Option Key) : Prop :=
  committed p = true ∨ sender = h.id -> joinVerifies env sender p key = true

/-- A call whose import is about to end: its key counts if it can be imported. -/
def Call.JoinVerifies (env : Environment Key) (h : Holder Key) (r : Registry Key) :
    Call Key -> Prop
  | Call.signal sender p (Stage.importJoinKey raw) =>
      bringsBoxKey r sender p = true ->
        VerifiedFor env h sender p ((importPeerKey env raw).or (r.peerKeys sender))
  | _ => True

/-- The join of a first box key verifies under the key that is stored for its sender then. -/
def JoinsVerify (env : Environment Key) (h : Holder Key) (s : State Key) : Event -> Prop
  | Event.arrive sender p =>
      addressed env p = true -> importsFirst s.registry sender p = false ->
        bringsBoxKey s.registry sender p = true ->
          VerifiedFor env h sender p (s.registry.peerKeys sender)
  | Event.resume i _ =>
      forall call, call ∈ s.calls i -> call.JoinVerifies env h s.registry
  | _ => True

theorem storeBoxKey_cases (r : Registry Key) (sender : JsString) (p : Value) :
    storeBoxKey r sender p = r ∨
      exists raw, bringsBoxKey r sender p = true ∧ truthyMember p boxPubKeyName = some raw ∧
        storeBoxKey r sender p =
          { r with
            peerBoxKeys :=
              Function.update r.peerBoxKeys sender (some ⟨raw, p, r.peerKeys sender⟩) } := by
  rw [storeBoxKey]
  split
  case h_1 raw hjoin hraw hnone =>
    refine Or.inr ⟨raw, ?_, hraw, rfl⟩
    rw [bringsBoxKey, hjoin, hraw, hnone]
    rfl
  case h_2 => exact Or.inl rfl

/-- A box key that is stored after a call is an old one or the one of its join, taken under
the key that is stored for the sender then. -/
inductive BoxKeyFrom (r : Registry Key) (sender : JsString) (p : Value)
    (key : Option Key) : JsString -> BoxKey Key -> Prop where
  | old {peer : JsString} {box : BoxKey Key} (hbox : r.peerBoxKeys peer = some box) :
      BoxKeyFrom r sender p key peer box
  | new {raw : Value} (hbrings : bringsBoxKey r sender p = true)
      (hraw : truthyMember p boxPubKeyName = some raw) :
      BoxKeyFrom r sender p key sender ⟨raw, p, key⟩

theorem boxKeyFrom_store (h : (storeBoxKey r sender p).peerBoxKeys peer = some box) :
    BoxKeyFrom r sender p (r.peerKeys sender) peer box := by
  rcases storeBoxKey_cases r sender p with hsame | ⟨raw, hbrings, hraw, hstored⟩
  · rw [hsame] at h
    exact BoxKeyFrom.old h
  · rw [hstored] at h
    by_cases hpeer : peer = sender
    · rw [hpeer] at h ⊢
      simp only [Function.update_self] at h
      cases h
      exact BoxKeyFrom.new hbrings hraw
    · simp only [Function.update_of_ne hpeer] at h
      exact BoxKeyFrom.old h

theorem boxKeyFrom_start {env : Environment Key}
    (h : (start env r sender p).1.peerBoxKeys peer = some box) :
    r.peerBoxKeys peer = some box ∨
      (addressed env p = true ∧ importsFirst r sender p = false ∧
        BoxKeyFrom r sender p (r.peerKeys sender) peer box) := by
  rw [start] at h
  split at h
  case isTrue haddressed =>
    split at h
    case h_1 => exact Or.inl h
    case h_2 hother =>
      refine Or.inr ⟨haddressed, ?_, boxKeyFrom_store h⟩
      rw [<- Bool.not_eq_true]
      intro hfirst
      simp only [importsFirst, Bool.and_eq_true, Option.isSome_iff_exists,
        Option.isNone_iff_eq_none] at hfirst
      rcases hfirst with ⟨⟨hjoin, raw, hraw⟩, hkey⟩
      exact hother raw hjoin hraw hkey
  case isFalse => exact Or.inl h

theorem resume_keeps (env : Environment Key) (now : Int) (r : Registry Key) (sender : JsString)
    (p : Value) (stage : Stage Key) :
    (exists raw, stage = Stage.importJoinKey raw) ∨
      (exists preKey pubBytes, stage = Stage.checkPreKey preKey pubBytes) ∨
      ((resume env now r sender p stage).1.peerBoxKeys = r.peerBoxKeys ∧
        (resume env now r sender p stage).1.peerSignedPreKeys = r.peerSignedPreKeys) := by
  cases stage with
  | importJoinKey raw => exact Or.inl ⟨raw, rfl⟩
  | checkPreKey preKey pubBytes => exact Or.inr (Or.inl ⟨preKey, pubBytes, rfl⟩)
  | checkJoin key =>
      apply Or.inr
      apply Or.inr
      rcases settleCommitment_cases env now r sender p key with hsame | ⟨nonceKey, hsame⟩
      · rw [resume, hsame]
        exact ⟨rfl, rfl⟩
      · rw [resume, hsame]
        exact ⟨rfl, rfl⟩
  | importFrameKey raw =>
      apply Or.inr
      apply Or.inr
      simp only [resume]
      split <;> exact ⟨rfl, rfl⟩
  | checkFrame key =>
      apply Or.inr
      apply Or.inr
      rcases settleFrame_cases env now r sender p key with hdrop | ⟨_, _, _, _, hout⟩
      · rw [resume, hdrop]
        exact ⟨rfl, rfl⟩
      · rw [resume, hout]
        exact ⟨rfl, rfl⟩

theorem boxKeyFrom_resume {env : Environment Key} {now : Int}
    (h : (resume env now r sender p stage).1.peerBoxKeys peer = some box) :
    r.peerBoxKeys peer = some box ∨ exists raw, stage = Stage.importJoinKey raw ∧
      BoxKeyFrom r sender p ((importPeerKey env raw).or (r.peerKeys sender)) peer box := by
  rcases resume_keeps env now r sender p stage with
    ⟨raw, hraw⟩ | ⟨preKey, pubBytes, hcheck⟩ | ⟨hkept, _⟩
  · subst hraw
    refine Or.inr ⟨raw, rfl, ?_⟩
    simp only [resume] at h
    split at h
    case h_1 key himport =>
      have hkey : (r.setPeerKey sender key).peerKeys sender = some key :=
        Function.update_self sender _ _
      have hfrom := boxKeyFrom_store h
      rw [hkey] at hfrom
      rw [himport]
      cases hfrom with
      | old hbox => exact BoxKeyFrom.old hbox
      | new hbrings hraw => exact BoxKeyFrom.new hbrings hraw
    case h_2 himport =>
      rw [himport]
      exact boxKeyFrom_store h
  · subst hcheck
    simp only [resume] at h
    split at h <;> exact Or.inl h
  · rw [hkept] at h
    exact Or.inl h

/-!
# Stored prekeys
-/

def PreKey.Trusted (env : Environment Key) (h : Holder Key) (preKey : PreKey Key) : Prop :=
  preKey.under = h.key ∧ exists pubBytes, atob preKey.pub = some pubBytes ∧
    verifyRaw env h.key pubBytes (Value.string preKey.sig) = true

theorem start_peerSignedPreKeys (env : Environment Key) (r : Registry Key) (sender : JsString)
    (p : Value) : (start env r sender p).1.peerSignedPreKeys = r.peerSignedPreKeys := by
  rw [start]
  split
  · split
    · rfl
    · exact storeBoxKey_peerSignedPreKeys r sender p
  · rfl

theorem preKey_of_resume {env : Environment Key} {now : Int} {preKey : PreKey Key}
    (h : (resume env now r sender p stage).1.peerSignedPreKeys peer = some preKey) :
    r.peerSignedPreKeys peer = some preKey ∨
      exists pubBytes, peer = sender ∧ stage = Stage.checkPreKey preKey pubBytes ∧
        verifyRaw env preKey.under pubBytes (Value.string preKey.sig) = true := by
  rcases resume_keeps env now r sender p stage with
    ⟨raw, hraw⟩ | ⟨checked, pubBytes, hcheck⟩ | ⟨_, hkept⟩
  · subst hraw
    simp only [resume] at h
    split at h
    all_goals
      rw [takeBoxKey] at h
      simp only [storeBoxKey_peerSignedPreKeys] at h
      exact Or.inl h
  · subst hcheck
    simp only [resume] at h
    split at h
    case isTrue hvalid =>
      by_cases hpeer : peer = sender
      · rw [hpeer] at h
        simp only [Registry.pin, Registry.setPreKey, Function.update_self] at h
        cases h
        exact Or.inr ⟨pubBytes, hpeer, rfl, hvalid⟩
      · simp only [Registry.pin, Registry.setPreKey, Function.update_of_ne hpeer] at h
        exact Or.inl h
    case isFalse => exact Or.inl h
  · rw [hkept] at h
    exact Or.inl h

/-!
# The invariant
-/

/-- A stored box key comes from a join that verified, where that is asked for. -/
structure BoxKey.Trusted (env : Environment Key) (h : Holder Key) (peer : JsString)
    (box : BoxKey Key) : Prop where
  raw : truthyMember box.join boxPubKeyName = some box.raw
  verified : VerifiedFor env h peer box.join box.under
  genuine : peer = h.id -> forall key, box.under = some key -> key = h.key

/-- A prekey that waits for its check, which is made with the peer's own key. -/
def PreKey.Waiting (h : Holder Key) (preKey : PreKey Key) (pubBytes : Bytes) : Prop :=
  preKey.under = h.key ∧ atob preKey.pub = some pubBytes

def DepositStage.Trusted (env : Environment Key) (h : Holder Key) (peer : JsString) :
    DepositStage Key -> Prop
  | DepositStage.preparing => True
  | DepositStage.ensuring box => box.Trusted env h peer
  | DepositStage.claiming box preKey =>
      box.Trusted env h peer ∧ (peer = h.id -> forall found, preKey = some found ->
        found.Trusted env h)
  | DepositStage.checkingClaim box _ check =>
      box.Trusted env h peer ∧ (peer = h.id -> forall preKey pubBytes,
        check = some (preKey, pubBytes) -> preKey.Waiting h pubBytes)

def Call.Trusted (env : Environment Key) (h : Holder Key) : Call Key -> Prop
  | Call.signal sender _ (Stage.checkPreKey preKey pubBytes) =>
      sender = h.id -> preKey.Waiting h pubBytes
  | Call.deposit peer _ stage => stage.Trusted env h peer
  | _ => True

structure Seal.Trusted (env : Environment Key) (h : Holder Key) (sealed : Seal Key) : Prop where
  box : sealed.box.Trusted env h sealed.peer
  preKey : sealed.peer = h.id -> forall preKey, sealed.preKey = some preKey ->
    preKey.Trusted env h
  blob : exists m plaintext, sealBlob env m sealed.peer plaintext sealed.box sealed.oneTime
    sealed.preKey = some sealed.blob

structure AllTrusted (env : Environment Key) (h : Holder Key) (s : State Key) : Prop where
  genuine : h.Genuine s
  boxes : forall peer box, s.registry.peerBoxKeys peer = some box -> box.Trusted env h peer
  preKeys : forall preKey, s.registry.peerSignedPreKeys h.id = some preKey ->
    preKey.Trusted env h
  calls : forall i call, s.calls i = some call -> call.Trusted env h
  seals : forall sealed, sealed ∈ s.seals -> sealed.Trusted env h

theorem allTrusted_initial (env : Environment Key) (h : Holder Key) :
    AllTrusted env h State.initial where
  genuine := fun _ hkey => nomatch hkey
  boxes := fun _ _ hbox => nomatch hbox
  preKeys := fun _ hpreKey => nomatch hpreKey
  calls := fun _ _ hcall => nomatch hcall
  seals := fun _ hmem => nomatch hmem

theorem trusted_of_boxKeyFrom {env : Environment Key} {h : Holder Key} {key : Option Key}
    (hold : forall peer box, r.peerBoxKeys peer = some box -> box.Trusted env h peer)
    (hverified : bringsBoxKey r sender p = true -> VerifiedFor env h sender p key)
    (hgenuine : sender = h.id -> forall found, key = some found -> found = h.key)
    (hfrom : BoxKeyFrom r sender p key peer box) : box.Trusted env h peer := by
  cases hfrom with
  | old hbox => exact hold peer box hbox
  | new hbrings hraw => exact ⟨hraw, hverified hbrings, hgenuine⟩

theorem trusted_of_reached {env : Environment Key} {h : Holder Key}
    (hgenuine : forall key, r.peerKeys h.id = some key -> key = h.key)
    (hreached : Reached r sender p stage) : (Call.signal sender p stage).Trusted env h := by
  cases hreached with
  | checkPreKey hkey hpub =>
      intro hsender
      rw [hsender] at hkey
      exact ⟨hgenuine _ hkey, hpub⟩
  | _ => trivial

/-- What every call of `_processSignal` and every deposit leaves when it is suspended. -/
structure TrustTurn (env : Environment Key) (h : Holder Key) (s s' : State Key) (i : Nat)
    (call : Option (Call Key)) : Prop where
  boxes : forall peer box, s'.registry.peerBoxKeys peer = some box -> box.Trusted env h peer
  preKeys : forall preKey, s'.registry.peerSignedPreKeys h.id = some preKey ->
    preKey.Trusted env h
  calls : s'.calls = Function.update s.calls i call
  call : forall next, call = some next -> next.Trusted env h
  seals : forall sealed, sealed ∈ s'.seals -> sealed ∈ s.seals ∨ sealed.Trusted env h

theorem TrustTurn.allTrusted {env : Environment Key} {h : Holder Key} {s' : State Key} {i : Nat}
    {call : Option (Call Key)} (hturn : TrustTurn env h s s' i call) (ht : AllTrusted env h s)
    (hgenuine : h.Genuine s') : AllTrusted env h s' where
  genuine := hgenuine
  boxes := hturn.boxes
  preKeys := hturn.preKeys
  calls := by
    intro j other hother
    rw [hturn.calls, Function.update_apply] at hother
    split at hother
    · exact hturn.call other hother
    · exact ht.calls j other hother
  seals := by
    intro sealed hmem
    rcases hturn.seals sealed hmem with hold | hnew
    · exact ht.seals sealed hold
    · exact hnew

theorem trustTurn_arrive {env : Environment Key} {h : Holder Key} (ht : AllTrusted env h s)
    (sender : JsString) (p : Value) (hgenuine : h.Genuine (step env s (Event.arrive sender p)))
    (hguard : JoinsVerify env h s (Event.arrive sender p)) :
    TrustTurn env h s (step env s (Event.arrive sender p)) s.started
      ((start env s.registry sender p).2.call sender p) := by
  rw [step_arrive] at hgenuine ⊢
  constructor
  · intro peer box hbox
    rcases boxKeyFrom_start hbox with hold | ⟨haddressed, himports, hfrom⟩
    · exact ht.boxes peer box hold
    · refine trusted_of_boxKeyFrom ht.boxes (hguard haddressed himports) ?_ hfrom
      intro hsender key hkey
      rw [hsender] at hkey
      exact ht.genuine key hkey
  · intro preKey hpreKey
    rw [start_peerSignedPreKeys] at hpreKey
    exact ht.preKeys preKey hpreKey
  · rfl
  · intro next hnext
    cases hout : (start env s.registry sender p).2 with
    | suspend stage =>
        rw [hout] at hnext
        cases hnext
        rcases (reached_start hout).2 with ⟨raw, hstage, _⟩ | hreached
        · rw [hstage]
          trivial
        · exact trusted_of_reached hgenuine hreached
    | dispatch key | drop =>
        rw [hout] at hnext
        exact nomatch hnext
  · exact fun _ hmem => Or.inl hmem

theorem trustTurn_resume {env : Environment Key} {h : Holder Key} (ht : AllTrusted env h s)
    {i : Nat} (m : Moment) (hcall : s.calls i = some (Call.signal sender p stage))
    (hgenuine : h.Genuine (step env s (Event.resume i m)))
    (hguard : JoinsVerify env h s (Event.resume i m)) :
    TrustTurn env h s (step env s (Event.resume i m)) i
      ((resume env m.now s.registry sender p stage).2.call sender p) := by
  rw [step_resume_signal env m hcall] at hgenuine ⊢
  have hwaiting := ht.calls i _ hcall
  constructor
  · intro peer box hbox
    rcases boxKeyFrom_resume hbox with hold | ⟨raw, hstage, hfrom⟩
    · exact ht.boxes peer box hold
    · rw [hstage] at hcall hgenuine
      refine trusted_of_boxKeyFrom ht.boxes (hguard _ hcall) ?_ hfrom
      intro hsender key hkey
      apply hgenuine key
      rw [resume_peerKeys, Stage.imported, hsender]
      rw [hsender] at hkey
      cases himport : importPeerKey env raw with
      | some found =>
          rw [himport] at hkey
          exact (Function.update_self _ _ _).trans hkey
      | none =>
          rw [himport] at hkey
          exact hkey
  · intro preKey hpreKey
    rcases preKey_of_resume hpreKey with hold | ⟨pubBytes, hpeer, hstage, hvalid⟩
    · exact ht.preKeys preKey hold
    · rw [hstage] at hwaiting
      rcases hwaiting hpeer.symm with ⟨hunder, hpub⟩
      rw [hunder] at hvalid
      exact ⟨hunder, pubBytes, hpub, hvalid⟩
  · rfl
  · intro next hnext
    cases hout : (resume env m.now s.registry sender p stage).2 with
    | suspend after =>
        rw [hout] at hnext
        cases hnext
        exact trusted_of_reached hgenuine (reached_resume hout)
    | dispatch key | drop =>
        rw [hout] at hnext
        cases hnext
  · exact fun _ hmem => Or.inl hmem

theorem sealFor_eq_some {env : Environment Key} {m : Moment} {oneTime : Option OneTimePreKey}
    {preKey : Option (PreKey Key)} {sealed : Seal Key}
    (hsealed : sealFor env m r peer plaintext box oneTime preKey = some sealed) :
    exists blob, sealBlob env m peer plaintext box oneTime preKey = some blob ∧
      sealed = ⟨peer, box, preKey, oneTime, blob⟩ := by
  rw [sealFor] at hsealed
  split at hsealed
  · exact nomatch hsealed
  · rcases Option.map_eq_some_iff.mp hsealed with ⟨blob, hblob, rfl⟩
    exact ⟨blob, hblob, rfl⟩

theorem trusted_of_sealFor {env : Environment Key} {h : Holder Key} {m : Moment}
    {oneTime : Option OneTimePreKey} {preKey : Option (PreKey Key)} (hbox : box.Trusted env h peer)
    (hpreKey : peer = h.id -> forall found, preKey = some found -> found.Trusted env h)
    {sealed : Seal Key}
    (hsealed : sealFor env m r peer plaintext box oneTime preKey = some sealed) :
    sealed.Trusted env h := by
  rcases sealFor_eq_some hsealed with ⟨blob, hblob, rfl⟩
  exact ⟨hbox, hpreKey, m, plaintext, hblob⟩

theorem trustTurn_deposit {env : Environment Key} {h : Holder Key} (ht : AllTrusted env h s)
    {i : Nat} (m : Moment) {stage : DepositStage Key}
    (hcall : s.calls i = some (Call.deposit peer plaintext stage)) :
    exists next, TrustTurn env h s (step env s (Event.resume i m)) i next := by
  rcases step_resume_deposit env m hcall with ⟨r, next, sealed, key, hdeposit, hstep⟩
  have hwaiting : stage.Trusted env h peer := ht.calls i _ hcall
  have hregistry : r.peerBoxKeys = s.registry.peerBoxKeys ∧
      r.peerSignedPreKeys = s.registry.peerSignedPreKeys := by
    cases hdeposit <;> exact ⟨rfl, rfl⟩
  have hnext : forall after, next = some after -> after.Trusted env h peer := by
    intro after hafter
    cases hdeposit with
    | boxed hbox =>
        cases hafter
        exact ht.boxes peer _ hbox
    | ensured box =>
        cases hafter
        refine ⟨hwaiting, ?_⟩
        intro hpeer found hfound
        rw [hpeer] at hfound
        exact ht.preKeys found hfound
    | checking box claim spk =>
        cases hafter
        refine ⟨hwaiting.1, ?_⟩
        intro hpeer preKey pubBytes hclaimed
        rcases claimedPreKey_eq_some hclaimed with ⟨hkey, hpub⟩
        rw [hpeer] at hkey
        exact ⟨ht.genuine _ hkey, hpub⟩
    | _ => exact nomatch hafter
  have hsealed : forall found, sealed = some found -> found.Trusted env h := by
    intro found hfound
    cases hdeposit with
    | claimed box preKey oneTime => exact trusted_of_sealFor hwaiting.1 hwaiting.2 hfound
    | @verified box claim preKey pubBytes hvalid oneTime =>
        refine trusted_of_sealFor hwaiting.1 ?_ hfound
        intro hpeer other hother
        cases hother
        rcases hwaiting.2 hpeer preKey pubBytes rfl with ⟨hunder, hpub⟩
        rw [hunder] at hvalid
        exact ⟨hunder, pubBytes, hpub, hvalid⟩
    | refused box claim check =>
        refine trusted_of_sealFor hwaiting.1 ?_ hfound
        intro _ found hnone
        exact nomatch hnone
    | _ => exact nomatch hfound
  refine ⟨next.map (Call.deposit peer plaintext), ?_⟩
  rw [hstep]
  constructor
  · intro other box hbox
    rw [hregistry.1] at hbox
    exact ht.boxes other box hbox
  · intro preKey hpreKey
    rw [hregistry.2] at hpreKey
    exact ht.preKeys preKey hpreKey
  · rfl
  · intro call hafter
    rcases Option.map_eq_some_iff.mp hafter with ⟨after, hstage, rfl⟩
    exact hnext after hstage
  · intro found hmem
    rcases List.mem_append.mp hmem with hold | hnew
    · exact Or.inl hold
    · exact Or.inr (hsealed found (Option.mem_toList.mp hnew))

theorem allTrusted_step {env : Environment Key} {h : Holder Key} (s : State Key) (e : Event)
    (ht : AllTrusted env h s) (hguard : h.Genuine (step env s e) ∧ JoinsVerify env h s e) :
    AllTrusted env h (step env s e) := by
  rcases hguard with ⟨hgenuine, hverify⟩
  cases e with
  | arrive sender p =>
      exact (trustTurn_arrive ht sender p hgenuine hverify).allTrusted ht hgenuine
  | deposit peer plaintext =>
      have hturn : TrustTurn env h s (step env s (Event.deposit peer plaintext)) s.started
          (some (Call.deposit peer plaintext DepositStage.preparing)) := by
        refine ⟨ht.boxes, ht.preKeys, rfl, ?_, fun _ hmem => Or.inl hmem⟩
        intro next hnext
        cases hnext
        trivial
      exact hturn.allTrusted ht hgenuine
  | checkDeposit sender message sig =>
      have hturn : TrustTurn env h s (step env s (Event.checkDeposit sender message sig))
          s.started ((s.registry.peerKeys sender).map fun key =>
            Call.relayCheck sender message sig key) := by
        refine ⟨ht.boxes, ht.preKeys, rfl, ?_, fun _ hmem => Or.inl hmem⟩
        intro next hnext
        rcases Option.map_eq_some_iff.mp hnext with ⟨key, _, rfl⟩
        trivial
      exact hturn.allTrusted ht hgenuine
  | resume i m =>
      cases hcall : s.calls i with
      | none =>
          rw [step, hcall]
          exact ht
      | some call =>
          cases call with
          | signal sender p stage =>
              exact (trustTurn_resume ht m hcall hgenuine hverify).allTrusted ht hgenuine
          | deposit peer plaintext stage =>
              rcases trustTurn_deposit ht m hcall with ⟨next, hturn⟩
              exact hturn.allTrusted ht hgenuine
          | relayCheck sender message sig key =>
              rw [step_resume_relayCheck env m hcall] at hgenuine ⊢
              have hturn : TrustTurn env h s
                  { s with
                    calls := Function.update s.calls i none
                    clock := m.now
                    verified := s.verified ++
                      ((if verifyFrame env key message sig then some key else none).map
                        fun key => (sender, key)).toList } i none :=
                ⟨ht.boxes, ht.preKeys, rfl, (fun _ hnone => by cases hnone),
                  fun _ hmem => Or.inl hmem⟩
              exact hturn.allTrusted ht hgenuine

/-!
# Sealed payloads
-/

theorem lengths_of_sealBlob {env : Environment Key} (hlawful : env.prim.Lawful) {m : Moment}
    {oneTime : Option OneTimePreKey} {preKey : Option (PreKey Key)} {blob : JsString}
    (h : sealBlob env m peer plaintext box oneTime preKey = some blob) :
    forall found, preKey = some found -> exists pub, atob found.pub = some pub ∧
      pub.length = 32 := by
  intro found hfound
  rw [hfound] at h
  rcases Option.bind_eq_some_iff.mp h with ⟨identityPub, _, hspk⟩
  rcases Option.bind_eq_some_iff.mp hspk with ⟨pub, hpub, hopk⟩
  rcases Option.bind_eq_some_iff.mp hopk with ⟨opk, _, hinitiate⟩
  rcases Option.bind_eq_some_iff.mp hinitiate with ⟨out, hout, _⟩
  rcases Option.bind_eq_some_iff.mp hout with ⟨dh1, hdh1, _⟩
  exact ⟨pub, hpub, hlawful.length_of_shared _ _ (Option.isSome_of_mem hdh1)⟩

theorem owns_of_trusted {env : Environment Key} (hlawful : env.prim.Lawful) {h : Holder Key}
    (hunforgeable : forall sig message,
      env.ecdsa.verify h.key sig message = true -> h.Signed env message)
    {sealed : Seal Key} (ht : sealed.Trusted env h) (hpeer : sealed.peer = h.id) :
    h.Owns env sealed := by
  have hsigned : forall pubBytes sig, verifyRaw env h.key pubBytes sig = true ->
      h.Signed env pubBytes := by
    intro pubBytes sig hvalid
    rw [verifyRaw] at hvalid
    split at hvalid
    · exact hunforgeable _ _ hvalid
    · exact nomatch hvalid
  constructor
  · have hverified := ht.box.verified (Or.inr hpeer)
    rw [hpeer] at hverified
    cases hkey : sealed.box.under with
    | none =>
        rw [hkey] at hverified
        exact nomatch hverified
    | some key =>
        rw [hkey, ht.box.genuine hpeer key hkey, joinVerifies] at hverified
        split at hverified
        case h_1 sig _ =>
          have hraw := Holder.boxPubKey_of_signed (hsigned _ _ hverified)
          have hmember := (Option.filter_eq_some_iff.mp ht.box.raw).1
          rw [hmember, orNull] at hraw
          rw [hraw]
          exact atob_btoa _
        case h_2 => exact nomatch hverified
  · intro preKey hpreKey
    rcases ht.preKey hpeer preKey hpreKey with ⟨_, pubBytes, hpub, hvalid⟩
    rcases ht.blob with ⟨m, plaintext, hblob⟩
    rcases lengths_of_sealBlob hlawful hblob preKey hpreKey with ⟨pub, hsame, hlength⟩
    rw [hpub] at hsame
    cases hsame
    rcases Holder.preKey_of_signed (hsigned _ _ hvalid) hlength with ⟨priv, hpriv, hbytes⟩
    exact ⟨priv, hpriv, hpub.trans (congrArg some hbytes)⟩

/--
In a run in which every first box key comes with a join that verifies, nothing is sealed
with the box key of a tampered join; and while the key stored for an honest peer is its own,
everything sealed for the peer is sealed for keys that it generated.
-/
theorem seals_of_joinsVerify (env : Environment Key) (hlawful : env.prim.Lawful)
    (h : Holder Key)
    (hunforgeable : forall sig message,
      env.ecdsa.verify h.key sig message = true -> h.Signed env message)
    {events : List Event}
    (hgenuine : StepsMeet (step env) (fun s e => h.Genuine (step env s e)) State.initial events)
    (hmeet : StepsMeet (step env) (JoinsVerify env h) State.initial events)
    {sealed : Seal Key} (hsealed : sealed ∈ (after (step env) State.initial events).seals) :
    Not (sealed.Tampered env) ∧ (sealed.peer = h.id -> h.Owns env sealed) := by
  have htrusted := invariant_after allTrusted_step (allTrusted_initial env h)
    (stepsMeet_and hgenuine hmeet)
  have ht := htrusted.seals sealed hsealed
  refine ⟨?_, owns_of_trusted hlawful hunforgeable ht⟩
  intro htampered
  have hverified := ht.box.verified (Or.inl htampered.1)
  rw [htampered.2] at hverified
  exact nomatch hverified

/-!
# A genuine join and a tampered one
-/

section Decide

variable (env : Environment Bytes) (h : Holder Bytes)

instance (s : State Bytes) : Decidable (h.Genuine s) :=
  inferInstanceAs (Decidable (forall key, key ∈ s.registry.peerKeys h.id -> key = h.key))

instance (sender : JsString) (p : Value) (key : Option Bytes) :
    Decidable (VerifiedFor env h sender p key) :=
  inferInstanceAs (Decidable (_ ∨ _ -> _))

instance (r : Registry Bytes) : forall call, Decidable (Call.JoinVerifies env h r call)
  | Call.signal sender p (Stage.importJoinKey raw) =>
      inferInstanceAs (Decidable (bringsBoxKey r sender p = true ->
        VerifiedFor env h sender p ((importPeerKey env raw).or (r.peerKeys sender))))
  | Call.signal _ _ (Stage.checkPreKey _ _) => inferInstanceAs (Decidable True)
  | Call.signal _ _ (Stage.checkJoin _) => inferInstanceAs (Decidable True)
  | Call.signal _ _ (Stage.importFrameKey _) => inferInstanceAs (Decidable True)
  | Call.signal _ _ (Stage.checkFrame _) => inferInstanceAs (Decidable True)
  | Call.deposit _ _ _ => inferInstanceAs (Decidable True)
  | Call.relayCheck _ _ _ _ => inferInstanceAs (Decidable True)

instance (s : State Bytes) : forall e, Decidable (JoinsVerify env h s e)
  | Event.arrive sender p =>
      inferInstanceAs (Decidable (addressed env p = true ->
        importsFirst s.registry sender p = false -> bringsBoxKey s.registry sender p = true ->
          VerifiedFor env h sender p (s.registry.peerKeys sender)))
  | Event.resume i _ =>
      inferInstanceAs (Decidable (forall call, call ∈ s.calls i ->
        call.JoinVerifies env h s.registry))
  | Event.deposit _ _ => inferInstanceAs (Decidable True)
  | Event.checkDeposit _ _ _ => inferInstanceAs (Decidable True)

instance (sealed : Seal Bytes) : Decidable (sealed.Tampered env) :=
  inferInstanceAs (Decidable (_ ∧ _))

end Decide

def sampleHolder : Holder Bytes where
  id := samplePeer
  key := samplePoint
  boxPriv := FixedBytes.zero 32
  preKeyPrivs := [FixedBytes.zero 32]

/-- What a join of the sample peer carries beside its prekey. -/
def announcement (boxPubKey : JsString) : List (JsString × Value) :=
  [(typeName, Value.string joinType), (sessionName, Value.string (ofText ['r'])),
    (depositPubKeyName, Value.string (btoa samplePoint)),
    (boxPubKeyName, Value.string boxPubKey), (supportsV2Name, Value.bool true),
    (nonceName, Value.string (ofText ['n'])), (tsName, Value.number (Number.finite 5))]

def announcementSig : Value :=
  sampleSign samplePoint (canonicalJoin (sampleEnvironment true) samplePeer
    (Value.object (announcement (sampleHolder.boxPubKey (sampleEnvironment true)))))

def genuineJoin : Value :=
  Value.object (announcement (sampleHolder.boxPubKey (sampleEnvironment true)) ++
    [(sigName, announcementSig),
      (signedPreKeyName, Value.object
        [(idName, Value.string (ofText ['k'])),
          (pubName, Value.string (btoa (FixedBytes.zero 32).toBytes)),
          (sigName, Value.string (btoa (samplePoint ++ (FixedBytes.zero 32).toBytes)))])])

/-- The signatures that the sample peer has made are valid, and no others. -/
def signedOnly (log : List Bytes) : Ecdsa Bytes where
  importKey := sampleEcdsa.importKey
  verify := fun key sig message => log.contains message && sampleEcdsa.verify key sig message

def honestEnvironment : Environment Bytes :=
  { sampleEnvironment true with
    ecdsa := signedOnly
      [Text.utf8 (canonicalJoin (sampleEnvironment true) samplePeer
        (Value.object (announcement (sampleHolder.boxPubKey (sampleEnvironment true))))),
        (FixedBytes.zero 32).toBytes] }

theorem signed_of_honestEnvironment (sig message : Bytes)
    (h : honestEnvironment.ecdsa.verify sampleHolder.key sig message = true) :
    sampleHolder.Signed honestEnvironment message := by
  have hmem := (Bool.and_eq_true_iff.mp h).1
  rw [List.contains_iff_mem] at hmem
  rcases List.mem_cons.mp hmem with hjoin | hrest
  · rw [hjoin]
    exact Holder.Signed.join rfl rfl rfl
  · rw [List.mem_singleton.mp hrest]
    exact @Holder.Signed.preKey _ honestEnvironment sampleHolder (FixedBytes.zero 32)
      List.mem_cons_self

def genuineRun : List Event :=
  [Event.arrive samplePeer genuineJoin, Event.resume 0 (sampleMoment 5),
    Event.resume 0 (sampleMoment 5), Event.resume 0 (sampleMoment 5),
    Event.deposit samplePeer [1, 2, 3], Event.resume 1 (sampleMoment 5),
    Event.resume 1 (sampleMoment 5), Event.resume 1 (sampleMoment 5)]

theorem genuineJoin_owned :
    exists sealed, sealed ∈ (after (step honestEnvironment) State.initial genuineRun).seals ∧
      Not (sealed.Tampered honestEnvironment) ∧ sampleHolder.Owns honestEnvironment sealed := by
  have hrun : (StepsMeet (step honestEnvironment)
      (fun s e => sampleHolder.Genuine (step honestEnvironment s e)) State.initial genuineRun ∧
      StepsMeet (step honestEnvironment) (JoinsVerify honestEnvironment sampleHolder)
        State.initial genuineRun) ∧
      (after (step honestEnvironment) State.initial genuineRun).seals.map Seal.peer =
        [samplePeer] := by
    decide +kernel
  rcases hrun with ⟨⟨hgenuine, hmeet⟩, hpeers⟩
  have hpeer : samplePeer ∈
      (after (step honestEnvironment) State.initial genuineRun).seals.map Seal.peer := by
    rw [hpeers]
    exact List.mem_singleton.mpr rfl
  rcases List.mem_map.mp hpeer with ⟨sealed, hmem, hsame⟩
  rcases seals_of_joinsVerify honestEnvironment samplePrimitives_lawful sampleHolder
    signed_of_honestEnvironment hgenuine hmeet hmem with ⟨htampered, howns⟩
  exact ⟨sealed, hmem, htampered, howns hsame⟩

def serverPriv : FixedBytes 32 where
  toBytes := List.replicate 32 1
  length_eq := List.length_replicate

def tamperedJoin : Value :=
  Value.object (announcement (btoa serverPriv.toBytes) ++ [(sigName, announcementSig)])

def tamperedRun : List Event :=
  [Event.arrive samplePeer tamperedJoin, Event.resume 0 (sampleMoment 5),
    Event.resume 0 (sampleMoment 5), Event.deposit samplePeer [1, 2, 3],
    Event.resume 1 (sampleMoment 5), Event.resume 1 (sampleMoment 5),
    Event.resume 1 (sampleMoment 5)]

/-- The peer's genuine signing key is stored, the signature of the join is not valid, and yet
the payload is sealed with the swapped box key: the server opens it with its own key. -/
theorem tamperedJoin_used :
    let env := sampleEnvironment true
    let s := after (step env) State.initial tamperedRun
    s.registry.peerKeys samplePeer = some samplePoint ∧
      s.seals.map (fun sealed => (decide (sealed.Tampered env),
        openRelayBlob env.platform env.prim sealed.blob serverPriv
          (Value.string (btoa (env.prim.getPublicKey env.boxPriv).toBytes)) env.peerId samplePeer
          env.session)) = [(true, some [1, 2, 3])] := by
  decide +kernel

end Signaling
end Client
end Ephor
