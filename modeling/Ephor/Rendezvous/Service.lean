import Ephor.Keyauth.Replay
import Ephor.Keyauth.SigningMessage
import Ephor.Rendezvous.Presence

/-!
# The rendezvous service

The handlers of `service.go` over the stores they share.  A handler reads its clock and
checks its request, and then each of its critical sections is a step of its own, so the
handlers interleave.  The verdicts of the limiters come with the request, and a waiting poll
may be woken at any time.
-/

namespace Ephor
namespace Rendezvous

open Foundation
open Foundation.GoTime
open Keyauth

inductive Channel where
  | signal
  | mailbox
deriving DecidableEq

/-- `verify` is `ed25519.Verify`. -/
structure Config where
  disablePublicResolve : Bool
  ttl : Channel -> TtlCaps
  verify : FixedBytes 32 -> Bytes -> FixedBytes 64 -> Bool

def decodeFixed (n : Nat) (s : Bytes) : Option (FixedBytes n) := do
  let raw <- Base64.decode (Text.fromUtf8Lossy (GoText.trimSpace s))
  if h : raw.length = n then some ⟨raw, h⟩ else none

def decodeKey (s : Bytes) : Option (FixedBytes 32) :=
  if GoText.trimSpace s = [] then none else decodeFixed 32 s

def decodeSig (s : Bytes) : Option (FixedBytes 64) :=
  decodeFixed 64 s

def keyString (pub : FixedBytes 32) : String :=
  encodeToString pub.toBytes

def normalizeKey (s : Bytes) : String :=
  match decodeKey s with
  | none => ""
  | some pub => keyString pub

def Config.verifySig (cfg : Config) (pub : FixedBytes 32) (sig : Bytes) (message : Bytes) : Bool :=
  match decodeSig sig with
  | none => false
  | some sig => cfg.verify pub message sig

/-!
# Requests
-/

/-- A decoded request, with the key of its path. -/
inductive Request where
  | announce (req : AnnounceRequest)
  | withdraw (req : WithdrawRequest)
  | deposit (c : Channel) (path : Bytes) (req : DepositRequest)
  | poll (c : Channel) (path : Bytes) (req : PollRequest)
  | ack (c : Channel) (path : Bytes) (req : AckRequest)

structure Credential where
  key : Bytes
  nonce : Bytes
  timestamp : Int64
  sig : Bytes

/-- What a request asks of the stores. -/
inductive Task where
  | announce (a : Announcement)
  | withdraw
  | deposit (c : Channel) (target : String) (payload : Bytes) (ttl : Duration)
  | poll (c : Channel) (wait : Int64)
  | ack (c : Channel) (ids : List String)

structure Ticket where
  key : String
  nonce : String
  timestamp : Int64
  task : Task

/-- The strings of decoded JSON are valid UTF-8. -/
def text (s : Bytes) : String :=
  String.ofList (Text.fromUtf8Lossy s)

namespace Request

def credential : Request -> Credential
  | announce req => ⟨req.key, req.nonce, req.timestamp, req.sig⟩
  | withdraw req => ⟨req.key, req.nonce, req.timestamp, req.sig⟩
  | deposit _ _ req => ⟨req.source, req.nonce, req.timestamp, req.sig⟩
  | poll _ _ req => ⟨req.key, req.nonce, req.timestamp, req.sig⟩
  | ack _ _ req => ⟨req.key, req.nonce, req.timestamp, req.sig⟩

def toSigned : Request -> SignedRequest
  | announce req => SignedRequest.announce req
  | withdraw req => SignedRequest.withdraw req
  | deposit Channel.signal _ req => SignedRequest.signalDeposit req
  | deposit Channel.mailbox _ req => SignedRequest.mailboxDeposit req
  | poll Channel.signal _ req => SignedRequest.signalPoll req
  | poll Channel.mailbox _ req => SignedRequest.mailboxPoll req
  | ack Channel.signal _ req => SignedRequest.signalAck req
  | ack Channel.mailbox _ req => SignedRequest.mailboxAck req

end Request

/-- What the shared limiter and the one of the handler say. -/
structure Verdicts where
  globalLim : Bool
  keyLim : Bool

def require (holds : Bool) (status : Nat) (reason : String) : Except Refusal Unit :=
  if holds then Except.ok () else Except.error ⟨status, reason⟩

def orRefuse {α : Type} (x : Option α) (status : Nat) (reason : String) : Except Refusal α :=
  match x with
  | some a => Except.ok a
  | none => Except.error ⟨status, reason⟩

/-- The last check of every handler. -/
def Config.verified (cfg : Config) (r : Request) (pub : FixedBytes 32) (task : Task) :
    Except Refusal Ticket := do
  require (cfg.verifySig pub r.credential.sig r.toSigned.signingMessage) 401
    "signature verification failed"
  return ⟨keyString pub, text r.credential.nonce, r.credential.timestamp, task⟩

/-- The checks of the handlers ahead of the replay guard. -/
def Config.screen (cfg : Config) (allow : Verdicts) (r : Request) : Except Refusal Ticket :=
  match r with
  | Request.announce req => do
      require allow.globalLim 429 "rate limited"
      let pub <- orRefuse (decodeKey req.key) 400 "invalid key"
      require allow.keyLim 429 "rate limited"
      cfg.verified r pub (Task.announce ⟨req.endpoints, req.metadata, req.ttl⟩)
  | Request.withdraw req => do
      let pub <- orRefuse (decodeKey req.key) 400 "invalid key"
      cfg.verified r pub Task.withdraw
  | Request.deposit c path req => do
      require allow.globalLim 429 "rate limited"
      require (normalizeKey path != "") 400 "invalid recipient key"
      require (normalizeKey req.target == normalizeKey path) 400 "recipient mismatch"
      let pub <- orRefuse (decodeKey req.source) 400 "invalid sender key"
      require allow.keyLim 429 "rate limited"
      let payload <- orRefuse (Base64.decode (Text.fromUtf8Lossy req.payload)) 400
        "invalid payload encoding"
      cfg.verified r pub
        (Task.deposit c (normalizeKey path) payload ((cfg.ttl c).clampTTL req.ttl))
  | Request.poll c path req => do
      require (normalizeKey path != "") 400 "invalid key"
      let pub <- orRefuse (decodeKey req.key) 400 "key mismatch"
      require (keyString pub == normalizeKey path) 400 "key mismatch"
      require allow.keyLim 429 "rate limited"
      cfg.verified r pub (Task.poll c req.wait)
  | Request.ack c path req => do
      require (normalizeKey path != "") 400 "invalid key"
      let pub <- orRefuse (decodeKey req.key) 400 "key mismatch"
      require (keyString pub == normalizeKey path) 400 "key mismatch"
      cfg.verified r pub (Task.ack c (req.ids.map text))

/-!
# Handlers
-/

/-- `resolved` without a record is the answer 404 with `online` false. -/
inductive Reply where
  | refused (r : Refusal)
  | announced (key : String) (ttl : Duration) (expiresAt : Int64)
  | withdrawn (key : String)
  | resolved (key : String) (r : Option PresenceRecord)
  | deposited (id : String) (expiresAt : Int64)
  | polled (key : String) (blobs : List BlobView)
  | acked (deleted : Nat)

/-- The section that a handler runs next. -/
inductive Stage where
  | checkAndRecord (now : Int) (t : Ticket)
  | act (now : Int) (t : Ticket)
  | waiting (c : Channel) (key : String)

/-- The handlers are numbered in the order of their requests. -/
structure Service where
  replay : Guard
  presence : PresenceStore
  queue : Channel -> Queue
  handlers : FiniteMap Nat Stage
  started : Nat

/-- `giveUp` is the timer of a long poll, or its client leaving. -/
inductive Event where
  | arrive (now : Int) (allow : Verdicts) (r : Request)
  | resolve (now : Int) (path : Bytes)
  | proceed (id : Nat) (now : Int) (random : FixedBytes 10)
  | giveUp (id : Nat)

namespace Service

def new (skew : Duration) (guardKeys presenceKeys : Int) (caps : Channel -> QueueCaps) :
    Service where
  replay := newGuard skew guardKeys
  presence := PresenceStore.newPresenceStore presenceKeys
  queue := fun c => Queue.newQueue (caps c)
  handlers := ∅
  started := 0

def setQueue (s : Service) (c : Channel) (q : Queue) : Service :=
  { s with queue := Function.update s.queue c q }

def setStage (s : Service) (id : Nat) (stage : Stage) : Service :=
  { s with handlers := s.handlers.insert id stage }

def handleResolve (s : Service) (cfg : Config) (path : Bytes) (now : Int) : Reply :=
  if normalizeKey path = "" then
    Reply.refused ⟨400, "invalid key"⟩
  else if cfg.disablePublicResolve then
    Reply.resolved (normalizeKey path) none
  else
    Reply.resolved (normalizeKey path) (s.presence.resolve (normalizeKey path) now)

/-- The handlers past the replay guard: a next section, or the reply. -/
def act (s : Service) (key : String) (now : Int) (random : FixedBytes 10) :
    Task -> Service × (Stage ⊕ Reply)
  | Task.announce a =>
      let (answer, presence) := s.presence.announce key a now
      ({ s with presence := presence },
        match answer with
        | Except.error e => Sum.inr (Reply.refused e)
        | Except.ok r =>
            Sum.inr (Reply.announced key (clampPresenceTTL a.ttl) (unixSeconds r.expiresAt)))
  | Task.withdraw =>
      ({ s with presence := s.presence.remove key }, Sum.inr (Reply.withdrawn key))
  | Task.deposit c target payload ttl =>
      let (res, q) := (s.queue c).deposit key target payload ttl now random
      (s.setQueue c q,
        match res with
        | DepositResult.ok id => Sum.inr (Reply.deposited id (unixSeconds (add now ttl)))
        | DepositResult.tooLarge => Sum.inr (Reply.refused ⟨413, "blob too large"⟩)
        | DepositResult.quotaFull => Sum.inr (Reply.refused ⟨507, "recipient quota exceeded"⟩)
        | DepositResult.capacity => Sum.inr (Reply.refused ⟨503, "at capacity"⟩))
  | Task.poll c wait =>
      let (blobs, q) := (s.queue c).pickup key now
      (s.setQueue c q,
        if blobs = [] ∧ 0 < wait then Sum.inl (Stage.waiting c key)
        else Sum.inr (Reply.polled key blobs))
  | Task.ack c ids =>
      let (deleted, q) := (s.queue c).ack key ids
      (s.setQueue c q, Sum.inr (Reply.acked deleted))

def advance (s : Service) (now : Int) (random : FixedBytes 10) :
    Stage -> Service × (Stage ⊕ Reply)
  | Stage.checkAndRecord start t =>
      let (fresh, replay) := s.replay.checkAndRecord t.key t.nonce t.timestamp start
      ({ s with replay := replay },
        if fresh then Sum.inl (Stage.act start t)
        else Sum.inr (Reply.refused ⟨409, "stale or replayed request"⟩))
  | Stage.act start t => s.act t.key start random t.task
  | Stage.waiting c key =>
      let (blobs, q) := (s.queue c).pickup key now
      (s.setQueue c q, Sum.inr (Reply.polled key blobs))

/-- The state after an event, and the replies that it sends. -/
def run (cfg : Config) (s : Service) : Event -> Service × List (Nat × Reply)
  | Event.arrive now allow r =>
      let next := { s with started := s.started + 1 }
      match cfg.screen allow r with
      | Except.error e => (next, [(s.started, Reply.refused e)])
      | Except.ok t => (next.setStage s.started (Stage.checkAndRecord now t), [])
  | Event.resolve now path =>
      ({ s with started := s.started + 1 }, [(s.started, s.handleResolve cfg path now)])
  | Event.proceed id now random =>
      match s.handlers.lookup id with
      | none => (s, [])
      | some stage =>
          match s.advance now random stage with
          | (s, Sum.inl next) => (s.setStage id next, [])
          | (s, Sum.inr reply) => ({ s with handlers := s.handlers.erase id }, [(id, reply)])
  | Event.giveUp id =>
      match s.handlers.lookup id with
      | some (Stage.waiting _ key) =>
          ({ s with handlers := s.handlers.erase id }, [(id, Reply.polled key [])])
      | _ => (s, [])

def step (cfg : Config) (s : Service) (e : Event) : Service :=
  (s.run cfg e).1

def replies (cfg : Config) (s : Service) (e : Event) : List (Nat × Reply) :=
  (s.run cfg e).2

end Service

/-!
# What the stores hold is signed for
-/

def Request.SignedWith (cfg : Config) (r : Request) (key : String) : Prop :=
  exists pub, decodeKey r.credential.key = some pub ∧ keyString pub = key ∧
    cfg.verifySig pub r.credential.sig r.toSigned.signingMessage = true

theorem require_bind {α : Type} {holds : Bool} {status : Nat} {reason : String}
    {f : Unit -> Except Refusal α} {a : α} :
    (require holds status reason >>= f) = Except.ok a <-> holds = true ∧ f () = Except.ok a := by
  cases holds with
  | false => exact iff_of_false (fun h => nomatch h) (fun h => nomatch h.1)
  | true => exact (and_iff_right rfl).symm

theorem orRefuse_bind {α β : Type} {x : Option β} {status : Nat} {reason : String}
    {f : β -> Except Refusal α} {a : α} :
    (orRefuse x status reason >>= f) = Except.ok a <->
      exists b, x = some b ∧ f b = Except.ok a := by
  cases x with
  | none => exact iff_of_false (fun h => nomatch h) (fun ⟨_, h, _⟩ => nomatch h)
  | some b => exact ⟨fun h => ⟨b, rfl, h⟩, fun ⟨_, hb, h⟩ => (Option.some.inj hb) ▸ h⟩

theorem signedWith_of_screen {cfg : Config} {allow : Verdicts} {r : Request} {t : Ticket}
    (h : cfg.screen allow r = Except.ok t) : r.SignedWith cfg t.key := by
  have hverified : forall {pub : FixedBytes 32} {task : Task},
      cfg.verified r pub task = Except.ok t -> decodeKey r.credential.key = some pub ->
        r.SignedWith cfg t.key := by
    intro pub task hticket hpub
    rcases require_bind.mp hticket with ⟨hsig, heq⟩
    cases heq
    exact ⟨pub, hpub, rfl, hsig⟩
  cases r with
  | announce req | ack c path req =>
      simp only [Config.screen, require_bind, orRefuse_bind] at h
      rcases h with ⟨_, pub, hpub, _, hticket⟩
      exact hverified hticket hpub
  | withdraw req =>
      rcases orRefuse_bind.mp h with ⟨pub, hpub, hticket⟩
      exact hverified hticket hpub
  | deposit c path req =>
      simp only [Config.screen, require_bind, orRefuse_bind] at h
      rcases h with ⟨_, _, _, pub, hpub, _, _, _, hticket⟩
      exact hverified hticket hpub
  | poll c path req =>
      simp only [Config.screen, require_bind, orRefuse_bind] at h
      rcases h with ⟨_, pub, hpub, _, _, hticket⟩
      exact hverified hticket hpub

/-- What a handler was started on; a resolve is not signed. -/
def Event.start : Event -> Option (Option (Int × Verdicts × Request))
  | Event.arrive now allow r => some (some (now, allow, r))
  | Event.resolve _ _ => some none
  | _ => none

def starts (events : List Event) : List (Option (Int × Verdicts × Request)) :=
  events.filterMap Event.start

section
variable (cfg : Config) (front : List Event)

/-- The handler was started on a request for the task that is signed with the key. -/
def Asked (id : Nat) (key : String) (now : Int) (task : Task) : Prop :=
  exists allow r t, (starts front)[id]? = some (some (now, allow, r)) ∧
    cfg.screen allow r = Except.ok t ∧ t.key = key ∧ t.task = task ∧ r.SignedWith cfg key

def Polled (id : Nat) (c : Channel) (key : String) : Prop :=
  exists now wait, Asked cfg front id key now (Task.poll c wait)

def Deposited (c : Channel) (key : String) (b : Blob) : Prop :=
  exists id source payload ttl now random, b = newBlob source key payload ttl now random ∧
    Asked cfg front id source now (Task.deposit c key payload ttl)

def Announced (key : String) (r : PresenceRecord) : Prop :=
  exists id a now, r = a.record now ∧ Asked cfg front id key now (Task.announce a)

def Delivers (id : Nat) (c : Channel) (key : String) (blobs : List BlobView) : Prop :=
  Polled cfg front id c key ∧
    forall v, v ∈ blobs -> exists b, b.view = v ∧ Deposited cfg front c key b

/-- What the reply of a handler rests on. -/
def ReplySound (id : Nat) : Reply -> Prop
  | Reply.polled key blobs => exists c, Delivers cfg front id c key blobs
  | Reply.resolved key (some r) => Announced cfg front key r
  | _ => True

def RepliesSound (outs : List (Nat × Reply)) : Prop :=
  forall o, o ∈ outs -> ReplySound cfg front o.1 o.2

def StageSound (id : Nat) : Stage -> Prop
  | Stage.checkAndRecord now t => Asked cfg front id t.key now t.task
  | Stage.act now t => Asked cfg front id t.key now t.task
  | Stage.waiting c key => Polled cfg front id c key

structure Sound (s : Service) : Prop where
  stages : forall id stage, s.handlers.lookup id = some stage ->
    StageSound cfg front id stage
  queues : forall c key b, b ∈ (s.queue c).pending key -> Deposited cfg front c key b
  presence : forall key r, s.presence.byKey.lookup key = some r -> Announced cfg front key r

end

theorem Queue.mem_pending_sweepLocked {q : Queue} {now : Int} {key : String} {b : Blob}
    (h : b ∈ (q.sweepLocked now).pending key) : b ∈ q.pending key := by
  rcases pending_sweepLocked q now key with heq | heq
  · exact heq ▸ h
  · exact (List.mem_filter.mp (heq ▸ h)).1

theorem Queue.mem_pending_deposit {q : Queue} {source target key : String} {payload : Bytes}
    {ttl : Duration} {now : Int} {random : FixedBytes 10} {b : Blob}
    (h : b ∈ (q.deposit source target payload ttl now random).2.pending key) :
    b ∈ q.pending key ∨ key = target ∧ b = newBlob source target payload ttl now random := by
  rcases deposit_cases q source target payload ttl now random with
    ⟨_, _, hdeposit | hdeposit⟩ | ⟨bytes, hdeposit⟩
  · rw [hdeposit] at h
    exact Or.inl h
  · rw [hdeposit] at h
    exact Or.inl (mem_pending_sweepLocked h)
  · rw [hdeposit, pending] at h
    by_cases hkey : key = target
    · rw [hkey, Finmap.lookup_insert] at h
      rcases List.mem_append.mp h with hold | hnew
      · exact Or.inl (hkey ▸ mem_pending_sweepLocked hold)
      · exact Or.inr ⟨hkey, List.mem_singleton.mp hnew⟩
    · rw [Finmap.lookup_insert_of_ne _ hkey] at h
      exact Or.inl (mem_pending_sweepLocked h)

namespace Service

variable {cfg : Config} {front : List Event} {s : Service} {id : Nat}

theorem sound_setQueue (h : Sound cfg front s) {c : Channel} {q : Queue}
    (hq : forall key b, b ∈ q.pending key -> Deposited cfg front c key b) :
    Sound cfg front (s.setQueue c q) := by
  refine ⟨h.stages, ?_, h.presence⟩
  intro d key b hb
  change b ∈ (Function.update s.queue c q d).pending key at hb
  rw [Function.update_apply] at hb
  split at hb
  · rename_i heq
    exact heq ▸ hq key b hb
  · exact h.queues d key b hb

theorem sound_pickup (h : Sound cfg front s) {c : Channel} {key : String}
    (hpolled : Polled cfg front id c key) (now : Int) :
    Sound cfg front (s.setQueue c ((s.queue c).pickup key now).2) ∧
      Delivers cfg front id c key ((s.queue c).pickup key now).1 := by
  have hswept : forall k b, b ∈ ((s.queue c).sweepLocked now).pending k ->
      Deposited cfg front c k b :=
    fun k b hb => h.queues c k b (Queue.mem_pending_sweepLocked hb)
  refine ⟨sound_setQueue h hswept, hpolled, ?_⟩
  intro v hv
  rcases List.mem_map.mp hv with ⟨b, hb, hview⟩
  exact ⟨b, hview, hswept key b (List.mem_filter.mp hb).1⟩

theorem sound_announce (h : Sound cfg front s) {key : String} {now : Int} {a : Announcement}
    (hasked : Asked cfg front id key now (Task.announce a)) :
    Sound cfg front { s with presence := (s.presence.announce key a now).2 } := by
  refine ⟨h.stages, h.queues, ?_⟩
  intro k r hr
  rcases PresenceStore.announce_cases s.presence key a now with
    ⟨_, _, hrefused | hrefused⟩ | ⟨_, haccepted⟩
  · rw [hrefused] at hr
    exact h.presence k r hr
  · rw [hrefused] at hr
    exact h.presence k r (PresenceStore.lookup_sweepLocked hr)
  · rw [haccepted] at hr
    rcases FiniteMap.lookup_insert_eq_some.mp hr with ⟨hkey, heq⟩ | ⟨_, hold⟩
    · exact ⟨id, a, now, heq, hkey ▸ hasked⟩
    · exact h.presence k r (PresenceStore.lookup_sweepLocked hold)

/-- A handler goes on to a sound section, or ends with a sound reply. -/
def NextSound (cfg : Config) (front : List Event) (id : Nat) :
    Stage ⊕ Reply -> Prop
  | Sum.inl stage => StageSound cfg front id stage
  | Sum.inr reply => ReplySound cfg front id reply

theorem sound_act (h : Sound cfg front s) {key : String} {now : Int} {task : Task}
    (hasked : Asked cfg front id key now task) (random : FixedBytes 10) :
    Sound cfg front (s.act key now random task).1 ∧
      NextSound cfg front id (s.act key now random task).2 := by
  cases task with
  | announce a =>
      refine ⟨sound_announce h hasked, ?_⟩
      dsimp only [act]
      split
      · trivial
      · trivial
  | withdraw =>
      refine ⟨⟨h.stages, h.queues, ?_⟩, trivial⟩
      intro k r hr
      exact h.presence k r (FiniteMap.lookup_erase_eq_some.mp hr).2
  | deposit c target payload ttl =>
      constructor
      · apply sound_setQueue h
        intro k b hb
        rcases Queue.mem_pending_deposit hb with hold | ⟨hkey, heq⟩
        · exact h.queues c k b hold
        · rw [hkey]
          exact ⟨id, key, payload, ttl, now, random, heq, hasked⟩
      · dsimp only [act]
        split
        · trivial
        · trivial
        · trivial
        · trivial
  | poll c wait =>
      have hpolled : Polled cfg front id c key := ⟨now, wait, hasked⟩
      rcases sound_pickup h hpolled now with ⟨hsound, hdelivers⟩
      refine ⟨hsound, ?_⟩
      dsimp only [act]
      split
      · exact hpolled
      · exact ⟨c, hdelivers⟩
  | ack c ids =>
      refine ⟨sound_setQueue (q := ((s.queue c).ack key ids).2) h ?_, trivial⟩
      intro k b hb
      apply h.queues
      rw [Queue.pending_ack] at hb
      split at hb
      · exact (List.mem_filter.mp hb).1
      · exact hb

theorem sound_advance (h : Sound cfg front s) {stage : Stage}
    (hstage : StageSound cfg front id stage) (now : Int) (random : FixedBytes 10) :
    Sound cfg front (s.advance now random stage).1 ∧
      NextSound cfg front id (s.advance now random stage).2 := by
  cases stage with
  | checkAndRecord start t =>
      refine ⟨⟨h.stages, h.queues, h.presence⟩, ?_⟩
      dsimp only [advance]
      split
      · exact hstage
      · trivial
  | act start t => exact sound_act h hstage random
  | waiting c key =>
      rcases sound_pickup h hstage now with ⟨hsound, hdelivers⟩
      exact ⟨hsound, c, hdelivers⟩

theorem sound_setStage (h : Sound cfg front s) {stage : Stage}
    (hstage : StageSound cfg front id stage) : Sound cfg front (s.setStage id stage) := by
  refine ⟨?_, h.queues, h.presence⟩
  intro j other hj
  rcases FiniteMap.lookup_insert_eq_some.mp hj with ⟨hid, heq⟩ | ⟨_, hold⟩
  · exact heq ▸ hid ▸ hstage
  · exact h.stages j other hold

theorem sound_erase (h : Sound cfg front s) (id : Nat) :
    Sound cfg front { s with handlers := s.handlers.erase id } := by
  refine ⟨?_, h.queues, h.presence⟩
  intro j other hj
  exact h.stages j other (FiniteMap.lookup_erase_eq_some.mp hj).2

theorem resolve_sound (h : Sound cfg front s) (path : Bytes) (now : Int) :
    ReplySound cfg front id (s.handleResolve cfg path now) := by
  unfold handleResolve
  split
  · trivial
  · split
    · trivial
    · cases hr : s.presence.resolve (normalizeKey path) now with
      | none => trivial
      | some r => exact h.presence _ r (Option.filter_eq_some_iff.mp hr).1

theorem repliesSound_nil : RepliesSound cfg front [] :=
  fun _ ho => nomatch ho

theorem repliesSound_singleton {r : Reply} (h : ReplySound cfg front id r) :
    RepliesSound cfg front [(id, r)] :=
  List.forall_mem_singleton.mpr h

/-!
# Runs of the service
-/

theorem starts_append (front : List Event) (e : Event) :
    starts (front ++ [e]) = starts front ++ starts [e] :=
  List.filterMap_append

theorem asked_mono {key : String} {now : Int} {task : Task}
    (h : Asked cfg front id key now task) (e : Event) :
    Asked cfg (front ++ [e]) id key now task := by
  rcases h with ⟨allow, r, t, hstart, hrest⟩
  refine ⟨allow, r, t, ?_, hrest⟩
  rw [starts_append, List.getElem?_append_left (List.getElem?_eq_some_iff.mp hstart).1]
  exact hstart

theorem sound_mono (h : Sound cfg front s) (e : Event) : Sound cfg (front ++ [e]) s where
  stages id stage hlookup := by
    have hstage := h.stages id stage hlookup
    cases stage with
    | checkAndRecord now t | act now t => exact asked_mono hstage e
    | waiting c key =>
        rcases hstage with ⟨now, wait, hasked⟩
        exact ⟨now, wait, asked_mono hasked e⟩
  queues c key b hb := by
    rcases h.queues c key b hb with ⟨id, source, payload, ttl, now, random, heq, hasked⟩
    exact ⟨id, source, payload, ttl, now, random, heq, asked_mono hasked e⟩
  presence key r hr := by
    rcases h.presence key r hr with ⟨id, a, now, heq, hasked⟩
    exact ⟨id, a, now, heq, asked_mono hasked e⟩

theorem started_act (s : Service) (key : String) (now : Int) (random : FixedBytes 10)
    (task : Task) : (s.act key now random task).1.started = s.started := by
  cases task <;> rfl

theorem started_run (s : Service) (e : Event) :
    (s.run cfg e).1.started = s.started + (starts [e]).length := by
  unfold run
  cases e with
  | arrive now allow r | giveUp id =>
      dsimp only
      split <;> rfl
  | resolve now path => rfl
  | proceed id now random =>
      dsimp only
      split
      · rfl
      · rename_i stage _
        have hsame : (s.advance now random stage).1.started = s.started := by
          cases stage with
          | act start t => exact started_act s t.key start random t.task
          | _ => rfl
        split
        all_goals
          rename_i hadvance
          rw [hadvance] at hsame
          exact hsame

/-- One event, with its replies. -/
theorem sound_run (h : Sound cfg front s) (hstarted : s.started = (starts front).length)
    (e : Event) :
    Sound cfg (front ++ [e]) (s.run cfg e).1 ∧ RepliesSound cfg front (s.run cfg e).2 := by
  have hsame := sound_mono h e
  unfold run
  cases e with
  | arrive now allow r =>
      have hnext : Sound cfg (front ++ [Event.arrive now allow r])
          { s with started := s.started + 1 } := ⟨hsame.stages, hsame.queues, hsame.presence⟩
      dsimp only
      split
      · exact ⟨hnext, repliesSound_singleton trivial⟩
      · rename_i t hscreen
        refine ⟨sound_setStage hnext ⟨allow, r, t, ?_, hscreen, rfl, rfl,
          signedWith_of_screen hscreen⟩, repliesSound_nil⟩
        rw [starts_append, hstarted]
        exact List.getElem?_concat_length
  | resolve now path =>
      exact ⟨⟨hsame.stages, hsame.queues, hsame.presence⟩,
        repliesSound_singleton (resolve_sound h path now)⟩
  | proceed id now random =>
      dsimp only
      split
      · exact ⟨hsame, repliesSound_nil⟩
      · rename_i stage hlookup
        have hnext := sound_advance hsame (hsame.stages id stage hlookup) now random
        have hreply := (sound_advance h (h.stages id stage hlookup) now random).2
        split
        · rename_i hadvance
          rw [hadvance] at hnext
          exact ⟨sound_setStage hnext.1 hnext.2, repliesSound_nil⟩
        · rename_i hadvance
          rw [hadvance] at hnext hreply
          exact ⟨sound_erase hnext.1 id, repliesSound_singleton hreply⟩
  | giveUp id =>
      dsimp only
      split
      · rename_i c key hlookup
        refine ⟨sound_erase hsame id, repliesSound_singleton ⟨c, h.stages id _ hlookup, ?_⟩⟩
        exact fun _ hv => nomatch hv
      · exact ⟨hsame, repliesSound_nil⟩

theorem sound_new (skew : Duration) (guardKeys presenceKeys : Int)
    (caps : Channel -> QueueCaps) :
    Sound cfg front (new skew guardKeys presenceKeys caps) := by
  refine ⟨?_, ?_, ?_⟩
  · intro id stage h
    cases h
  · intro c key b h
    cases h
  · intro key r h
    cases h

/-- Whatever order the handlers run in, a poll is answered only by a handler that was started on a
request the holder of the key signed, with blobs that their senders signed for it before, and a
resolve with what the key signed itself. -/
theorem replies_signed_for (cfg : Config) (skew : Duration) (guardKeys presenceKeys : Int)
    (caps : Channel -> QueueCaps) (front : List Event) (e : Event) :
    RepliesSound cfg front
      (replies cfg (Transition.after (step cfg) (new skew guardKeys presenceKeys caps) front)
        e) := by
  let Numbered := fun front s => Sound cfg front s ∧ s.started = (starts front).length
  have hstart : Numbered [] (new skew guardKeys presenceKeys caps) := ⟨sound_new _ _ _ _, rfl⟩
  have hstep : forall s front e, Numbered front s -> True ->
      Numbered (front ++ [e]) (step cfg s e) := by
    intro s front e h _
    refine ⟨(sound_run h.1 h.2 e).1, ?_⟩
    rw [step, started_run, h.2, starts_append, List.length_append]
  have hrun := Transition.invariant_emitted hstep hstart
    (Transition.stepsMeet_true (step cfg) (new skew guardKeys presenceKeys caps) front)
  rw [Transition.emitted_event, List.nil_append] at hrun
  exact (sound_run hrun.1 hrun.2 e).2

/-- Every signature verifies, and every key is the same. -/
def openConfig : Config := ⟨false, fun _ => ⟨minute, minute⟩, fun _ _ _ => true⟩

def depositAndPoll : List Event :=
  let key := List.replicate 43 0x41
  let sig := List.replicate 86 0x41
  let random := FixedBytes.zero 10
  [Event.arrive second ⟨true, true⟩ (Request.deposit Channel.mailbox key
      ⟨key, key, [0x41, 0x51], 60, [1], 1, sig⟩),
    Event.proceed 0 0 random, Event.proceed 0 0 random,
    Event.arrive second ⟨true, true⟩ (Request.poll Channel.mailbox key ⟨key, [2], 1, sig, 0⟩),
    Event.proceed 1 0 random]

theorem deposit_is_polled :
    let start := new minute 8 8 fun _ => ⟨8, 8, 8, 8, minute⟩
    let outs := replies openConfig (Transition.after (step openConfig) start depositAndPoll)
      (Event.proceed 1 0 (FixedBytes.zero 10))
    outs.map (fun o => match o.2 with
      | Reply.polled _ blobs => (o.1, blobs.map BlobView.payload)
      | _ => (o.1, [])) = [(1, ["AQ"])] ∧ RepliesSound openConfig depositAndPoll outs :=
  ⟨by decide +kernel, replies_signed_for _ _ _ _ _ _ _⟩

end Service

end Rendezvous
end Ephor
