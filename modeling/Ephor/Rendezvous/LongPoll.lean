import Ephor.Rendezvous.Queue

/-!
# Long polling

The poll handler of the rendezvous service, and the deposits that wake it.  The
handler looks into the queue, and when it finds nothing registers a channel with
the notifier and waits for the channel to be closed, for a timer or for the client to
leave.  A deposit stores its blob, then takes the channels that wait for the key, and
then closes them.  All of these are separate critical sections.

The machine remembers the blobs that arrived since the handler first looked, and
a handler that returns notes which of them it leaves behind.
-/

namespace Ephor
namespace Rendezvous

open Foundation
open Foundation.GoTime

/-- Channels are known by numbers; `next` is the one that `make` returns. -/
structure Notifier where
  waits : FiniteMap String (List Nat)
  closed : Finset Nat
  next : Nat

namespace Notifier

def newNotifier : Notifier where
  waits := ∅
  closed := ∅
  next := 0

def waiting (n : Notifier) (key : String) : List Nat :=
  (n.waits.lookup key).getD []

def wait (n : Notifier) (key : String) : Nat × Notifier :=
  (n.next,
    { n with
      waits := n.waits.insert key (n.waiting key ++ [n.next])
      next := n.next + 1 })

/-- `cancel`: out of the key's list, and the key out of the map with the last one. -/
def cancel (n : Notifier) (key : String) (ch : Nat) : Notifier :=
  let list := (n.waiting key).erase ch
  { n with
    waits := if list = [] then n.waits.erase key else n.waits.insert key list }

/-- The section of `notify` under the lock. -/
def takeWaiters (n : Notifier) (key : String) : List Nat × Notifier :=
  (n.waiting key, { n with waits := n.waits.erase key })

def close (n : Notifier) (chans : List Nat) : Notifier :=
  { n with closed := n.closed ∪ chans.toFinset }

end Notifier

structure DepositArgs where
  source : String
  payload : Bytes
  ttl : Duration
  random : FixedBytes 10
deriving DecidableEq

inductive DepositStage where
  | insert
  | notify (b : Blob)
  | close (chans : List Nat)
  | done
deriving DecidableEq

structure PollOutcome where
  blobs : List BlobView
  disconnected : Bool
  /-- The live blobs that arrived since the first pickup and are still pending. -/
  leftBehind : List Blob
deriving DecidableEq

inductive PollStage where
  | start
  | register
  | waiting (ch : Nat)
  | returned (o : PollOutcome)
deriving DecidableEq

/-- One handler for one key; `longPoll` says whether the request asks to wait. -/
structure PollSystem where
  key : String
  longPoll : Bool
  queue : Queue
  notifier : Notifier
  poll : PollStage
  deposits : FiniteMap Nat (DepositArgs × DepositStage)
  arrived : List Blob

inductive PollEvent where
  | startDeposit (id : Nat) (args : DepositArgs)
  | deposit (id : Nat) (now : Int)
  | ack (ids : List String)
  | pickup (now : Int)
  | register
  | notified (now : Int)
  | timeout (now : Int)
  | disconnect (now : Int)

namespace PollSystem

def start (key : String) (longPoll : Bool) (queue : Queue) : PollSystem where
  key := key
  longPoll := longPoll
  queue := queue
  notifier := Notifier.newNotifier
  poll := PollStage.start
  deposits := ∅
  arrived := []

/-- What a handler that returns now leaves in the queue. -/
def leftBehind (s : PollSystem) (queue : Queue) (now : Int) : List Blob :=
  (queue.pending s.key).filter fun b => decide (b ∈ s.arrived) && b.live now

def advanceDeposit (s : PollSystem) (id : Nat) (args : DepositArgs) (now : Int) :
    DepositStage -> PollSystem
  | DepositStage.insert =>
      match s.queue.deposit args.source s.key args.payload args.ttl now args.random with
      | (DepositResult.ok _, queue) =>
          let b := newBlob args.source s.key args.payload args.ttl now args.random
          { s with
            queue := queue
            arrived := s.arrived ++ [b]
            deposits := s.deposits.insert id (args, DepositStage.notify b) }
      | (_, queue) =>
          { s with
            queue := queue
            deposits := s.deposits.insert id (args, DepositStage.done) }
  | DepositStage.notify _ =>
      { s with
        notifier := (s.notifier.takeWaiters s.key).2
        deposits := s.deposits.insert id
          (args, DepositStage.close (s.notifier.takeWaiters s.key).1) }
  | DepositStage.close chans =>
      { s with
        notifier := s.notifier.close chans
        deposits := s.deposits.insert id (args, DepositStage.done) }
  | DepositStage.done => s

/-- The first pickup; the handler goes on only without a blob and when asked to wait. -/
def firstPickup (s : PollSystem) (now : Int) : PollSystem :=
  let s := { s with arrived := [] }
  match s.queue.pickup s.key now with
  | ([], queue) =>
      { s with
        queue := queue
        poll :=
          if s.longPoll then PollStage.register
          else PollStage.returned ⟨[], false, s.leftBehind queue now⟩ }
  | (blobs, queue) =>
      { s with
        queue := queue
        poll := PollStage.returned ⟨blobs, false, s.leftBehind queue now⟩ }

def secondPickup (s : PollSystem) (ch : Nat) (now : Int) : PollSystem :=
  { s with
    queue := (s.queue.pickup s.key now).2
    notifier := s.notifier.cancel s.key ch
    poll := PollStage.returned
      ⟨(s.queue.pickup s.key now).1, false,
        s.leftBehind (s.queue.pickup s.key now).2 now⟩ }

def giveUp (s : PollSystem) (ch : Nat) (disconnected : Bool) (now : Int) : PollSystem :=
  { s with
    notifier := s.notifier.cancel s.key ch
    poll := PollStage.returned ⟨[], disconnected, s.leftBehind s.queue now⟩ }

def step (s : PollSystem) : PollEvent -> PollSystem
  | PollEvent.startDeposit id args =>
      match s.deposits.lookup id with
      | none => { s with deposits := s.deposits.insert id (args, DepositStage.insert) }
      | some _ => s
  | PollEvent.deposit id now =>
      match s.deposits.lookup id with
      | none => s
      | some (args, stage) => s.advanceDeposit id args now stage
  | PollEvent.ack ids => { s with queue := (s.queue.ack s.key ids).2 }
  | PollEvent.pickup now =>
      match s.poll with
      | PollStage.start => s.firstPickup now
      | _ => s
  | PollEvent.register =>
      match s.poll with
      | PollStage.register =>
          { s with
            notifier := (s.notifier.wait s.key).2
            poll := PollStage.waiting (s.notifier.wait s.key).1 }
      | _ => s
  | PollEvent.notified now =>
      match s.poll with
      | PollStage.waiting ch =>
          if ch ∈ s.notifier.closed then s.secondPickup ch now else s
      | _ => s
  | PollEvent.timeout now =>
      match s.poll with
      | PollStage.waiting ch => s.giveUp ch false now
      | _ => s
  | PollEvent.disconnect now =>
      match s.poll with
      | PollStage.waiting ch => s.giveUp ch true now
      | _ => s

/-!
# Lost wakeups

A deposit that takes the waiting channels before the handler has registered its
own does not wake it.  And the timer's branch does not look into the queue, so it
must not win against a deposit that has stored its blob.
-/

/-- A handler that returns empty-handed to a client that is there leaves nothing. -/
def LosesNothing (s : PollSystem) : Prop :=
  forall o, s.poll = PollStage.returned o -> o.blobs = [] -> o.disconnected = false ->
    o.leftBehind = []

/-- A deposit that arrived since the first pickup has still to take the channels. -/
def ToNotify (s : PollSystem) (b : Blob) : Prop :=
  exists id args, s.deposits.lookup id = some (args, DepositStage.notify b)

def notifiesArrived (s : PollSystem) : DepositStage -> Bool
  | DepositStage.notify b => decide (b ∈ s.arrived)
  | _ => false

/-- The channel is registered and no deposit that arrived has still to notify. -/
def TimerFits (s : PollSystem) : PollStage -> Prop
  | PollStage.waiting ch =>
      ch ∈ s.notifier.waiting s.key ∧
        FiniteMap.any (fun _ d => s.notifiesArrived d.2) s.deposits = false
  | _ => True

instance (s : PollSystem) (stage : PollStage) : Decidable (s.TimerFits stage) :=
  match stage with
  | PollStage.waiting _ => inferInstanceAs (Decidable (_ ∧ _))
  | PollStage.start => inferInstanceAs (Decidable True)
  | PollStage.register => inferInstanceAs (Decidable True)
  | PollStage.returned _ => inferInstanceAs (Decidable True)

/--
No deposit that arrived notifies in the gap before the registration, and the timer
is taken only while it fits.
-/
def WakesInOrder (s : PollSystem) : PollEvent -> Prop
  | PollEvent.deposit id _ =>
      s.poll = PollStage.register -> forall d, d ∈ s.deposits.lookup id ->
        s.notifiesArrived d.2 = false
  | PollEvent.timeout _ => s.TimerFits s.poll
  | _ => True

instance (s : PollSystem) (e : PollEvent) : Decidable (s.WakesInOrder e) :=
  match e with
  | PollEvent.deposit id _ =>
      inferInstanceAs (Decidable (_ -> forall d, d ∈ s.deposits.lookup id -> _))
  | PollEvent.timeout _ => inferInstanceAs (Decidable (s.TimerFits s.poll))
  | PollEvent.startDeposit _ _ => inferInstanceAs (Decidable True)
  | PollEvent.ack _ => inferInstanceAs (Decidable True)
  | PollEvent.pickup _ => inferInstanceAs (Decidable True)
  | PollEvent.register => inferInstanceAs (Decidable True)
  | PollEvent.notified _ => inferInstanceAs (Decidable True)
  | PollEvent.disconnect _ => inferInstanceAs (Decidable True)

/-- What is known of the blobs that arrived while the handler is under way. -/
structure Watched (s : PollSystem) : Prop where
  gap : s.poll = PollStage.register -> forall b, b ∈ s.arrived -> s.ToNotify b
  registered : forall ch, s.poll = PollStage.waiting ch ->
    ch ∈ s.notifier.waiting s.key -> forall b, b ∈ s.arrived -> s.ToNotify b
  kept : s.LosesNothing

theorem watched_start (key : String) (longPoll : Bool) (queue : Queue) :
    Watched (start key longPoll queue) := by
  refine ⟨?_, ?_, ?_⟩
  · intro h
    cases h
  · intro ch h
    cases h
  · intro o h
    cases h

variable {s : PollSystem} {id : Nat}

theorem toNotify_of_other {t : PollSystem} {d : DepositArgs × DepositStage}
    (ht : t.deposits = s.deposits.insert id d) {b : Blob}
    (hid : forall args, s.deposits.lookup id ≠ some (args, DepositStage.notify b))
    (h : s.ToNotify b) : t.ToNotify b := by
  rcases h with ⟨j, args, hj⟩
  have hne : j ≠ id := by
    intro heq
    exact hid args (heq ▸ hj)
  refine ⟨j, args, ?_⟩
  rw [ht, Finmap.lookup_insert_of_ne _ hne, hj]

theorem watched_other {t : PollSystem} (h : Watched s) {d : DepositArgs × DepositStage}
    (hid : forall b args, s.deposits.lookup id ≠ some (args, DepositStage.notify b))
    (hdeposits : t.deposits = s.deposits.insert id d) (hkey : t.key = s.key)
    (hpoll : t.poll = s.poll) (hwaits : t.notifier.waits = s.notifier.waits)
    (harrived : t.arrived = s.arrived) : Watched t := by
  refine ⟨?_, ?_, ?_⟩
  · intro hgap b hb
    rw [hpoll] at hgap
    rw [harrived] at hb
    exact toNotify_of_other hdeposits (hid b) (h.gap hgap b hb)
  · intro ch hch hmem b hb
    rw [hpoll] at hch
    rw [Notifier.waiting, hwaits, hkey] at hmem
    rw [harrived] at hb
    exact toNotify_of_other hdeposits (hid b) (h.registered ch hch hmem b hb)
  · intro o ho
    rw [hpoll] at ho
    exact h.kept o ho

theorem watched_insert (h : Watched s) {args : DepositArgs}
    (hid : s.deposits.lookup id = some (args, DepositStage.insert)) (queue : Queue) (b : Blob) :
    Watched { s with
      queue := queue
      arrived := s.arrived ++ [b]
      deposits := s.deposits.insert id (args, DepositStage.notify b) } := by
  have hother : forall b' args', s.deposits.lookup id ≠
      some (args', DepositStage.notify b') := by
    intro b' args' heq
    rw [hid] at heq
    cases heq
  have hcases : forall b', b' ∈ s.arrived ++ [b] ->
      (b' ∈ s.arrived -> s.ToNotify b') ->
      ToNotify { s with
        queue := queue
        arrived := s.arrived ++ [b]
        deposits := s.deposits.insert id (args, DepositStage.notify b) } b' := by
    intro b' hb' hold
    rcases List.mem_append.mp hb' with hin | hnew
    · exact toNotify_of_other rfl (hother b') (hold hin)
    · rw [List.mem_singleton.mp hnew]
      exact ⟨id, args, Finmap.lookup_insert _⟩
  refine ⟨?_, ?_, h.kept⟩
  · intro hgap b' hb'
    exact hcases b' hb' (h.gap hgap b')
  · intro ch hch hmem b' hb'
    exact hcases b' hb' (h.registered ch hch hmem b')

theorem watched_notify (h : Watched s) {args : DepositArgs} {b : Blob}
    (hid : s.deposits.lookup id = some (args, DepositStage.notify b))
    (hgap : s.poll = PollStage.register -> b ∉ s.arrived) (chans : List Nat) :
    Watched { s with
      notifier := (s.notifier.takeWaiters s.key).2
      deposits := s.deposits.insert id (args, DepositStage.close chans) } := by
  refine ⟨?_, ?_, h.kept⟩
  · intro hpoll b' hb'
    have hne : forall args', s.deposits.lookup id ≠
        some (args', DepositStage.notify b') := by
      intro args' heq
      rw [hid] at heq
      cases heq
      exact hgap hpoll hb'
    exact toNotify_of_other rfl hne (h.gap hpoll b' hb')
  · intro ch _ hmem
    have hnone : Notifier.waiting (s.notifier.takeWaiters s.key).2 s.key = [] := by
      simp [Notifier.waiting, Notifier.takeWaiters]
    dsimp only at hmem
    rw [hnone] at hmem
    cases hmem

theorem watched_advanceDeposit (h : Watched s) {args : DepositArgs} {stage : DepositStage}
    (hid : s.deposits.lookup id = some (args, stage)) (now : Int)
    (hgap : s.poll = PollStage.register -> s.notifiesArrived stage = false) :
    Watched (s.advanceDeposit id args now stage) := by
  have hother : (forall b, stage ≠ DepositStage.notify b) -> forall b args',
      s.deposits.lookup id ≠ some (args', DepositStage.notify b) := by
    intro hstage b args' heq
    rw [hid] at heq
    cases heq
    exact hstage b rfl
  cases stage with
  | insert =>
      rw [advanceDeposit]
      split
      · exact watched_insert h hid _ _
      · exact watched_other h (hother (fun _ heq => nomatch heq)) rfl rfl rfl rfl rfl
  | notify b =>
      refine watched_notify h hid ?_ _
      intro hpoll
      exact of_decide_eq_false (hgap hpoll)
  | close chans =>
      exact watched_other (t := s.advanceDeposit id args now (DepositStage.close chans)) h
        (hother (fun _ heq => nomatch heq)) rfl rfl rfl rfl rfl
  | done => exact h

theorem watched_returned {o : PollOutcome} (hpoll : s.poll = PollStage.returned o)
    (h : o.blobs = [] -> o.disconnected = false -> o.leftBehind = []) : Watched s := by
  refine ⟨?_, ?_, ?_⟩
  · intro hgap
    rw [hpoll] at hgap
    cases hgap
  · intro ch hch
    rw [hpoll] at hch
    cases hch
  · intro o' ho'
    rw [hpoll] at ho'
    cases ho'
    exact h

theorem leftBehind_of_none_arrived (h : s.arrived = []) (queue : Queue) (now : Int) :
    s.leftBehind queue now = [] := by
  unfold leftBehind
  rw [h]
  apply List.filter_eq_nil_iff.mpr
  intro b _
  simp

theorem watched_firstPickup (s : PollSystem) (now : Int) : Watched (s.firstPickup now) := by
  have hleft : forall queue, leftBehind { s with arrived := [] } queue now = [] :=
    fun queue => leftBehind_of_none_arrived rfl queue now
  unfold firstPickup
  dsimp only
  split
  · split
    · refine ⟨?_, ?_, ?_⟩
      · intro _ b hb
        cases hb
      · intro ch hch
        cases hch
      · intro o ho
        cases ho
    · exact watched_returned rfl (fun _ _ => hleft _)
  · exact watched_returned rfl (fun _ _ => hleft _)

theorem watched_secondPickup (s : PollSystem) (ch : Nat) (now : Int) :
    Watched (s.secondPickup ch now) := by
  apply watched_returned rfl
  intro hempty _
  have hnone : ((s.queue.pickup s.key now).2.pending s.key).filter (Blob.live now) = [] :=
    List.map_eq_nil_iff.mp hempty
  apply List.filter_eq_nil_iff.mpr
  intro b hb hboth
  have hlive := List.filter_eq_nil_iff.mp hnone b hb
  simp only [Bool.and_eq_true] at hboth
  exact hlive hboth.2

theorem watched_timeout (h : Watched s) {ch : Nat} (now : Int)
    (hpoll : s.poll = PollStage.waiting ch) (hfits : s.TimerFits (PollStage.waiting ch)) :
    Watched (s.giveUp ch false now) := by
  apply watched_returned rfl
  intro _ _
  apply leftBehind_of_none_arrived
  rw [List.eq_nil_iff_forall_not_mem]
  intro b hb
  rcases h.registered ch hpoll hfits.1 b hb with ⟨id, args, hid⟩
  have hany : FiniteMap.any (fun _ d => s.notifiesArrived d.2) s.deposits = true := by
    apply FiniteMap.any_eq_true.mpr
    exact ⟨id, _, hid, decide_eq_true hb⟩
  have hnone := hfits.2
  rw [hany] at hnone
  cases hnone

theorem watched_step (s : PollSystem) (e : PollEvent) (h : Watched s)
    (horder : s.WakesInOrder e) : Watched (s.step e) := by
  cases e with
  | startDeposit id args =>
      rw [step]
      split
      · rename_i hnone
        refine watched_other h ?_ rfl rfl rfl rfl rfl
        intro b args' heq
        rw [hnone] at heq
        cases heq
      · exact h
  | deposit id now =>
      rw [step]
      split
      · exact h
      · rename_i args stage hid
        exact watched_advanceDeposit h hid now (fun hpoll => horder hpoll _ hid)
  | ack ids => exact ⟨h.gap, h.registered, h.kept⟩
  | pickup now =>
      rw [step]
      split
      · exact watched_firstPickup s now
      · exact h
  | register =>
      rw [step]
      split
      · rename_i hpoll
        refine ⟨?_, ?_, ?_⟩
        · intro hgap
          cases hgap
        · intro ch _ _ b hb
          exact h.gap hpoll b hb
        · intro o ho
          cases ho
      · exact h
  | notified now =>
      rw [step]
      split
      · split
        · exact watched_secondPickup s _ now
        · exact h
      · exact h
  | timeout now =>
      rw [step]
      split
      · rename_i ch hpoll
        rw [WakesInOrder, hpoll] at horder
        exact watched_timeout h now hpoll horder
      · exact h
  | disconnect now =>
      rw [step]
      split
      · exact watched_returned rfl (fun _ hfalse => nomatch hfalse)
      · exact h

/-- Where deposits wake the handler in order, no wakeup is lost. -/
theorem losesNothing_of_wakesInOrder (key : String) (longPoll : Bool) (queue : Queue)
    (events : List PollEvent)
    (horder : Transition.StepsMeet step WakesInOrder (start key longPoll queue) events) :
    LosesNothing (Transition.after step (start key longPoll queue) events) :=
  (Transition.invariant_after watched_step (watched_start key longPoll queue)
    horder).kept

/-!
# A deposit in the gap
-/

def roomyCaps : QueueCaps where
  maxBlobBytes := 1024
  maxPerKeyBlobs := 8
  maxPerKeyBytes := 8192
  maxKeys := 16
  sweepEvery := minute

def aliceDeposit : DepositArgs where
  source := "alice"
  payload := [1, 2, 3]
  ttl := minute
  random := FixedBytes.zero 10

def waitingBob : PollSystem :=
  start "bob" true (Queue.newQueue roomyCaps)

def wokenRun : List PollEvent :=
  [PollEvent.startDeposit 0 aliceDeposit, PollEvent.pickup 5, PollEvent.deposit 0 6,
    PollEvent.register, PollEvent.deposit 0 7, PollEvent.deposit 0 8,
    PollEvent.notified 9]

theorem wokenRun_losesNothing :
    (exists o, (Transition.after step waitingBob wokenRun).poll =
        PollStage.returned o ∧ o.blobs.length = 1) ∧
      LosesNothing (Transition.after step waitingBob wokenRun) := by
  constructor
  · exact ⟨_, rfl, by decide +kernel⟩
  · exact losesNothing_of_wakesInOrder "bob" true (Queue.newQueue roomyCaps) wokenRun
      (by decide +kernel)

def missedRun : List PollEvent :=
  [PollEvent.startDeposit 0 aliceDeposit, PollEvent.pickup 5, PollEvent.deposit 0 6,
    PollEvent.deposit 0 7, PollEvent.deposit 0 8, PollEvent.register,
    PollEvent.timeout 9]

theorem missedRun_leaves_blob :
    exists o, (Transition.after step waitingBob missedRun).poll = PollStage.returned o ∧
      o.blobs = [] ∧ o.disconnected = false ∧ o.leftBehind.length = 1 := by
  refine ⟨_, rfl, ?_⟩
  decide +kernel

end PollSystem

end Rendezvous
end Ephor
