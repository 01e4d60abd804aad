import Mathlib.Data.List.Perm.Basic
import Ephor.Foundation.Transition
import Ephor.Foundation.WebText

/-!
# The life of a rendezvous client

`RendezvousSignalingClient` of `client/src/rendezvousSignaling.ts`: `connect`, the heartbeats, the
two poll loops, the reconnects and `close`.  Every asynchronous call runs to its next `await` and
is resumed later, in any order with the others; a state holds what is suspended and the timers
that are set.  What the polls deliver to the handshake is left out: nothing here reads it.
-/

namespace Ephor
namespace Client
namespace Rendezvous

open Foundation
open Foundation.WebText
open Foundation.Transition

def reconnectBaseMs : Nat := 1000

def reconnectMaxMs : Nat := 30000

/-- What awaits a call of `_announceAndJoin`. -/
inductive Owner where
  | connect
  | heartbeat
deriving DecidableEq

/-- What a call of `_announceAndJoin` awaits. -/
inductive JoinStage where
  | announcing
  | building
  | depositing
deriving DecidableEq

structure Call where
  owner : Owner
  stage : JoinStage
deriving DecidableEq

inductive LoopStage where
  | polling
  | sleeping
deriving DecidableEq

/-- What the client starts, and the events it dispatches. -/
inductive Effect where
  | announce
  | depositJoin
  | depositLeave
  | ack (id : JsString)
  | withdraw
  | signalingOpen
  | signalingClose
  | offline (attempts : Nat)
deriving DecidableEq

structure State where
  pollLoop : Bool
  maxAttempts : Nat
  stopped : Bool
  opened : Bool
  degraded : Bool
  reconnectAttempts : Nat
  boardBlobId : Option JsString
  heartbeatTimer : Option Nat
  timers : List Nat
  nextTimer : Nat
  reconnects : List Nat
  calls : List Call
  board : List LoopStage
  inbox : List LoopStage
deriving DecidableEq

/-- How an awaited promise settles; of a deposit, with the id of the blob. -/
inductive Settled where
  | fulfilled (id : Option JsString)
  | rejected
deriving DecidableEq

/-- What is called, and what the environment resumes. -/
inductive Event where
  | connect
  | close
  | resume (i : Nat) (result : Settled)
  | resumeBoard (i : Nat) (result : Settled)
  | resumeInbox (i : Nat) (result : Settled)
  | heartbeat (timer : Nat)
  | reconnect (i : Nat)
deriving DecidableEq

def fresh (pollLoop : Bool) (maxAttempts : Nat) : State where
  pollLoop := pollLoop
  maxAttempts := maxAttempts
  stopped := false
  opened := false
  degraded := false
  reconnectAttempts := 0
  boardBlobId := none
  heartbeatTimer := none
  timers := []
  nextTimer := 0
  reconnects := []
  calls := []
  board := []
  inbox := []

/-!
# The methods
-/

abbrev Outcome : Type :=
  State × List Effect

def Outcome.next (r : Outcome) (f : State -> Outcome) : Outcome :=
  ((f r.1).1, r.2 ++ (f r.1).2)

def markOpen (s : State) : Outcome :=
  ({ s with reconnectAttempts := 0, degraded := false, opened := true },
    if s.opened then [] else [Effect.signalingOpen])

def markClosed (s : State) : Outcome :=
  ({ s with opened := false }, if s.opened then [Effect.signalingClose] else [])

/-- `_scheduleReconnect` behind its guard and `_markClosed`. -/
def setReconnect (s : State) : Outcome :=
  let attempts := s.reconnectAttempts + 1
  let offline := s.maxAttempts <= attempts && !s.degraded
  ({ s with
      reconnectAttempts := attempts
      degraded := s.degraded || offline
      reconnects := s.reconnects ++ [min (reconnectBaseMs * 2 ^ (attempts - 1)) reconnectMaxMs] },
    if offline then [Effect.offline attempts] else [])

def scheduleReconnect (s : State) : Outcome :=
  if s.stopped then (s, []) else (markClosed s).next setReconnect

def announceAndJoin (owner : Owner) (s : State) : Outcome :=
  ({ s with calls := s.calls ++ [⟨owner, JoinStage.announcing⟩] }, [Effect.announce])

def connect (s : State) : Outcome :=
  announceAndJoin Owner.connect { s with stopped := false }

def loopTurn (s : State) : List LoopStage :=
  if s.stopped then [] else [LoopStage.polling]

def startLoops (s : State) : Outcome :=
  if s.pollLoop then
    ({ s with
        board := s.board ++ loopTurn s
        inbox := s.inbox ++ loopTurn s
        heartbeatTimer := some s.nextTimer
        timers := s.timers ++ [s.nextTimer]
        nextTimer := s.nextTimer + 1 }, [])
  else
    (s, [])

/-- What follows in the caller when `_announceAndJoin` returns. -/
def joined (owner : Owner) (s : State) : Outcome :=
  match owner with
  | Owner.connect => (markOpen s).next startLoops
  | Owner.heartbeat => (s, [])

/-- What follows in the caller when `_announceAndJoin` throws. -/
def notJoined (owner : Owner) (s : State) : Outcome :=
  match owner with
  | Owner.connect => scheduleReconnect s
  | Owner.heartbeat => (s, [])

/-- `if (this._boardBlobId) this._room.signalAck(..)`. -/
def ackBoard (s : State) : List Effect :=
  s.boardBlobId.toList.map Effect.ack

/-- The next part of `_announceAndJoin`, in the call with the given place. -/
def resumeJoin (i : Nat) (call : Call) (result : Settled) (s : State) : Outcome :=
  match call.stage, result with
  | JoinStage.announcing, _ =>
      ({ s with calls := s.calls.set i ⟨call.owner, JoinStage.building⟩ }, [])
  | JoinStage.building, Settled.fulfilled _ =>
      ({ s with calls := s.calls.set i ⟨call.owner, JoinStage.depositing⟩ },
        ackBoard s ++ [Effect.depositJoin])
  | JoinStage.depositing, Settled.fulfilled id =>
      joined call.owner { s with
        calls := s.calls.eraseIdx i
        boardBlobId := id.filter fun id => !id.isEmpty }
  | _, Settled.rejected =>
      notJoined call.owner { s with calls := s.calls.eraseIdx i }

/-- A loop after its poll or its sleep: it sleeps or polls next, or it ends. -/
def loopOn (s : State) (loops : List LoopStage) (i : Nat) (next : LoopStage) :
    List LoopStage :=
  if s.stopped then loops.eraseIdx i else loops.set i next

/-- The next part of `_loopBoard`. -/
def resumeBoardLoop (i : Nat) (stage : LoopStage) (result : Settled) (s : State) : Outcome :=
  match stage, result with
  | LoopStage.sleeping, _ => ({ s with board := loopOn s s.board i LoopStage.polling }, [])
  | LoopStage.polling, Settled.fulfilled _ =>
      markOpen { s with board := loopOn s s.board i LoopStage.sleeping }
  | LoopStage.polling, Settled.rejected =>
      scheduleReconnect { s with board := s.board.eraseIdx i }

/-- The next part of `_loopInbox`, which goes on when a poll fails. -/
def resumeInboxLoop (i : Nat) (stage : LoopStage) (s : State) : Outcome :=
  match stage with
  | LoopStage.sleeping => ({ s with inbox := loopOn s s.inbox i LoopStage.polling }, [])
  | LoopStage.polling => ({ s with inbox := loopOn s s.inbox i LoopStage.sleeping }, [])

def close (s : State) : Outcome :=
  ({ s with
      stopped := true
      timers := s.heartbeatTimer.elim s.timers s.timers.erase
      heartbeatTimer := none },
    Effect.depositLeave :: ackBoard s ++ [Effect.withdraw])

def act (s : State) : Event -> Outcome
  | Event.connect => connect s
  | Event.close => close s
  | Event.resume i result =>
      match s.calls[i]? with
      | some call => resumeJoin i call result s
      | none => (s, [])
  | Event.resumeBoard i result =>
      match s.board[i]? with
      | some stage => resumeBoardLoop i stage result s
      | none => (s, [])
  | Event.resumeInbox i _ =>
      match s.inbox[i]? with
      | some stage => resumeInboxLoop i stage s
      | none => (s, [])
  | Event.heartbeat timer =>
      if timer ∈ s.timers then announceAndJoin Owner.heartbeat s else (s, [])
  | Event.reconnect i =>
      match s.reconnects[i]? with
      | some _ =>
          let rest := { s with reconnects := s.reconnects.eraseIdx i }
          if s.stopped then (rest, []) else connect rest
      | none => (s, [])

def step (s : State) (e : Event) : State :=
  (act s e).1

def effects (s : State) (e : Event) : List Effect :=
  (act s e).2

/-!
# Orderly runs
-/

def isConnect (call : Call) : Bool :=
  call.owner == Owner.connect

/-- A call of `_announceAndJoin` that starts nothing more: a heartbeat that awaits its deposit. -/
def Call.last : Call :=
  ⟨Owner.heartbeat, JoinStage.depositing⟩

/-- The connects, scheduled reconnects and board loops: each of them leads to the next. -/
def chain (s : State) : Nat :=
  s.calls.countP isConnect + s.reconnects.length + s.board.length

/--
`connect` is called on a client that is neither connected nor closed, `close` with no call of
`_announceAndJoin` on its way but heartbeats that await their deposit, and no connect is
established beside the inbox loop and the heartbeat of an earlier one.
-/
def Orderly (s : State) : Event -> Prop
  | Event.connect => s.stopped = false ∧ chain s = 0
  | Event.close => forall call, call ∈ s.calls -> call = Call.last
  | Event.resume i (Settled.fulfilled _) =>
      s.calls[i]? = some ⟨Owner.connect, JoinStage.depositing⟩ -> s.pollLoop = true ->
        s.inbox = [] ∧ s.timers = []
  | _ => True

instance (s : State) : forall e, Decidable (Orderly s e)
  | Event.connect => inferInstanceAs (Decidable (_ ∧ _))
  | Event.close => inferInstanceAs (Decidable (forall call, call ∈ s.calls -> _))
  | Event.resume _ (Settled.fulfilled _) => inferInstanceAs (Decidable (_ -> _))
  | Event.resume _ Settled.rejected => inferInstanceAs (Decidable True)
  | Event.resumeBoard _ _ => inferInstanceAs (Decidable True)
  | Event.resumeInbox _ _ => inferInstanceAs (Decidable True)
  | Event.heartbeat _ => inferInstanceAs (Decidable True)
  | Event.reconnect _ => inferInstanceAs (Decidable True)

def Single (s : State) : Prop :=
  s.board.length <= 1 ∧ s.inbox.length <= 1 ∧ s.timers.length <= 1

instance (s : State) : Decidable (Single s) :=
  inferInstanceAs (Decidable (_ ∧ _))

/-- Neither an announce nor a join deposit is among the effects. -/
def Silent (started : List Effect) : Prop :=
  Effect.announce ∉ started ∧ Effect.depositJoin ∉ started

instance (started : List Effect) : Decidable (Silent started) :=
  inferInstanceAs (Decidable (_ ∧ _))

/--
After `close` nothing is announced and no join is deposited, and until then nothing runs twice.
-/
def Gone (s : State) (events : List Event) : Prop :=
  (forall before later, events = before ++ Event.close :: later ->
    Silent (emitted step effects (after step s (before ++ [Event.close])) later)) ∧
  forall before later, events = before ++ later -> Event.close ∉ before ->
    Single (after step s before)

structure Settles (s : State) : Prop where
  timers : s.timers = s.heartbeatTimer.toList
  single : chain s <= 1 ∧ s.inbox.length <= 1
  gone : s.stopped = true -> s.timers = [] ∧ forall call, call ∈ s.calls -> call = Call.last

/-- What a piece of code does to an orderly client: after `close` it starts nothing. -/
structure Goes (stopped : Bool) (r : Outcome) : Prop where
  settles : Settles r.1
  stays : stopped = true -> r.1.stopped = true ∧ Silent r.2

theorem silent_nil : Silent [] :=
  ⟨List.not_mem_nil, List.not_mem_nil⟩

theorem silent_append {a b : List Effect} (ha : Silent a) (hb : Silent b) : Silent (a ++ b) := by
  rw [Silent, List.mem_append, List.mem_append, not_or, not_or]
  exact ⟨⟨ha.1, hb.1⟩, ha.2, hb.2⟩

theorem silent_ackBoard (s : State) : Silent (ackBoard s) := by
  cases h : s.boardBlobId <;> simp [Silent, ackBoard, h]

theorem settles_fresh (pollLoop : Bool) (maxAttempts : Nat) :
    Settles (fresh pollLoop maxAttempts) where
  timers := rfl
  single := ⟨Nat.zero_le 1, Nat.zero_le 1⟩
  gone := fun h => nomatch h

variable {s : State} {i : Nat} {call : Call}

theorem goes_quietly (h : Settles s) : Goes s.stopped (s, []) :=
  ⟨h, fun hstop => ⟨hstop, silent_nil⟩⟩

theorem goes_markOpen (h : Settles s) : Goes s.stopped (markOpen s) := by
  refine ⟨⟨h.timers, h.single, h.gone⟩, fun hstop => ⟨hstop, ?_⟩⟩
  cases hopened : s.opened <;> simp [Silent, markOpen, hopened]

theorem goes_scheduleReconnect (h : Settles s) (hchain : chain s = 0) :
    Goes s.stopped (scheduleReconnect s) := by
  rw [scheduleReconnect]
  split
  · exact goes_quietly h
  · rename_i hrunning
    refine ⟨⟨h.timers, ⟨?_, h.single.2⟩, fun hstop => absurd hstop hrunning⟩,
      fun hstop => absurd hstop hrunning⟩
    rw [chain] at hchain
    simp only [chain, Outcome.next, markClosed, setReconnect, List.length_append,
      List.length_singleton]
    omega

theorem goes_connect (h : Settles s) (hrunning : s.stopped = false) (hchain : chain s = 0) :
    Goes s.stopped (connect s) := by
  refine ⟨⟨h.timers, ⟨?_, h.single.2⟩, fun hstop => nomatch hstop⟩, fun hstop => ?_⟩
  · rw [chain] at hchain
    simp only [chain, connect, announceAndJoin, List.countP_append]
    change _ + 1 + _ + _ <= _
    omega
  · rw [hrunning] at hstop
    cases hstop

theorem goes_heartbeat (h : Settles s) (hrunning : s.stopped = false) :
    Goes s.stopped (announceAndJoin Owner.heartbeat s) := by
  have hstops : Not (s.stopped = true) := by
    rw [hrunning]
    exact Bool.false_ne_true
  refine ⟨⟨h.timers, ⟨?_, h.single.2⟩, fun hstop => absurd hstop hstops⟩,
    fun hstop => absurd hstop hstops⟩
  simp only [chain, announceAndJoin, List.countP_append]
  exact h.single.1

theorem goes_close (h : Settles s)
    (hcalls : forall call, call ∈ s.calls ->
    call = Call.last) : Goes s.stopped (close s) := by
  have htimers : s.heartbeatTimer.elim s.timers s.timers.erase = [] := by
    rw [h.timers]
    cases s.heartbeatTimer with
    | none => rfl
    | some timer => simp
  refine ⟨⟨htimers, h.single, fun _ => ⟨htimers, hcalls⟩⟩, fun _ => ⟨rfl, ?_⟩⟩
  have hack := silent_ackBoard s
  simp only [Silent, close, List.cons_append, List.mem_cons, List.mem_append] at hack ⊢
  simp [hack.1, hack.2]

/-!
# One part of a call
-/

theorem countP_eraseIdx {calls : List Call} (h : calls[i]? = some call) :
    calls.countP isConnect =
      (calls.eraseIdx i).countP isConnect + if isConnect call then 1 else 0 := by
  rcases List.getElem?_eq_some_iff.mp h with ⟨hi, hget⟩
  rw [<- (List.getElem_cons_eraseIdx_perm hi).countP_eq, List.countP_cons, hget]

theorem countP_set {calls : List Call} (h : calls[i]? = some call) (stage : JoinStage) :
    (calls.set i ⟨call.owner, stage⟩).countP isConnect = calls.countP isConnect := by
  rcases List.getElem?_eq_some_iff.mp h with ⟨hi, _⟩
  rw [(List.set_perm_cons_eraseIdx hi _).countP_eq, List.countP_cons, countP_eraseIdx h]
  rfl

theorem chain_set (h : s.calls[i]? = some call) (stage : JoinStage) :
    chain { s with calls := s.calls.set i ⟨call.owner, stage⟩ } = chain s := by
  rw [chain, chain, countP_set h]

theorem settles_set (h : Settles s) (hcall : s.calls[i]? = some call)
    (hrunning : s.stopped = false) (stage : JoinStage) :
    Settles { s with calls := s.calls.set i ⟨call.owner, stage⟩ } := by
  refine ⟨h.timers, ⟨?_, h.single.2⟩, fun hstop => nomatch hrunning.symm.trans hstop⟩
  rw [chain_set hcall]
  exact h.single.1

theorem settles_eraseCall (h : Settles s) (hcall : s.calls[i]? = some call) :
    Settles { s with calls := s.calls.eraseIdx i } ∧
      (call.owner = Owner.connect -> chain { s with calls := s.calls.eraseIdx i } = 0) := by
  have hcount := countP_eraseIdx hcall
  have hchain := h.single.1
  rw [chain] at hchain
  constructor
  · refine ⟨h.timers, ⟨?_, h.single.2⟩, ?_⟩
    · rw [chain]
      change (s.calls.eraseIdx i).countP isConnect + s.reconnects.length + s.board.length <= 1
      omega
    · intro hstop
      rcases h.gone hstop with ⟨htimers, hcalls⟩
      exact ⟨htimers, fun call hmem => hcalls call (List.mem_of_mem_eraseIdx hmem)⟩
  · intro howner
    have hconnect : isConnect call = true := by
      rw [isConnect, howner]
      rfl
    rw [hconnect, if_pos rfl] at hcount
    rw [chain]
    change (s.calls.eraseIdx i).countP isConnect + s.reconnects.length + s.board.length = 0
    omega

theorem running_of_stage (h : Settles s) (hcall : s.calls[i]? = some call)
    (hlast : call ≠ Call.last) : s.stopped = false := by
  cases hstop : s.stopped with
  | false => rfl
  | true => exact absurd ((h.gone hstop).2 call (List.mem_of_getElem? hcall)) hlast

theorem goes_notJoined (h : Settles s) (hcall : s.calls[i]? = some call) :
    Goes s.stopped (notJoined call.owner { s with calls := s.calls.eraseIdx i }) := by
  rcases settles_eraseCall h hcall with ⟨hsettles, hchain⟩
  cases howner : call.owner with
  | connect => exact goes_scheduleReconnect hsettles (hchain howner)
  | heartbeat => exact goes_quietly hsettles

theorem settles_startLoops (h : Settles s) (hrunning : s.stopped = false) (hchain : chain s = 0)
    (hroom : s.pollLoop = true -> s.inbox = [] ∧ s.timers = []) : Settles (startLoops s).1 := by
  rw [startLoops]
  split
  · rename_i hpoll
    rcases hroom hpoll with ⟨hinbox, htimers⟩
    have hturn : loopTurn s = [LoopStage.polling] :=
      if_neg (by rw [hrunning]; exact Bool.false_ne_true)
    refine ⟨?_, ?_, fun hstop => nomatch hrunning.symm.trans hstop⟩
    · change s.timers ++ [s.nextTimer] = [s.nextTimer]
      rw [htimers, List.nil_append]
    · rw [chain] at hchain
      simp only [chain, hturn, hinbox, List.length_append, List.length_singleton]
      exact ⟨by omega, Nat.le_refl 1⟩
  · exact h

theorem goes_joined (h : Settles s) (hcall : s.calls[i]? = some call) (blob : Option JsString)
    (hroom : call.owner = Owner.connect -> s.pollLoop = true -> s.inbox = [] ∧ s.timers = []) :
    Goes s.stopped
      (joined call.owner { s with calls := s.calls.eraseIdx i, boardBlobId := blob }) := by
  rcases settles_eraseCall h hcall with ⟨hsettles, hchain⟩
  have hnow : Settles { s with calls := s.calls.eraseIdx i, boardBlobId := blob } :=
    ⟨hsettles.timers, hsettles.single, hsettles.gone⟩
  cases howner : call.owner with
  | heartbeat => exact goes_quietly hnow
  | connect =>
      have hrunning : s.stopped = false := by
        apply running_of_stage h hcall
        intro hlast
        rw [hlast] at howner
        cases howner
      refine ⟨?_, fun hstop => nomatch hrunning.symm.trans hstop⟩
      exact settles_startLoops (goes_markOpen hnow).settles hrunning (hchain howner)
        (hroom howner)

theorem goes_resumeJoin (h : Settles s) (hcall : s.calls[i]? = some call) {result : Settled}
    (hroom : Orderly s (Event.resume i result)) : Goes s.stopped (resumeJoin i call result s) := by
  rcases call with ⟨owner, stage⟩
  cases stage with
  | announcing =>
      have hrunning := running_of_stage h hcall (by simp [Call.last])
      exact goes_quietly (settles_set h hcall hrunning JoinStage.building)
  | building =>
      cases result with
      | rejected => exact goes_notJoined h hcall
      | fulfilled id =>
          have hrunning := running_of_stage h hcall (by simp [Call.last])
          exact ⟨settles_set h hcall hrunning JoinStage.depositing,
            fun hstop => nomatch hrunning.symm.trans hstop⟩
  | depositing =>
      cases result with
      | rejected => exact goes_notJoined h hcall
      | fulfilled id =>
          apply goes_joined h hcall
          intro howner
          cases howner
          exact hroom hcall

/-!
# One part of a loop
-/

theorem length_loopOn_le (s : State) (loops : List LoopStage) (i : Nat) (next : LoopStage) :
    (loopOn s loops i next).length <= loops.length := by
  rw [loopOn]
  split
  · exact List.length_eraseIdx_le loops i
  · exact Nat.le_of_eq List.length_set

theorem settles_board (h : Settles s) {board : List LoopStage}
    (hboard : board.length <= s.board.length) : Settles { s with board := board } := by
  refine ⟨h.timers, ⟨?_, h.single.2⟩, h.gone⟩
  have hchain := h.single.1
  rw [chain] at hchain ⊢
  exact Nat.le_trans (Nat.add_le_add_left hboard _) hchain

theorem settles_inbox (h : Settles s) {inbox : List LoopStage}
    (hlength : inbox.length <= s.inbox.length) : Settles { s with inbox := inbox } :=
  ⟨h.timers, ⟨h.single.1, Nat.le_trans hlength h.single.2⟩, h.gone⟩

theorem goes_resumeBoardLoop (h : Settles s) {stage : LoopStage}
    (hstage : s.board[i]? = some stage) (result : Settled) :
    Goes s.stopped (resumeBoardLoop i stage result s) := by
  cases stage with
  | sleeping => exact goes_quietly (settles_board h (length_loopOn_le s s.board i _))
  | polling =>
      cases result with
      | fulfilled id => exact goes_markOpen (settles_board h (length_loopOn_le s s.board i _))
      | rejected =>
          -- The loop leaves the chain to the reconnect.
          rcases List.getElem?_eq_some_iff.mp hstage with ⟨hi, _⟩
          have hlength := List.length_eraseIdx_of_lt hi
          apply goes_scheduleReconnect (settles_board h (List.length_eraseIdx_le s.board i))
          have hchain := h.single.1
          rw [chain] at hchain ⊢
          change s.calls.countP isConnect + s.reconnects.length + (s.board.eraseIdx i).length = 0
          omega

theorem goes_resumeInboxLoop (h : Settles s) (i : Nat) (stage : LoopStage) :
    Goes s.stopped (resumeInboxLoop i stage s) := by
  cases stage with
  | sleeping | polling => exact goes_quietly (settles_inbox h (length_loopOn_le s s.inbox i _))

theorem goes_reconnect (h : Settles s) {delay : Nat} (hdelay : s.reconnects[i]? = some delay) :
    Goes s.stopped
      (if s.stopped then ({ s with reconnects := s.reconnects.eraseIdx i }, [])
        else connect { s with reconnects := s.reconnects.eraseIdx i }) := by
  have hchain : chain { s with reconnects := s.reconnects.eraseIdx i } = 0 := by
    rcases List.getElem?_eq_some_iff.mp hdelay with ⟨hi, _⟩
    have hlength := List.length_eraseIdx_of_lt hi
    have hsingle := h.single.1
    rw [chain] at hsingle ⊢
    change s.calls.countP isConnect + (s.reconnects.eraseIdx i).length + s.board.length = 0
    omega
  have hsettles : Settles { s with reconnects := s.reconnects.eraseIdx i } := by
    refine ⟨h.timers, ⟨?_, h.single.2⟩, h.gone⟩
    rw [hchain]
    exact Nat.zero_le 1
  split
  · exact goes_quietly hsettles
  · rename_i hstopped
    exact goes_connect hsettles (Bool.of_not_eq_true hstopped) hchain

/-!
# Runs
-/

theorem goes_act (h : Settles s) {e : Event} (horderly : Orderly s e) :
    Goes s.stopped (act s e) := by
  cases e with
  | connect => exact goes_connect h horderly.1 horderly.2
  | close => exact goes_close h horderly
  | resume i result =>
      cases hcall : s.calls[i]? with
      | some call => simpa only [act, hcall] using goes_resumeJoin h hcall horderly
      | none => simpa only [act, hcall] using goes_quietly h
  | resumeBoard i result =>
      cases hstage : s.board[i]? with
      | some stage => simpa only [act, hstage] using goes_resumeBoardLoop h hstage result
      | none => simpa only [act, hstage] using goes_quietly h
  | resumeInbox i result =>
      cases hstage : s.inbox[i]? with
      | some stage => simpa only [act, hstage] using goes_resumeInboxLoop h i stage
      | none => simpa only [act, hstage] using goes_quietly h
  | heartbeat timer =>
      rw [act]
      split
      · rename_i hmem
        apply goes_heartbeat h
        cases hstop : s.stopped with
        | false => rfl
        | true =>
            rw [(h.gone hstop).1] at hmem
            cases hmem
      · exact goes_quietly h
  | reconnect i =>
      cases hdelay : s.reconnects[i]? with
      | some delay => simpa only [act, hdelay] using goes_reconnect h hdelay
      | none => simpa only [act, hdelay] using goes_quietly h

theorem silent_of_stopped (h : Settles s) (hstop : s.stopped = true) {events : List Event}
    (horderly : StepsMeet step Orderly s events) : Silent (emitted step effects s events) := by
  induction events generalizing s with
  | nil => exact silent_nil
  | cons e events ih =>
      have hgoes := goes_act h horderly.1
      rcases hgoes.stays hstop with ⟨hstays, hsilent⟩
      exact silent_append hsilent (ih hgoes.settles hstays horderly.2)

theorem settles_step (s : State) (e : Event) (h : Settles s) (horderly : Orderly s e) :
    Settles (step s e) :=
  (goes_act h horderly).settles

theorem settles_after (h : Settles s) {events : List Event}
    (horderly : StepsMeet step Orderly s events) : Settles (after step s events) :=
  invariant_after settles_step h horderly

theorem single_of_settles (h : Settles s) : Single s := by
  have hchain := h.single.1
  rw [chain] at hchain
  refine ⟨by omega, h.single.2, ?_⟩
  rw [h.timers]
  cases s.heartbeatTimer <;> exact Nat.le_of_ble_eq_true rfl

/-- In every orderly run closed means gone, and nothing runs twice. -/
theorem gone_of_orderly (pollLoop : Bool) (maxAttempts : Nat) {events : List Event}
    (horderly : StepsMeet step Orderly (fresh pollLoop maxAttempts) events) :
    Gone (fresh pollLoop maxAttempts) events := by
  have hfresh := settles_fresh pollLoop maxAttempts
  constructor
  · intro before later hevents
    have hsplit : events = (before ++ [Event.close]) ++ later := by
      rw [hevents, List.append_assoc]
      rfl
    rw [hsplit] at horderly
    rcases stepsMeet_of_append horderly with ⟨hbefore, hlater⟩
    apply silent_of_stopped (settles_after hfresh hbefore) _ hlater
    rw [after_append]
    rfl
  · intro before later hevents _
    rw [hevents] at horderly
    exact single_of_settles (settles_after hfresh (stepsMeet_of_append horderly).1)

/-- The three parts of a call of `_announceAndJoin` that gets through. -/
def established : List Event :=
  [Event.resume 0 (Settled.fulfilled none), Event.resume 0 (Settled.fulfilled none),
    Event.resume 0 (Settled.fulfilled (some (ofText ['b'])))]

/-- A first connect that fails, a heartbeat, a board poll that fails, `close` while the reconnect
is scheduled. -/
theorem gone_after_reconnect :
    Gone (fresh true 10)
      ([Event.connect, Event.resume 0 (Settled.fulfilled none), Event.resume 0 Settled.rejected,
          Event.reconnect 0] ++ established ++
        [Event.heartbeat 0, Event.resume 0 Settled.rejected,
          Event.resume 0 (Settled.fulfilled none), Event.resumeBoard 0 Settled.rejected,
          Event.resumeInbox 0 Settled.rejected, Event.close, Event.reconnect 0,
          Event.resume 0 (Settled.fulfilled none), Event.heartbeat 0,
          Event.resumeInbox 0 (Settled.fulfilled none)]) :=
  gone_of_orderly true 10 (by decide)

/--
A join is deposited after `close` when the call was on its way; after a reconnect two inbox loops
and two heartbeats are active, and one heartbeat goes on announcing after `close`.
-/
theorem not_gone_in_flight :
    Not (Gone (fresh true 10) [Event.connect, Event.close, Event.resume 0 (Settled.fulfilled none),
      Event.resume 0 (Settled.fulfilled none)]) ∧
    Not (Single (after step (fresh true 10) ([Event.connect] ++ established ++
      [Event.resumeBoard 0 Settled.rejected, Event.reconnect 0] ++ established))) ∧
    Not (Gone (fresh true 10) ([Event.connect] ++ established ++
      [Event.resumeBoard 0 Settled.rejected, Event.reconnect 0] ++ established ++
        [Event.close, Event.heartbeat 0])) := by
  refine ⟨?_, by decide, ?_⟩
  · intro h
    have hsilent := h.1 [Event.connect] [Event.resume 0 (Settled.fulfilled none),
      Event.resume 0 (Settled.fulfilled none)] rfl
    exact absurd hsilent (by decide)
  · intro h
    have hsilent := h.1 ([Event.connect] ++ established ++
      [Event.resumeBoard 0 Settled.rejected, Event.reconnect 0] ++ established)
      [Event.heartbeat 0] rfl
    exact absurd hsilent (by decide)

end Rendezvous
end Client
end Ephor
