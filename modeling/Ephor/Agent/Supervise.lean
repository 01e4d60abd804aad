import Mathlib.Logic.Function.Basic
import Ephor.Foundation.Transition

/-!
# The agent's supervise loops

`tunnel/agent/agent.go` and `tunnel/agent/conn.go`.  `Start` launches a goroutine that runs
`superviseFrom`: resolve a relay, dial it, register, serve until the session ends, back off
and start over.  On a reconnect signal the loop launches a successor and waits, up to
`handoffTimeout`, for the successor to connect before it winds down its own session.  `Stop`
cancels the context that a `Start` made, and waits for the successors only.

A loop is a number, its context is the number of the `Start` that launched it or the first
of its predecessors.  A stage of a loop is the place in the source before its next action.
What the network answers, which case of a `select` is taken and when a goroutine runs is in
the events.
-/

namespace Ephor
namespace Agent
namespace Supervise

/-!
## What the agent shows
-/

inductive Status where
  | stopped
  | starting
  | connected
  | error
deriving DecidableEq

/-- The fields of `Agent` that `Snapshot` reads, the log apart. -/
structure Shown where
  status : Status
  publicURL : String
  lastErr : String
  directEndpoint : String
  directVerified : Bool
  directErr : String
  assignedPoP : String
  assignedRegion : String
deriving DecidableEq

structure Snapshot where
  status : Status
  publicURL : String
  connected : Bool
  lastError : String
  directEndpoint : String
  directVerified : Bool
  directError : String
  assignedPoP : String
  assignedRegion : String
deriving DecidableEq

def Shown.url (a : Shown) : String :=
  if a.status ≠ .connected then "" else a.publicURL

def Shown.snapshot (a : Shown) : Snapshot where
  status := a.status
  publicURL := if a.status = .connected then a.publicURL else ""
  connected := a.status = .connected
  lastError := a.lastErr
  directEndpoint := a.directEndpoint
  directVerified := a.directVerified
  directError := a.directErr
  assignedPoP := a.assignedPoP
  assignedRegion := a.assignedRegion

def Shown.setStatus (a : Shown) (s : Status) (publicURL errMsg : String) : Shown :=
  { a with
    status := s
    publicURL := if publicURL ≠ "" then publicURL else a.publicURL
    lastErr :=
      if s = .connected then "" else if errMsg ≠ "" then errMsg else a.lastErr }

def Shown.setDirectResult (a : Shown) (endpoint : String) (verified : Bool) (errMsg : String) :
    Shown :=
  { a with directEndpoint := endpoint, directVerified := verified, directErr := errMsg }

def Shown.setAssignment (a : Shown) (pop region : String) : Shown :=
  { a with assignedPoP := pop, assignedRegion := region }

def Shown.stop (a : Shown) : Shown :=
  { a with
    status := .stopped
    publicURL := ""
    directEndpoint := ""
    directVerified := false
    directErr := "" }

def Shown.start (a : Shown) : Shown :=
  { a with status := .starting, lastErr := "" }

/-!
## Loops
-/

structure Ack where
  publicURL : String
  directEndpoint : String
  directVerified : Bool
  directError : String
deriving DecidableEq

inductive ConnectError where
  | dial (msg : String)
  | register (msg : String)
  /-- `retryableRefusal`: the relay shed the connect. -/
  | refused (msg : String)
  | yamux (msg : String)
  | accept (msg : String)
deriving DecidableEq

def ConnectError.text : ConnectError -> String
  | .dial msg => "dial: " ++ msg
  | .register msg => "register: " ++ msg
  | .refused msg => "register: " ++ msg
  | .yamux msg => "yamux: " ++ msg
  | .accept msg => "accept: " ++ msg

def second : Nat := 1000000000

def handoffTimeout : Nat := 20 * second

/-- The two options that bound a wait, as `New` leaves them. -/
structure Options where
  maxBackoff : Nat
  reconnectJitter : Nat

def staggerDelay (opts : Options) (drawn : Nat) : Nat :=
  min drawn (min opts.reconnectJitter (handoffTimeout - 2 * second))

inductive Stage where
  | unborn
  /-- The wait before a successor's first dial. -/
  | staggering (due : Nat)
  | top
  | resolving
  | dialing
  | registering
  /-- `connectOnce` with the acknowledgement, before `setStatus`. -/
  | acked (ack : Ack)
  /-- Before `setDirectResult`. -/
  | recording (ack : Ack)
  | announcing
  | muxing
  /-- In the `select` of `connectOnce`. -/
  | serving
  /-- `connectOnce` returned, before the test of the context. -/
  | ended (err : Option ConnectError)
  /-- Past the test, before `setStatus`. -/
  | reporting (err : Option ConnectError)
  | backing (due : Nat)
  /-- In the `select` of `gracefulHandoff`, waiting for the successor. -/
  | handing (successor : Nat) (due : Nat)
  | winding
  | exited
deriving DecidableEq

structure Loop where
  ctx : Nat
  stage : Stage
  /-- Counted by `handoffWG`. -/
  successor : Bool
  /-- The variable `ready` is not nil. -/
  hasReady : Bool
  readyClosed : Bool
  /-- When an attempt of the loop first came to signal that it is connected. -/
  connectedAt : Option Nat
  backoff : Nat
deriving DecidableEq

def Loop.unborn : Loop :=
  ⟨0, .unborn, false, false, false, none, 0⟩

def Loop.begin (ctx : Nat) (stage : Stage) (successor : Bool) : Loop where
  ctx := ctx
  stage := stage
  successor := successor
  hasReady := successor
  readyClosed := false
  connectedAt := none
  backoff := second / 2

/-- How far a call of `Stop` got. -/
inductive StopCall where
  | idle
  | cancelling (ctx : Option Nat)
  /-- In `handoffWG.Wait`. -/
  | waiting
  | returned
deriving DecidableEq

structure State where
  now : Nat
  shown : Shown
  running : Bool
  cancel : Option Nat
  contexts : Nat
  launched : Nat -> Bool
  cancelled : Nat -> Bool
  loops : Nat -> Loop
  born : Nat
  reconnectReq : Option String
  stops : Nat -> StopCall

def State.init : State where
  now := 0
  shown := ⟨.stopped, "", "", "", false, "", "", ""⟩
  running := false
  cancel := none
  contexts := 0
  launched := fun _ => false
  cancelled := fun _ => false
  loops := fun _ => .unborn
  born := 0
  reconnectReq := none
  stops := fun _ => .idle

/-- What the routing hook does: nothing without a resolver, else it records an assignment. -/
inductive Resolution where
  | static
  | assigned (pop region : String)

/-- The next action of a loop, with what the environment decides. -/
inductive Move where
  | fire
  | done
  | check
  | resolved (r : Resolution)
  | dialed (failure : Option String)
  | registered (result : Except ConnectError Ack)
  /-- `setStatus(StatusConnected, …)`. -/
  | record
  | recordDirect
  /-- `close(ready)`, unless the variable is nil. -/
  | announce
  | muxed (failure : Option String)
  /-- `Accept` fails; no text stands for a clean end. -/
  | drops (failure : Option String)
  /-- The `select` takes the reconnect signal; `drawn` is the random stagger. -/
  | reconnect (drawn : Nat)
  /-- `setStatus` after an attempt; the draws are those of the jitter and of the stagger. -/
  | report (drawn stagger : Nat)
  /-- The `select` of `gracefulHandoff` takes the closed channel. -/
  | woken
  | drained

inductive Event where
  | tick (nanoseconds : Nat)
  | start
  /-- `go a.maintain(loopCtx)`. -/
  | launch (ctx : Nat)
  | stopLock (call : Nat)
  | stopCancel (call : Nat)
  | stopReturn (call : Nat)
  | contextDone (ctx : Nat)
  | requestReconnect (reason : String)
  | loop (l : Nat) (move : Move)

def State.setLoop (s : State) (l : Nat) (loop : Loop) : State :=
  { s with loops := Function.update s.loops l loop }

def State.setStage (s : State) (l : Nat) (stage : Stage) : State :=
  s.setLoop l { s.loops l with stage := stage }

/-- `connectOnce` returns `outcomeEnded`, and the loop forgets the channel. -/
def State.endAttempt (s : State) (l : Nat) (err : Option ConnectError) : State :=
  s.setLoop l { s.loops l with stage := .ended err, hasReady := false }

/-- The end of a session that `Accept` reports. -/
def sessionError (cancelled : Bool) (failure : Option String) : Option ConnectError :=
  if cancelled then none else failure.map .accept

variable (opts : Options)

/-- `gracefulHandoff` up to its `select`. -/
def State.handOver (s : State) (l : Nat) (drawn : Nat) : State :=
  let delay := staggerDelay opts drawn
  let first := if 0 < delay then Stage.staggering (s.now + delay) else .top
  let s := s.setStage l (.handing s.born (s.now + handoffTimeout))
  { s.setLoop s.born (.begin (s.loops l).ctx first true) with
    born := s.born + 1
    reconnectReq := none }

def State.announce (s : State) (l : Nat) : State :=
  let loop := s.loops l
  s.setLoop l
    { loop with
      stage := .muxing
      readyClosed := loop.readyClosed || loop.hasReady
      connectedAt := loop.connectedAt.or (some s.now) }

/-- The status after an attempt, and the wait before the next one. -/
def State.report (s : State) (l : Nat) (err : Option ConnectError) (drawn stagger : Nat) : State :=
  let loop := s.loops l
  let jitter := min drawn loop.backoff
  let shownAndSleep : Shown × Nat :=
    match err with
    | none => (s.shown.setStatus .starting "" "", jitter)
    | some (.refused _) => (s.shown.setStatus .starting "" "", jitter + staggerDelay opts stagger)
    | some err => (s.shown.setStatus .error "" err.text, jitter)
  { s.setLoop l
      { loop with
        stage := .backing (s.now + shownAndSleep.2)
        backoff := min (2 * loop.backoff) opts.maxBackoff } with
    shown := shownAndSleep.1 }

def moveLoop (s : State) (l : Nat) (move : Move) : State :=
  let cancelled := s.cancelled (s.loops l).ctx
  match (s.loops l).stage, move with
  | .staggering due, .fire => if due <= s.now then s.setStage l .top else s
  | .staggering _, .done => if cancelled then s.setStage l .exited else s
  | .top, .check => if cancelled then s.setStage l .exited else s.setStage l .resolving
  | .resolving, .resolved .static => s.setStage l .dialing
  | .resolving, .resolved (.assigned pop region) =>
      { s.setStage l .dialing with shown := s.shown.setAssignment pop region }
  | .dialing, .dialed none => s.setStage l .registering
  | .dialing, .dialed (some msg) => s.endAttempt l (some (.dial msg))
  | .registering, .registered (.ok ack) => s.setStage l (.acked ack)
  | .registering, .registered (.error err) => s.endAttempt l (some err)
  | .acked ack, .record =>
      { s.setStage l (.recording ack) with
        shown := s.shown.setStatus .connected ack.publicURL "" }
  | .recording ack, .recordDirect =>
      { s.setStage l .announcing with
        shown := s.shown.setDirectResult ack.directEndpoint ack.directVerified ack.directError }
  | .announcing, .announce => s.announce l
  | .muxing, .muxed none => s.setStage l .serving
  | .muxing, .muxed (some msg) => s.endAttempt l (some (.yamux msg))
  | .serving, .done => if cancelled then s.endAttempt l none else s
  | .serving, .drops failure => s.endAttempt l (sessionError cancelled failure)
  | .serving, .reconnect drawn =>
      if s.reconnectReq.isSome then s.handOver opts l drawn else s
  | .ended err, .check =>
      if cancelled then s.setStage l .exited else s.setStage l (.reporting err)
  | .reporting err, .report drawn stagger => s.report opts l err drawn stagger
  | .backing due, .fire => if due <= s.now then s.setStage l .top else s
  | .backing _, .done => if cancelled then s.setStage l .exited else s
  | .handing successor _, .woken =>
      if (s.loops successor).readyClosed then s.setStage l .winding else s
  | .handing _ due, .fire => if due <= s.now then s.setStage l .winding else s
  | .handing _ _, .done => if cancelled then s.setStage l .exited else s
  | .winding, .drained => s.setStage l .exited
  | _, _ => s

/-- `handoffWG` is at zero. -/
def State.successorsExited (s : State) : Bool :=
  (List.range s.born).all fun l => !(s.loops l).successor || (s.loops l).stage = .exited

def step (s : State) : Event -> State
  | .tick nanoseconds => { s with now := s.now + nanoseconds }
  | .start =>
      if s.running then
        s
      else
        { s with
          shown := s.shown.start
          running := true
          cancel := some s.contexts
          contexts := s.contexts + 1 }
  | .launch ctx =>
      if ctx < s.contexts && !s.launched ctx then
        { s.setLoop s.born (.begin ctx .top false) with
          launched := Function.update s.launched ctx true
          born := s.born + 1 }
      else
        s
  | .stopLock call =>
      match s.stops call with
      | .idle =>
          { s with
            shown := s.shown.stop
            running := false
            cancel := none
            stops := Function.update s.stops call (.cancelling s.cancel) }
      | _ => s
  | .stopCancel call =>
      match s.stops call with
      | .cancelling ctx =>
          { s with
            cancelled := match ctx with
              | some ctx => Function.update s.cancelled ctx true
              | none => s.cancelled
            stops := Function.update s.stops call .waiting }
      | _ => s
  | .stopReturn call =>
      match s.stops call with
      | .waiting =>
          if s.successorsExited then
            { s with stops := Function.update s.stops call .returned }
          else
            s
      | _ => s
  | .contextDone ctx => { s with cancelled := Function.update s.cancelled ctx true }
  | .requestReconnect reason => { s with reconnectReq := s.reconnectReq.or (some reason) }
  | .loop l move => moveLoop opts s l move

/-!
## What a move of a loop can do
-/

/-- The loop runs, and may come to dial. -/
def Stage.active : Stage -> Bool
  | .unborn => false
  | .handing _ _ => false
  | .winding => false
  | .exited => false
  | _ => true

/-- A status is still to be written for what the loop has seen. -/
def Stage.unreported : Stage -> Bool
  | .acked _ => true
  | .recording _ => true
  | .reporting _ => true
  | _ => false

section Effects

variable {opts : Options} {s : State} {l : Nat} {move : Move}

inductive Effect (opts : Options) (s : State) (l : Nat) (move : Move) : State -> Prop where
  | stutter : Effect opts s l move s
  | passes (stage : Stage) (hold : (s.loops l).stage.active = true)
      (hnew : stage.active = true) (hreported : stage.unreported = false) :
      Effect opts s l move (s.setStage l stage)
  | assigned (pop region : String) (hmove : move = .resolved (.assigned pop region))
      (hstage : (s.loops l).stage = .resolving) :
      Effect opts s l move
        { s.setStage l .dialing with shown := s.shown.setAssignment pop region }
  | acked (ack : Ack) (hmove : move = .registered (.ok ack))
      (hstage : (s.loops l).stage = .registering) :
      Effect opts s l move (s.setStage l (.acked ack))
  | recorded (ack : Ack) (hstage : (s.loops l).stage = .acked ack) :
      Effect opts s l move
        { s.setStage l (.recording ack) with
          shown := s.shown.setStatus .connected ack.publicURL "" }
  | recordedDirect (ack : Ack) (hstage : (s.loops l).stage = .recording ack) :
      Effect opts s l move
        { s.setStage l .announcing with
          shown := s.shown.setDirectResult ack.directEndpoint ack.directVerified
            ack.directError }
  | announced (hmove : move = .announce) (hstage : (s.loops l).stage = .announcing) :
      Effect opts s l move (s.announce l)
  | fails (err : Option ConnectError) (hold : (s.loops l).stage.active = true) :
      Effect opts s l move (s.endAttempt l err)
  | tested (err : Option ConnectError) (hmove : move = .check)
      (hstage : (s.loops l).stage = .ended err)
      (hlive : s.cancelled (s.loops l).ctx = false) :
      Effect opts s l move (s.setStage l (.reporting err))
  | reported (err : Option ConnectError) (drawn stagger : Nat)
      (hstage : (s.loops l).stage = .reporting err) :
      Effect opts s l move (s.report opts l err drawn stagger)
  | handsOver (drawn : Nat) (hstage : (s.loops l).stage = .serving) :
      Effect opts s l move (s.handOver opts l drawn)
  | winds (successor due : Nat) (hstage : (s.loops l).stage = .handing successor due)
      (hwhy : (s.loops successor).readyClosed = true ∨ due <= s.now) :
      Effect opts s l move (s.setStage l .winding)
  | drained (hstage : (s.loops l).stage = .winding) :
      Effect opts s l move (s.setStage l .exited)
  | exits (hborn : (s.loops l).stage ≠ .unborn)
      (hcancelled : s.cancelled (s.loops l).ctx = true) :
      Effect opts s l move (s.setStage l .exited)

theorem effect_exits_or {stage : Stage} {t : State} (hstage : (s.loops l).stage = stage)
    (hborn : stage ≠ .unborn)
    (ht : s.cancelled (s.loops l).ctx = false -> Effect opts s l move t) :
    Effect opts s l move (if s.cancelled (s.loops l).ctx then s.setStage l .exited else t) := by
  by_cases hcancelled : s.cancelled (s.loops l).ctx = true
  · rw [if_pos hcancelled]
    rw [<- hstage] at hborn
    exact .exits hborn hcancelled
  · rw [if_neg hcancelled]
    exact ht (Bool.eq_false_iff.mpr hcancelled)

theorem effect_if {p : Prop} [Decidable p] {t : State} (ht : p -> Effect opts s l move t) :
    Effect opts s l move (if p then t else s) := by
  by_cases hp : p
  · rw [if_pos hp]
    exact ht hp
  · rw [if_neg hp]
    exact .stutter

theorem effect_moveLoop (opts : Options) (s : State) (l : Nat) (move : Move) :
    Effect opts s l move (moveLoop opts s l move) := by
  have hactive : forall {stage : Stage}, (s.loops l).stage = stage -> stage.active = true ->
      (s.loops l).stage.active = true := by
    intro stage hstage hstageActive
    rw [hstage]
    exact hstageActive
  unfold moveLoop
  simp only
  split
  case h_1 due hstage => exact effect_if fun _ => .passes _ (hactive hstage rfl) rfl rfl
  case h_2 due hstage => exact effect_exits_or hstage Stage.noConfusion fun _ => .stutter
  case h_3 hstage => exact effect_exits_or hstage Stage.noConfusion fun _ => .passes _ (hactive hstage rfl) rfl rfl
  case h_4 hstage => exact .passes _ (hactive hstage rfl) rfl rfl
  case h_5 pop region hstage => exact .assigned pop region rfl hstage
  case h_6 hstage => exact .passes _ (hactive hstage rfl) rfl rfl
  case h_7 msg hstage => exact .fails _ (hactive hstage rfl)
  case h_8 ack hstage => exact .acked ack rfl hstage
  case h_9 err hstage => exact .fails _ (hactive hstage rfl)
  case h_10 ack hstage => exact .recorded ack hstage
  case h_11 ack hstage => exact .recordedDirect ack hstage
  case h_12 hstage => exact .announced rfl hstage
  case h_13 hstage => exact .passes _ (hactive hstage rfl) rfl rfl
  case h_14 msg hstage => exact .fails _ (hactive hstage rfl)
  case h_15 hstage => exact effect_if fun _ => .fails _ (hactive hstage rfl)
  case h_16 failure hstage => exact .fails _ (hactive hstage rfl)
  case h_17 drawn hstage => exact effect_if fun _ => .handsOver drawn hstage
  case h_18 err hstage => exact effect_exits_or hstage Stage.noConfusion fun hlive => .tested err rfl hstage hlive
  case h_19 err drawn stagger hstage => exact .reported err drawn stagger hstage
  case h_20 due hstage => exact effect_if fun _ => .passes _ (hactive hstage rfl) rfl rfl
  case h_21 due hstage => exact effect_exits_or hstage Stage.noConfusion fun _ => .stutter
  case h_22 successor due hstage =>
      exact effect_if fun hclosed => .winds successor due hstage (Or.inl hclosed)
  case h_23 successor due hstage =>
      exact effect_if fun hdue => .winds successor due hstage (Or.inr hdue)
  case h_24 successor due hstage => exact effect_exits_or hstage Stage.noConfusion fun _ => .stutter
  case h_25 hstage => exact .drained hstage
  case h_26 => exact .stutter

/-- The running loop goes on to another stage in which it runs. -/
def RunsOn (s : State) (l : Nat) (t : State) : Prop :=
  (s.loops l).stage.active = true ∧ t.born = s.born ∧ t.cancelled = s.cancelled ∧
    exists loop : Loop, loop.stage.active = true ∧ t.loops = Function.update s.loops l loop

theorem runsOn_or {t : State} (h : Effect opts s l move t) :
    t = s ∨ RunsOn s l t ∨
      (exists drawn, (s.loops l).stage = .serving ∧ t = s.handOver opts l drawn) ∨
      (exists successor due, (s.loops l).stage = .handing successor due ∧
        ((s.loops successor).readyClosed = true ∨ due <= s.now) ∧ t = s.setStage l .winding) ∨
      ((s.loops l).stage = .winding ∧ t = s.setStage l .exited) ∨
      s.cancelled (s.loops l).ctx = true := by
  have hat : forall {stage : Stage}, (s.loops l).stage = stage -> stage.active = true ->
      (s.loops l).stage.active = true := by
    intro stage hstage hactive
    rw [hstage]
    exact hactive
  cases h with
  | stutter => exact Or.inl rfl
  | passes stage hold hnew _ => exact Or.inr (Or.inl ⟨hold, rfl, rfl, _, hnew, rfl⟩)
  | assigned pop region _ hstage | acked ack _ hstage | recorded ack hstage
  | recordedDirect ack hstage | announced _ hstage | tested err _ hstage _ =>
      exact Or.inr (Or.inl ⟨hat hstage rfl, rfl, rfl, _, rfl, rfl⟩)
  | fails err hold => exact Or.inr (Or.inl ⟨hold, rfl, rfl, _, rfl, rfl⟩)
  | reported err drawn stagger hstage =>
      exact Or.inr (Or.inl ⟨hat hstage rfl, rfl, rfl, _, rfl, rfl⟩)
  | handsOver drawn hstage => exact Or.inr (Or.inr (Or.inl ⟨drawn, hstage, rfl⟩))
  | winds successor due hstage hwhy =>
      exact Or.inr (Or.inr (Or.inr (Or.inl ⟨successor, due, hstage, hwhy, rfl⟩)))
  | drained hstage => exact Or.inr (Or.inr (Or.inr (Or.inr (Or.inl ⟨hstage, rfl⟩))))
  | exits _ hcancelled => exact Or.inr (Or.inr (Or.inr (Or.inr (Or.inr hcancelled))))

end Effects

/-!
The moves of a loop that registers, and of one that then serves.
-/

def sampleOptions : Options := ⟨30 * second, 0⟩

def sampleAck : Ack := ⟨"https://box.relay.example", "", false, ""⟩

def registers (l : Nat) : List Event :=
  [.loop l .check, .loop l (.resolved .static), .loop l (.dialed none),
    .loop l (.registered (.ok sampleAck))]

def connects (l : Nat) : List Event :=
  registers l ++ [.loop l .record, .loop l .recordDirect, .loop l .announce, .loop l (.muxed none)]

end Supervise
end Agent
end Ephor
