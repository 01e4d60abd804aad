import Ephor.Agent.Supervise

/-!
# Start and Stop

`Stop` sets the status under the mutex, cancels the context of the running `Start`, and waits
for the hand-over successors.  The goroutine that `Start` launched is not waited for, and the
loops write the status without looking at the context again: an acknowledged registration,
or the end of an attempt whose test of the context came before the cancellation, is shown
even if the agent was stopped in the meantime.
-/

namespace Ephor
namespace Agent
namespace Supervise

open Foundation
open Foundation.Transition (after StepsMeet)

def State.Current (s : State) (l : Nat) : Prop :=
  s.cancel = some (s.loops l).ctx

instance (s : State) (l : Nat) : Decidable (s.Current l) :=
  inferInstanceAs (Decidable (_ = _))

/-- The loop learns something in this step that it is going to show. -/
def Event.learning (s : State) : Event -> Option Nat
  | .loop l (.resolved (.assigned _ _)) =>
      if (s.loops l).stage = .resolving then some l else none
  | .loop l (.registered (.ok _)) =>
      if (s.loops l).stage = .registering then some l else none
  | .loop l .check =>
      match (s.loops l).stage with
      | .ended _ => if s.cancelled (s.loops l).ctx then none else some l
      | _ => none
  | _ => none

/-- The call of `Stop` that takes the mutex in this step. -/
def Event.stopping (s : State) : Event -> Option Nat
  | .stopLock call => if s.stops call = .idle then some call else none
  | _ => none

/--
When a `Stop` takes the mutex no loop has a status left to write, and from then on no loop
that it stops gets an assignment, an acknowledgement or past the test of its context.
-/
def StopsCleanly (s : State) (e : Event) : Prop :=
  (forall call, call ∈ e.stopping s -> forall l, l < s.born -> (s.loops l).stage.unreported = false) ∧
    forall l, l ∈ e.learning s -> s.Current l

instance (s : State) (e : Event) : Decidable (StopsCleanly s e) :=
  inferInstanceAs (Decidable ((forall call, call ∈ e.stopping s -> _) ∧
    forall l, l ∈ e.learning s -> s.Current l))

structure ShownStopped (a : Shown) : Prop where
  status : a.snapshot.status = .stopped
  connected : a.snapshot.connected = false
  publicURL : a.snapshot.publicURL = ""
  url : a.url = ""

theorem shownStopped_of_status {a : Shown} (h : a.status = .stopped) : ShownStopped a where
  status := h
  connected := by simp [Shown.snapshot, h]
  publicURL := by simp [Shown.snapshot, h]
  url := by simp [Shown.url, h]

/-!
## What the running Start may write
-/

structure Tidy (s : State) : Prop where
  /-- Only a loop of the running `Start` has a status left to write. -/
  unreported : forall l, (s.loops l).stage.unreported = true -> s.Current l
  unborn : forall l, s.born <= l -> (s.loops l).stage = .unborn
  running : s.running = s.cancel.isSome
  stopped : s.running = false -> s.shown.status = .stopped

section Steps

variable {opts : Options} {s t : State} {l : Nat} {loop : Loop} {move : Move}

theorem Tidy.lt_born (h : Tidy s) (hl : (s.loops l).stage ≠ .unborn) : l < s.born := by
  by_contra hnot
  exact hl (h.unborn l (Nat.not_lt.mp hnot))

theorem Tidy.running_of_current (h : Tidy s) (hl : s.Current l) : s.running = true := by
  rw [h.running, hl]
  rfl

theorem Tidy.update (h : Tidy s) (hborn : l < s.born)
    (hloops : t.loops = Function.update s.loops l loop) (hctx : loop.ctx = (s.loops l).ctx)
    (hbirth : t.born = s.born) (hrunning : t.running = s.running) (hcancel : t.cancel = s.cancel)
    (hunreported : loop.stage.unreported = true -> s.Current l)
    (hshown : t.shown = s.shown ∨ s.Current l) : Tidy t where
  unreported := by
    intro j hj
    rw [hloops] at hj
    unfold State.Current
    rw [hcancel, hloops]
    by_cases hjl : j = l
    · rw [hjl, Function.update_self] at hj ⊢
      rw [hctx]
      exact hunreported hj
    · rw [Function.update_of_ne hjl] at hj ⊢
      exact h.unreported j hj
  unborn := by
    intro j hj
    rw [hbirth] at hj
    rw [hloops, Function.update_of_ne (Nat.ne_of_gt (Nat.lt_of_lt_of_le hborn hj))]
    exact h.unborn j hj
  running := by
    rw [hrunning, hcancel]
    exact h.running
  stopped := by
    intro hstopped
    rw [hrunning] at hstopped
    rcases hshown with hsame | hcurrent
    · rw [hsame]
      exact h.stopped hstopped
    · rw [h.running_of_current hcurrent] at hstopped
      cases hstopped

theorem current_of_shown (h : Tidy s) (hclean : StopsCleanly s (.loop l move))
    (hshown : (moveLoop opts s l move).shown ≠ s.shown) : s.Current l := by
  have heffect := effect_moveLoop opts s l move
  generalize moveLoop opts s l move = t at heffect hshown
  cases heffect with
  | assigned pop region hmove hstage =>
      apply hclean.2 l
      simp [Event.learning, hmove, hstage]
  | recorded ack hstage | recordedDirect ack hstage | reported err drawn stagger hstage =>
      exact h.unreported l (by rw [hstage]; rfl)
  | _ => exact absurd rfl hshown

theorem Tidy.lt_born_of_stage {stage : Stage} (h : Tidy s) (hstage : (s.loops l).stage = stage)
    (hborn : stage ≠ .unborn) : l < s.born :=
  h.lt_born fun hunborn => hborn (hstage.symm.trans hunborn)

theorem Tidy.lt_born_of_active (h : Tidy s) (hactive : (s.loops l).stage.active = true) :
    l < s.born := by
  apply h.lt_born
  intro hunborn
  rw [hunborn] at hactive
  cases hactive

theorem Tidy.begin (h : Tidy s) {ctx : Nat} {stage : Stage} {successor : Bool}
    (hloops : t.loops = Function.update s.loops s.born (.begin ctx stage successor))
    (hreported : stage.unreported = false) (hbirth : t.born = s.born + 1)
    (hrunning : t.running = s.running) (hcancel : t.cancel = s.cancel)
    (hshown : t.shown = s.shown) : Tidy t where
  unreported := by
    intro j hj
    unfold State.Current
    rw [hloops] at hj ⊢
    rw [hcancel]
    by_cases hjb : j = s.born
    · rw [hjb, Function.update_self] at hj
      change stage.unreported = true at hj
      rw [hreported] at hj
      cases hj
    · rw [Function.update_of_ne hjb] at hj ⊢
      exact h.unreported j hj
  unborn := by
    intro j hj
    rw [hbirth] at hj
    rw [hloops, Function.update_of_ne (Nat.ne_of_gt hj)]
    exact h.unborn j (Nat.le_of_succ_le hj)
  running := by
    rw [hrunning, hcancel]
    exact h.running
  stopped := by
    intro hstopped
    rw [hrunning] at hstopped
    rw [hshown]
    exact h.stopped hstopped

theorem tidy_handOver (h : Tidy s) (hstage : (s.loops l).stage = .serving) (drawn : Nat) :
    Tidy (s.handOver opts l drawn) := by
  have hborn := h.lt_born_of_stage hstage Stage.noConfusion
  have hwaits : Tidy (s.setStage l (.handing s.born (s.now + handoffTimeout))) :=
    h.update hborn rfl rfl rfl rfl rfl (fun hunreported => nomatch hunreported) (Or.inl rfl)
  refine hwaits.begin rfl ?_ rfl rfl rfl rfl
  split <;> rfl

theorem tidy_move (h : Tidy s) (hclean : StopsCleanly s (.loop l move)) :
    Tidy (moveLoop opts s l move) := by
  have hshown : (moveLoop opts s l move).shown = s.shown ∨ s.Current l := by
    by_cases hsame : (moveLoop opts s l move).shown = s.shown
    · exact Or.inl hsame
    · exact Or.inr (current_of_shown h hclean hsame)
  have heffect := effect_moveLoop opts s l move
  generalize moveLoop opts s l move = t at heffect hshown
  cases heffect with
  | stutter => exact h
  | passes stage hold _ hreported =>
      have hloops : (s.setStage l stage).loops =
          Function.update s.loops l { s.loops l with stage := stage } := rfl
      refine h.update (h.lt_born_of_active hold) hloops rfl rfl rfl rfl ?_ hshown
      intro hunreported
      change stage.unreported = true at hunreported
      rw [hreported] at hunreported
      cases hunreported
  | assigned pop region _ hstage | recordedDirect ack hstage | announced _ hstage
  | reported err drawn stagger hstage | winds successor due hstage _ | drained hstage =>
      exact h.update (h.lt_born_of_stage hstage Stage.noConfusion) rfl rfl rfl rfl rfl
        (fun hunreported => nomatch hunreported) hshown
  | acked ack hmove hstage =>
      refine h.update (h.lt_born_of_stage hstage Stage.noConfusion) rfl rfl rfl rfl rfl ?_ hshown
      intro _
      apply hclean.2 l
      simp [Event.learning, hmove, hstage]
  | recorded ack hstage =>
      refine h.update (h.lt_born_of_stage hstage Stage.noConfusion) rfl rfl rfl rfl rfl ?_ hshown
      exact fun _ => h.unreported l (by rw [hstage]; rfl)
  | fails err hold =>
      exact h.update (h.lt_born_of_active hold) rfl rfl rfl rfl rfl
        (fun hunreported => nomatch hunreported) hshown
  | tested err hmove hstage hlive =>
      refine h.update (h.lt_born_of_stage hstage Stage.noConfusion) rfl rfl rfl rfl rfl ?_ hshown
      intro _
      apply hclean.2 l
      simp [Event.learning, hmove, hstage, hlive]
  | handsOver drawn hstage => exact tidy_handOver h hstage drawn
  | exits hborn _ =>
      exact h.update (h.lt_born hborn) rfl rfl rfl rfl rfl
        (fun hunreported => nomatch hunreported) hshown

theorem tidy_step (s : State) (e : Event) (h : Tidy s) (hclean : StopsCleanly s e) :
    Tidy (step opts s e) := by
  cases e with
  | tick nanoseconds | contextDone ctx | requestReconnect reason =>
      exact ⟨h.unreported, h.unborn, h.running, h.stopped⟩
  | start =>
      simp only [step]
      split
      · exact h
      · rename_i hnot
        have hnone : s.cancel = none := by
          have hrunning := h.running
          rw [Bool.eq_false_iff.mpr hnot] at hrunning
          exact Option.isNone_iff_eq_none.mp (by simpa using hrunning.symm)
        refine ⟨?_, h.unborn, rfl, fun hstopped => nomatch hstopped⟩
        intro l hl
        have hcurrent := h.unreported l hl
        rw [State.Current, hnone] at hcurrent
        cases hcurrent
  | launch ctx =>
      simp only [step]
      split
      · exact h.begin rfl rfl rfl rfl rfl rfl
      · exact h
  | stopLock call =>
      simp only [step]
      split
      · rename_i hidle
        refine ⟨?_, h.unborn, rfl, fun _ => rfl⟩
        intro l hl
        have hborn : l < s.born := by
          apply h.lt_born
          intro hunborn
          rw [hunborn] at hl
          cases hl
        have hreported := hclean.1 call (by simp [Event.stopping, hidle]) l hborn
        rw [hreported] at hl
        cases hl
      · exact h
  | stopCancel call =>
      simp only [step]
      split
      · exact ⟨h.unreported, h.unborn, h.running, h.stopped⟩
      · exact h
  | stopReturn call =>
      simp only [step]
      split
      · split
        · exact ⟨h.unreported, h.unborn, h.running, h.stopped⟩
        · exact h
      · exact h
  | loop l move => exact tidy_move h hclean

theorem tidy_init : Tidy State.init where
  unreported := fun _ hl => nomatch hl
  unborn := fun _ _ => rfl
  running := rfl
  stopped := fun _ => rfl

theorem running_step {e : Event} (h : s.running = false) (he : e ≠ .start) :
    (step opts s e).running = false := by
  cases e with
  | start => exact absurd rfl he
  | tick nanoseconds | contextDone ctx | requestReconnect reason => exact h
  | launch ctx | stopCancel call =>
      simp only [step]
      split <;> exact h
  | stopLock call =>
      simp only [step]
      split
      · rfl
      · exact h
  | stopReturn call =>
      simp only [step]
      split
      · split <;> exact h
      · exact h
  | loop l move =>
      have heffect := effect_moveLoop opts s l move
      change (moveLoop opts s l move).running = false
      generalize moveLoop opts s l move = t at heffect
      cases heffect <;> exact h

theorem running_after (later : List Event) (h : s.running = false) (hlater : .start ∉ later) :
    (after (step opts) s later).running = false := by
  induction later generalizing s with
  | nil => exact h
  | cons e rest ih =>
      have he : e ≠ .start := fun heq => hlater (heq ▸ List.mem_cons_self)
      exact ih (running_step h he) fun hmem => hlater (List.mem_cons_of_mem e hmem)

end Steps

/-!
## Runs
-/

/--
Over every run of calls and loops that stops cleanly.  From the time a `Stop` takes the mutex
until a `Start` takes it the agent is shown as stopped, and what a loop changes of what is
shown is changed by a loop of the `Start` that runs.
-/
theorem stopped_of_stopsCleanly (opts : Options) (events : List Event)
    (hmeet : StepsMeet (step opts) StopsCleanly State.init events) :
    (forall taken call later, events = taken ++ .stopLock call :: later ->
      (after (step opts) State.init taken).stops call = .idle -> .start ∉ later ->
      ShownStopped (after (step opts) State.init events).shown) ∧
    (forall l move,
      StopsCleanly (after (step opts) State.init events) (.loop l move) ->
      (after (step opts) State.init (events ++ [.loop l move])).shown ≠
        (after (step opts) State.init events).shown ->
      (after (step opts) State.init events).running = true ∧
        (after (step opts) State.init events).Current l) := by
  have htidy : Tidy (after (step opts) State.init events) :=
    Transition.invariant_after tidy_step tidy_init hmeet
  constructor
  · intro taken call later hevents hidle hlater
    apply shownStopped_of_status
    apply htidy.stopped
    rw [hevents, Transition.after_append]
    apply running_after later _ hlater
    simp only [step, hidle]
  · intro l move hclean hshown
    rw [Transition.after_append] at hshown
    have hcurrent := current_of_shown htidy hclean hshown
    exact ⟨htidy.running_of_current hcurrent, hcurrent⟩

/-!
A `Stop` of a loop that serves, and one of a loop whose registration was just acknowledged.
-/

/-- A call of `Stop` from its section to its return. -/
def stops (call : Nat) : List Event :=
  [.stopLock call, .stopCancel call, .stopReturn call]

def servingStopped : List Event :=
  [.start, .launch 0] ++ connects 0 ++ stops 0 ++ [.loop 0 .done, .loop 0 .check]

def registeringStopped : List Event :=
  [.start, .launch 0] ++ registers 0 ++ stops 0 ++ [.loop 0 .record]

theorem servingStopped_shown :
    (after (step sampleOptions) State.init ([.start, .launch 0] ++ connects 0)).shown.url =
        "https://box.relay.example" ∧
      (after (step sampleOptions) State.init servingStopped).stops 0 = .returned ∧
      ShownStopped (after (step sampleOptions) State.init servingStopped).shown := by
  have hmeet : StepsMeet (step sampleOptions) StopsCleanly State.init servingStopped := by
    decide +kernel
  have hidle : (after (step sampleOptions) State.init
      ([.start, .launch 0] ++ connects 0)).stops 0 = .idle := by decide +kernel
  have hlater : Event.start ∉
      [.stopCancel 0, .stopReturn 0, .loop 0 .done, .loop 0 .check] := by simp
  have hevents : servingStopped = ([.start, .launch 0] ++ connects 0) ++
      .stopLock 0 :: [.stopCancel 0, .stopReturn 0, .loop 0 .done, .loop 0 .check] := rfl
  have hurl : (after (step sampleOptions) State.init
      ([.start, .launch 0] ++ connects 0)).shown.url = "https://box.relay.example" := by
    decide +kernel
  have hreturned : (after (step sampleOptions) State.init servingStopped).stops 0 =
      .returned := by decide +kernel
  exact ⟨hurl, hreturned, (stopped_of_stopsCleanly sampleOptions servingStopped hmeet).1
    _ 0 _ hevents hidle hlater⟩

/-- The registration is acknowledged, `Stop` is called and returns, and only then the loop
writes its status: the stopped agent is shown as connected. -/
theorem stopped_agent_shown_connected :
    (after (step sampleOptions) State.init registeringStopped).stops 0 = .returned ∧
      (after (step sampleOptions) State.init registeringStopped).running = false ∧
      (after (step sampleOptions) State.init registeringStopped).shown.snapshot.status =
        .connected ∧
      (after (step sampleOptions) State.init registeringStopped).shown.snapshot.connected =
        true ∧
      (after (step sampleOptions) State.init registeringStopped).shown.url =
        "https://box.relay.example" := by
  refine ⟨?_, ?_, ?_, ?_, ?_⟩ <;> decide +kernel

end Supervise
end Agent
end Ephor
