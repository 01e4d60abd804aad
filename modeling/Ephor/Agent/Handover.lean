import Mathlib.Logic.ExistsUnique
import Ephor.Agent.Supervise

/-!
# Hand-over between supervise loops

A run of the loops of one `Start` whose context is not cancelled.  The loops form a chain:
each but the last was told to reconnect, launched the next one and waits for it, winds down
or is gone.  The last one alone may dial.

A successor gets a channel that it closes when it connects.  `superviseFrom` forgets the
channel after the first attempt, whether it connected or not, so a successor that connects
at a later attempt does not tell its predecessor.
-/

namespace Ephor
namespace Agent
namespace Supervise

open Foundation
open Foundation.Transition (after StepsMeet)

/-- The state once `Start` has launched its goroutine. -/
def State.started (opts : Options) : State :=
  after (step opts) State.init [.start, .launch 0]

/-- Time, signals and the loops themselves: the context is left alone. -/
def Event.Undisturbed : Event -> Prop
  | .tick _ => True
  | .requestReconnect _ => True
  | .loop _ _ => True
  | _ => False

instance (e : Event) : Decidable e.Undisturbed :=
  match e with
  | .tick _ => inferInstanceAs (Decidable True)
  | .requestReconnect _ => inferInstanceAs (Decidable True)
  | .loop _ _ => inferInstanceAs (Decidable True)
  | .start => inferInstanceAs (Decidable False)
  | .launch _ => inferInstanceAs (Decidable False)
  | .stopLock _ => inferInstanceAs (Decidable False)
  | .stopCancel _ => inferInstanceAs (Decidable False)
  | .stopReturn _ => inferInstanceAs (Decidable False)
  | .contextDone _ => inferInstanceAs (Decidable False)

/-!
## The chain of loops
-/

inductive HandedOver (l : Nat) : Stage -> Prop where
  | handing (due : Nat) : HandedOver l (.handing (l + 1) due)
  | winding : HandedOver l .winding
  | exited : HandedOver l .exited

/-- The loops up to `n`, of which `n` is the one that runs. -/
structure Chain (s : State) (n : Nat) : Prop where
  born : s.born = n + 1
  live : forall ctx, s.cancelled ctx = false
  owner : (s.loops n).stage.active = true
  handedOver : forall l, l < n -> HandedOver l (s.loops l).stage
  unborn : forall l, n < l -> (s.loops l).stage = .unborn

section Chains

variable {opts : Options} {s t : State} {n l : Nat} {loop : Loop}

theorem not_active_of_handedOver {stage : Stage} (h : HandedOver l stage) :
    stage.active = false := by
  cases h <;> rfl

theorem Chain.eq_of_active (h : Chain s n) (hactive : (s.loops l).stage.active = true) : l = n := by
  rcases Nat.lt_trichotomy l n with hlt | heq | hgt
  · rw [not_active_of_handedOver (h.handedOver l hlt)] at hactive
    cases hactive
  · exact heq
  · rw [h.unborn l hgt] at hactive
    cases hactive

theorem Chain.lt_of_inactive (h : Chain s n) (hinactive : (s.loops l).stage.active = false)
    (hborn : (s.loops l).stage ≠ .unborn) : l < n := by
  rcases Nat.lt_trichotomy l n with hlt | heq | hgt
  · exact hlt
  · rw [heq, h.owner] at hinactive
    cases hinactive
  · exact absurd (h.unborn l hgt) hborn

theorem Chain.update (h : Chain s n) (hloops : t.loops = Function.update s.loops n loop)
    (hborn : t.born = s.born) (hcancelled : t.cancelled = s.cancelled)
    (hactive : loop.stage.active = true) : Chain t n where
  born := hborn.trans h.born
  live := by
    rw [hcancelled]
    exact h.live
  owner := by
    rw [hloops, Function.update_self]
    exact hactive
  handedOver := by
    intro l hl
    rw [hloops, Function.update_of_ne (Nat.ne_of_lt hl)]
    exact h.handedOver l hl
  unborn := by
    intro l hl
    rw [hloops, Function.update_of_ne (Nat.ne_of_gt hl)]
    exact h.unborn l hl

theorem Chain.updateOlder (h : Chain s n) (hl : l < n)
    (hloops : t.loops = Function.update s.loops l loop) (hborn : t.born = s.born)
    (hcancelled : t.cancelled = s.cancelled) (hstage : HandedOver l loop.stage) : Chain t n where
  born := hborn.trans h.born
  live := by
    rw [hcancelled]
    exact h.live
  owner := by
    rw [hloops, Function.update_of_ne (Nat.ne_of_gt hl)]
    exact h.owner
  handedOver := by
    intro j hj
    rw [hloops]
    by_cases hjl : j = l
    · rw [hjl, Function.update_self]
      exact hstage
    · rw [Function.update_of_ne hjl]
      exact h.handedOver j hj
  unborn := by
    intro j hj
    rw [hloops, Function.update_of_ne (Nat.ne_of_gt (Nat.lt_trans hl hj))]
    exact h.unborn j hj

theorem loops_handOver (opts : Options) (s : State) (l drawn : Nat) :
    exists first : Stage, first.active = true ∧ first.unreported = false ∧
      (s.handOver opts l drawn).loops =
        Function.update (Function.update s.loops l
          { s.loops l with stage := .handing s.born (s.now + handoffTimeout) }) s.born
          (.begin (Function.update s.loops l
            { s.loops l with stage := .handing s.born (s.now + handoffTimeout) } l).ctx
            first true) := by
  refine ⟨if 0 < staggerDelay opts drawn then .staggering (s.now + staggerDelay opts drawn)
    else .top, ?_, ?_, rfl⟩
  · split <;> rfl
  · split <;> rfl

theorem Chain.handOver (h : Chain s n) (drawn : Nat) : Chain (s.handOver opts n drawn) (n + 1) := by
  rcases loops_handOver opts s n drawn with ⟨first, hfirst, -, hloops⟩
  rw [h.born] at hloops
  refine ⟨?_, h.live, ?_, ?_, ?_⟩
  · exact congrArg (· + 1) h.born
  · rw [hloops, Function.update_self]
    exact hfirst
  · intro l hl
    rw [hloops, Function.update_of_ne (Nat.ne_of_lt hl)]
    rcases Nat.lt_succ_iff_lt_or_eq.mp hl with hlt | heq
    · rw [Function.update_of_ne (Nat.ne_of_lt hlt)]
      exact h.handedOver l hlt
    · rw [heq, Function.update_self]
      exact .handing _
  · intro l hl
    rw [hloops, Function.update_of_ne (Nat.ne_of_gt hl),
      Function.update_of_ne (Nat.ne_of_gt (Nat.lt_of_succ_lt hl))]
    exact h.unborn l (Nat.lt_of_succ_lt hl)

theorem Chain.move (h : Chain s n) (l : Nat) (move : Move) :
    exists m, n <= m ∧ Chain (moveLoop opts s l move) m := by
  have heffect := effect_moveLoop opts s l move
  generalize moveLoop opts s l move = t at heffect
  rcases runsOn_or heffect with hsame | hruns | hands | hwinds | hdrained | hcancelled
  · rw [hsame]
    exact ⟨n, Nat.le_refl n, h⟩
  · rcases hruns with ⟨hold, hborn, hcancelled, loop, hnew, hloops⟩
    rw [h.eq_of_active hold] at hloops
    exact ⟨n, Nat.le_refl n, h.update hloops hborn hcancelled hnew⟩
  · rcases hands with ⟨drawn, hstage, ht⟩
    have hl : l = n := h.eq_of_active (by rw [hstage]; rfl)
    rw [ht, hl]
    exact ⟨n + 1, Nat.le_succ n, h.handOver drawn⟩
  · rcases hwinds with ⟨successor, due, hstage, _, ht⟩
    have hl : l < n := h.lt_of_inactive (by rw [hstage]; rfl) (by rw [hstage]; exact Stage.noConfusion)
    rw [ht]
    exact ⟨n, Nat.le_refl n, h.updateOlder hl rfl rfl rfl .winding⟩
  · rcases hdrained with ⟨hstage, ht⟩
    have hl : l < n := h.lt_of_inactive (by rw [hstage]; rfl) (by rw [hstage]; exact Stage.noConfusion)
    rw [ht]
    exact ⟨n, Nat.le_refl n, h.updateOlder hl rfl rfl rfl .exited⟩
  · rw [h.live] at hcancelled
    cases hcancelled

theorem Chain.step {e : Event} (h : Chain s n) (he : e.Undisturbed) :
    exists m, n <= m ∧ Chain (step opts s e) m := by
  cases e with
  | tick nanoseconds => exact ⟨n, Nat.le_refl n, h.born, h.live, h.owner, h.handedOver, h.unborn⟩
  | requestReconnect reason =>
      exact ⟨n, Nat.le_refl n, h.born, h.live, h.owner, h.handedOver, h.unborn⟩
  | loop l move => exact h.move l move
  | start | launch ctx | stopLock call | stopCancel call | stopReturn call | contextDone ctx =>
      cases he

theorem chain_started (opts : Options) : Chain (State.started opts) 0 where
  born := rfl
  live := fun _ => rfl
  owner := rfl
  handedOver := fun l hl => absurd hl (Nat.not_lt_zero l)
  unborn := by
    intro l hl
    change (Function.update State.init.loops 0 (.begin 0 .top false) l).stage = .unborn
    rw [Function.update_of_ne (Nat.ne_of_gt hl)]
    rfl

end Chains

/-!
## The signal of the successor
-/

/-- A channel is closed for a loop that connected, and a loop that connected in the window
of its predecessor has closed it. -/
structure Signals (s : State) : Prop where
  prompt : forall l m due t, (s.loops l).stage = .handing m due ->
    (s.loops m).connectedAt = some t -> t < due -> (s.loops m).readyClosed = true
  closed : forall m, (s.loops m).readyClosed = true ->
    exists t, (s.loops m).connectedAt = some t

/-- The loop is the predecessor of `m`, and its window is open. -/
def State.waitsFor (s : State) (m l : Nat) : Bool :=
  match (s.loops l).stage with
  | .handing successor due => successor = m && s.now < due
  | _ => false

/-- The loop whose attempt is connected in this step. -/
def Event.connecting (s : State) : Event -> Option Nat
  | .loop m .announce => if (s.loops m).stage = .announcing then some m else none
  | _ => none

/--
An attempt that connects is the first of its loop, or an earlier one has connected, or no
predecessor has its window open.  After the first attempt the variable `ready` is nil.
-/
def ConnectsFirst (s : State) (e : Event) : Prop :=
  forall m, m ∈ e.connecting s -> (s.loops m).hasReady = false -> (s.loops m).connectedAt = none ->
    forall l, l < s.born -> s.waitsFor m l = false

instance (s : State) (e : Event) : Decidable (ConnectsFirst s e) :=
  inferInstanceAs (Decidable (forall m, m ∈ e.connecting s -> _))

section Signal

variable {opts : Options} {s t : State} {n l : Nat} {loop : Loop} {move : Move}

theorem signals_update (h : Signals s) (hloops : t.loops = Function.update s.loops l loop)
    (hconnected : loop.connectedAt = (s.loops l).connectedAt)
    (hclosed : loop.readyClosed = (s.loops l).readyClosed)
    (hstage : forall m due, loop.stage ≠ .handing m due) : Signals t := by
  have hat : forall m, (t.loops m).connectedAt = (s.loops m).connectedAt ∧
      (t.loops m).readyClosed = (s.loops m).readyClosed := by
    intro m
    rw [hloops]
    by_cases hm : m = l
    · rw [hm, Function.update_self]
      exact ⟨hconnected, hclosed⟩
    · rw [Function.update_of_ne hm]
      exact ⟨rfl, rfl⟩
  constructor
  · intro j m due time hhanding hconn hlt
    rw [(hat m).1] at hconn
    rw [(hat m).2]
    by_cases hj : j = l
    · rw [hloops, hj, Function.update_self] at hhanding
      exact absurd hhanding (hstage m due)
    · rw [hloops, Function.update_of_ne hj] at hhanding
      exact h.prompt j m due time hhanding hconn hlt
  · intro m hm
    rw [(hat m).2] at hm
    rw [(hat m).1]
    exact h.closed m hm

theorem signals_announce (h : Signals s) (hchain : Chain s n)
    (hstage : (s.loops l).stage = .announcing)
    (hfirst : ConnectsFirst s (.loop l .announce)) : Signals (s.announce l) := by
  have hself : (s.announce l).loops l =
      { s.loops l with
        stage := .muxing
        readyClosed := (s.loops l).readyClosed || (s.loops l).hasReady
        connectedAt := (s.loops l).connectedAt.or (some s.now) } :=
    Function.update_self l _ s.loops
  have hother : forall m, m ≠ l -> (s.announce l).loops m = s.loops m := fun m hm =>
    Function.update_of_ne hm _ s.loops
  constructor
  · intro j m due time hhanding hconn hlt
    have hj : j ≠ l := by
      intro heq
      rw [heq, hself] at hhanding
      cases hhanding
    rw [hother j hj] at hhanding
    by_cases hm : m = l
    · subst hm
      rw [hself] at hconn ⊢
      cases hready : (s.loops m).hasReady with
      | true => exact Bool.or_true _
      | false =>
          cases hat : (s.loops m).connectedAt with
          | none =>
              -- A later attempt is the first to connect: the window must be over.
              simp only [hat, Option.none_or, Option.some.injEq] at hconn
              have hborn : j < s.born := by
                rw [hchain.born]
                exact Nat.lt_succ_of_lt (hchain.lt_of_inactive (by rw [hhanding]; rfl)
                  (by rw [hhanding]; exact Stage.noConfusion))
              have hconnecting : m ∈ (Event.loop m .announce).connecting s := by
                simp [Event.connecting, hstage]
              have hover := hfirst m hconnecting hready hat j hborn
              simp only [State.waitsFor, hhanding, decide_true, Bool.true_and,
                decide_eq_false_iff_not] at hover
              rw [<- hconn] at hlt
              exact absurd hlt hover
          | some at' =>
              simp only [hat, Option.some_or, Option.some.injEq] at hconn
              subst hconn
              have hclosed := h.prompt j m due _ hhanding hat hlt
              rw [hclosed]
              rfl
    · rw [hother m hm] at hconn ⊢
      exact h.prompt j m due time hhanding hconn hlt
  · intro m hclosed
    by_cases hm : m = l
    · subst hm
      rw [hself]
      cases hat : (s.loops m).connectedAt with
      | none => exact ⟨s.now, rfl⟩
      | some at' => exact ⟨at', rfl⟩
    · rw [hother m hm] at hclosed ⊢
      exact h.closed m hclosed

theorem signals_handOver (h : Signals s) (hchain : Chain s n)
    (hstage : (s.loops l).stage = .serving) (drawn : Nat) : Signals (s.handOver opts l drawn) := by
  rcases loops_handOver opts s l drawn with ⟨first, hfirst, -, hloops⟩
  have hl : l = n := hchain.eq_of_active (by rw [hstage]; rfl)
  have hne : l ≠ s.born := by
    rw [hl, hchain.born]
    exact Nat.ne_of_lt (Nat.lt_succ_self n)
  have hwait : forall m, m ≠ s.born ->
      ((s.handOver opts l drawn).loops m).connectedAt = (s.loops m).connectedAt ∧
      ((s.handOver opts l drawn).loops m).readyClosed = (s.loops m).readyClosed := by
    intro m hm
    rw [hloops, Function.update_of_ne hm]
    by_cases hml : m = l
    · rw [hml, Function.update_self]
      exact ⟨rfl, rfl⟩
    · rw [Function.update_of_ne hml]
      exact ⟨rfl, rfl⟩
  have hnew : ((s.handOver opts l drawn).loops s.born).connectedAt = none ∧
      ((s.handOver opts l drawn).loops s.born).readyClosed = false := by
    rw [hloops, Function.update_self]
    exact ⟨rfl, rfl⟩
  constructor
  · intro j m due time hhanding hconn hlt
    by_cases hm : m = s.born
    · rw [hm, hnew.1] at hconn
      cases hconn
    · rw [(hwait m hm).1] at hconn
      rw [(hwait m hm).2]
      rw [hloops] at hhanding
      by_cases hj : j = s.born
      · rw [hj, Function.update_self] at hhanding
        change first = _ at hhanding
        rw [hhanding] at hfirst
        cases hfirst
      · rw [Function.update_of_ne hj] at hhanding
        by_cases hjl : j = l
        · rw [hjl, Function.update_self] at hhanding
          injection hhanding with hborn
          exact absurd hborn.symm hm
        · rw [Function.update_of_ne hjl] at hhanding
          exact h.prompt j m due time hhanding hconn hlt
  · intro m hclosed
    by_cases hm : m = s.born
    · rw [hm, hnew.2] at hclosed
      cases hclosed
    · rw [(hwait m hm).2] at hclosed
      rw [(hwait m hm).1]
      exact h.closed m hclosed

theorem signals_move (h : Signals s) (hchain : Chain s n)
    (hfirst : ConnectsFirst s (.loop l move)) : Signals (moveLoop opts s l move) := by
  have heffect := effect_moveLoop opts s l move
  generalize moveLoop opts s l move = t at heffect
  cases heffect with
  | stutter => exact h
  | passes stage _ hnew _ =>
      have hloops : (s.setStage l stage).loops =
          Function.update s.loops l { s.loops l with stage := stage } := rfl
      refine signals_update h hloops rfl rfl ?_
      intro m due heq
      have hwaits : stage = .handing m due := heq
      rw [hwaits] at hnew
      cases hnew
  | assigned pop region _ _ | acked ack _ _ | recorded ack _ | recordedDirect ack _
  | fails err _ | tested err _ _ _ | winds successor due _ _ | drained _ | exits _ _ =>
      exact signals_update h rfl rfl rfl fun _ _ => Stage.noConfusion
  | announced hmove hstage =>
      subst hmove
      exact signals_announce h hchain hstage hfirst
  | reported err drawn stagger _ =>
      exact signals_update h rfl rfl rfl fun _ _ => Stage.noConfusion
  | handsOver drawn hstage => exact signals_handOver h hchain hstage drawn

theorem signals_step {e : Event} (h : Signals s) (hchain : Chain s n) (he : e.Undisturbed)
    (hfirst : ConnectsFirst s e) : Signals (step opts s e) := by
  cases e with
  | tick nanoseconds | requestReconnect reason => exact ⟨h.prompt, h.closed⟩
  | loop l move => exact signals_move h hchain hfirst
  | start | launch ctx | stopLock call | stopCancel call | stopReturn call | contextDone ctx =>
      cases he

end Signal

/-!
## Runs
-/

section Runs

variable {opts : Options} {s : State} {n l : Nat} {e : Event}

theorem handedOver_step (h : Chain s n) (he : e.Undisturbed) (hl : HandedOver l (s.loops l).stage) :
    HandedOver l ((step opts s e).loops l).stage := by
  have hborn : (s.loops l).stage ≠ .unborn := by
    intro hunborn
    rw [hunborn] at hl
    cases hl
  have hlt : l < n := h.lt_of_inactive (not_active_of_handedOver hl) hborn
  rcases h.step he with ⟨m, hm, hchain⟩
  exact hchain.handedOver l (Nat.lt_of_lt_of_le hlt hm)

theorem handedOver_after (later : List Event) (h : Chain s n)
    (hlater : StepsMeet (step opts) (fun _ e => e.Undisturbed) s later)
    (hl : HandedOver l (s.loops l).stage) :
    HandedOver l ((after (step opts) s later).loops l).stage := by
  induction later generalizing s n with
  | nil => exact hl
  | cons e rest ih =>
      rcases h.step hlater.1 with ⟨m, -, hchain⟩
      exact ih hchain hlater.2 (handedOver_step h hlater.1 hl)

theorem released_of_move {move : Move} {m due : Nat} (hchain : Chain s n) (hsignals : Signals s)
    (hhanding : (s.loops l).stage = .handing m due)
    (hleft : ((moveLoop opts s l move).loops l).stage ≠ .handing m due) :
    (exists t, (s.loops m).connectedAt = some t) ∨ due <= s.now := by
  have heffect := effect_moveLoop opts s l move
  generalize moveLoop opts s l move = t at heffect hleft
  have hwaits : (s.loops l).stage.active = false := by
    rw [hhanding]
    rfl
  rcases runsOn_or heffect with hsame | hruns | hands | hwinds | hdrained | hcancelled
  · rw [hsame] at hleft
    exact absurd hhanding hleft
  · rw [hruns.1] at hwaits
    cases hwaits
  · rcases hands with ⟨drawn, hstage, _⟩
    rw [hhanding] at hstage
    cases hstage
  · rcases hwinds with ⟨successor, due', hstage, hwhy, _⟩
    rw [hhanding] at hstage
    cases hstage
    rcases hwhy with hclosed | hdue
    · exact Or.inl (hsignals.closed m hclosed)
    · exact Or.inr hdue
  · rw [hhanding] at hdrained
    cases hdrained.1
  · rw [hchain.live] at hcancelled
    cases hcancelled

theorem winding_of_woken {m due : Nat} (hhanding : (s.loops l).stage = .handing m due)
    (hclosed : (s.loops m).readyClosed = true) :
    ((moveLoop opts s l .woken).loops l).stage = .winding := by
  simp [moveLoop, hhanding, hclosed, State.setStage, State.setLoop]

def Supervised (s : State) : Prop :=
  (exists n, Chain s n) ∧ Signals s

theorem supervised_step (s : State) (e : Event) (h : Supervised s)
    (hguard : e.Undisturbed ∧ ConnectsFirst s e) : Supervised (step opts s e) := by
  rcases h with ⟨⟨n, hchain⟩, hsignals⟩
  rcases hchain.step hguard.1 with ⟨m, -, hnext⟩
  exact ⟨⟨m, hnext⟩, signals_step hsignals hchain hguard.1 hguard.2⟩

theorem supervised_started (opts : Options) : Supervised (State.started opts) := by
  have hloops : forall l, ((State.started opts).loops l).connectedAt = none ∧
      ((State.started opts).loops l).readyClosed = false := by
    intro l
    change (Function.update State.init.loops 0 (.begin 0 .top false) l).connectedAt = none ∧
      (Function.update State.init.loops 0 (.begin 0 .top false) l).readyClosed = false
    by_cases hl : l = 0
    · rw [hl, Function.update_self]
      exact ⟨rfl, rfl⟩
    · rw [Function.update_of_ne hl]
      exact ⟨rfl, rfl⟩
  refine ⟨⟨0, chain_started opts⟩, ?_, ?_⟩
  · intro l m due t _ hconnected _
    rw [(hloops m).1] at hconnected
    cases hconnected
  · intro m hclosed
    rw [(hloops m).2] at hclosed
    cases hclosed

def reached (opts : Options) (events : List Event) : State :=
  after (step opts) (State.started opts) events

/--
Over every run of the loops of a `Start` whose context is left alone, and in which no
successor connects first at a later attempt in its predecessor's window.  Exactly one loop may
come to dial, and one that handed over never does again.  A loop that waits leaves its wait
only once its successor has connected or the window is over, and when the successor connects
within the window it winds down at once.
-/
theorem handover_of_connectsFirst (opts : Options) (events : List Event)
    (hmeet : StepsMeet (step opts) (fun s e => e.Undisturbed ∧ ConnectsFirst s e)
      (State.started opts) events) :
    (∃! l, ((reached opts events).loops l).stage.active = true) ∧
    (forall l later, HandedOver l ((reached opts events).loops l).stage ->
      StepsMeet (step opts) (fun _ e => e.Undisturbed) (reached opts events) later ->
      HandedOver l ((reached opts (events ++ later)).loops l).stage) ∧
    (forall l m due, ((reached opts events).loops l).stage = .handing m due ->
      (forall move,
        ((reached opts (events ++ [.loop l move])).loops l).stage ≠ .handing m due ->
        (exists t, ((reached opts events).loops m).connectedAt = some t) ∨
          due <= (reached opts events).now) ∧
      (forall t, ((reached opts events).loops m).connectedAt = some t -> t < due ->
        ((reached opts (events ++ [.loop l .woken])).loops l).stage = .winding)) := by
  have happend : forall more, reached opts (events ++ more) =
      after (step opts) (reached opts events) more :=
    Transition.after_append (step opts) (State.started opts) events
  have hinv : Supervised (reached opts events) :=
    Transition.invariant_after supervised_step (supervised_started opts) hmeet
  rcases hinv with ⟨⟨n, hchain⟩, hsignals⟩
  refine ⟨⟨n, hchain.owner, fun l hl => hchain.eq_of_active hl⟩, ?_, ?_⟩
  · intro l later hl hlater
    rw [happend]
    exact handedOver_after later hchain hlater hl
  · intro l m due hhanding
    constructor
    · intro move hleft
      rw [happend] at hleft
      exact released_of_move hchain hsignals hhanding hleft
    · intro t hconnected hlt
      rw [happend]
      exact winding_of_woken hhanding (hsignals.prompt l m due t hhanding hconnected hlt)

end Runs

/-!
A successor that connects at its first attempt, and one that is refused once and connects
three seconds later.
-/

def failsOnce (l : Nat) : List Event :=
  [.loop l .check, .loop l (.resolved .static), .loop l (.dialed (some "refused")),
    .loop l .check, .loop l (.report 0 0), .tick (3 * second), .loop l .fire]

def reconnects : List Event :=
  connects 0 ++ [.requestReconnect "drain", .loop 0 (.reconnect 0)]

def promptHandover : List Event :=
  reconnects ++ connects 1

def lateHandover : List Event :=
  reconnects ++ failsOnce 1 ++ connects 1

theorem promptHandover_winds :
    ((reached sampleOptions promptHandover).loops 1).connectedAt = some 0 ∧
      ((reached sampleOptions (promptHandover ++ [.loop 0 .woken])).loops 0).stage = .winding := by
  have hmeet : StepsMeet (step sampleOptions) (fun s e => e.Undisturbed ∧ ConnectsFirst s e)
      (State.started sampleOptions) promptHandover := by decide +kernel
  have hhanding : ((reached sampleOptions promptHandover).loops 0).stage =
      .handing 1 handoffTimeout := by decide +kernel
  have hconnected : ((reached sampleOptions promptHandover).loops 1).connectedAt = some 0 := by
    decide +kernel
  have hlaw := handover_of_connectsFirst sampleOptions promptHandover hmeet
  exact ⟨hconnected, (hlaw.2.2 0 1 _ hhanding).2 0 hconnected (by decide +kernel)⟩

/-- The successor is refused once and connects after three seconds, and the predecessor waits
on for the rest of its twenty. -/
theorem lateHandover_waits :
    StepsMeet (step sampleOptions) (fun _ e => e.Undisturbed) (State.started sampleOptions)
        lateHandover ∧
      ((reached sampleOptions lateHandover).loops 0).stage = .handing 1 handoffTimeout ∧
      ((reached sampleOptions lateHandover).loops 1).connectedAt = some (3 * second) ∧
      3 * second < handoffTimeout ∧
      forall move, move = .woken ∨ move = .fire ->
        ((reached sampleOptions (lateHandover ++ [.tick (16 * second), .loop 0 move])).loops
          0).stage = .handing 1 handoffTimeout := by
  refine ⟨by decide +kernel, by decide +kernel, by decide +kernel, by decide +kernel, ?_⟩
  intro move hmove
  rcases hmove with rfl | rfl
  · decide +kernel
  · decide +kernel

end Supervise
end Agent
end Ephor
