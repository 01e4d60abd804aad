import Ephor.Foundation.GoTime
import Ephor.Foundation.Transition
import Ephor.Server.Proxy

/-!
# Draining a relay

`tunnel/server/drain.go` with the registration path of `control.go`, `admission.go` and
`registry.go`.  `Drain` stores the draining flag, takes a snapshot of the registry and
signals every session of it, at most 64 at a time.  A run of `handleControl` tests the
flag before the upgrade and again once it has read the agent's name; it adds its session
to the registry much later, after the token, the entitlement and the endpoint probe.

The machine interleaves one drain with any number of handlers.  A handler is a number, and
its session is known by the number too; the tests of a handler that read neither the flag
nor the registry are decided by the events.
-/

namespace Ephor
namespace Server
namespace Drain

open Foundation
open Foundation.GoText (lit)

structure Config where
  lowerRune : Char -> Char
  maxAgents : Int

/-!
## The registry
-/

structure Registry where
  byName : FiniteMap Bytes Nat
  /-- When each name last departed. -/
  recentlyLeft : FiniteMap Bytes Int

def reconnectWindow : GoTime.Duration := 2 * GoTime.minute

inductive AddError where
  | nameInUse (name : Bytes)
  | registryFull
deriving DecidableEq

/-- `atHardCap`, which `add` tests again. -/
def Registry.full (maxAgents : Int) (r : Registry) : Bool :=
  0 < maxAgents && maxAgents <= r.byName.size

/-- The registry with the session, and whether the name departed a moment ago. -/
def Registry.add (maxAgents now : Int) (name : Bytes) (i : Nat) (r : Registry) :
    Except AddError (Registry × Bool) :=
  if (r.byName.lookup name).isSome then .error (.nameInUse name)
  else if r.full maxAgents then .error .registryFull
  else
    let reconnect := (r.recentlyLeft.lookup name).any fun left =>
      GoTime.sub now left <= reconnectWindow
    let recentlyLeft := FiniteMap.filter (fun _ t => !decide (GoTime.sub now t > reconnectWindow))
      (r.recentlyLeft.erase name)
    .ok (⟨r.byName.insert name i, recentlyLeft⟩, reconnect)

/-- The function that `add` returns: it removes the name only from its own session. -/
def Registry.release (now : Int) (name : Bytes) (i : Nat) (r : Registry) : Registry :=
  if r.byName.lookup name = some i then
    ⟨r.byName.erase name, r.recentlyLeft.insert name now⟩
  else
    r

/-!
## Handlers and the drain
-/

/-- How far a run of `handleControl` got. -/
inductive Handler where
  | waiting
  | upgraded
  | checked (name : Bytes)
  | registered (name : Bytes) (reconnect : Bool)
  | ended
deriving DecidableEq

/-- `broadcastReconnect` from its snapshot on. -/
structure Broadcast where
  sessions : List Nat
  /-- The sessions whose goroutine is not started yet. -/
  pending : List Nat
  /-- The goroutines in `signalReconnect`. -/
  running : List Nat
  /-- The sessions on which `signalReconnect` was called and has returned. -/
  attempted : List Nat
  signaled : Nat

def maxParallel : Nat := 64

inductive Progress where
  | idle
  | flagged
  | broadcasting (b : Broadcast)
  | returned (b : Broadcast)

def Progress.broadcast : Progress -> Option Broadcast
  | .idle => none
  | .flagged => none
  | .broadcasting b => some b
  | .returned b => some b

structure State where
  draining : Bool
  registry : Registry
  handlers : Nat -> Handler
  drain : Progress

def State.init : State where
  draining := false
  registry := ⟨∅, ∅⟩
  handlers := fun _ => .waiting
  drain := .idle

inductive Event where
  /-- `admitControlConn`; `passes` stands for its limiters, the bearer and the load. -/
  | admission (i : Nat) (passes : Bool)
  | register (i : Nat) (name : Bytes)
  /-- A test before `registry.add` refuses the connection, or the connection fails. -/
  | refuse (i : Nat)
  | add (i : Nat) (now : Int)
  /-- The session died, and the deferred `release` runs. -/
  | release (i : Nat) (now : Int)
  | store
  | snapshot (order : List Bytes)
  | spawn
  /-- The goroutine of a session is done; `written` says whether the signal went out. -/
  | signal (i : Nat) (written : Bool)
  /-- All goroutines are done, and `Drain` returns. -/
  | finish

def State.setHandler (s : State) (i : Nat) (h : Handler) : State :=
  { s with handlers := Function.update s.handlers i h }

def State.setDrain (s : State) (d : Progress) : State :=
  { s with drain := d }

variable (cfg : Config)

def step (s : State) : Event -> State
  | .admission i passes =>
      match s.handlers i with
      | .waiting =>
          if passes && !s.registry.full cfg.maxAgents && !s.draining then
            s.setHandler i .upgraded
          else
            s.setHandler i .ended
      | _ => s
  | .register i name =>
      match s.handlers i with
      | .upgraded =>
          let nn := Proxy.normalizeName cfg.lowerRune name
          if nn = [] then s.setHandler i .ended
          else if s.draining then s.setHandler i .ended
          else s.setHandler i (.checked nn)
      | _ => s
  | .refuse i =>
      match s.handlers i with
      | .upgraded => s.setHandler i .ended
      | .checked _ => s.setHandler i .ended
      | _ => s
  | .add i now =>
      match s.handlers i with
      | .checked name =>
          match s.registry.add cfg.maxAgents now name i with
          | .error _ => s.setHandler i .ended
          | .ok (registry, reconnect) =>
              { s.setHandler i (.registered name reconnect) with registry := registry }
      | _ => s
  | .release i now =>
      match s.handlers i with
      | .registered name _ =>
          { s.setHandler i .ended with registry := s.registry.release now name i }
      | _ => s
  | .store =>
      match s.drain with
      | .idle => { s.setDrain .flagged with draining := true }
      | _ => s
  | .snapshot order =>
      match s.drain with
      | .flagged =>
          if FiniteMap.Visits order s.registry.byName then
            let sessions := order.filterMap s.registry.byName.lookup
            s.setDrain (.broadcasting ⟨sessions, sessions, [], [], 0⟩)
          else
            s
      | _ => s
  | .spawn =>
      match s.drain with
      | .broadcasting b =>
          match b.pending with
          | [] => s
          | i :: pending =>
              -- The send on `sem` blocks while all of its places are taken.
              if b.running.length < maxParallel then
                s.setDrain (.broadcasting { b with pending, running := i :: b.running })
              else
                s
      | _ => s
  | .signal i written =>
      match s.drain with
      | .broadcasting b =>
          if i ∈ b.running then
            s.setDrain (.broadcasting
              { b with
                running := b.running.erase i
                attempted := i :: b.attempted
                signaled := if written then b.signaled + 1 else b.signaled })
          else
            s
      | _ => s
  | .finish =>
      match s.drain with
      | .broadcasting b =>
          if b.pending = [] && b.running = [] then s.setDrain (.returned b) else s
      | _ => s

/-!
## What every reachable state keeps

From the snapshot on, the sessions of the registry are sessions of the snapshot, and each
of these is waiting for its goroutine, in it, or past it.  A handler keeps this as long as
it adds no session.
-/

structure Tracked (byName : FiniteMap Bytes Nat) (b : Broadcast) : Prop where
  known : forall name i, byName.lookup name = some i -> i ∈ b.sessions
  accounted : forall i, i ∈ b.sessions -> i ∈ b.pending ∨ i ∈ b.running ∨ i ∈ b.attempted

structure Invariant (s : State) : Prop where
  tracked : forall b, s.drain.broadcast = some b -> Tracked s.registry.byName b
  finished : forall b, s.drain = .returned b -> b.pending = [] ∧ b.running = []

/-- The handler is about to put its session into the registry. -/
def Registers (s : State) (i : Nat) : Prop :=
  exists name, s.handlers i = .checked name ∧ s.registry.byName.lookup name = none ∧
    s.registry.full cfg.maxAgents = false

def BeforeSnapshot (s : State) : Event -> Prop
  | .add i _ => Registers cfg s i -> s.drain.broadcast = none
  | _ => True

variable {cfg}

variable {s : State} {i : Nat}

theorem Invariant.of_no_broadcast (h : s.drain.broadcast = none) : Invariant s where
  tracked := by
    intro b hb
    rw [h] at hb
    cases hb
  finished := by
    intro b hb
    rw [hb] at h
    cases h

theorem Invariant.of_fewer {s' : State} (h : Invariant s) (hdrain : s'.drain = s.drain)
    (hfewer : forall name i, s'.registry.byName.lookup name = some i ->
      s.registry.byName.lookup name = some i) : Invariant s' where
  tracked := by
    intro b hb
    rw [hdrain] at hb
    have htracked := h.tracked b hb
    exact
      { known := fun name i hi => htracked.known name i (hfewer name i hi)
        accounted := htracked.accounted }
  finished := by
    intro b hb
    rw [hdrain] at hb
    exact h.finished b hb

theorem Invariant.setHandler (h : Invariant s) (i : Nat) (handler : Handler) :
    Invariant (s.setHandler i handler) :=
  h.of_fewer rfl fun _ _ hi => hi

theorem release_fewer {now : Int} {name : Bytes} {r : Registry} {name' : Bytes} {i' : Nat}
    (h : (r.release now name i).byName.lookup name' = some i') :
    r.byName.lookup name' = some i' := by
  rw [Registry.release] at h
  split at h
  · exact (FiniteMap.lookup_erase_eq_some.mp h).2
  · exact h

theorem add_ok {maxAgents now : Int} {name : Bytes} {r r' : Registry} {reconnect : Bool}
    (h : r.add maxAgents now name i = .ok (r', reconnect)) :
    r.byName.lookup name = none ∧ r.full maxAgents = false ∧
      r'.byName = r.byName.insert name i := by
  rw [Registry.add] at h
  split at h
  · cases h
  · rename_i hfree
    split at h
    · cases h
    · rename_i hroom
      cases h
      exact ⟨Option.not_isSome_iff_eq_none.mp hfree, Bool.eq_false_iff.mpr hroom, rfl⟩

theorem invariant_add {now : Int} (h : Invariant s) (htime : BeforeSnapshot cfg s (.add i now)) :
    Invariant (step cfg s (.add i now)) := by
  rw [step]
  split
  · rename_i name hhandler
    split
    · exact h.setHandler i .ended
    · rename_i registry reconnect hadd
      rcases add_ok hadd with ⟨hfree, hroom, _⟩
      exact Invariant.of_no_broadcast (htime ⟨name, hhandler, hfree, hroom⟩)
  · exact h

theorem mem_snapshot {byName : FiniteMap Bytes Nat} {order : List Bytes}
    (h : FiniteMap.Visits order byName) {name : Bytes} (hi : byName.lookup name = some i) :
    i ∈ order.filterMap byName.lookup :=
  List.mem_filterMap.mpr ⟨name, FiniteMap.mem_of_visits h hi, hi⟩

theorem Invariant.setBroadcasting {b : Broadcast} (h : Tracked s.registry.byName b) :
    Invariant (s.setDrain (.broadcasting b)) where
  tracked := by
    intro b' hb'
    cases hb'
    exact h
  finished := by
    intro b' hb'
    cases hb'

theorem invariant_snapshot {order : List Bytes} (h : Invariant s) :
    Invariant (step cfg s (.snapshot order)) := by
  rw [step]
  split
  · split
    · rename_i hvisits
      apply Invariant.setBroadcasting
      exact
        { known := fun _ _ hi => mem_snapshot hvisits hi
          accounted := fun _ hi => Or.inl hi }
    · exact h
  · exact h

theorem invariant_spawn (h : Invariant s) : Invariant (step cfg s .spawn) := by
  rw [step]
  split
  · rename_i b hdrain
    have htracked := h.tracked b (by rw [hdrain]; rfl)
    split
    · exact h
    · rename_i i pending hpending
      split
      · apply Invariant.setBroadcasting
        constructor
        · exact htracked.known
        · intro i' hi'
          rcases htracked.accounted i' hi' with hwaits | hruns | hdone
          · rw [hpending] at hwaits
            rcases List.mem_cons.mp hwaits with heq | hlater
            · exact Or.inr (Or.inl (List.mem_cons.mpr (Or.inl heq)))
            · exact Or.inl hlater
          · exact Or.inr (Or.inl (List.mem_cons_of_mem i hruns))
          · exact Or.inr (Or.inr hdone)
      · exact h
  · exact h

theorem invariant_signal {written : Bool} (h : Invariant s) :
    Invariant (step cfg s (.signal i written)) := by
  rw [step]
  split
  · rename_i b hdrain
    have htracked := h.tracked b (by rw [hdrain]; rfl)
    split
    · apply Invariant.setBroadcasting
      constructor
      · exact htracked.known
      · intro i' hi'
        rcases htracked.accounted i' hi' with hwaits | hruns | hdone
        · exact Or.inl hwaits
        · by_cases heq : i' = i
          · exact Or.inr (Or.inr (List.mem_cons.mpr (Or.inl heq)))
          · exact Or.inr (Or.inl ((List.mem_erase_of_ne heq).mpr hruns))
        · exact Or.inr (Or.inr (List.mem_cons_of_mem i hdone))
    · exact h
  · exact h

theorem invariant_finish (h : Invariant s) : Invariant (step cfg s .finish) := by
  rw [step]
  split
  · rename_i b hdrain
    split
    · rename_i hdone
      rw [Bool.and_eq_true, decide_eq_true_eq, decide_eq_true_eq] at hdone
      constructor
      · intro b' hb'
        cases hb'
        exact h.tracked b (by rw [hdrain]; rfl)
      · intro b' hb'
        cases hb'
        exact hdone
    · exact h
  · exact h

/-- One step keeps the invariant, if it adds no session after the snapshot. -/
theorem step_invariant {e : Event} (h : Invariant s) (htime : BeforeSnapshot cfg s e) :
    Invariant (step cfg s e) := by
  cases e with
  | admission i passes =>
      rw [step]
      split
      · split
        · exact h.setHandler i _
        · exact h.setHandler i _
      · exact h
  | register i name =>
      rw [step]
      split
      · dsimp only
        split
        · exact h.setHandler i _
        · split
          · exact h.setHandler i _
          · exact h.setHandler i _
      · exact h
  | refuse i =>
      rw [step]
      split
      · exact h.setHandler i _
      · exact h.setHandler i _
      · exact h
  | add i now => exact invariant_add h htime
  | release i now =>
      rw [step]
      split
      · exact h.of_fewer rfl fun _ _ hi => release_fewer hi
      · exact h
  | store =>
      rw [step]
      split
      · exact Invariant.of_no_broadcast rfl
      · exact h
  | snapshot order => exact invariant_snapshot h
  | spawn => exact invariant_spawn h
  | signal i written => exact invariant_signal h
  | finish => exact invariant_finish h

/-!
## A handler that is late for the tests

Once the flag is stored, the tests let no handler through.
-/

structure Shut (i : Nat) (s : State) : Prop where
  draining : s.draining = true
  unchecked : forall name, s.handlers i ≠ .checked name

theorem Shut.setHandler {j : Nat} {handler : Handler} (h : Shut i s)
    (hother : forall name, handler ≠ .checked name) : Shut i (s.setHandler j handler) where
  draining := h.draining
  unchecked := by
    intro name
    change Function.update s.handlers j handler i ≠ .checked name
    by_cases heq : i = j
    · rw [heq, Function.update_self]
      exact hother name
    · rw [Function.update_of_ne heq]
      exact h.unchecked name

theorem shut_step (e : Event) (h : Shut i s) : Shut i (step cfg s e) := by
  have hended : forall j, Shut i (s.setHandler j .ended) :=
    fun j => h.setHandler fun _ => Handler.noConfusion
  cases e with
  | admission j passes =>
      rw [step, h.draining, Bool.not_true, Bool.and_false]
      split
      · exact hended j
      · exact h
  | register j name =>
      rw [step, h.draining]
      split
      · dsimp only
        split
        · exact hended j
        · exact hended j
      · exact h
  | refuse j =>
      rw [step]
      split
      · exact hended j
      · exact hended j
      · exact h
  | add j now =>
      rw [step]
      split
      · rename_i own hown
        split
        · exact hended j
        · rename_i registry reconnect hadd
          have hadded : Shut i (s.setHandler j (.registered own reconnect)) :=
            h.setHandler fun _ => Handler.noConfusion
          exact ⟨h.draining, hadded.unchecked⟩
      · exact h
  | release j now =>
      rw [step]
      split
      · exact ⟨h.draining, (hended j).unchecked⟩
      · exact h
  | _ =>
      rw [step]
      repeat' split
      all_goals first | exact h | exact ⟨h.draining, h.unchecked⟩ | exact ⟨rfl, h.unchecked⟩

theorem unchecked_after_store (cfg : Config) (hdraining : s.draining = true)
    (hi : forall name, s.handlers i ≠ .checked name) (events : List Event) (name : Bytes) :
    (Transition.after (step cfg) s events).handlers i ≠ .checked name :=
  (Transition.invariant_of_mem (Shut i) (fun _ e _ h => shut_step e h) ⟨hdraining, hi⟩).unchecked
    name

/-!
## No tunnel slips through

Once `Drain` has returned, every session of the registry was in its snapshot and was
signalled, in every run whose handlers add no session after the snapshot.
-/

/-- The sessions of the registry were in the snapshot and signalled. -/
def Covered (s : State) : Prop :=
  forall b, s.drain = .returned b -> forall name i, s.registry.byName.lookup name = some i ->
    i ∈ b.sessions ∧ i ∈ b.attempted

theorem Invariant.covered (h : Invariant s) : Covered s := by
  intro b hb name i hi
  have htracked := h.tracked b (by rw [hb]; rfl)
  rcases h.finished b hb with ⟨hpending, hrunning⟩
  have hlisted := htracked.known name i hi
  refine ⟨hlisted, ?_⟩
  rcases htracked.accounted i hlisted with hwaits | hruns | hdone
  · rw [hpending] at hwaits
    cases hwaits
  · rw [hrunning] at hruns
    cases hruns
  · exact hdone

theorem drain_covers (cfg : Config) (events : List Event)
    (h : Transition.StepsMeet (step cfg) (BeforeSnapshot cfg) State.init events) :
    Covered (Transition.after (step cfg) State.init events) := by
  have hinit : Invariant State.init := Invariant.of_no_broadcast rfl
  exact (Transition.invariant_after (fun _ _ => step_invariant) hinit h).covered

def smallRelay : Config := ⟨Char.toLower, 10⟩

def closeRun : List Event :=
  [.admission 0 true, .register 0 (lit "box"), .admission 1 true, .register 1 (lit "pier"),
    .add 0 0, .store, .add 1 0, .snapshot [lit "pier", lit "box"], .spawn, .spawn, .signal 0 true,
    .signal 1 false, .finish]

theorem closeRun_covered :
    (exists b, (Transition.after (step smallRelay) State.init closeRun).drain = .returned b ∧
      b.attempted = [1, 0]) ∧
      Covered (Transition.after (step smallRelay) State.init closeRun) := by
  refine ⟨⟨_, rfl, rfl⟩, drain_covers smallRelay closeRun ?_⟩
  exact ⟨trivial, trivial, trivial, trivial, fun _ => rfl, trivial, fun _ => rfl, trivial,
    trivial, trivial, trivial, trivial, trivial, trivial⟩

def slowRun : List Event :=
  [.admission 0 true, .register 0 (lit "box"), .store, .snapshot [], .finish, .add 0 0]

theorem slow_registration_slips_through :
    ¬ Covered (Transition.after (step smallRelay) State.init slowRun) := by
  intro hcovered
  have hdrain : (Transition.after (step smallRelay) State.init slowRun).drain =
      .returned ⟨[], [], [], [], 0⟩ := by rfl
  have hlookup : (Transition.after (step smallRelay) State.init slowRun).registry.byName.lookup
      (lit "box") = some 0 := by rfl
  exact List.not_mem_nil (hcovered _ hdrain _ _ hlookup).1

end Drain
end Server
end Ephor
