import Mathlib.Data.List.Induction

/-!
# Runs of a machine

A machine is a step function on states and events.  Whatever the environment
decides, the scheduler's choice, the answer of a server, the outcome of a write,
is part of the event, so a run is determined by its list of events.
-/

namespace Ephor
namespace Foundation
namespace Transition

variable {state event output : Type} (step : state -> event -> state)

def after (s : state) (events : List event) : state :=
  events.foldl step s

/-- Every event of the run meets the guard in the state it is taken in. -/
def StepsMeet (guard : state -> event -> Prop) : state -> List event -> Prop
  | _, [] => True
  | s, e :: rest => guard s e ∧ StepsMeet guard (step s e) rest

instance decidableStepsMeet (guard : state -> event -> Prop)
    [forall s e, Decidable (guard s e)] :
    forall (s : state) (events : List event),
      Decidable (StepsMeet step guard s events)
  | _, [] => inferInstanceAs (Decidable True)
  | s, e :: rest =>
      have := decidableStepsMeet guard (step s e) rest
      inferInstanceAs (Decidable (guard s e ∧ StepsMeet step guard (step s e) rest))

/-- What the steps of the run emit, in order. -/
def emitted (emit : state -> event -> List output) :
    state -> List event -> List output
  | _, [] => []
  | s, e :: rest => emit s e ++ emitted emit (step s e) rest

theorem after_append (s : state) (events more : List event) :
    after step s (events ++ more) = after step (after step s events) more :=
  List.foldl_append

theorem emitted_append (emit : state -> event -> List output) (s : state)
    (events more : List event) :
    emitted step emit s (events ++ more) =
      emitted step emit s events ++
        emitted step emit (after step s events) more := by
  induction events generalizing s with
  | nil => rfl
  | cons e rest ih =>
      change emit s e ++ emitted step emit (step s e) (rest ++ more) = _
      rw [ih, <- List.append_assoc]
      rfl

theorem emitted_event (s : state) (events : List event) :
    emitted step (fun _ e => [e]) s events = events := by
  induction events generalizing s with
  | nil => rfl
  | cons e rest ih =>
      rw [emitted, ih]
      rfl

variable {step} {guard : state -> event -> Prop} {invariant : state -> Prop}

variable {s : state} {events : List event}

variable (invariant) in
theorem stepsMeet_of_invariant (hguard : forall s e, e ∈ events -> invariant s -> guard s e)
    (hstep : forall s e, e ∈ events -> invariant s -> invariant (step s e)) (hs : invariant s) :
    StepsMeet step guard s events := by
  induction events generalizing s with
  | nil => trivial
  | cons e rest ih =>
      refine ⟨hguard s e List.mem_cons_self hs, ih ?_ ?_ (hstep s e List.mem_cons_self hs)⟩
      · exact fun t e' he => hguard t e' (List.mem_cons_of_mem e he)
      · exact fun t e' he => hstep t e' (List.mem_cons_of_mem e he)

theorem stepsMeet_of_forall (h : forall e, e ∈ events -> forall s, guard s e) (s : state) :
    StepsMeet step guard s events :=
  stepsMeet_of_invariant (fun _ => True) (fun s e he _ => h e he s)
    (fun _ _ _ => id) trivial

variable (step) in
theorem stepsMeet_true (s : state) (events : List event) :
    StepsMeet step (fun _ _ => True) s events :=
  stepsMeet_of_forall (fun _ _ _ => trivial) s

theorem stepsMeet_append {more : List event} (h : StepsMeet step guard s events)
    (hmore : StepsMeet step guard (after step s events) more) :
    StepsMeet step guard s (events ++ more) := by
  induction events generalizing s with
  | nil => exact hmore
  | cons e rest ih => exact ⟨h.1, ih h.2 hmore⟩

theorem stepsMeet_of_append {more : List event} (h : StepsMeet step guard s (events ++ more)) :
    StepsMeet step guard s events ∧ StepsMeet step guard (after step s events) more := by
  induction events generalizing s with
  | nil => exact ⟨trivial, h⟩
  | cons e rest ih =>
      have hrest := ih h.2
      exact ⟨⟨h.1, hrest.1⟩, hrest.2⟩

theorem stepsMeet_mono {other : state -> event -> Prop}
    (himp : forall s e, guard s e -> other s e) (h : StepsMeet step guard s events) :
    StepsMeet step other s events := by
  induction events generalizing s with
  | nil => trivial
  | cons e rest ih => exact ⟨himp s e h.1, ih h.2⟩

theorem stepsMeet_and {other : state -> event -> Prop} (h : StepsMeet step guard s events)
    (hother : StepsMeet step other s events) :
    StepsMeet step (fun s e => guard s e ∧ other s e) s events := by
  induction events generalizing s with
  | nil => trivial
  | cons e rest ih => exact ⟨⟨h.1, hother.1⟩, ih h.2 hother.2⟩

theorem invariant_after (hstep : forall s e, invariant s -> guard s e -> invariant (step s e))
    (hs : invariant s) (hmeet : StepsMeet step guard s events) :
    invariant (after step s events) := by
  induction events generalizing s with
  | nil => exact hs
  | cons e rest ih => exact ih (hstep s e hs hmeet.1) hmeet.2

variable (invariant) in
theorem invariant_of_mem (hstep : forall s e, e ∈ events -> invariant s -> invariant (step s e))
    (hs : invariant s) : invariant (after step s events) := by
  have hmeet : StepsMeet step (fun _ e => e ∈ events) s events :=
    stepsMeet_of_forall (fun _ he _ => he) s
  exact invariant_after (fun s e hs he => hstep s e he hs) hs hmeet

theorem stepsMeet_congr {other : state -> event -> Prop}
    (hstep : forall s e, invariant s -> guard s e -> invariant (step s e))
    (hiff : forall s e, invariant s -> (guard s e <-> other s e)) (events : List event)
    (hs : invariant s) : StepsMeet step guard s events <-> StepsMeet step other s events := by
  induction events generalizing s with
  | nil => exact Iff.rfl
  | cons e rest ih =>
      constructor
      · intro h
        exact ⟨(hiff s e hs).mp h.1, (ih (hstep s e hs h.1)).mp h.2⟩
      · intro h
        have hguard := (hiff s e hs).mpr h.1
        exact ⟨hguard, (ih (hstep s e hs hguard)).mpr h.2⟩

theorem stepsMeet_or_after {lost : state -> Prop}
    (hstep : forall s e, invariant s -> invariant (step s e))
    (hkeep : forall s e, invariant s -> lost s -> lost (step s e))
    (hbreak : forall s e, invariant s -> Not (guard s e) -> lost (step s e))
    (events : List event) (hs : invariant s) :
    StepsMeet step guard s events ∨ lost (after step s events) := by
  induction events generalizing s with
  | nil => exact Or.inl trivial
  | cons e rest ih =>
      by_cases hguard : guard s e
      · rcases ih (hstep s e hs) with hmeet | hlost
        · exact Or.inl ⟨hguard, hmeet⟩
        · exact Or.inr hlost
      · apply Or.inr
        have hpair : forall t e', (invariant t ∧ lost t) -> True ->
            (invariant (step t e') ∧ lost (step t e')) := by
          intro t e' h _
          exact ⟨hstep t e' h.1, hkeep t e' h.1 h.2⟩
        exact (invariant_after hpair ⟨hstep s e hs, hbreak s e hs hguard⟩
          (stepsMeet_true step (step s e) rest)).2

theorem invariant_emitted {invariant : state -> List output -> Prop}
    {emit : state -> event -> List output}
    (hstep : forall s outs e, invariant s outs -> guard s e ->
      invariant (step s e) (outs ++ emit s e)) {outs : List output} (hs : invariant s outs)
    (hmeet : StepsMeet step guard s events) :
    invariant (after step s events) (outs ++ emitted step emit s events) := by
  induction events generalizing s outs with
  | nil =>
      rw [emitted, List.append_nil]
      exact hs
  | cons e rest ih =>
      rw [emitted, <- List.append_assoc]
      exact ih (hstep s outs e hs hmeet.1) hmeet.2

theorem exists_of_mem_emitted {emit : state -> event -> List output} {o : output}
    (ho : o ∈ emitted step emit s events) (hs : invariant s)
    (hstep : forall s e, invariant s -> invariant (step s e)) :
    exists t e, invariant t ∧ o ∈ emit t e := by
  induction events generalizing s with
  | nil => cases ho
  | cons e rest ih =>
      rcases List.mem_append.mp ho with hhere | hrest
      · exact ⟨s, e, hs, hhere⟩
      · exact ih hrest (hstep s e hs)

theorem exists_lost (invariant : state -> Prop) (hs : invariant s)
    (hlost : Not (invariant (after step s events))) :
    exists front e rest, events = front ++ e :: rest ∧ invariant (after step s front) ∧
      Not (invariant (after step s (front ++ [e]))) := by
  induction events generalizing s with
  | nil => exact absurd hs hlost
  | cons e rest ih =>
      by_cases hnext : invariant (step s e)
      · rcases ih hnext hlost with ⟨front, e', rest', hrest, hfront, hstep⟩
        exact ⟨e :: front, e', rest', congrArg (e :: ·) hrest, hfront, hstep⟩
      · exact ⟨[], e, rest, rfl, hs, hnext⟩

theorem after_concat (step : state -> event -> state) (s : state) (events : List event)
    (e : event) : after step s (events ++ [e]) = step (after step s events) e := by
  rw [after_append]
  rfl

theorem emitted_concat (step : state -> event -> state) (emit : state -> event -> List output)
    (s : state) (events : List event) (e : event) :
    emitted step emit s (events ++ [e]) =
      emitted step emit s events ++ emit (after step s events) e := by
  rw [emitted_append, emitted, emitted, List.append_nil]

/-!
# Runs under a clock

The events carry the readings of a clock that does not go back.
-/

/-- What the clock said last. -/
def latest (time : event -> Nat) (events : List event) : Nat :=
  (events.getLast?.map time).getD 0

variable {time : event -> Nat}

theorem latest_concat (events : List event) (e : event) : latest time (events ++ [e]) = time e := by
  rw [latest, List.getLast?_concat]
  rfl

theorem latest_le {now : Nat} (h : forall e, e ∈ events -> time e <= now) :
    latest time events <= now := by
  rw [latest]
  cases hlast : events.getLast? with
  | none => exact Nat.zero_le now
  | some last => exact h last (List.mem_of_getLast? hlast)

theorem latest_le_of_pairwise {rest : List event} {e : event}
    (h : (events ++ e :: rest).Pairwise fun a b => time a <= time b) :
    latest time events <= time e :=
  latest_le fun earlier hmem =>
    (List.pairwise_append.mp h).2.2 earlier hmem e List.mem_cons_self

/-- What holds of the run so far is carried on by each event; the induction is on the last one. -/
theorem invariant_clocked (invariant : Nat -> List event -> Prop) (hstart : invariant 0 [])
    (hstep : forall events e, invariant (latest time events) events ->
      latest time events <= time e -> invariant (time e) (events ++ [e]))
    (events : List event) (hclock : events.Pairwise fun a b => time a <= time b) :
    invariant (latest time events) events := by
  induction events using List.reverseRecOn with
  | nil => exact hstart
  | append_singleton events e ih =>
      rw [latest_concat]
      exact hstep events e (ih (List.pairwise_append.mp hclock).1) (latest_le_of_pairwise hclock)

end Transition
end Foundation
end Ephor
