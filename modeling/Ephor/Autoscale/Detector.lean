import Ephor.Foundation.GoTime
import Mathlib.Data.List.Basic

/-!
# Saturation detection

`Detector` of the `autoscale` package.  Each observation is a saturation ratio,
the current number of nodes and the clock; the answer is what to do with the pool.
Two timers say since when the ratio has been past a watermark and a stamp says
when the last action was taken.

The ratio is a `float64`.  The detector only compares it with the watermarks, so
the model is generic in the number format: it takes the comparison, the two
default watermarks and halving, and assumes nothing of them.  A ratio that is not
a number compares with neither watermark.
-/

namespace Ephor
namespace Autoscale

open Foundation
open Foundation.GoTime

/-- What the detector uses of `float64`. -/
class RatioFormat (ratio : Type) where
  le : ratio -> ratio -> Bool
  zero : ratio
  /-- `0.80` -/
  defaultHigh : ratio
  /-- `0.30` -/
  defaultLow : ratio
  half : ratio -> ratio

/-- The other comparisons of `float64` follow: a value that is not a number is below nothing. -/
def RatioFormat.lt {ratio : Type} [RatioFormat ratio] (a b : ratio) : Bool :=
  le a b && !le b a

def RatioFormat.eq {ratio : Type} [RatioFormat ratio] (a b : ratio) : Bool :=
  le a b && le b a

inductive Action where
  | none
  | scaleUp
  | scaleDown
deriving DecidableEq

structure DetectorConfig (ratio : Type) where
  high : ratio
  low : ratio
  sustain : Duration
  cooldown : Duration
  minNodes : Int
  maxNodes : Int

/-- `durationField`: zero asks for the default, a negative value for none. -/
def durationField (v default : Duration) : Duration :=
  if v < 0 then 0 else if v = 0 then default else v

section Watch

variable {ratio : Type} [RatioFormat ratio]

open RatioFormat

def DetectorConfig.applyDefaults (c : DetectorConfig ratio) : DetectorConfig ratio :=
  let high := if le c.high zero then defaultHigh else c.high
  let low := if le c.low zero then defaultLow else c.low
  { high := high
    low := if le high low then half high else low
    sustain := durationField c.sustain minute
    cooldown := durationField c.cooldown (3 * minute)
    minNodes := if c.minNodes <= 0 then 1 else c.minNodes
    maxNodes := c.maxNodes }

/-- The zero `time.Time` stands for a timer that is not running. -/
structure Detector (ratio : Type) where
  cfg : DetectorConfig ratio
  aboveSince : Int
  belowSince : Int
  lastAction : Int

namespace Detector

def newDetector (cfg : DetectorConfig ratio) : Detector ratio where
  cfg := cfg.applyDefaults
  aboveSince := 0
  belowSince := 0
  lastAction := 0

/-- `if since.IsZero() { since = now }`. -/
def startTimer (since now : Int) : Int :=
  if since = 0 then now else since

def cooldownElapsed (d : Detector ratio) (now : Int) : Bool :=
  if d.lastAction = 0 then true else decide (d.cfg.cooldown <= sub now d.lastAction)

def observe (d : Detector ratio) (r : ratio) (nodes now : Int) :
    Action × Detector ratio :=
  if le d.cfg.high r then
    let aboveSince := startTimer d.aboveSince now
    let d := { d with belowSince := 0, aboveSince := aboveSince }
    if sub now aboveSince < d.cfg.sustain then
      (Action.none, d)
    else if d.cooldownElapsed now = false then
      (Action.none, d)
    else if 0 < d.cfg.maxNodes ∧ d.cfg.maxNodes <= nodes then
      (Action.none, d)
    else
      (Action.scaleUp, { d with lastAction := now, aboveSince := 0 })
  else if le r d.cfg.low then
    let belowSince := startTimer d.belowSince now
    let d := { d with aboveSince := 0, belowSince := belowSince }
    if sub now belowSince < d.cfg.sustain then
      (Action.none, d)
    else if d.cooldownElapsed now = false then
      (Action.none, d)
    else if nodes <= d.cfg.minNodes then
      (Action.none, d)
    else
      (Action.scaleDown, { d with lastAction := now, belowSince := 0 })
  else
    (Action.none, { d with aboveSince := 0, belowSince := 0 })

end Detector

/-!
# Histories
-/

structure Observation (ratio : Type) where
  ratio : ratio
  nodes : Int
  now : Int
deriving DecidableEq

namespace Detector

def feed (d : Detector ratio) (o : Observation ratio) : Action × Detector ratio :=
  d.observe o.ratio o.nodes o.now

def history (d : Detector ratio) :
    List (Observation ratio) -> List (Observation ratio × Action)
  | [] => []
  | o :: rest => (o, (d.feed o).1) :: (d.feed o).2.history rest

end Detector

/-- The clock never runs backwards and never shows the zero time. -/
def ClockOrdered (obs : List (Observation ratio)) : Prop :=
  obs.Pairwise (fun a b => a.now <= b.now) ∧ forall o, o ∈ obs -> o.now ≠ 0

/--
The observations up to `o` end in a run that is past the watermark throughout,
took no action before `o`, and began at least `sustain` before `o`.
-/
def Sustained (past : Observation ratio -> Prop) (sustain : Duration)
    (before : List (Observation ratio × Action)) (o : Observation ratio) : Prop :=
  exists earlier run first, before = earlier ++ run ∧
    (forall x, x ∈ run -> past x.1 ∧ x.2 = Action.none) ∧ past o ∧
    (run.map Prod.fst ++ [o]).head? = some first ∧
    sustain.toInt <= o.now - first.now

/-- What the answer to `o`, after the history `before`, has to respect. -/
structure Lawful (c : DetectorConfig ratio)
    (before : List (Observation ratio × Action)) (o : Observation ratio)
    (action : Action) : Prop where
  up : action = Action.scaleUp ->
    Sustained (fun x => le c.high x.ratio = true) c.sustain before o ∧
      (0 < c.maxNodes -> o.nodes < c.maxNodes)
  down : action = Action.scaleDown ->
    Sustained (fun x => le x.ratio c.low = true) c.sustain before o ∧
      c.minNodes < o.nodes
  spaced : action ≠ Action.none -> forall x, x ∈ before -> x.2 ≠ Action.none ->
    c.cooldown.toInt <= o.now - x.1.now

/-!
# One observation
-/

variable {d : Detector ratio}

namespace Detector

inductive Fed (d : Detector ratio) (o : Observation ratio) :
    Action -> Detector ratio -> Prop where
  | waitAbove :
      le d.cfg.high o.ratio = true ->
      Fed d o Action.none
        { d with
          aboveSince := startTimer d.aboveSince o.now
          belowSince := 0 }
  | scaleUp :
      le d.cfg.high o.ratio = true ->
      d.cfg.sustain <= sub o.now (startTimer d.aboveSince o.now) ->
      d.cooldownElapsed o.now = true ->
      (0 < d.cfg.maxNodes -> o.nodes < d.cfg.maxNodes) ->
      Fed d o Action.scaleUp
        { d with aboveSince := 0, belowSince := 0, lastAction := o.now }
  | waitBelow :
      le o.ratio d.cfg.low = true ->
      Fed d o Action.none
        { d with
          aboveSince := 0
          belowSince := startTimer d.belowSince o.now }
  | scaleDown :
      le o.ratio d.cfg.low = true ->
      d.cfg.sustain <= sub o.now (startTimer d.belowSince o.now) ->
      d.cooldownElapsed o.now = true ->
      d.cfg.minNodes < o.nodes ->
      Fed d o Action.scaleDown
        { d with aboveSince := 0, belowSince := 0, lastAction := o.now }
  | stable : Fed d o Action.none { d with aboveSince := 0, belowSince := 0 }

theorem fed_feed (d : Detector ratio) (o : Observation ratio) :
    Fed d o (d.feed o).1 (d.feed o).2 := by
  unfold feed observe
  split
  · rename_i habove
    dsimp only
    split
    · exact Fed.waitAbove habove
    · rename_i hsustain
      split
      · exact Fed.waitAbove habove
      · rename_i hcooldown
        split
        · exact Fed.waitAbove habove
        · rename_i hnodes
          refine Fed.scaleUp habove (Int64.not_lt.mp hsustain) ?_ ?_
          · exact (Bool.not_eq_false _).mp hcooldown
          · intro hmax
            exact Int.not_le.mp (fun hle => hnodes ⟨hmax, hle⟩)
  · split
    · rename_i hbelow
      dsimp only
      split
      · exact Fed.waitBelow hbelow
      · rename_i hsustain
        split
        · exact Fed.waitBelow hbelow
        · rename_i hcooldown
          split
          · exact Fed.waitBelow hbelow
          · rename_i hnodes
            refine Fed.scaleDown hbelow (Int64.not_lt.mp hsustain) ?_ ?_
            · exact (Bool.not_eq_false _).mp hcooldown
            · exact Int.not_le.mp hnodes
    · exact Fed.stable

/-!
# What the timers and the stamp remember
-/

/-- A running timer dates the first observation of an unbroken run up to now. -/
def Streak (past : Observation ratio -> Prop) (since : Int)
    (before : List (Observation ratio × Action)) : Prop :=
  since = 0 ∨ exists earlier run first, before = earlier ++ run ∧
    (forall x, x ∈ run -> past x.1 ∧ x.2 = Action.none) ∧
    (run.map Prod.fst).head? = some first ∧ first.now = since

structure Tracks (d : Detector ratio)
    (before : List (Observation ratio × Action)) : Prop where
  above : Streak (fun x => le d.cfg.high x.ratio = true) d.aboveSince before
  below : Streak (fun x => le x.ratio d.cfg.low = true) d.belowSince before
  stamped : forall x, x ∈ before -> x.2 ≠ Action.none ->
    d.lastAction ≠ 0 ∧ x.1.now <= d.lastAction

variable {past : Observation ratio -> Prop} {since : Int}
  {before : List (Observation ratio × Action)} {o : Observation ratio}

omit [RatioFormat ratio] in
theorem streak_extend (h : Streak past since before) (hpast : past o) :
    Streak past (startTimer since o.now) (before ++ [(o, Action.none)]) := by
  apply Or.inr
  have hnew : forall x, x ∈ [(o, Action.none)] -> past x.1 ∧ x.2 = Action.none := by
    intro x hx
    rw [List.mem_singleton.mp hx]
    exact ⟨hpast, rfl⟩
  unfold startTimer
  split
  · exact ⟨before, [(o, Action.none)], o, rfl, hnew, rfl, rfl⟩
  · rename_i hrunning
    rcases h with hzero | ⟨earlier, run, first, hbefore, hrun, hfirst, hsince⟩
    · exact absurd hzero hrunning
    · refine ⟨earlier, run ++ [(o, Action.none)], first, ?_, ?_, ?_, hsince⟩
      · rw [hbefore, List.append_assoc]
      · intro x hx
        cases List.mem_append.mp hx with
        | inl hold => exact hrun x hold
        | inr hlast => exact hnew x hlast
      · rw [List.map_append, List.head?_append, hfirst]
        rfl

theorem le_of_le_sub {bound : Duration} {t u : Int} (hbound : 0 <= bound.toInt)
    (h : bound <= sub t u) : bound.toInt <= t - u := by
  rw [Int64.le_iff_toInt_le, toInt_sub] at h
  omega

omit [RatioFormat ratio] in
theorem sustained_of_streak {sustain : Duration} (hsustain : 0 <= sustain.toInt)
    (h : Streak past since before) (hpast : past o)
    (hlong : sustain <= sub o.now (startTimer since o.now)) : Sustained past sustain before o := by
  have hlong := le_of_le_sub hsustain hlong
  unfold startTimer at hlong
  split at hlong
  · refine ⟨before, [], o, (List.append_nil before).symm, ?_, hpast, rfl, hlong⟩
    intro x hx
    cases hx
  · rename_i hrunning
    rcases h with hzero | ⟨earlier, run, first, hbefore, hrun, hfirst, hsince⟩
    · exact absurd hzero hrunning
    · refine ⟨earlier, run, first, hbefore, hrun, hpast, ?_, ?_⟩
      · rw [List.head?_append, hfirst]
        rfl
      · rw [hsince]
        exact hlong

theorem spaced_of_cooldownElapsed (hcooldown : 0 <= d.cfg.cooldown.toInt) (h : Tracks d before)
    (helapsed : d.cooldownElapsed o.now = true) {x : Observation ratio × Action}
    (hx : x ∈ before) (haction : x.2 ≠ Action.none) : d.cfg.cooldown.toInt <= o.now - x.1.now := by
  rcases h.stamped x hx haction with ⟨hstamp, hle⟩
  unfold cooldownElapsed at helapsed
  rw [if_neg hstamp, decide_eq_true_iff] at helapsed
  have hsince := le_of_le_sub hcooldown helapsed
  omega

/-!
# Whole histories
-/

theorem cfg_feed (d : Detector ratio) (o : Observation ratio) : (d.feed o).2.cfg = d.cfg := by
  have hfed := fed_feed d o
  generalize (d.feed o).1 = action at hfed
  generalize (d.feed o).2 = d' at hfed ⊢
  cases hfed <;> rfl

omit [RatioFormat ratio] in
theorem stamped_snoc {last last' : Int} {action : Action}
    (h : forall x, x ∈ before -> x.2 ≠ Action.none -> last ≠ 0 ∧ x.1.now <= last)
    (hclock : forall x, x ∈ before -> x.1.now <= o.now) (hnow : o.now ≠ 0)
    (hlast : (action = Action.none ∧ last' = last) ∨ last' = o.now) :
    forall x, x ∈ before ++ [(o, action)] -> x.2 ≠ Action.none -> last' ≠ 0 ∧ x.1.now <= last' := by
  intro x hx haction
  rcases List.mem_append.mp hx with hold | hnew
  · rcases hlast with ⟨_, hsame⟩ | hstamp
    · rw [hsame]
      exact h x hold haction
    · rw [hstamp]
      exact ⟨hnow, hclock x hold⟩
  · rw [List.mem_singleton.mp hnew] at haction ⊢
    rcases hlast with ⟨hnone, _⟩ | hstamp
    · exact absurd hnone haction
    · rw [hstamp]
      exact ⟨hnow, Int.le_refl _⟩

theorem tracks_feed (h : Tracks d before) (hclock : forall x, x ∈ before -> x.1.now <= o.now)
    (hnow : o.now ≠ 0) : Tracks (d.feed o).2 (before ++ [(o, (d.feed o).1)]) := by
  have hfed := fed_feed d o
  generalize (d.feed o).1 = action at hfed ⊢
  generalize (d.feed o).2 = d' at hfed ⊢
  cases hfed with
  | waitAbove habove =>
      exact ⟨streak_extend h.above habove, Or.inl rfl,
        stamped_snoc h.stamped hclock hnow (Or.inl ⟨rfl, rfl⟩)⟩
  | scaleUp | scaleDown =>
      exact ⟨Or.inl rfl, Or.inl rfl,
        stamped_snoc h.stamped hclock hnow (Or.inr rfl)⟩
  | waitBelow hbelow =>
      exact ⟨Or.inl rfl, streak_extend h.below hbelow,
        stamped_snoc h.stamped hclock hnow (Or.inl ⟨rfl, rfl⟩)⟩
  | stable =>
      exact ⟨Or.inl rfl, Or.inl rfl,
        stamped_snoc h.stamped hclock hnow (Or.inl ⟨rfl, rfl⟩)⟩

theorem lawful_feed (hsustain : 0 <= d.cfg.sustain.toInt)
    (hcooldown : 0 <= d.cfg.cooldown.toInt) (h : Tracks d before) :
    Lawful d.cfg before o (d.feed o).1 := by
  have hfed := fed_feed d o
  generalize (d.feed o).1 = action at hfed ⊢
  generalize (d.feed o).2 = d' at hfed
  have hwait : Lawful d.cfg before o Action.none := by
    constructor
    · intro hup
      cases hup
    · intro hdown
      cases hdown
    · intro hnone
      exact absurd rfl hnone
  cases hfed with
  | waitAbove _ | waitBelow _ | stable => exact hwait
  | scaleUp habove hlong helapsed hnodes =>
      constructor
      · intro _
        exact ⟨sustained_of_streak hsustain h.above habove hlong, hnodes⟩
      · intro hdown
        cases hdown
      · intro _ x hx haction
        exact spaced_of_cooldownElapsed hcooldown h helapsed hx haction
  | scaleDown hbelow hlong helapsed hnodes =>
      constructor
      · intro hup
        cases hup
      · intro _
        exact ⟨sustained_of_streak hsustain h.below hbelow hlong, hnodes⟩
      · intro _ x hx haction
        exact spaced_of_cooldownElapsed hcooldown h helapsed hx haction

theorem lawful_history {obs : List (Observation ratio)} (hsustain : 0 <= d.cfg.sustain.toInt)
    (hcooldown : 0 <= d.cfg.cooldown.toInt) (htracks : Tracks d before)
    (hclock : forall x, x ∈ before -> forall p, p ∈ obs -> x.1.now <= p.now)
    (hordered : ClockOrdered obs) {mid after : List (Observation ratio × Action)}
    {action : Action} (h : d.history obs = mid ++ (o, action) :: after) :
    Lawful d.cfg (before ++ mid) o action := by
  induction obs generalizing d before mid with
  | nil =>
      rw [history] at h
      cases mid <;> cases h
  | cons p rest ih =>
      rw [history] at h
      cases mid with
      | nil =>
          injection h with hhead _
          injection hhead with hobs haction
          rw [List.append_nil, <- hobs, <- haction]
          exact lawful_feed hsustain hcooldown htracks
      | cons x mid =>
          injection h with hhead htail
          have hsnoc : before ++ x :: mid = (before ++ [(p, (d.feed p).1)]) ++ mid := by
            rw [hhead, List.append_assoc]
            rfl
          have hrest : ClockOrdered rest :=
            ⟨(List.pairwise_cons.mp hordered.1).2,
              fun q hq => hordered.2 q (List.mem_cons_of_mem p hq)⟩
          rw [hsnoc, <- cfg_feed d p]
          apply ih
          · rw [cfg_feed]
            exact hsustain
          · rw [cfg_feed]
            exact hcooldown
          · exact tracks_feed htracks
              (fun x hx => hclock x hx p List.mem_cons_self)
              (hordered.2 p List.mem_cons_self)
          · intro y hy q hq
            cases List.mem_append.mp hy with
            | inl hold => exact hclock y hold q (List.mem_cons_of_mem p hq)
            | inr hlast =>
                rw [List.mem_singleton.mp hlast]
                exact (List.pairwise_cons.mp hordered.1).1 q hq
          · exact hrest
          · exact htail

theorem tracks_newDetector (cfg : DetectorConfig ratio) : Tracks (newDetector cfg) [] := by
  refine ⟨Or.inl rfl, Or.inl rfl, ?_⟩
  intro x hx
  cases hx

end Detector

theorem durationField_nonneg (v : Duration) {default : Duration}
    (h : 0 <= default.toInt) : 0 <= (durationField v default).toInt := by
  unfold durationField
  split
  · exact Int.le_refl 0
  · rename_i hneg
    split
    · exact h
    · exact Int64.le_iff_toInt_le.mp (Int64.not_lt.mp hneg)

/--
Every action of every history is lawful, and two actions are at least the
cooldown apart.
-/
theorem observe_hysteresis (cfg : DetectorConfig ratio)
    (obs : List (Observation ratio)) (hclock : ClockOrdered obs)
    (before after : List (Observation ratio × Action)) (o : Observation ratio)
    (action : Action)
    (h : (Detector.newDetector cfg).history obs = before ++ (o, action) :: after) :
    (action = Action.scaleUp ->
      Sustained (fun x => le cfg.applyDefaults.high x.ratio = true)
          cfg.applyDefaults.sustain before o ∧
        (0 < cfg.applyDefaults.maxNodes -> o.nodes < cfg.applyDefaults.maxNodes)) ∧
    (action = Action.scaleDown ->
      Sustained (fun x => le x.ratio cfg.applyDefaults.low = true)
          cfg.applyDefaults.sustain before o ∧
        cfg.applyDefaults.minNodes < o.nodes) ∧
    (action ≠ Action.none -> forall x, x ∈ after -> x.2 ≠ Action.none ->
      cfg.applyDefaults.cooldown.toInt <= x.1.now - o.now) := by
  have hsustain : 0 <= (Detector.newDetector cfg).cfg.sustain.toInt :=
    durationField_nonneg cfg.sustain (by decide)
  have hcooldown : 0 <= (Detector.newDetector cfg).cfg.cooldown.toInt :=
    durationField_nonneg cfg.cooldown (by decide)
  have hlawful : forall mid p b rest,
      (Detector.newDetector cfg).history obs = mid ++ (p, b) :: rest ->
        Lawful cfg.applyDefaults mid p b := by
    intro mid p b rest heq
    apply Detector.lawful_history hsustain hcooldown
      (Detector.tracks_newDetector cfg) ?_ hclock heq
    intro x hx
    cases hx
  have hat := hlawful before o action after h
  refine ⟨hat.up, hat.down, ?_⟩
  intro haction x hx hx2
  rcases List.append_of_mem hx with ⟨between, rest, hsplit⟩
  have hlater : (Detector.newDetector cfg).history obs =
      (before ++ (o, action) :: between) ++ (x.1, x.2) :: rest := by
    rw [h, hsplit, List.append_assoc]
    rfl
  exact (hlawful _ x.1 x.2 rest hlater).spaced hx2 (o, action)
    (List.mem_append_right _ List.mem_cons_self) haction

end Watch

/-!
# A detector at work
-/

instance : RatioFormat Rat where
  le a b := decide (a <= b)
  zero := 0
  defaultHigh := 4 / 5
  defaultLow := 3 / 10
  half a := a / 2

def quickConfig : DetectorConfig Rat where
  high := 0
  low := 0
  sustain := Int64.ofInt second
  cooldown := Int64.ofInt second
  minNodes := 1
  maxNodes := 3

def busyAt (seconds : Int) : Observation Rat :=
  ⟨1, 1, seconds * second⟩

theorem busy_two_seconds_sustained :
    (Detector.newDetector quickConfig).history [busyAt 1, busyAt 2] =
        [(busyAt 1, Action.none), (busyAt 2, Action.scaleUp)] ∧
      Sustained (fun x => RatioFormat.le quickConfig.applyDefaults.high x.ratio = true)
        quickConfig.applyDefaults.sustain [(busyAt 1, Action.none)] (busyAt 2) := by
  have hhistory : (Detector.newDetector quickConfig).history [busyAt 1, busyAt 2] =
      [(busyAt 1, Action.none), (busyAt 2, Action.scaleUp)] := by
    decide +kernel
  have hclock : ClockOrdered [busyAt 1, busyAt 2] := by
    constructor
    · simp [busyAt, second]
    · simp [busyAt, second]
  constructor
  · exact hhistory
  · exact ((observe_hysteresis quickConfig _ hclock [(busyAt 1, Action.none)] []
      (busyAt 2) Action.scaleUp hhistory).1 rfl).1

end Autoscale
end Ephor
