import Ephor.Foundation.Transition
import Ephor.Autoscale.Pool

/-!
# The autoscaler loop

`Autoscaler` of the `autoscale` package.  A tick publishes the load of its own node,
reads the size of the pool and asks the detector, and dispatches the answer: a
compare-and-swap on the `scaling` flag guards the launch of a goroutine that
provisions or decommissions one node and then clears the flag.  Ticks run one after
the other; goroutines run beside them, and each critical section of the pool and each
access to the flag is one step of the machine.

What the provisioner answers, the order in which a range visits the members and
the clock come with the event.  The ratio of a tick is whatever the load source
and the capacity make it.
-/

namespace Ephor
namespace Autoscale

open Foundation

inductive ScaleOp where
  | provision
  | add (node : Node)
  | chooseDrain
  | drain (id : String)
  | decommission (id : String)
  | remove (id : String)
  | undrain (id : String)
  | clear
deriving DecidableEq

/-- What the environment answers a goroutine, whatever it asks. -/
structure Answer where
  /-- `Provision`: a node, or an error. -/
  provisioned : Option Node
  /-- `Decommission`: nil, or an error. -/
  decommissioned : Bool
  order : List String
  now : Int

inductive TickStage (ratio : Type) where
  | idle
  | sampled (r : ratio) (now : Int)
  | decided (action : Action)
deriving DecidableEq

def TickStage.decision {ratio : Type} : TickStage ratio -> Action
  | TickStage.decided action => action
  | _ => Action.none

structure Autoscaler (ratio : Type) where
  selfID : String
  prov : Bool
  det : Detector ratio
  pool : Pool ratio
  scaling : Bool
  tick : TickStage ratio
  ops : List ScaleOp

inductive ScaleEvent (ratio : Type) where
  | sample (r : ratio) (now : Int)
  | observe
  | dispatch
  | goroutine (i : Nat) (answer : Answer)

namespace Autoscaler

variable {ratio : Type} [RatioFormat ratio]

def newAutoscaler (cfg : DetectorConfig ratio) (selfID : String) (prov : Bool)
    (pool : Pool ratio) : Autoscaler ratio where
  selfID := selfID
  prov := prov
  det := Detector.newDetector cfg
  pool := pool
  scaling := false
  tick := TickStage.idle
  ops := []

/-- The tick up to the publication of the node's own load. -/
def sample (a : Autoscaler ratio) (r : ratio) (now : Int) : Autoscaler ratio :=
  { a with
    pool := if a.selfID = "" then a.pool else a.pool.updateLoad a.selfID r
    tick := TickStage.sampled r now }

/-- `a.det.Observe(ratio, a.pool.Size(), now)`; the tick ends when it says none. -/
def observe (a : Autoscaler ratio) (r : ratio) (now : Int) : Autoscaler ratio :=
  match a.det.observe r a.pool.size now with
  | (Action.none, det) => { a with det := det, tick := TickStage.idle }
  | (action, det) => { a with det := det, tick := TickStage.decided action }

/-- The body of the goroutine that `dispatch` launches. -/
def launched : Action -> ScaleOp
  | Action.scaleUp => ScaleOp.provision
  | Action.scaleDown => ScaleOp.chooseDrain
  | Action.none => ScaleOp.clear

def dispatch (a : Autoscaler ratio) (action : Action) : Autoscaler ratio :=
  if a.prov = false then
    { a with tick := TickStage.idle }
  else if a.scaling = true then
    { a with tick := TickStage.idle }
  else
    { a with
      scaling := true
      tick := TickStage.idle
      ops := a.ops ++ [launched action] }

/-- One step of `doProvision` or `doDecommission`. -/
def advance (a : Autoscaler ratio) (answer : Answer) :
    ScaleOp -> Pool ratio × ScaleOp
  | ScaleOp.provision =>
      match answer.provisioned with
      | some node => (a.pool, ScaleOp.add node)
      | none => (a.pool, ScaleOp.clear)
  | ScaleOp.add node => (a.pool.add node answer.now, ScaleOp.clear)
  | ScaleOp.chooseDrain =>
      if FiniteMap.Visits answer.order a.pool.members then
        match a.pool.drainCandidate a.selfID answer.order with
        | some id => (a.pool, ScaleOp.drain id)
        | none => (a.pool, ScaleOp.clear)
      else
        (a.pool, ScaleOp.chooseDrain)
  | ScaleOp.drain id => (a.pool.drain id, ScaleOp.decommission id)
  | ScaleOp.decommission id =>
      if answer.decommissioned then (a.pool, ScaleOp.remove id)
      else (a.pool, ScaleOp.undrain id)
  | ScaleOp.remove id => (a.pool.remove id, ScaleOp.clear)
  | ScaleOp.undrain id => (a.pool.undrain id, ScaleOp.clear)
  | ScaleOp.clear => (a.pool, ScaleOp.clear)

/-- A goroutine's step; the last one clears the flag and ends it. -/
def goroutine (a : Autoscaler ratio) (i : Nat) (answer : Answer) :
    Autoscaler ratio :=
  match a.ops[i]? with
  | none => a
  | some ScaleOp.clear => { a with scaling := false, ops := a.ops.eraseIdx i }
  | some op =>
      { a with
        pool := (a.advance answer op).1
        ops := a.ops.set i (a.advance answer op).2 }

def step (a : Autoscaler ratio) : ScaleEvent ratio -> Autoscaler ratio
  | ScaleEvent.sample r now =>
      match a.tick with
      | TickStage.idle => a.sample r now
      | _ => a
  | ScaleEvent.observe =>
      match a.tick with
      | TickStage.sampled r now => a.observe r now
      | _ => a
  | ScaleEvent.dispatch =>
      match a.tick with
      | TickStage.decided action => a.dispatch action
      | _ => a
  | ScaleEvent.goroutine i answer => a.goroutine i answer

/-!
# Bounds

The size is read before the flag is tested.  A decision is taken on a size that
the goroutine in flight may still change, and when that goroutine clears the
flag before the dispatch, the next one is launched on the stale decision.
-/

def WithinBounds (a : Autoscaler ratio) : Prop :=
  a.det.cfg.minNodes <= a.pool.size ∧ a.pool.size <= a.det.cfg.maxNodes

/-- There is room below the floor for a drain, or nothing that one could drain. -/
def MayDrain (a : Autoscaler ratio) : Prop :=
  a.det.cfg.minNodes < a.pool.size ∨ a.pool.OnlySelf a.selfID

/-- The decision still fits the pool that the launched goroutine will work on. -/
def StillFits (a : Autoscaler ratio) : Action -> Prop
  | Action.scaleUp => a.pool.size < a.det.cfg.maxNodes
  | Action.scaleDown => a.MayDrain
  | Action.none => True

/-- A dispatch that launches a goroutine launches it on a decision that still fits. -/
def DispatchFits (a : Autoscaler ratio) : ScaleEvent ratio -> Prop
  | ScaleEvent.dispatch =>
      a.prov = true -> a.scaling = false -> a.StillFits a.tick.decision
  | _ => True

instance (a : Autoscaler ratio) (action : Action) : Decidable (a.StillFits action) :=
  match action with
  | Action.scaleUp => inferInstanceAs (Decidable (_ < _))
  | Action.scaleDown => inferInstanceAs (Decidable (_ ∨ _))
  | Action.none => inferInstanceAs (Decidable True)

instance (a : Autoscaler ratio) (e : ScaleEvent ratio) : Decidable (a.DispatchFits e) :=
  match e with
  | ScaleEvent.dispatch => inferInstanceAs (Decidable (_ -> _ -> _))
  | ScaleEvent.sample _ _ => inferInstanceAs (Decidable True)
  | ScaleEvent.observe => inferInstanceAs (Decidable True)
  | ScaleEvent.goroutine _ _ => inferInstanceAs (Decidable True)

def OpFits (a : Autoscaler ratio) : ScaleOp -> Prop
  | ScaleOp.provision => a.pool.size < a.det.cfg.maxNodes
  | ScaleOp.add _ => a.pool.size < a.det.cfg.maxNodes
  | ScaleOp.chooseDrain => a.MayDrain
  | ScaleOp.drain _ => a.det.cfg.minNodes < a.pool.size
  | ScaleOp.decommission _ => a.det.cfg.minNodes < a.pool.size
  | ScaleOp.remove _ => a.det.cfg.minNodes < a.pool.size
  | ScaleOp.undrain _ => True
  | ScaleOp.clear => True

/-- The flag is set while the one goroutine runs, and that goroutine fits. -/
structure Guarded (a : Autoscaler ratio) : Prop where
  within : a.WithinBounds
  single : (a.scaling = false ∧ a.ops = []) ∨
    (a.scaling = true ∧ exists op, a.ops = [op] ∧ a.OpFits op)

variable {a : Autoscaler ratio}

omit [RatioFormat ratio] in
theorem opFits_of_same {b : Autoscaler ratio} (hself : b.selfID = a.selfID)
    (hcfg : b.det.cfg = a.det.cfg) (hsize : b.pool.size = a.pool.size)
    (honly : a.pool.OnlySelf a.selfID -> b.pool.OnlySelf a.selfID) {op : ScaleOp}
    (h : a.OpFits op) : b.OpFits op := by
  cases op with
  | provision | add node | drain id | decommission id | remove id =>
      rw [OpFits, hcfg, hsize]
      exact h
  | chooseDrain =>
      rw [OpFits, MayDrain, hcfg, hsize, hself]
      exact Or.imp_right honly h
  | undrain id | clear => trivial

omit [RatioFormat ratio] in
theorem guarded_of_same {b : Autoscaler ratio} (h : a.Guarded) (hself : b.selfID = a.selfID)
    (hcfg : b.det.cfg = a.det.cfg) (hsize : b.pool.size = a.pool.size)
    (honly : a.pool.OnlySelf a.selfID -> b.pool.OnlySelf a.selfID)
    (hscaling : b.scaling = a.scaling) (hops : b.ops = a.ops) : b.Guarded := by
  constructor
  · rw [WithinBounds, hcfg, hsize]
    exact h.within
  · rw [hscaling, hops]
    rcases h.single with hidle | ⟨hflag, op, hop, hfits⟩
    · exact Or.inl hidle
    · exact Or.inr ⟨hflag, op, hop, opFits_of_same hself hcfg hsize honly hfits⟩

omit [RatioFormat ratio] in
theorem guarded_sample (h : a.Guarded) (r : ratio) (now : Int) : (a.sample r now).Guarded := by
  refine guarded_of_same (b := a.sample r now) h rfl rfl ?_ ?_ rfl rfl
  · unfold sample
    dsimp only
    split
    · rfl
    · exact Pool.size_modify _ _ _
  · intro honly
    unfold sample
    dsimp only
    split
    · exact honly
    · exact Pool.onlySelf_modify a.selfID (fun _ => rfl) honly

theorem guarded_observe (h : a.Guarded) (r : ratio) (now : Int) : (a.observe r now).Guarded := by
  have hcfg : (a.det.observe r a.pool.size now).2.cfg = a.det.cfg :=
    Detector.cfg_feed a.det ⟨r, a.pool.size, now⟩
  have hdone : forall b : Autoscaler ratio, b.selfID = a.selfID ->
      b.det = (a.det.observe r a.pool.size now).2 -> b.pool = a.pool ->
      b.scaling = a.scaling -> b.ops = a.ops -> b.Guarded := by
    intro b hself hdet hpool hscaling hops
    apply guarded_of_same h hself _ _ _ hscaling hops
    · rw [hdet, hcfg]
    · rw [hpool]
    · intro honly
      rw [hpool]
      exact honly
  unfold observe
  split
  · rename_i det heq
    refine hdone _ rfl ?_ rfl rfl rfl
    rw [heq]
  · rename_i action det _ heq
    refine hdone _ rfl ?_ rfl rfl rfl
    rw [heq]

omit [RatioFormat ratio] in
theorem guarded_dispatch (h : a.Guarded) {action : Action}
    (hfits : a.prov = true -> a.scaling = false -> a.StillFits action) :
    (a.dispatch action).Guarded := by
  unfold dispatch
  split
  · exact guarded_of_same h rfl rfl rfl id rfl rfl
  · rename_i hprov
    split
    · exact guarded_of_same h rfl rfl rfl id rfl rfl
    · rename_i hscaling
      have hclear : a.scaling = false := Bool.eq_false_iff.mpr hscaling
      have hstill := hfits ((Bool.not_eq_false _).mp hprov) hclear
      constructor
      · exact h.within
      · rcases h.single with ⟨_, hops⟩ | ⟨hflag, _⟩
        · refine Or.inr ⟨rfl, launched action, ?_, ?_⟩
          · rw [hops]
            rfl
          · cases action with
            | none => trivial
            | scaleUp | scaleDown => exact hstill
        · exact absurd hflag hscaling

theorem withinBounds_add (h : a.WithinBounds) (node : Node) (now : Int)
    (hroom : a.pool.size < a.det.cfg.maxNodes) :
    WithinBounds { a with pool := a.pool.add node now } := by
  rcases h with ⟨hmin, hmax⟩
  rw [WithinBounds]
  dsimp only
  rcases Pool.size_add a.pool node now with hsame | hmore
  · rw [hsame]
    exact ⟨hmin, hmax⟩
  · rw [hmore]
    exact ⟨Int.le_add_one hmin, hroom⟩

omit [RatioFormat ratio] in
theorem withinBounds_remove (h : a.WithinBounds) (id : String)
    (hroom : a.det.cfg.minNodes < a.pool.size) :
    WithinBounds { a with pool := a.pool.remove id } := by
  rcases h with ⟨hmin, hmax⟩
  rw [WithinBounds]
  dsimp only
  rcases Pool.size_remove a.pool id with hsame | hless
  · rw [hsame]
    exact ⟨hmin, hmax⟩
  · constructor
    · exact Int.le_of_lt_add_one (hless ▸ hroom)
    · exact Int.le_trans (hless ▸ Int.le_add_one (Int.le_refl _)) hmax

theorem opFits_chooseDrain (h : a.MayDrain) (answer : Answer) :
    (a.advance answer ScaleOp.chooseDrain).1 = a.pool ∧
      a.OpFits (a.advance answer ScaleOp.chooseDrain).2 := by
  rw [advance]
  split
  · cases hid : a.pool.drainCandidate a.selfID answer.order with
    | none => exact ⟨rfl, trivial⟩
    | some id =>
        refine ⟨rfl, ?_⟩
        rcases h with hroom | honly
        · exact hroom
        · rw [Pool.drainCandidate_of_onlySelf honly] at hid
          cases hid
  · exact ⟨rfl, h⟩

theorem opFits_advance (h : a.WithinBounds) {op : ScaleOp} (hfits : a.OpFits op)
    (answer : Answer) :
    WithinBounds { a with pool := (a.advance answer op).1 } ∧
      OpFits { a with pool := (a.advance answer op).1 } (a.advance answer op).2 := by
  cases op with
  | provision =>
      rw [advance]
      cases answer.provisioned with
      | some node => exact ⟨h, hfits⟩
      | none => exact ⟨h, trivial⟩
  | add node => exact ⟨withinBounds_add h node answer.now hfits, trivial⟩
  | chooseDrain =>
      rcases opFits_chooseDrain hfits answer with ⟨hpool, hnext⟩
      rw [hpool]
      exact ⟨h, hnext⟩
  | drain id =>
      have hsize : (a.pool.drain id).size = a.pool.size := Pool.size_modify _ _ _
      rw [advance, WithinBounds, OpFits]
      dsimp only
      rw [hsize]
      exact ⟨h, hfits⟩
  | decommission id =>
      rw [advance]
      cases answer.decommissioned with
      | true => exact ⟨h, hfits⟩
      | false => exact ⟨h, trivial⟩
  | remove id => exact ⟨withinBounds_remove h id hfits, trivial⟩
  | undrain id =>
      have hsize : (a.pool.undrain id).size = a.pool.size := Pool.size_modify _ _ _
      rw [advance, WithinBounds]
      dsimp only
      rw [hsize]
      exact ⟨h, trivial⟩
  | clear => exact ⟨h, trivial⟩

theorem guarded_goroutine (h : a.Guarded) (i : Nat) (answer : Answer) :
    (a.goroutine i answer).Guarded := by
  rcases h.single with ⟨_, hops⟩ | ⟨hflag, op, hops, hfits⟩
  · have hnone : a.goroutine i answer = a := by
      rw [goroutine, hops]
      rfl
    rw [hnone]
    exact h
  · cases i with
    | succ j =>
        have hnone : a.goroutine (j + 1) answer = a := by
          rw [goroutine, hops]
          rfl
        rw [hnone]
        exact h
    | zero =>
        by_cases hclear : op = ScaleOp.clear
        · have hdone : a.goroutine 0 answer = { a with scaling := false, ops := [] } := by
            rw [goroutine, hops, hclear]
            rfl
          rw [hdone]
          exact ⟨h.within, Or.inl ⟨rfl, rfl⟩⟩
        · have hstep : a.goroutine 0 answer =
              { a with
                pool := (a.advance answer op).1
                ops := [(a.advance answer op).2] } := by
            rw [goroutine, hops]
            cases op with
            | clear => exact absurd rfl hclear
            | _ => rfl
          rw [hstep]
          rcases opFits_advance h.within hfits answer with ⟨hwithin, hnext⟩
          exact ⟨hwithin, Or.inr ⟨hflag, _, rfl, opFits_of_same rfl rfl rfl id hnext⟩⟩

theorem guarded_step (a : Autoscaler ratio) (e : ScaleEvent ratio) (h : a.Guarded)
    (hfits : a.DispatchFits e) : (a.step e).Guarded := by
  cases e with
  | sample r now =>
      rw [step]
      split
      · exact guarded_sample h r now
      · exact h
  | observe =>
      rw [step]
      split
      · exact guarded_observe h _ _
      · exact h
  | dispatch =>
      rw [step]
      split
      · rename_i action htick
        rw [DispatchFits, htick] at hfits
        exact guarded_dispatch h hfits
      · exact h
  | goroutine i answer => exact guarded_goroutine h i answer

/-- A dispatch that finds the pool and the bounds its tick decided on meets the condition. -/
theorem dispatchFits_of_unchanged {b : Autoscaler ratio} {r : ratio} {now : Int}
    (hmax : 0 < a.det.cfg.maxNodes) (hcfg : b.det.cfg = a.det.cfg) (hpool : b.pool = a.pool)
    (htick : b.tick = (a.observe r now).tick) : b.DispatchFits ScaleEvent.dispatch := by
  intro _ _
  have hfed := Detector.fed_feed a.det ⟨r, a.pool.size, now⟩
  rw [htick, observe]
  unfold Detector.feed at hfed
  cases hanswer : a.det.observe r a.pool.size now with
  | mk action det =>
      rw [hanswer] at hfed
      cases hfed with
      | scaleUp _ _ _ hnodes =>
          change b.pool.size < b.det.cfg.maxNodes
          rw [hcfg, hpool]
          exact hnodes hmax
      | scaleDown _ _ _ hnodes =>
          apply Or.inl
          rw [hcfg, hpool]
          exact hnodes
      | waitAbove _ | waitBelow _ | stable => trivial

theorem det_cfg_step (a : Autoscaler ratio) (e : ScaleEvent ratio) :
    (a.step e).det.cfg = a.det.cfg := by
  cases e with
  | sample r now =>
      rw [step]
      split <;> rfl
  | observe =>
      rw [step]
      split
      · rename_i r now _
        have hcfg : (a.det.observe r a.pool.size now).2.cfg = a.det.cfg :=
          Detector.cfg_feed a.det ⟨r, a.pool.size, now⟩
        unfold observe
        split
        · rename_i heq
          rw [heq] at hcfg
          exact hcfg
        · rename_i heq
          rw [heq] at hcfg
          exact hcfg
      · rfl
  | dispatch =>
      rw [step]
      split
      · unfold dispatch
        split
        · rfl
        · split <;> rfl
      · rfl
  | goroutine i answer =>
      rw [step, goroutine]
      split <;> rfl

theorem det_cfg_after (a : Autoscaler ratio) (events : List (ScaleEvent ratio)) :
    (Transition.after step a events).det.cfg = a.det.cfg := by
  induction events generalizing a with
  | nil => rfl
  | cons e rest ih =>
      change (Transition.after step (a.step e) rest).det.cfg = _
      rw [ih, det_cfg_step]

/--
When every goroutine is launched on a decision that still fits the pool, the pool
stays within its bounds.
-/
theorem withinBounds_of_dispatchFits (cfg : DetectorConfig ratio) (selfID : String)
    (prov : Bool) (pool : Pool ratio)
    (hmin : cfg.applyDefaults.minNodes <= pool.size)
    (hmax : pool.size <= cfg.applyDefaults.maxNodes)
    (events : List (ScaleEvent ratio))
    (hfits : Transition.StepsMeet step DispatchFits
      (newAutoscaler cfg selfID prov pool) events) :
    cfg.applyDefaults.minNodes <=
        (Transition.after step (newAutoscaler cfg selfID prov pool) events).pool.size ∧
      (Transition.after step (newAutoscaler cfg selfID prov pool) events).pool.size <=
        cfg.applyDefaults.maxNodes := by
  have hstart : Guarded (newAutoscaler cfg selfID prov pool) :=
    ⟨⟨hmin, hmax⟩, Or.inl ⟨rfl, rfl⟩⟩
  have hafter := Transition.invariant_after guarded_step hstart hfits
  have hwithin := hafter.within
  rw [WithinBounds, det_cfg_after] at hwithin
  exact hwithin

/-!
# Two nodes for one

One node, at most two.  The second tick launches a goroutine; the fourth decides
on the size that goroutine has not changed yet.
-/

def tightConfig : DetectorConfig Rat :=
  { quickConfig with maxNodes := 2 }

def namedNode (id : String) : Node :=
  ⟨id, "eu", "host", "", ""⟩

def aloneInPool : Pool Rat :=
  Pool.add ⟨∅⟩ (namedNode "self") 1

def answering (id : String) : Answer :=
  ⟨some (namedNode id), true, [], 1⟩

def busyTick (seconds : Int) : List (ScaleEvent Rat) :=
  [ScaleEvent.sample 1 (seconds * GoTime.second), ScaleEvent.observe]

/-- `Provision`, `Add` and the end of the goroutine. -/
def provisions (id : String) : List (ScaleEvent Rat) :=
  [ScaleEvent.goroutine 0 (answering id), ScaleEvent.goroutine 0 (answering id),
    ScaleEvent.goroutine 0 (answering id)]

def launchOne : List (ScaleEvent Rat) :=
  busyTick 1 ++ busyTick 2 ++ [ScaleEvent.dispatch]

theorem one_launch_stays_within :
    (Transition.after step (newAutoscaler tightConfig "self" true aloneInPool)
        (launchOne ++ provisions "a")).pool.size = 2 ∧
      (Transition.after step (newAutoscaler tightConfig "self" true aloneInPool)
        (launchOne ++ provisions "a")).pool.size <=
          tightConfig.applyDefaults.maxNodes := by
  constructor
  · decide +kernel
  · exact (withinBounds_of_dispatchFits tightConfig "self" true aloneInPool
      (by decide +kernel) (by decide +kernel) _ (by decide +kernel)).2

theorem stale_launch_exceeds_maxNodes :
    tightConfig.applyDefaults.minNodes <= aloneInPool.size ∧
      aloneInPool.size <= tightConfig.applyDefaults.maxNodes ∧
      tightConfig.applyDefaults.maxNodes <
        (Transition.after step (newAutoscaler tightConfig "self" true aloneInPool)
          (launchOne ++ busyTick 3 ++ busyTick 4 ++ provisions "a" ++
            [ScaleEvent.dispatch] ++ provisions "b")).pool.size := by
  decide +kernel

end Autoscaler
end Autoscale
end Ephor
