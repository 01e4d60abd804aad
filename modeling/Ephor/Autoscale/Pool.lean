import Ephor.Foundation.FiniteMap
import Ephor.Foundation.Text
import Ephor.Autoscale.Detector

/-!
# Pool membership

`Pool` of the `autoscale` package: the members by node id, each with its health,
drain and load state.  Every operation is one critical section of the pool's lock.
-/

namespace Ephor
namespace Autoscale

open Foundation

structure Node where
  id : String
  region : String
  provider : String
  addr : String
  healthURL : String
deriving DecidableEq

structure Member (ratio : Type) where
  node : Node
  healthy : Bool
  draining : Bool
  loadRatio : ratio
  lastProbe : Int
deriving DecidableEq

structure Pool (ratio : Type) where
  members : FiniteMap String (Member ratio)

namespace Member

variable {ratio : Type} [RatioFormat ratio]

def routable (m : Member ratio) : Bool :=
  m.healthy && !m.draining

def better (cand : Member ratio) : Option (Member ratio) -> Bool
  | none => true
  | some cur =>
      if cand.routable ≠ cur.routable then
        !cand.routable
      else if Not (RatioFormat.eq cand.loadRatio cur.loadRatio = true) then
        RatioFormat.lt cand.loadRatio cur.loadRatio
      else
        decide (cand.node.id < cur.node.id)

end Member

namespace Pool

variable {ratio : Type} [RatioFormat ratio]

/-- `Add`: a known id keeps its health, drain and load state, a blank id is ignored. -/
def add (p : Pool ratio) (n : Node) (now : Int) : Pool ratio :=
  if Text.trim n.id.toList = [] then
    p
  else
    match p.members.lookup n.id with
    | some existing => ⟨p.members.insert n.id { existing with node := n }⟩
    | none =>
        ⟨p.members.insert n.id
          { node := n
            healthy := true
            draining := false
            loadRatio := RatioFormat.zero
            lastProbe := now }⟩

def remove (p : Pool ratio) (id : String) : Pool ratio :=
  ⟨p.members.erase id⟩

def size (p : Pool ratio) : Int :=
  FiniteMap.size p.members

def modify (p : Pool ratio) (id : String)
    (f : Member ratio -> Member ratio) : Pool ratio :=
  match p.members.lookup id with
  | some m => ⟨p.members.insert id (f m)⟩
  | none => p

def drain (p : Pool ratio) (id : String) : Pool ratio :=
  p.modify id fun m => { m with draining := true }

def undrain (p : Pool ratio) (id : String) : Pool ratio :=
  p.modify id fun m => { m with draining := false }

def updateLoad (p : Pool ratio) (id : String) (r : ratio) : Pool ratio :=
  p.modify id fun m => { m with loadRatio := r }

def considerDrain (selfID : String) (best : Option (Member ratio))
    (m : Member ratio) : Option (Member ratio) :=
  if m.node.id = selfID then best else if m.better best then some m else best

/-- `DrainCandidate`, ranging over the members in the given order. -/
def drainCandidate (p : Pool ratio) (selfID : String) (order : List String) :
    Option String :=
  ((order.filterMap p.members.lookup).foldl (considerDrain selfID) none).map
    fun m => m.node.id

/-!
# What the operations do to the number of members
-/

omit [RatioFormat ratio] in
theorem size_modify (p : Pool ratio) (id : String)
    (f : Member ratio -> Member ratio) : (p.modify id f).size = p.size := by
  unfold modify
  split
  · rename_i m hm
    exact congrArg Int.ofNat (FiniteMap.size_insert_of_some (f m) hm)
  · rfl

theorem size_add (p : Pool ratio) (n : Node) (now : Int) :
    (p.add n now).size = p.size ∨ (p.add n now).size = p.size + 1 := by
  unfold add
  split
  · exact Or.inl rfl
  · split
    · rename_i existing hsome
      exact Or.inl (congrArg Int.ofNat (FiniteMap.size_insert_of_some _ hsome))
    · rename_i hnone
      apply Or.inr
      exact congrArg Int.ofNat (FiniteMap.size_insert_of_none _ hnone)

omit [RatioFormat ratio] in
theorem size_remove (p : Pool ratio) (id : String) :
    (p.remove id).size = p.size ∨ (p.remove id).size + 1 = p.size := by
  unfold remove
  cases hm : p.members.lookup id with
  | none =>
      rw [FiniteMap.erase_of_lookup_none hm]
      exact Or.inl rfl
  | some m => exact Or.inr (congrArg Int.ofNat (FiniteMap.size_erase hm))

def OnlySelf (p : Pool ratio) (selfID : String) : Prop :=
  FiniteMap.any (fun _ m => decide (m.node.id ≠ selfID)) p.members = false

instance (p : Pool ratio) (selfID : String) : Decidable (p.OnlySelf selfID) :=
  inferInstanceAs (Decidable (_ = _))

omit [RatioFormat ratio] in
theorem onlySelf_iff (p : Pool ratio) (selfID : String) :
    p.OnlySelf selfID <-> forall id m, p.members.lookup id = some m -> m.node.id = selfID := by
  unfold OnlySelf
  rw [<- Bool.not_eq_true, FiniteMap.any_eq_true]
  constructor
  · intro h id m hm
    by_contra hne
    exact h ⟨id, m, hm, decide_eq_true hne⟩
  · intro h hany
    rcases hany with ⟨id, m, hm, hne⟩
    exact of_decide_eq_true hne (h id m hm)

omit [RatioFormat ratio] in
theorem onlySelf_modify {p : Pool ratio} {selfID : String} (id : String)
    {f : Member ratio -> Member ratio} (hf : forall m, (f m).node = m.node)
    (h : p.OnlySelf selfID) : (p.modify id f).OnlySelf selfID := by
  rw [onlySelf_iff] at h ⊢
  intro id' m' hm'
  unfold modify at hm'
  split at hm'
  · rename_i m hm
    rcases FiniteMap.lookup_insert_eq_some.mp hm' with ⟨_, heq⟩ | ⟨_, hold⟩
    · rw [heq, hf]
      exact h id m hm
    · exact h id' m' hold
  · exact h id' m' hm'

theorem drainCandidate_of_onlySelf {p : Pool ratio} {selfID : String}
    (h : p.OnlySelf selfID) (order : List String) : p.drainCandidate selfID order = none := by
  rw [onlySelf_iff] at h
  have hnone : forall ms : List (Member ratio), (forall m, m ∈ ms -> m.node.id = selfID) ->
      ms.foldl (considerDrain selfID) none = none := by
    intro ms
    induction ms with
    | nil =>
        intro _
        rfl
    | cons m rest ih =>
        intro hall
        have hskip : considerDrain selfID none m = none :=
          if_pos (hall m List.mem_cons_self)
        rw [List.foldl_cons, hskip]
        exact ih (fun m' hm' => hall m' (List.mem_cons_of_mem m hm'))
  unfold drainCandidate
  rw [hnone]
  · rfl
  · intro m hm
    rcases List.mem_filterMap.mp hm with ⟨id, _, hid⟩
    exact h id m hid

end Pool

end Autoscale
end Ephor
