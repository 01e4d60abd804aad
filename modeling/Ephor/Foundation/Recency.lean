import Mathlib.Data.List.Nodup

/-!
# Recency

A history lists the keys in the order of their uses, the latest use first.  A list of
keys is in the order of recency when each key was used after every key behind it.  The
order is kept by moving the key that is used to the front.
-/

namespace Ephor
namespace Foundation
namespace Recency

variable {key : Type} [DecidableEq key]

/-- The uses since the last use of a key. -/
def since (uses : List key) (k : key) : List key :=
  uses.takeWhile (fun j => j ≠ k)

/-- Both keys were used, the first one after the last use of the second one. -/
def UsedAfter (uses : List key) (k j : key) : Prop :=
  j ∈ uses ∧ k ∈ since uses j

instance (uses : List key) (k j : key) : Decidable (UsedAfter uses k j) :=
  inferInstanceAs (Decidable (_ ∧ _))

/-- The keys stand in the order of their last uses, and all of them were used. -/
def Ordered (uses keys : List key) : Prop :=
  keys.Pairwise (UsedAfter uses) ∧ forall k, k ∈ keys -> k ∈ uses

theorem not_usedAfter_self (uses : List key) (k : key) : Not (UsedAfter uses k k) := by
  intro h
  have hall : (since uses k).all (fun j => j ≠ k) = true := List.all_takeWhile
  have hne := List.all_eq_true.mp hall k h.2
  rw [decide_eq_true_iff] at hne
  exact hne rfl

variable {uses keys : List key}

theorem Ordered.nodup (h : Ordered uses keys) : keys.Nodup := by
  apply h.1.imp
  intro k j hafter heq
  rw [heq] at hafter
  exact not_usedAfter_self uses j hafter

theorem Ordered.sublist {keys' : List key} (h : Ordered uses keys) (hsub : keys'.Sublist keys) :
    Ordered uses keys' :=
  ⟨h.1.sublist hsub, fun k hk => h.2 k (hsub.subset hk)⟩

theorem since_cons_of_ne {k j : key} (h : k ≠ j) : since (k :: uses) j = k :: since uses j :=
  List.takeWhile_cons_of_pos (decide_eq_true h)

theorem UsedAfter.cons {uses : List key} {k j used : key} (h : UsedAfter uses k j)
    (hne : used ≠ j) : UsedAfter (used :: uses) k j := by
  constructor
  · exact List.mem_cons_of_mem used h.1
  · rw [since_cons_of_ne hne]
    exact List.mem_cons_of_mem used h.2

theorem usedAfter_cons_self {used j : key} (hj : j ∈ uses) (hne : used ≠ j) :
    UsedAfter (used :: uses) used j := by
  constructor
  · exact List.mem_cons_of_mem used hj
  · rw [since_cons_of_ne hne]
    exact List.mem_cons_self

theorem Ordered.cons {uses keys : List key} (h : Ordered uses keys) {used : key}
    (hnew : used ∉ keys) : Ordered (used :: uses) (used :: keys) := by
  have hne : forall j, j ∈ keys -> used ≠ j := by
    intro j hj heq
    rw [heq] at hnew
    exact hnew hj
  constructor
  · apply List.pairwise_cons.mpr
    constructor
    · intro j hj
      exact usedAfter_cons_self (h.2 j hj) (hne j hj)
    · exact h.1.imp_of_mem fun _ hj hafter => hafter.cons (hne _ hj)
  · intro k hk
    rcases List.mem_cons.mp hk with heq | hold
    · rw [heq]
      exact List.mem_cons_self
    · exact List.mem_cons_of_mem used (h.2 k hold)

theorem Ordered.moveToFront (h : Ordered uses keys) (used : key) :
    Ordered (used :: uses) (used :: keys.erase used) :=
  (h.sublist List.erase_sublist).cons (List.Nodup.not_mem_erase h.nodup)

theorem Ordered.usedAfter_of_kept {kept : List key} (h : Ordered uses keys)
    (hsub : List.IsPrefix kept keys) {k j : key} (hk : k ∈ kept) (hj : j ∈ keys)
    (hdropped : j ∉ kept) : UsedAfter uses k j := by
  rcases hsub with ⟨dropped, rfl⟩
  have hpair := (List.pairwise_append.mp h.1).2.2
  rcases List.mem_append.mp hj with hkept | hbehind
  · exact absurd hkept hdropped
  · exact hpair k hk j hbehind

end Recency
end Foundation
end Ephor
