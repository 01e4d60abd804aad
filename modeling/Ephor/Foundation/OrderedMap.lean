import Ephor.Foundation.FiniteMap

/-!
# Ordered maps

Rust's `BTreeMap` hands out its entries in ascending order of their keys.  Where all the
keys there are can be listed in that order, its iteration visits the finite map along the
list.
-/

namespace Ephor
namespace Foundation
namespace FiniteMap

universe u v

variable {key : Type u} {value : Type v} [DecidableEq key]

def inOrder (keys : List key) (m : FiniteMap key value) : List (key × value) :=
  keys.filterMap fun k => (m.lookup k).map fun v => (k, v)

theorem lookup_of_mem_inOrder {keys : List key} {m : FiniteMap key value} {e : key × value}
    (h : e ∈ inOrder keys m) : m.lookup e.1 = some e.2 := by
  rcases List.mem_filterMap.mp h with ⟨k, _, hk⟩
  rcases Option.map_eq_some_iff.mp hk with ⟨v, hv, heq⟩
  rw [<- heq]
  exact hv

theorem mem_inOrder {keys : List key} (hall : forall k, k ∈ keys) {m : FiniteMap key value}
    {k : key} {v : value} : (k, v) ∈ inOrder keys m <-> m.lookup k = some v := by
  constructor
  · exact lookup_of_mem_inOrder
  · intro h
    apply List.mem_filterMap.mpr
    refine ⟨k, hall k, ?_⟩
    rw [h]
    rfl

theorem mem_keys_inOrder {keys : List key} (hall : forall k, k ∈ keys)
    {m : FiniteMap key value} {k : key} :
    k ∈ (inOrder keys m).map Prod.fst <-> exists v, m.lookup k = some v := by
  constructor
  · intro h
    rcases List.mem_map.mp h with ⟨e, he, hk⟩
    rw [<- hk]
    exact ⟨e.2, lookup_of_mem_inOrder he⟩
  · intro h
    rcases h with ⟨v, hv⟩
    exact List.mem_map.mpr ⟨(k, v), (mem_inOrder hall).mpr hv, rfl⟩

theorem keys_inOrder_sublist (keys : List key) (m : FiniteMap key value) :
    ((inOrder keys m).map Prod.fst).Sublist keys := by
  induction keys with
  | nil => exact List.Sublist.refl []
  | cons k keys ih =>
      unfold inOrder
      cases hk : m.lookup k with
      | none =>
          rw [List.filterMap_cons_none]
          · exact List.Sublist.cons k ih
          · rw [hk]
            rfl
      | some v =>
          rw [List.filterMap_cons_some (b := (k, v)), List.map_cons]
          · exact List.Sublist.cons_cons k ih
          · rw [hk]
            rfl

theorem visits_inOrder {keys : List key} (hnodup : keys.Nodup) (hall : forall k, k ∈ keys)
    (m : FiniteMap key value) : Visits ((inOrder keys m).map Prod.fst) m := by
  unfold Visits
  apply (Multiset.Nodup.ext _ _).mpr
  · intro k
    rw [Multiset.mem_coe, mem_keys_inOrder hall, Multiset.mem_map]
    constructor
    · intro h
      rcases h with ⟨v, hv⟩
      exact ⟨⟨k, v⟩, Finmap.lookup_eq_some_iff.mp hv, rfl⟩
    · intro h
      rcases h with ⟨e, he, hk⟩
      rw [<- hk]
      exact ⟨e.2, Finmap.lookup_eq_some_iff.mpr he⟩
  · exact Multiset.coe_nodup.mpr (hnodup.sublist (keys_inOrder_sublist keys m))
  · exact Multiset.nodup_keys.mpr m.nodupKeys

/-!
## A map from its entries
-/

def insertAll (entries : List (key × value)) (m : FiniteMap key value) : FiniteMap key value :=
  entries.foldl (fun m e => m.insert e.1 e.2) m

theorem lookup_insertAll {entries : List (key × value)}
    (hnodup : (entries.map Prod.fst).Nodup) {m : FiniteMap key value} {k : key} {v : value} :
    (insertAll entries m).lookup k = some v <->
      (k, v) ∈ entries ∨ k ∉ entries.map Prod.fst ∧ m.lookup k = some v := by
  induction entries generalizing m with
  | nil => simp [insertAll]
  | cons e entries ih =>
      rcases e with ⟨k', v'⟩
      rw [List.map_cons, List.nodup_cons] at hnodup
      have hrest := @ih hnodup.2 (m.insert k' v')
      rw [lookup_insert_eq_some] at hrest
      change (insertAll entries (m.insert k' v')).lookup k = some v <-> _
      rw [hrest, List.mem_cons, Prod.mk.injEq, List.map_cons, List.mem_cons]
      constructor
      · intro h
        rcases h with hmem | ⟨hnot, heq | ⟨hne, hm⟩⟩
        · exact Or.inl (Or.inr hmem)
        · exact Or.inl (Or.inl heq)
        · right
          refine ⟨?_, hm⟩
          intro h
          exact h.elim hne hnot
      · intro h
        rcases h with (⟨hk, hv⟩ | hmem) | ⟨hnot, hm⟩
        · right
          rw [hk]
          exact ⟨hnodup.1, Or.inl ⟨rfl, hv⟩⟩
        · exact Or.inl hmem
        · right
          exact ⟨fun h => hnot (Or.inr h), Or.inr ⟨fun h => hnot (Or.inl h), hm⟩⟩

theorem insertAll_inOrder {keys : List key} (hnodup : keys.Nodup) (hall : forall k, k ∈ keys)
    (m : FiniteMap key value) : insertAll (inOrder keys m) ∅ = m := by
  apply ext_some
  intro k v
  rw [lookup_insertAll (hnodup.sublist (keys_inOrder_sublist keys m)), mem_inOrder hall]
  simp

theorem inOrder_insertAll {r : key -> key -> Prop} (hasymm : forall a b, r a b -> Not (r b a))
    {keys : List key} (hall : forall k, k ∈ keys) (hkeys : keys.Pairwise r)
    {entries : List (key × value)} (hentries : (entries.map Prod.fst).Pairwise r) :
    inOrder keys (insertAll entries ∅) = entries := by
  have hnodup : forall {l : List key}, l.Pairwise r -> l.Nodup := by
    intro l hl
    apply hl.imp
    intro a b hab heq
    rw [heq] at hab
    exact hasymm b b hab hab
  have hinOrder := hkeys.sublist (keys_inOrder_sublist keys (insertAll entries ∅))
  have hperm : (inOrder keys (insertAll entries ∅)).Perm entries := by
    apply (List.perm_ext_iff_of_nodup (hnodup hinOrder).of_map (hnodup hentries).of_map).mpr
    intro e
    rw [mem_inOrder hall, lookup_insertAll (hnodup hentries)]
    simp
  apply List.Perm.eq_of_pairwise _ (List.pairwise_map.mp hinOrder)
    (List.pairwise_map.mp hentries) hperm
  intro a b _ _ hab hba
  exact absurd hba (hasymm _ _ hab)

/-!
## Sums along the order
-/

section Sums

variable {amount : Type} [AddCommGroup amount]

theorem sum_inOrder {keys : List key} (hnodup : keys.Nodup) (hall : forall k, k ∈ keys)
    (f : key -> value -> amount) (m : FiniteMap key value) :
    ((inOrder keys m).map fun e => f e.1 e.2).sum = sumBy f m := by
  have hentries : ((inOrder keys m).map fun e => (⟨e.1, e.2⟩ : (_ : key) × value) :
      Multiset ((_ : key) × value)) = m.entries := by
    apply (Multiset.Nodup.ext _ (nodup_entries m)).mpr
    · intro e
      rw [Multiset.mem_coe, List.mem_map]
      constructor
      · intro h
        rcases h with ⟨e', he', heq⟩
        rw [<- heq]
        exact Finmap.lookup_eq_some_iff.mp (lookup_of_mem_inOrder he')
      · intro h
        exact ⟨(e.1, e.2), (mem_inOrder hall).mpr (Finmap.lookup_eq_some_iff.mpr h), rfl⟩
    · apply Multiset.coe_nodup.mpr
      apply List.Nodup.of_map Sigma.fst
      rw [List.map_map]
      exact hnodup.sublist (keys_inOrder_sublist keys m)
  unfold sumBy
  rw [<- hentries, Multiset.map_coe, Multiset.sum_coe, List.map_map]
  rfl

theorem sum_inOrder_getD (keys : List key) (f : key -> value -> amount)
    (absent : value) (habsent : forall k, f k absent = 0) (m : FiniteMap key value) :
    ((inOrder keys m).map fun e => f e.1 e.2).sum =
      (keys.map fun k => f k ((m.lookup k).getD absent)).sum := by
  induction keys with
  | nil => rfl
  | cons k keys ih =>
      rw [List.map_cons, List.sum_cons, <- ih]
      unfold inOrder
      cases hk : m.lookup k with
      | none =>
          rw [List.filterMap_cons_none]
          · rw [Option.getD_none, habsent, zero_add]
          · rw [hk]
            rfl
      | some v =>
          rw [List.filterMap_cons_some (b := (k, v)), List.map_cons, List.sum_cons]
          · rw [Option.getD_some]
          · rw [hk]
            rfl

end Sums

end FiniteMap
end Foundation
end Ephor
