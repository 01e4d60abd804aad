import Mathlib.Data.Finmap
import Mathlib.Algebra.Order.BigOperators.Group.Multiset
import Mathlib.Algebra.Order.Group.Int

/-!
# Finite maps

Go's `map` and Rust's `HashMap` are unordered finite maps.  They are
modelled by the finite maps of Mathlib, whose entries form a multiset, so no
proof can depend on an iteration order.  This module adds the operations that
the modelled programs use and Mathlib lacks: filtering by an entry predicate,
the number of entries, and sums over the entries.
-/

namespace Ephor
namespace Foundation

universe u v

abbrev FiniteMap (key : Type u) (value : Type v) := Finmap (fun _ : key => value)

namespace FiniteMap

variable {key : Type u} {value : Type v}

/-!
## Filtering

Deleting, while ranging over a map, every entry that fails a test.
-/

def filter (keep : key -> value -> Bool) (m : FiniteMap key value) :
    FiniteMap key value where
  entries := m.entries.filter fun e => keep e.1 e.2
  nodupKeys := by
    rw [<- Multiset.nodup_keys]
    exact Multiset.nodup_of_le
      (Multiset.map_le_map (Multiset.filter_le _ _))
      (Multiset.nodup_keys.mpr m.nodupKeys)

variable [DecidableEq key]

variable {m : FiniteMap key value} {k : key} {v : value}

@[simp] theorem lookup_filter_eq_some {keep : key -> value -> Bool} :
    (filter keep m).lookup k = some v <->
      m.lookup k = some v ∧ keep k v = true := by
  rw [Finmap.lookup_eq_some_iff, Finmap.lookup_eq_some_iff]
  exact Multiset.mem_filter

theorem lookup_filter_eq_none {keep : key -> value -> Bool} :
    (filter keep m).lookup k = none <-> forall v, m.lookup k = some v -> keep k v = false := by
  constructor
  · intro h v hv
    cases hk : keep k v with
    | false => rfl
    | true =>
        have hsome := lookup_filter_eq_some.mpr ⟨hv, hk⟩
        rw [h] at hsome
        cases hsome
  · intro h
    cases hl : (filter keep m).lookup k with
    | none => rfl
    | some v =>
        rcases lookup_filter_eq_some.mp hl with ⟨hv, hk⟩
        rw [h v hv] at hk
        cases hk

/-!
## Rewriting every entry

A range that replaces each value, or deletes its entry.
-/

omit [DecidableEq key] in
theorem keys_filterMap_le {value' : Type v} (f : key -> value -> Option value')
    (s : Multiset ((_ : key) × value)) :
    (s.filterMap fun e =>
        (f e.1 e.2).map fun v => (⟨e.1, v⟩ : (_ : key) × value')).map Sigma.fst <=
      s.map Sigma.fst := by
  induction s using Multiset.induction_on with
  | empty => exact le_refl _
  | cons e s ih =>
      rw [Multiset.map_cons]
      cases hv : f e.1 e.2 with
      | none =>
          rw [Multiset.filterMap_cons_none]
          · exact le_trans ih (Multiset.le_cons_self _ _)
          · rw [hv]
            rfl
      | some v =>
          rw [Multiset.filterMap_cons_some (b := ⟨e.1, v⟩), Multiset.map_cons]
          · exact (Multiset.cons_le_cons_iff _).mpr ih
          · rw [hv]
            rfl

def filterMap {value' : Type v} (f : key -> value -> Option value')
    (m : FiniteMap key value) : FiniteMap key value' where
  entries := m.entries.filterMap fun e => (f e.1 e.2).map fun v => ⟨e.1, v⟩
  nodupKeys := by
    rw [<- Multiset.nodup_keys]
    exact Multiset.nodup_of_le (keys_filterMap_le f m.entries)
      (Multiset.nodup_keys.mpr m.nodupKeys)

theorem lookup_filterMap {value' : Type v} (f : key -> value -> Option value')
    (m : FiniteMap key value) (k : key) : (filterMap f m).lookup k = (m.lookup k).bind (f k) := by
  apply Option.ext
  intro w
  rw [Option.bind_eq_some_iff, Finmap.lookup_eq_some_iff]
  constructor
  · intro h
    rcases (Multiset.mem_filterMap _ _).mp h with ⟨e, he, hw⟩
    rcases Option.map_eq_some_iff.mp hw with ⟨v, hv, heq⟩
    cases heq
    exact ⟨e.2, Finmap.lookup_eq_some_iff.mpr he, hv⟩
  · intro h
    rcases h with ⟨v, hv, hw⟩
    apply (Multiset.mem_filterMap _ _).mpr
    refine ⟨⟨k, v⟩, Finmap.lookup_eq_some_iff.mp hv, ?_⟩
    rw [hw]
    rfl

/-!
## Number of entries
-/

def size (m : FiniteMap key value) : Nat :=
  m.entries.card

omit [DecidableEq key] in
theorem size_filterMap_le {value' : Type v} (f : key -> value -> Option value')
    (m : FiniteMap key value) : (filterMap f m).size <= m.size := by
  have hle := Multiset.card_le_card (keys_filterMap_le f m.entries)
  rw [Multiset.card_map, Multiset.card_map] at hle
  exact hle

omit [DecidableEq key] in
theorem size_filter_le (keep : key -> value -> Bool) (m : FiniteMap key value) :
    (filter keep m).size <= m.size :=
  Multiset.card_le_card (Multiset.filter_le _ _)

theorem size_eq_zero_of_lookup (h : forall k, m.lookup k = none) : m.size = 0 := by
  have hm : m = ∅ := by
    apply Finmap.ext_lookup
    intro k
    rw [h k, Finmap.lookup_empty]
  rw [hm]
  rfl

theorem ext_some {m' : FiniteMap key value}
    (h : forall k v, m.lookup k = some v <-> m'.lookup k = some v) : m = m' := by
  apply Finmap.ext_lookup
  intro k
  apply Option.ext
  intro v
  exact h k v

/-!
## Updates at one key
-/

theorem lookup_insert_eq_some {k' : key} {v' : value} :
    (m.insert k v).lookup k' = some v' <->
      (k' = k ∧ v' = v) ∨ (k' ≠ k ∧ m.lookup k' = some v') := by
  by_cases hk : k' = k
  · subst hk
    simp [eq_comm]
  · simp [hk, Finmap.lookup_insert_of_ne m hk]

theorem mem_insert_iff {k' : key} : k' ∈ m.insert k v <-> k' = k ∨ k' ∈ m :=
  Finmap.mem_insert

theorem lookup_erase_eq_some {k' : key} :
    (m.erase k).lookup k' = some v <-> k' ≠ k ∧ m.lookup k' = some v := by
  by_cases hk : k' = k
  · subst hk
    simp
  · simp [hk, Finmap.lookup_erase_ne hk]

theorem insert_erase_of_lookup (h : m.lookup k = some v) : (m.erase k).insert k v = m := by
  apply Finmap.ext_lookup
  intro k'
  by_cases hk : k' = k
  · subst hk
    rw [Finmap.lookup_insert, h]
  · rw [Finmap.lookup_insert_of_ne _ hk, Finmap.lookup_erase_ne hk]

theorem erase_insert_of_lookup_none (h : m.lookup k = none) : (m.insert k v).erase k = m := by
  apply Finmap.ext_lookup
  intro k'
  by_cases hk : k' = k
  · subst hk
    rw [Finmap.lookup_erase, h]
  · rw [Finmap.lookup_erase_ne hk, Finmap.lookup_insert_of_ne _ hk]

theorem insert_eq_insert_erase (v : value) : m.insert k v = (m.erase k).insert k v := by
  apply Finmap.ext_lookup
  intro k'
  by_cases hk : k' = k
  · rw [hk, Finmap.lookup_insert, Finmap.lookup_insert]
  · rw [Finmap.lookup_insert_of_ne _ hk, Finmap.lookup_insert_of_ne _ hk,
      Finmap.lookup_erase_ne hk]

theorem size_insert_of_none (v : value) (h : m.lookup k = none) :
    size (m.insert k v) = size m + 1 := by
  unfold size
  rw [Finmap.entries_insert_of_notMem (Finmap.lookup_eq_none.mp h),
    Multiset.card_cons]

theorem size_erase (h : m.lookup k = some v) : size (m.erase k) + 1 = size m := by
  have hinsert := size_insert_of_none v (Finmap.lookup_erase k m)
  rw [insert_erase_of_lookup h] at hinsert
  exact hinsert.symm

theorem size_insert_of_some {old : value} (v : value) (h : m.lookup k = some old) :
    size (m.insert k v) = size m := by
  rw [insert_eq_insert_erase, size_insert_of_none v (Finmap.lookup_erase k m),
    size_erase h]

theorem erase_of_lookup_none (h : m.lookup k = none) : m.erase k = m := by
  apply Finmap.ext_lookup
  intro k'
  by_cases hk : k' = k
  · rw [hk, Finmap.lookup_erase, h]
  · rw [Finmap.lookup_erase_ne hk]

theorem mem_filter {keep : key -> value -> Bool} :
    k ∈ filter keep m <-> exists v, m.lookup k = some v ∧ keep k v = true := by
  rw [Finmap.mem_iff]
  constructor
  · intro h
    rcases h with ⟨v, hv⟩
    exact ⟨v, lookup_filter_eq_some.mp hv⟩
  · intro h
    rcases h with ⟨v, hv⟩
    exact ⟨v, lookup_filter_eq_some.mpr hv⟩

/-!
## Ranging

A range over a map visits every key once, in an order of its choosing.
-/

def Visits (order : List key) (m : FiniteMap key value) : Prop :=
  (order : Multiset key) = m.entries.map Sigma.fst

instance (order : List key) (m : FiniteMap key value) : Decidable (Visits order m) :=
  inferInstanceAs (Decidable (_ = _))

omit [DecidableEq key] in
theorem nodup_of_visits {order : List key} (h : Visits order m) : order.Nodup := by
  rw [<- Multiset.coe_nodup, h]
  exact Multiset.nodup_keys.mpr m.nodupKeys

theorem mem_of_visits {order : List key} (h : Visits order m) (hv : m.lookup k = some v) :
    k ∈ order := by
  rw [<- Multiset.mem_coe, h]
  exact Multiset.mem_map_of_mem Sigma.fst (Finmap.lookup_eq_some_iff.mp hv)

/-!
## Searching
-/

def any (test : key -> value -> Bool) (m : FiniteMap key value) : Bool :=
  decide (true ∈ m.entries.map fun e => test e.1 e.2)

theorem any_eq_true {test : key -> value -> Bool} :
    any test m = true <-> exists k v, m.lookup k = some v ∧ test k v = true := by
  unfold any
  rw [decide_eq_true_iff, Multiset.mem_map]
  constructor
  · intro h
    rcases h with ⟨e, he, htest⟩
    exact ⟨e.1, e.2, Finmap.lookup_eq_some_iff.mpr he, htest⟩
  · intro h
    rcases h with ⟨k, v, hv, htest⟩
    exact ⟨⟨k, v⟩, Finmap.lookup_eq_some_iff.mp hv, htest⟩

/-!
## Sum of the values
-/

def total (m : FiniteMap key Int) : Int :=
  (m.entries.map fun e => e.2).sum

theorem total_insert {m : FiniteMap key Int} {v : Int} (h : m.lookup k = none) :
    total (m.insert k v) = total m + v := by
  unfold total
  rw [Finmap.entries_insert_of_notMem (Finmap.lookup_eq_none.mp h),
    Multiset.map_cons, Multiset.sum_cons, Int.add_comm]

theorem total_erase {m : FiniteMap key Int} {v : Int} (h : m.lookup k = some v) :
    total (m.erase k) = total m - v := by
  have hinsert : total ((m.erase k).insert k v) = total (m.erase k) + v :=
    total_insert (Finmap.lookup_erase k m)
  rw [insert_erase_of_lookup h] at hinsert
  omega

omit [DecidableEq key] in
theorem total_filter (keep : key -> Int -> Bool) (m : FiniteMap key Int) :
    total (filter keep m) + total (filter (fun k v => !keep k v) m) = total m := by
  have hsplit : (filter keep m).entries +
      (filter (fun k v => !keep k v) m).entries = m.entries := by
    change Multiset.filter (fun e => keep e.1 e.2 = true) m.entries +
      Multiset.filter (fun e => (!keep e.1 e.2) = true) m.entries = m.entries
    have hnot : (fun e : (_ : key) × Int => (!keep e.1 e.2) = true) =
        fun e => Not (keep e.1 e.2 = true) := by
      funext e
      simp
    simp only [hnot]
    exact Multiset.filter_add_not _ _
  unfold total
  rw [<- Multiset.sum_add, <- Multiset.map_add, hsplit]

/-!
## Sum over the entries
-/

section SumBy

variable {amount : Type} [AddCommGroup amount]

def sumBy (f : key -> value -> amount) (m : FiniteMap key value) : amount :=
  (m.entries.map fun e => f e.1 e.2).sum

theorem sumBy_insert_of_none (f : key -> value -> amount) (v : value) (h : m.lookup k = none) :
    sumBy f (m.insert k v) = sumBy f m + f k v := by
  unfold sumBy
  rw [Finmap.entries_insert_of_notMem (Finmap.lookup_eq_none.mp h),
    Multiset.map_cons, Multiset.sum_cons, add_comm]

theorem sumBy_erase (f : key -> value -> amount) (h : m.lookup k = some v) :
    sumBy f (m.erase k) = sumBy f m - f k v := by
  have hinsert : sumBy f ((m.erase k).insert k v) = sumBy f (m.erase k) + f k v :=
    sumBy_insert_of_none f v (Finmap.lookup_erase k m)
  rw [insert_erase_of_lookup h] at hinsert
  exact eq_sub_of_add_eq hinsert.symm

theorem sumBy_eq_zero {f : key -> value -> amount}
    (h : forall k v, m.lookup k = some v -> f k v = 0) : sumBy f m = 0 := by
  apply Multiset.sum_eq_zero
  intro x hx
  rcases Multiset.mem_map.mp hx with ⟨e, he, hex⟩
  rw [<- hex]
  exact h e.1 e.2 (Finmap.lookup_eq_some_iff.mpr he)

theorem sumBy_insert (f : key -> value -> amount) {old : value} (v : value)
    (h : m.lookup k = some old) : sumBy f (m.insert k v) = sumBy f m - f k old + f k v := by
  rw [insert_eq_insert_erase, sumBy_insert_of_none f v (Finmap.lookup_erase k m), sumBy_erase f h]

end SumBy

theorem le_sumBy {f : key -> value -> Int}
    (hpos : forall k v, m.lookup k = some v -> 0 <= f k v) (h : m.lookup k = some v) :
    f k v <= sumBy f m := by
  apply Multiset.single_le_sum
  · intro x hx
    rcases Multiset.mem_map.mp hx with ⟨e, he, hex⟩
    rw [<- hex]
    exact hpos e.1 e.2 (Finmap.lookup_eq_some_iff.mpr he)
  · exact Multiset.mem_map_of_mem (fun e : (_ : key) × value => f e.1 e.2)
      (Finmap.lookup_eq_some_iff.mp h)

theorem sumBy_nonneg {f : key -> value -> Int}
    (hpos : forall k v, m.lookup k = some v -> 0 <= f k v) : 0 <= sumBy f m := by
  apply Multiset.sum_nonneg
  intro x hx
  rcases Multiset.mem_map.mp hx with ⟨e, he, hex⟩
  rw [<- hex]
  exact hpos e.1 e.2 (Finmap.lookup_eq_some_iff.mpr he)

omit [DecidableEq key] in
theorem nodup_entries (m : FiniteMap key value) : m.entries.Nodup := by
  have hkeys : (m.entries.map Sigma.fst).Nodup :=
    Multiset.nodup_keys.mpr m.nodupKeys
  exact Multiset.Nodup.of_map _ hkeys

theorem total_le {m m' : FiniteMap key Int}
    (hsub : forall k v, m'.lookup k = some v -> m.lookup k = some v)
    (hpos : forall k v, m.lookup k = some v -> 0 <= v) : total m' <= total m := by
  have hle : m'.entries <= m.entries := by
    apply (Multiset.le_iff_subset (nodup_entries m')).mpr
    intro e he
    exact Finmap.lookup_eq_some_iff.mp
      (hsub e.1 e.2 (Finmap.lookup_eq_some_iff.mpr he))
  rcases Multiset.le_iff_exists_add.mp hle with ⟨rest, hrest⟩
  have hnonneg : 0 <= (rest.map fun e => e.2).sum := by
    apply Multiset.sum_nonneg
    intro v hv
    rcases Multiset.mem_map.mp hv with ⟨e, he, hev⟩
    rw [<- hev]
    apply hpos e.1 e.2
    apply Finmap.lookup_eq_some_iff.mpr
    rw [hrest]
    exact Multiset.mem_add.mpr (Or.inr he)
  unfold total
  rw [hrest, Multiset.map_add, Multiset.sum_add]
  omega

end FiniteMap

end Foundation
end Ephor
