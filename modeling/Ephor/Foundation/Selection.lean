import Mathlib.Data.List.Basic

/-!
# Selection in one pass

A pass over a list keeps the best item so far and gives it up for a better one.  Where the
comparison is a strict total order on the items, what is left is the least of them, and the
order in which they were visited does not matter.
-/

namespace Ephor
namespace Foundation
namespace Selection

universe u

variable {item : Type u} (better : item -> item -> Bool)

def consider (best : Option item) (x : item) : Option item :=
  match best with
  | none => some x
  | some b => if better x b then some x else some b

def select (items : List item) : Option item :=
  items.foldl (consider better) none

structure StrictTotalOn (among : item -> Prop) : Prop where
  asymm : forall x y, among x -> among y -> better x y = true -> Not (better y x = true)
  trans : forall x y z, among x -> among y -> among z -> better x y = true ->
    better y z = true -> better x z = true
  total : forall x y, among x -> among y -> x ≠ y -> better x y = true ∨ better y x = true

def Least (among : item -> Prop) (x : item) : Prop :=
  among x ∧ forall y, among y -> y ≠ x -> better x y = true

variable {better} {among : item -> Prop}

theorem least_unique (h : StrictTotalOn better among) {x y : item}
    (hx : Least better among x) (hy : Least better among y) : x = y := by
  by_contra hne
  exact h.asymm x y hx.1 hy.1 (hx.2 y hy.1 (Ne.symm hne)) (hy.2 x hx.1 hne)

theorem least_congr {among' : item -> Prop} (h : forall x, among x <-> among' x) (x : item) :
    Least better among x <-> Least better among' x := by
  unfold Least
  rw [h x]
  constructor
  · intro hx
    exact ⟨hx.1, fun y hy => hx.2 y ((h y).mpr hy)⟩
  · intro hx
    exact ⟨hx.1, fun y hy => hx.2 y ((h y).mp hy)⟩

theorem consider_some (h : StrictTotalOn better among) {b y : item} (hb : among b) (hy : among y) :
    exists c, consider better (some b) y = some c ∧ (c = b ∨ c = y) ∧
      forall z, z = b ∨ z = y -> z ≠ c -> better c z = true := by
  by_cases hbetter : better y b = true
  · refine ⟨y, if_pos hbetter, Or.inr rfl, ?_⟩
    intro z hz hne
    rcases hz with hz | hz
    · rw [hz]
      exact hbetter
    · exact absurd hz hne
  · refine ⟨b, if_neg hbetter, Or.inl rfl, ?_⟩
    intro z hz hne
    rcases hz with hz | hz
    · exact absurd hz hne
    · rw [hz] at hne
      rw [hz]
      exact (h.total b y hb hy (Ne.symm hne)).resolve_right hbetter

theorem least_of_turn (h : StrictTotalOn better among) {b y c x : item} {items : List item}
    (hall : forall z, z ∈ b :: y :: items -> among z) (hc : c = b ∨ c = y)
    (hbeats : forall z, z = b ∨ z = y -> z ≠ c -> better c z = true)
    (hx : Least better (fun z => z ∈ c :: items) x) :
    Least better (fun z => z ∈ b :: y :: items) x := by
  have hkeep : forall z, z ∈ c :: items -> z ∈ b :: y :: items := by
    intro z hz
    rcases List.mem_cons.mp hz with hzc | hzi
    · rw [hzc, List.mem_cons, List.mem_cons]
      rcases hc with hc | hc
      · exact Or.inl hc
      · exact Or.inr (Or.inl hc)
    · exact List.mem_cons_of_mem b (List.mem_cons_of_mem y hzi)
  refine ⟨hkeep x hx.1, ?_⟩
  intro z hz hne
  by_cases hzc : z ∈ c :: items
  · exact hx.2 z hzc hne
  · -- the item that lost against `c`, which is `x` or comes after it
    have hlost : z = b ∨ z = y := by
      rcases List.mem_cons.mp hz with hzb | hz
      · exact Or.inl hzb
      · rcases List.mem_cons.mp hz with hzy | hz
        · exact Or.inr hzy
        · exact absurd (List.mem_cons_of_mem c hz) hzc
    have hcz : better c z = true := by
      apply hbeats z hlost
      intro heq
      rw [heq] at hzc
      exact hzc List.mem_cons_self
    by_cases hxc : x = c
    · rw [hxc]
      exact hcz
    · exact h.trans x c z (hall x (hkeep x hx.1)) (hall c (hkeep c List.mem_cons_self))
        (hall z hz) (hx.2 c List.mem_cons_self (Ne.symm hxc)) hcz

theorem foldl_consider (h : StrictTotalOn better among) {items : List item} {b : item}
    (hall : forall x, x ∈ b :: items -> among x) :
    exists x, items.foldl (consider better) (some b) = some x ∧
      Least better (fun y => y ∈ b :: items) x := by
  induction items generalizing b with
  | nil =>
      refine ⟨b, rfl, List.mem_singleton.mpr rfl, ?_⟩
      intro y hy hne
      exact absurd (List.mem_singleton.mp hy) hne
  | cons y items ih =>
      rcases List.forall_mem_cons.mp hall with ⟨hb, hrest⟩
      rcases List.forall_mem_cons.mp hrest with ⟨hy, hitems⟩
      rcases consider_some h hb hy with ⟨c, hturn, hc, hbeats⟩
      have hc_among : among c := by
        rcases hc with hc | hc
        · rw [hc]
          exact hb
        · rw [hc]
          exact hy
      rcases @ih c (List.forall_mem_cons.mpr ⟨hc_among, hitems⟩) with ⟨x, hx, hleast⟩
      refine ⟨x, ?_, least_of_turn h hall hc hbeats hleast⟩
      rw [List.foldl_cons, hturn]
      exact hx

variable (better) in
theorem exists_consider (best : Option item) (x : item) :
    exists c, consider better best x = some c := by
  cases best with
  | none => exact ⟨x, rfl⟩
  | some b =>
      unfold consider
      by_cases hbetter : better x b = true
      · exact ⟨x, if_pos hbetter⟩
      · exact ⟨b, if_neg hbetter⟩

variable (better) in
theorem foldl_consider_ne_none (items : List item) (b : item) :
    items.foldl (consider better) (some b) ≠ none := by
  induction items generalizing b with
  | nil =>
      intro h
      cases h
  | cons y items ih =>
      rcases exists_consider better (some b) y with ⟨c, hc⟩
      rw [List.foldl_cons, hc]
      exact ih c

variable (better) in
theorem select_eq_none {items : List item} : select better items = none <-> items = [] := by
  cases items with
  | nil => exact ⟨fun _ => rfl, fun _ => rfl⟩
  | cons b items =>
      constructor
      · intro hnone
        exact absurd hnone (foldl_consider_ne_none better items b)
      · intro h
        cases h

theorem select_eq_some (h : StrictTotalOn better among) {items : List item}
    (hall : forall x, x ∈ items -> among x) {x : item} :
    select better items = some x <-> Least better (fun y => y ∈ items) x := by
  cases items with
  | nil =>
      constructor
      · intro hx
        cases hx
      · intro hx
        cases hx.1
  | cons b items =>
      have hturn : select better (b :: items) = items.foldl (consider better) (some b) := rfl
      rcases foldl_consider h hall with ⟨w, hw, hleast⟩
      have hmem : StrictTotalOn better (fun y => y ∈ b :: items) :=
        { asymm := fun x y hx hy => h.asymm x y (hall x hx) (hall y hy)
          trans := fun x y z hx hy hz => h.trans x y z (hall x hx) (hall y hy) (hall z hz)
          total := fun x y hx hy => h.total x y (hall x hx) (hall y hy) }
      rw [hturn, hw]
      constructor
      · intro heq
        cases heq
        exact hleast
      · intro hx
        rw [least_unique hmem hleast hx]

end Selection
end Foundation
end Ephor
