import Mathlib.Data.List.Basic
import Mathlib.Data.Nat.Log
import Mathlib.Data.Option.NAry
import Mathlib.Tactic.Ring

/-!
# Binary trees over a list, by splitting and by levels

A list of nodes determines a binary tree in two ways.  The splitting rule of
RFC 6962 cuts the list at the largest power of two strictly below its length and
recurses on both parts.  The level rule pairs neighbours from left to right,
promotes an unpaired last node unchanged, and repeats until one node is left.

The combining function is arbitrary: no law of it is used, so two
constructions that agree here build the same tree.
-/

namespace Ephor
namespace Foundation
namespace SplitTree

universe u

variable {α : Type u}

/-!
# The splitting rule
-/

/-- The largest power of two strictly below `n`, for `n` at least two. -/
def splitPoint (n : Nat) : Nat :=
  2 ^ Nat.log2 (n - 1)

theorem splitPoint_eq {n j : Nat} (hlow : 2 ^ j < n) (hhigh : n <= 2 ^ (j + 1)) :
    splitPoint n = 2 ^ j := by
  have hne : n - 1 ≠ 0 := by
    have hpos : 0 < 2 ^ j := Nat.two_pow_pos j
    omega
  have hlog : Nat.log2 (n - 1) = j := by
    apply (Nat.log2_eq_iff hne).mpr
    omega
  rw [splitPoint, hlog]

theorem splitPoint_spec {n : Nat} (hn : 2 <= n) : splitPoint n < n ∧ n <= 2 * splitPoint n := by
  have hne : n - 1 ≠ 0 := by omega
  have hle := Nat.log2_self_le hne
  have hlt : n - 1 < 2 ^ (Nat.log2 (n - 1) + 1) := Nat.lt_log2_self
  rw [Nat.pow_succ] at hlt
  unfold splitPoint
  omega

theorem splitPoint_pos (n : Nat) : 0 < splitPoint n :=
  Nat.two_pow_pos _

/-- `MTH` of RFC 6962 over ready-made leaf nodes; undefined on the empty list. -/
def mth (node : α -> α -> α) : List α -> Option α
  | [] => none
  | [x] => some x
  | x :: y :: rest =>
      Option.map₂ node
        (mth node ((x :: y :: rest).take (splitPoint (rest.length + 2))))
        (mth node ((x :: y :: rest).drop (splitPoint (rest.length + 2))))
termination_by l => l.length
decreasing_by
  · have hspec := splitPoint_spec (show 2 <= rest.length + 2 by omega)
    simp only [List.length_take, List.length_cons]
    omega
  · have hpos := splitPoint_pos (rest.length + 2)
    simp only [List.length_drop, List.length_cons]
    omega

theorem mth_singleton (node : α -> α -> α) (x : α) : mth node [x] = some x := by
  rw [mth]

theorem mth_append (node : α -> α -> α) {a b : List α} {j : Nat}
    (ha : a.length = 2 ^ j) (hb : 0 < b.length) (hle : b.length <= 2 ^ j) :
    mth node (a ++ b) = Option.map₂ node (mth node a) (mth node b) := by
  have hpos : 0 < 2 ^ j := Nat.two_pow_pos j
  have hlen : (a ++ b).length = 2 ^ j + b.length := by
    rw [List.length_append, ha]
  have hsplit : splitPoint (a ++ b).length = a.length := by
    rw [ha]
    apply splitPoint_eq
    · omega
    · rw [Nat.pow_succ]
      omega
  cases hl : a ++ b with
  | nil =>
      rw [hl] at hlen
      simp only [List.length_nil] at hlen
      omega
  | cons x tail =>
      cases tail with
      | nil =>
          rw [hl] at hlen
          simp only [List.length_cons, List.length_nil] at hlen
          omega
      | cons y rest =>
          have htwo : rest.length + 2 = (a ++ b).length := by
            rw [hl]
            rfl
          rw [mth, htwo, hsplit, <- hl, List.take_left, List.drop_left]

theorem exists_split {l : List α} (hl : 2 <= l.length) :
    exists j a b, l = a ++ b ∧ a.length = 2 ^ j ∧ 0 < b.length ∧ b.length <= 2 ^ j := by
  have hspec := splitPoint_spec hl
  refine ⟨Nat.log2 (l.length - 1), l.take (splitPoint l.length),
    l.drop (splitPoint l.length), (List.take_append_drop _ l).symm, ?_, ?_, ?_⟩
  · rw [List.length_take]
    exact Nat.min_eq_left (le_of_lt hspec.left)
  · rw [List.length_drop]
    omega
  · rw [List.length_drop]
    change l.length - splitPoint l.length <= splitPoint l.length
    omega

theorem split_induction {motive : List α -> Prop} (nil : motive [])
    (single : forall x, motive [x])
    (split : forall j a b, a.length = 2 ^ j -> 0 < b.length -> b.length <= 2 ^ j ->
      motive a -> motive b -> motive (a ++ b)) (l : List α) : motive l := by
  induction hlen : l.length using Nat.strong_induction_on generalizing l with
  | _ n ih =>
      by_cases htwo : 2 <= l.length
      · rcases exists_split htwo with ⟨j, a, b, rfl, ha, hb, hle⟩
        have hpos : 0 < 2 ^ j := Nat.two_pow_pos j
        rw [List.length_append] at hlen
        exact split j a b ha hb hle (ih a.length (by omega) a rfl) (ih b.length (by omega) b rfl)
      · match l with
        | [] => exact nil
        | [x] => exact single x
        | x :: y :: rest => exact absurd (Nat.le_add_left 2 rest.length) htwo

theorem mth_isSome (node : α -> α -> α) {l : List α} (hl : l ≠ []) :
    (mth node l).isSome = true := by
  induction l using split_induction with
  | nil => exact absurd rfl hl
  | single x =>
      rw [mth_singleton]
      rfl
  | split j a b ha hb hle hA hB =>
      have hpos : 0 < 2 ^ j := Nat.two_pow_pos j
      rw [mth_append node ha hb hle]
      rcases Option.isSome_iff_exists.mp (hA (List.ne_nil_of_length_pos (by omega))) with ⟨x, hx⟩
      rcases Option.isSome_iff_exists.mp (hB (List.ne_nil_of_length_pos hb)) with ⟨y, hy⟩
      rw [hx, hy]
      rfl

/-!
# The level rule
-/

/-- One level up: pair neighbours, promote an unpaired last node unchanged. -/
def pairUp (node : α -> α -> α) : List α -> List α
  | [] => []
  | [x] => [x]
  | x :: y :: rest => node x y :: pairUp node rest

theorem length_pairUp (node : α -> α -> α) (l : List α) :
    (pairUp node l).length = (l.length + 1) / 2 := by
  induction l using pairUp.induct with
  | case1 | case2 x => simp [pairUp]
  | case3 x y rest ih =>
      rw [pairUp, List.length_cons, ih, List.length_cons, List.length_cons]
      omega

theorem pairUp_append (node : α -> α -> α) {a : List α} (b : List α) (ha : a.length % 2 = 0) :
    pairUp node (a ++ b) = pairUp node a ++ pairUp node b := by
  induction a using pairUp.induct with
  | case1 => rfl
  | case2 x =>
      simp only [List.length_singleton] at ha
      omega
  | case3 x y rest ih =>
      rw [List.cons_append, List.cons_append, pairUp, pairUp, List.cons_append, ih]
      simp only [List.length_cons] at ha
      omega

theorem mth_pairUp (node : α -> α -> α) (l : List α) : mth node (pairUp node l) = mth node l := by
  induction l using split_induction with
  | nil | single x => rfl
  | split j a b ha hb hle hA hB =>
      cases j with
      | zero =>
          -- two leaves: the level above is the single combined node
          rcases List.length_eq_one_iff.mp ha with ⟨x, rfl⟩
          have hbone : b.length = 1 := by
            rw [Nat.pow_zero] at hle
            omega
          rcases List.length_eq_one_iff.mp hbone with ⟨y, rfl⟩
          rw [mth_append node ha hb hle, mth_singleton, mth_singleton]
          exact mth_singleton node (node x y)
      | succ j =>
          have heven : a.length % 2 = 0 := by
            rw [ha, Nat.pow_succ]
            omega
          have ha' : (pairUp node a).length = 2 ^ j := by
            rw [length_pairUp, ha, Nat.pow_succ]
            omega
          have hb' : 0 < (pairUp node b).length := by
            rw [length_pairUp]
            omega
          have hle' : (pairUp node b).length <= 2 ^ j := by
            rw [Nat.pow_succ] at hle
            rw [length_pairUp]
            omega
          rw [pairUp_append node b heven, mth_append node ha' hb' hle',
            mth_append node ha hb hle, hA, hB]

/-- Repeat the level rule until one node is left. -/
def levelRoot (node : α -> α -> α) : List α -> Option α
  | [] => none
  | [x] => some x
  | x :: y :: rest => levelRoot node (pairUp node (x :: y :: rest))
termination_by l => l.length
decreasing_by
  rw [length_pairUp]
  simp only [List.length_cons]
  omega

theorem levelRoot_eq_mth (node : α -> α -> α) (l : List α) : levelRoot node l = mth node l := by
  induction l using levelRoot.induct node with
  | case1 | case2 x => rw [levelRoot, mth]
  | case3 x y rest ih => rw [levelRoot, ih, mth_pairUp]

/-!
# Positions across levels

The node above position `i` combines the nodes at `2 * (i / 2)` and its right
neighbour, or is the former alone when it is the promoted last node.
-/

theorem getElem?_pairUp_of_pair (node : α -> α -> α) {l : List α} {i : Nat}
    {x y : α} (hx : l[2 * i]? = some x) (hy : l[2 * i + 1]? = some y) :
    (pairUp node l)[i]? = some (node x y) := by
  induction l using pairUp.induct generalizing i with
  | case1 => cases hx
  | case2 z =>
      simp at hy
  | case3 a b rest ih =>
      cases i with
      | zero =>
          have ha : a = x := by simpa using hx
          have hb : b = y := by simpa using hy
          rw [pairUp, ha, hb]
          rfl
      | succ i =>
          rw [pairUp]
          exact ih
            (by simpa [show 2 * (i + 1) = 2 * i + 1 + 1 by omega] using hx)
            (by simpa [show 2 * (i + 1) + 1 = 2 * i + 1 + 1 + 1 by omega] using hy)

theorem getElem?_pairUp_of_last (node : α -> α -> α) {l : List α} {i : Nat}
    {x : α} (hx : l[2 * i]? = some x) (hlast : l.length = 2 * i + 1) :
    (pairUp node l)[i]? = some x := by
  induction l using pairUp.induct generalizing i with
  | case1 => cases hx
  | case2 z =>
      have hi : i = 0 := by
        simp only [List.length_singleton] at hlast
        omega
      subst hi
      simpa [pairUp] using hx
  | case3 a b rest ih =>
      cases i with
      | zero =>
          simp only [List.length_cons] at hlast
          omega
      | succ i =>
          rw [pairUp]
          apply ih
          · simpa [show 2 * (i + 1) = 2 * i + 1 + 1 by omega] using hx
          · simp only [List.length_cons] at hlast
            omega

end SplitTree
end Foundation
end Ephor
