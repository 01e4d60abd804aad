import Mathlib.Algebra.Order.BigOperators.Group.List

/-!
# Saturating sums

Amounts that are added up in a range with a largest element, where a sum past it stays at
the largest element.  Over amounts that are not negative it makes no difference whether the
terms, the partial sums or the total are cut off.
-/

namespace Ephor
namespace Foundation
namespace Saturating

variable {amount : Type} [AddCommMonoid amount] [LinearOrder amount]
  [IsOrderedAddMonoid amount]

def saturate (top x : amount) : amount :=
  min top x

omit [AddCommMonoid amount] [IsOrderedAddMonoid amount] in
theorem saturate_of_le {top x : amount} (h : x <= top) : saturate top x = x :=
  min_eq_right h

omit [AddCommMonoid amount] [IsOrderedAddMonoid amount] in
theorem saturate_mono (top : amount) {x y : amount} (h : x <= y) :
    saturate top x <= saturate top y :=
  min_le_min_left top h

theorem saturate_saturate_add (top x : amount) {y : amount} (hy : 0 <= y) :
    saturate top (saturate top x + y) = saturate top (x + y) := by
  unfold saturate
  cases le_total x top with
  | inl hle => rw [min_eq_right hle]
  | inr hle =>
      rw [min_eq_left hle, min_eq_left (le_add_of_nonneg_right hy),
        min_eq_left (le_trans hle (le_add_of_nonneg_right hy))]

theorem saturate_add_saturate (top : amount) {x y : amount} (hx : 0 <= x) (hy : 0 <= y)
    (htop : 0 <= top) : saturate top (saturate top x + saturate top y) = saturate top (x + y) := by
  have hcut : 0 <= saturate top y := le_min htop hy
  rw [saturate_saturate_add top x hcut, add_comm, saturate_saturate_add top y hx, add_comm]

theorem foldl_saturate {item : Type} (top : amount) (htop : 0 <= top) (f : item -> amount)
    (items : List item) (hf : forall x, x ∈ items -> 0 <= f x) {start : amount}
    (hstart : 0 <= start) :
    items.foldl (fun total x => saturate top (total + saturate top (f x)))
        (saturate top start) =
      saturate top (start + (items.map f).sum) := by
  induction items generalizing start with
  | nil => rw [List.foldl_nil, List.map_nil, List.sum_nil, add_zero]
  | cons x items ih =>
      have hx : 0 <= f x := hf x (List.mem_cons_self ..)
      have hrest : forall y, y ∈ items -> 0 <= f y := by
        intro y hy
        exact hf y (List.mem_cons_of_mem x hy)
      rw [List.foldl_cons, saturate_add_saturate top hstart hx htop,
        ih hrest (add_nonneg hstart hx), List.map_cons, List.sum_cons, add_assoc]

end Saturating
end Foundation
end Ephor
