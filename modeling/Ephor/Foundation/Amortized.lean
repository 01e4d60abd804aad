import Ephor.Foundation.Transition
import Mathlib.Algebra.BigOperators.Group.List.Basic
import Mathlib.Algebra.Order.Monoid.Defs

/-!
# The potential method

What a machine emits costs something or earns a credit.  A potential pays in advance: where no
step costs more than the credit it earns and what the potential loses, no run does.
-/

namespace Ephor
namespace Foundation
namespace Amortized

open Transition (after emitted)

variable {state event output amount : Type}

theorem sum_indicator [AddCommMonoid amount] (p : output -> Bool) (c : amount)
    (outputs : List output) :
    (outputs.map fun o => if p o then c else 0).sum = outputs.countP p • c := by
  induction outputs with
  | nil => simp
  | cons o rest ih =>
      rw [List.map_cons, List.sum_cons, ih, List.countP_cons]
      cases p o with
      | true =>
          rw [if_pos rfl, if_pos rfl, add_nsmul, one_nsmul]
          exact add_comm c _
      | false =>
          rw [if_neg Bool.false_ne_true, if_neg Bool.false_ne_true]
          simp

variable [AddCommMonoid amount] [PartialOrder amount] [IsOrderedAddMonoid amount]
  {step : state -> event -> state} {emit : state -> event -> List output}
  {invariant : state -> Prop} {potential : state -> amount} {cost credit : output -> amount}

theorem potential_add_cost_le (hkeeps : forall s e, invariant s -> invariant (step s e))
    (hpays : forall s e, invariant s ->
      potential (step s e) + ((emit s e).map cost).sum <=
        potential s + ((emit s e).map credit).sum)
    {s : state} (hs : invariant s) (events : List event) :
    potential (after step s events) + ((emitted step emit s events).map cost).sum <=
      potential s + ((emitted step emit s events).map credit).sum := by
  induction events generalizing s with
  | nil => exact le_refl _
  | cons e rest ih =>
      have hfirst := hpays s e hs
      have hrest := ih (hkeeps s e hs)
      rw [emitted, List.map_append, List.map_append, List.sum_append, List.sum_append]
      calc
        potential (after step (step s e) rest) +
            (((emit s e).map cost).sum + ((emitted step emit (step s e) rest).map cost).sum) =
            potential (after step (step s e) rest) +
                ((emitted step emit (step s e) rest).map cost).sum + ((emit s e).map cost).sum := by
          rw [add_assoc, add_comm ((emit s e).map cost).sum]
        _ <= potential (step s e) + ((emitted step emit (step s e) rest).map credit).sum +
              ((emit s e).map cost).sum := add_le_add_left hrest _
        _ = potential (step s e) + ((emit s e).map cost).sum +
              ((emitted step emit (step s e) rest).map credit).sum := add_right_comm _ _ _
        _ <= potential s + ((emit s e).map credit).sum +
              ((emitted step emit (step s e) rest).map credit).sum := add_le_add_left hfirst _
        _ = potential s + (((emit s e).map credit).sum +
              ((emitted step emit (step s e) rest).map credit).sum) := add_assoc _ _ _

end Amortized
end Foundation
end Ephor
