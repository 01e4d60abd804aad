import Mathlib.Data.List.Basic

/-!
# Lines

A text cut at an end mark: the complete lines, and the tail that no mark ends.  The marks
and the texts are arbitrary.
-/

namespace Ephor
namespace Foundation
namespace Lines

variable {α : Type} [DecidableEq α] (mark : α)

/-- The complete lines, without their marks, and what follows the last mark. -/
def split : List α -> List (List α) × List α
  | [] => ([], [])
  | a :: text =>
      if a = mark then
        ([] :: (split text).1, (split text).2)
      else
        match (split text).1 with
        | [] => ([], a :: (split text).2)
        | line :: lines => ((a :: line) :: lines, (split text).2)

omit [DecidableEq α] in
def join (lines : List (List α)) : List α :=
  lines.flatMap fun line => line ++ [mark]

omit [DecidableEq α] in
theorem join_cons (line : List α) (lines : List (List α)) :
    join mark (line :: lines) = line ++ mark :: join mark lines := by
  simp [join]

omit [DecidableEq α] in
theorem join_append (lines more : List (List α)) :
    join mark (lines ++ more) = join mark lines ++ join mark more :=
  List.flatMap_append

theorem join_split (text : List α) :
    join mark (split mark text).1 ++ (split mark text).2 = text := by
  induction text with
  | nil => rfl
  | cons a text ih =>
      rw [split]
      split
      · rename_i ha
        rw [join_cons, ha, List.nil_append, List.cons_append, ih]
      · cases hlines : (split mark text).1 with
        | nil =>
            rw [hlines] at ih
            exact congrArg (List.cons a) ih
        | cons line lines =>
            rw [hlines, join_cons] at ih
            change join mark ((a :: line) :: lines) ++ (split mark text).2 = a :: text
            rw [join_cons]
            exact congrArg (List.cons a) ih

theorem mark_not_mem_split (text : List α) :
    (forall line, line ∈ (split mark text).1 -> mark ∉ line) ∧ mark ∉ (split mark text).2 := by
  induction text with
  | nil => simp [split]
  | cons a text ih =>
      rw [split]
      split
      · simp only [List.mem_cons, forall_eq_or_imp]
        exact ⟨⟨List.not_mem_nil, ih.1⟩, ih.2⟩
      · rename_i ha
        cases hlines : (split mark text).1 with
        | nil =>
            simp only [List.mem_cons, not_or]
            exact ⟨fun _ h => absurd h List.not_mem_nil, Ne.symm ha, ih.2⟩
        | cons line lines =>
            rw [hlines] at ih
            simp only [List.mem_cons, forall_eq_or_imp, not_or] at ih ⊢
            exact ⟨⟨⟨Ne.symm ha, ih.1.1⟩, ih.1.2⟩, ih.2⟩

theorem split_of_not_mem {tail : List α} (h : mark ∉ tail) : split mark tail = ([], tail) := by
  induction tail with
  | nil => rfl
  | cons a tail ih =>
      rw [List.mem_cons, not_or] at h
      rw [split, if_neg (Ne.symm h.1), ih h.2]

theorem split_line {line : List α} (h : mark ∉ line) (text : List α) :
    split mark (line ++ mark :: text) = (line :: (split mark text).1, (split mark text).2) := by
  induction line with
  | nil => simp [split]
  | cons a line ih =>
      rw [List.mem_cons, not_or] at h
      rw [List.cons_append, split, if_neg (Ne.symm h.1), ih h.2]

theorem split_join_append {lines : List (List α)} (h : forall line, line ∈ lines -> mark ∉ line)
    (text : List α) :
    split mark (join mark lines ++ text) = (lines ++ (split mark text).1, (split mark text).2) := by
  induction lines with
  | nil => rfl
  | cons line lines ih =>
      rw [join_cons, List.append_assoc, List.cons_append,
        split_line mark (h line List.mem_cons_self),
        ih (List.forall_mem_cons.mp h).2, List.cons_append]

theorem split_join {lines : List (List α)} (hlines : forall line, line ∈ lines -> mark ∉ line)
    {tail : List α} (htail : mark ∉ tail) :
    split mark (join mark lines ++ tail) = (lines, tail) := by
  rw [split_join_append mark hlines, split_of_not_mem mark htail, List.append_nil]

theorem join_split_of_ends (text : List α) :
    join mark (split mark (text ++ [mark])).1 = text ++ [mark] := by
  have htail : (split mark (text ++ [mark])).2 = [] := by
    induction text with
    | nil => simp [split]
    | cons a text ih =>
        rw [List.cons_append, split]
        split
        · exact ih
        · split
          · rename_i hnone
            have hall := join_split mark (text ++ [mark])
            rw [hnone, ih] at hall
            exact absurd hall.symm (List.append_ne_nil_of_right_ne_nil _ (List.cons_ne_nil _ _))
          · exact ih
  have hjoin := join_split mark (text ++ [mark])
  rw [htail, List.append_nil] at hjoin
  exact hjoin

end Lines
end Foundation
end Ephor
