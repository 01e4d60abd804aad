import Mathlib.Data.List.Basic

/-!
# Escaped pairs

Two words become one: in each of them a mark is put before every separator and every mark, and
one bare separator stands between them.  The first bare separator of the word is then the one
in the middle, and both words can be read back.
-/

namespace Ephor
namespace Foundation
namespace EscapedPair

variable {α : Type} [DecidableEq α] (mark sep : α)

def escapeLetter (c : α) : List α :=
  if c = mark then [mark, mark] else if c = sep then [mark, sep] else [c]

def escape (word : List α) : List α :=
  word.flatMap (escapeLetter mark sep)

/-- A word up to its first bare separator, unescaped, and what is behind the separator. -/
def scan : List α -> Option (List α × List α)
  | [] => none
  | c :: rest =>
      if c = mark then
        match rest with
        | [] => none
        | e :: rest =>
            if e = mark ∨ e = sep then (scan rest).map fun p => (e :: p.1, p.2) else none
      else if c = sep then some ([], rest)
      else (scan rest).map fun p => (c :: p.1, p.2)

def unescape : List α -> Option (List α)
  | [] => some []
  | c :: rest =>
      if c = mark then
        match rest with
        | [] => none
        | e :: rest => if e = mark ∨ e = sep then (unescape rest).map (e :: ·) else none
      else if c = sep then none
      else (unescape rest).map (c :: ·)

variable {mark sep}

theorem escape_cons (c : α) (word : List α) :
    escape mark sep (c :: word) = escapeLetter mark sep c ++ escape mark sep word :=
  List.flatMap_cons

theorem escapeLetter_mark : escapeLetter mark sep mark = [mark, mark] :=
  if_pos rfl

theorem escapeLetter_sep (hne : sep ≠ mark) : escapeLetter mark sep sep = [mark, sep] := by
  rw [escapeLetter, if_neg hne, if_pos rfl]

theorem escapeLetter_other {c : α} (hmark : c ≠ mark) (hsep : c ≠ sep) :
    escapeLetter mark sep c = [c] := by
  rw [escapeLetter, if_neg hmark, if_neg hsep]

theorem mem_escape {c : α} {word : List α} (h : c ∈ escape mark sep word) :
    c ∈ word ∨ c = mark := by
  rcases List.mem_flatMap.mp h with ⟨x, hx, hc⟩
  rw [escapeLetter] at hc
  split at hc
  · simp only [List.mem_cons, List.not_mem_nil, or_false, or_self] at hc
    exact Or.inr hc
  · split at hc
    · rename_i hsep
      simp only [List.mem_cons, List.not_mem_nil, or_false] at hc
      rcases hc with hc | hc
      · exact Or.inr hc
      · rw [hc, <- hsep]
        exact Or.inl hx
    · rw [List.mem_singleton.mp hc]
      exact Or.inl hx

theorem scan_escapeLetter (hne : sep ≠ mark) (c : α) (rest : List α) :
    scan mark sep (escapeLetter mark sep c ++ rest) =
      (scan mark sep rest).map fun p => (c :: p.1, p.2) := by
  by_cases hmark : c = mark
  · rw [hmark, escapeLetter_mark, List.cons_append, List.singleton_append, scan.eq_def]
    simp
  · by_cases hsep : c = sep
    · rw [hsep, escapeLetter_sep hne, List.cons_append, List.singleton_append, scan.eq_def]
      simp
    · rw [escapeLetter_other hmark hsep, List.singleton_append, scan.eq_def]
      simp [hmark, hsep]

theorem unescape_escapeLetter (hne : sep ≠ mark) (c : α) (rest : List α) :
    unescape mark sep (escapeLetter mark sep c ++ rest) =
      (unescape mark sep rest).map (c :: ·) := by
  by_cases hmark : c = mark
  · rw [hmark, escapeLetter_mark, List.cons_append, List.singleton_append, unescape.eq_def]
    simp
  · by_cases hsep : c = sep
    · rw [hsep, escapeLetter_sep hne, List.cons_append, List.singleton_append, unescape.eq_def]
      simp
    · rw [escapeLetter_other hmark hsep, List.singleton_append, unescape.eq_def]
      simp [hmark, hsep]

theorem scan_escape (hne : sep ≠ mark) (word rest : List α) :
    scan mark sep (escape mark sep word ++ sep :: rest) = some (word, rest) := by
  induction word with
  | nil =>
      change scan mark sep (sep :: rest) = _
      rw [scan.eq_def]
      simp [hne]
  | cons c word ih =>
      rw [escape_cons, List.append_assoc, scan_escapeLetter hne, ih]
      rfl

theorem unescape_escape (hne : sep ≠ mark) (word : List α) :
    unescape mark sep (escape mark sep word) = some word := by
  induction word with
  | nil => rfl
  | cons c word ih =>
      rw [escape_cons, unescape_escapeLetter hne, ih]
      rfl

theorem scan_eq_none {word : List α} (h : sep ∉ word) (hmark : mark ∉ word) :
    scan mark sep word = none := by
  induction word with
  | nil => rfl
  | cons c rest ih =>
      simp only [List.mem_cons, not_or] at h hmark
      rw [scan.eq_def]
      simp [Ne.symm h.1, Ne.symm hmark.1, ih h.2 hmark.2]

end EscapedPair
end Foundation
end Ephor
