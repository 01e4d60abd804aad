import Ephor.Foundation.Text

/-!
# Lines and words of a text

`split("\r\n")` gives the pieces of a text between its CRLF pairs; a return or a line feed that
is not part of a pair stays in its line.  `split_whitespace` gives the words.
-/

namespace Ephor
namespace Foundation
namespace Text

def crlfLines : List Char -> List (List Char)
  | [] => [[]]
  | [c] => [[c]]
  | c :: d :: rest =>
      if c = '\r' ∧ d = '\n' then [] :: crlfLines rest
      else (crlfLines (d :: rest)).modifyHead (c :: ·)

def firstLine (text : List Char) : List Char :=
  (crlfLines text).headD []

variable {c : Char} {text : List Char}

theorem crlfLines_cons (h : c = '\r' -> text.head? ≠ some '\n') :
    crlfLines (c :: text) = (crlfLines text).modifyHead (c :: ·) := by
  cases text with
  | nil => rfl
  | cons d text =>
      have hpair : ¬ (c = '\r' ∧ d = '\n') := fun hpair => h hpair.1 (congrArg some hpair.2)
      rw [crlfLines, if_neg hpair]

theorem crlfLines_pair (text : List Char) :
    crlfLines ('\r' :: '\n' :: text) = [] :: crlfLines text := by
  rw [crlfLines, if_pos ⟨rfl, rfl⟩]

theorem crlfLines_ne_nil (text : List Char) : crlfLines text ≠ [] := by
  induction text using crlfLines.induct with
  | case1 | case2 c => exact List.cons_ne_nil _ _
  | case3 c d rest hpair _ =>
      rw [crlfLines, if_pos hpair]
      exact List.cons_ne_nil _ _
  | case4 c d rest hpair ih =>
      rw [crlfLines, if_neg hpair]
      intro hnil
      exact ih (List.modifyHead_eq_nil_iff.mp hnil)

theorem crlfLines_eq_cons (text : List Char) :
    crlfLines text = firstLine text :: (crlfLines text).tail := by
  rw [firstLine]
  cases hlines : crlfLines text with
  | nil => exact absurd hlines (crlfLines_ne_nil text)
  | cons first rest => rfl

theorem crlfLines_append (front rest : List Char) :
    crlfLines (front ++ '\r' :: '\n' :: rest) = crlfLines front ++ crlfLines rest := by
  induction front using crlfLines.induct with
  | case1 => exact crlfLines_pair rest
  | case2 c =>
      rw [List.singleton_append, crlfLines_cons, crlfLines_pair]
      · rfl
      · intro _ hhead
        cases hhead
  | case3 c d front hpair ih =>
      rw [hpair.1, hpair.2, List.cons_append, List.cons_append, crlfLines_pair, crlfLines_pair, ih,
        List.cons_append]
  | case4 c d front hpair ih =>
      have hhead : forall more : List Char, c = '\r' -> (d :: more).head? ≠ some '\n' :=
        fun _ hc hd => hpair ⟨hc, Option.some.inj hd⟩
      rw [List.cons_append, List.cons_append, crlfLines_cons (hhead _), crlfLines_cons (hhead _),
        <- List.cons_append, ih]
      rw [crlfLines_eq_cons (d :: front)]
      rfl

theorem crlfLines_of_not_mem {line : List Char} (h : '\n' ∉ line) : crlfLines line = [line] := by
  induction line with
  | nil => rfl
  | cons c line ih =>
      rcases List.ne_and_not_mem_of_not_mem_cons h with ⟨_, hline⟩
      have hhead : c = '\r' -> line.head? ≠ some '\n' :=
        fun _ hhead => hline (List.mem_of_head? hhead)
      rw [crlfLines_cons hhead, ih hline]
      rfl

theorem crlfLines_front {front : List Char} (h : '\r' ∉ front) (text : List Char) :
    crlfLines (front ++ text) = (front ++ firstLine text) :: (crlfLines text).tail := by
  induction front with
  | nil => exact crlfLines_eq_cons text
  | cons c front ih =>
      rcases List.ne_and_not_mem_of_not_mem_cons h with ⟨hc, hfront⟩
      rw [List.cons_append, crlfLines_cons (fun heq => absurd heq.symm hc), ih hfront]
      rfl

theorem mem_of_mem_crlfLines {line : List Char} (hline : line ∈ crlfLines text) (hc : c ∈ line) :
    c ∈ text := by
  induction text using crlfLines.induct generalizing line with
  | case1 | case2 d =>
      rw [List.mem_singleton.mp hline] at hc
      exact hc
  | case3 d e rest hpair ih =>
      rw [crlfLines, if_pos hpair] at hline
      rcases List.mem_cons.mp hline with rfl | hline
      · exact absurd hc List.not_mem_nil
      · exact List.mem_cons_of_mem d (List.mem_cons_of_mem e (ih hline hc))
  | case4 d e rest hpair ih =>
      rw [crlfLines, if_neg hpair, crlfLines_eq_cons] at hline
      rcases List.mem_cons.mp hline with rfl | hline
      · rcases List.mem_cons.mp hc with rfl | hc
        · exact List.mem_cons_self
        · apply List.mem_cons_of_mem
          apply ih _ hc
          rw [crlfLines_eq_cons]
          exact List.mem_cons_self
      · apply List.mem_cons_of_mem
        apply ih _ hc
        rw [crlfLines_eq_cons]
        exact List.mem_cons_of_mem _ hline

theorem firstLine_subset (text : List Char) : firstLine text ⊆ text := by
  intro c hc
  apply mem_of_mem_crlfLines _ hc
  rw [crlfLines_eq_cons text]
  exact List.mem_cons_self

theorem firstLine_of_not_mem {line : List Char} (h : '\n' ∉ line) : firstLine line = line := by
  rw [firstLine, crlfLines_of_not_mem h]
  rfl

theorem firstLine_append (front rest : List Char) :
    firstLine (front ++ '\r' :: '\n' :: rest) = firstLine front := by
  rw [firstLine, crlfLines_append, crlfLines_eq_cons front]
  rfl

theorem crlfLines_flatMap (first : List Char) (texts : List (List Char)) :
    crlfLines (first ++ texts.flatMap fun text => '\r' :: '\n' :: text) =
      crlfLines first ++ texts.flatMap crlfLines := by
  induction texts generalizing first with
  | nil =>
      rw [List.flatMap_nil, List.flatMap_nil, List.append_nil, List.append_nil]
  | cons text texts ih =>
      rw [List.flatMap_cons, List.flatMap_cons, <- List.append_assoc, ih, crlfLines_append,
        List.append_assoc]

/-!
# Words and ends
-/

theorem mem_of_mem_splitOnP {p : Char -> Bool} {piece : List Char}
    (hpiece : piece ∈ text.splitOnP p) (hc : c ∈ piece) : c ∈ text ∧ p c = false := by
  induction text generalizing piece with
  | nil =>
      rw [List.splitOnP_nil, List.mem_singleton] at hpiece
      rw [hpiece] at hc
      exact absurd hc List.not_mem_nil
  | cons d text ih =>
      rw [List.splitOnP_cons_eq_if_modifyHead] at hpiece
      split at hpiece
      · rcases List.mem_cons.mp hpiece with rfl | hpiece
        · exact absurd hc List.not_mem_nil
        · exact ⟨List.mem_cons_of_mem d (ih hpiece hc).1, (ih hpiece hc).2⟩
      · rename_i hd
        cases hpieces : text.splitOnP p with
        | nil => exact absurd hpieces (List.splitOnP_ne_nil p text)
        | cons first rest =>
            rw [hpieces] at hpiece
            have hfirst : first ∈ text.splitOnP p := hpieces ▸ List.mem_cons_self
            rcases List.mem_cons.mp hpiece with rfl | hpiece
            · rcases List.mem_cons.mp hc with rfl | hc
              · exact ⟨List.mem_cons_self, Bool.eq_false_iff.mpr hd⟩
              · exact ⟨List.mem_cons_of_mem d (ih hfirst hc).1, (ih hfirst hc).2⟩
            · have hrest : piece ∈ text.splitOnP p := hpieces ▸ List.mem_cons_of_mem first hpiece
              exact ⟨List.mem_cons_of_mem d (ih hrest hc).1, (ih hrest hc).2⟩

theorem mem_of_mem_splitWhitespace {word : List Char} (hword : word ∈ splitWhitespace text)
    (hc : c ∈ word) : c ∈ text ∧ isWhiteSpace c = false :=
  mem_of_mem_splitOnP (List.mem_of_mem_filter hword) hc

theorem splitWhitespace_word {word : List Char} (hne : word ≠ [])
    (h : forall c, c ∈ word -> isWhiteSpace c = false) : splitWhitespace word = [word] := by
  have hnonempty : (!word.isEmpty) = true := by simp [hne]
  rw [splitWhitespace, List.splitOnP_eq_singleton h, List.filter_cons, if_pos hnonempty]
  rfl

theorem ends_of_drop {p : Char -> Bool} (h : (text.dropWhile p).rdropWhile p = text) :
    (forall c, c ∈ text.head? -> p c = false) ∧ forall c, c ∈ text.getLast? -> p c = false := by
  have hstart : text.dropWhile p = text := by
    apply (List.dropWhile_suffix p).eq_of_length_le
    calc text.length
        = ((text.dropWhile p).rdropWhile p).length := by rw [h]
      _ <= (text.dropWhile p).length := (List.rdropWhile_prefix _ _).length_le
  rw [hstart] at h
  constructor
  · intro c hc
    rcases List.head?_eq_some_iff.mp hc with ⟨rest, hrest⟩
    rw [hrest, List.dropWhile_cons] at hstart
    split at hstart
    · have hshort : (rest.dropWhile p).length <= rest.length :=
        (List.dropWhile_suffix p).length_le
      rw [hstart, List.length_cons] at hshort
      omega
    · rename_i hdrop
      exact Bool.eq_false_iff.mpr hdrop
  · intro c hc
    have hne := List.ne_nil_of_mem (List.mem_of_getLast? hc)
    have hlast := List.rdropWhile_eq_self_iff.mp h hne
    rw [List.getLast?_eq_some_getLast hne, Option.mem_some_iff] at hc
    rw [<- hc]
    exact Bool.eq_false_iff.mpr hlast

theorem trim_front (front : List Char) {rest : List Char} (hne : rest ≠ [])
    (hfirst : forall c, c ∈ rest.head? -> isWhiteSpace c = false)
    (hlast : forall c, c ∈ rest.getLast? -> isWhiteSpace c = false) :
    trim (front ++ rest) = front.dropWhile isWhiteSpace ++ rest := by
  have hdrop : (front ++ rest).dropWhile isWhiteSpace = front.dropWhile isWhiteSpace ++ rest := by
    rw [List.dropWhile_append, dropWhile_of_head hfirst]
    split
    · rename_i hempty
      rw [List.isEmpty_iff.mp hempty]
      rfl
    · rfl
  rw [trim, hdrop]
  apply rdropWhile_of_last
  intro c hc
  rw [List.getLast?_append_of_ne_nil _ hne] at hc
  exact hlast c hc

theorem trim_of_head (h : isWhiteSpace c = false) (text : List Char) :
    exists rest, trim (c :: text) = c :: rest := by
  have hkeep : (c :: text).dropWhile isWhiteSpace = c :: text :=
    List.dropWhile_cons_of_neg (ne_true_of_eq_false h)
  rw [trim, hkeep]
  cases htrim : (c :: text).rdropWhile isWhiteSpace with
  | nil =>
      have hall := List.rdropWhile_eq_nil_iff.mp htrim c List.mem_cons_self
      exact absurd hall (ne_true_of_eq_false h)
  | cons d rest =>
      have hstart : d :: rest <+: c :: text := htrim ▸ List.rdropWhile_prefix isWhiteSpace _
      rw [(List.cons_prefix_cons.mp hstart).1]
      exact ⟨rest, rfl⟩

theorem trim_cons (h : isWhiteSpace c = true) (text : List Char) :
    trim (c :: text) = trim text := by
  rw [trim, trim, List.dropWhile_cons_of_pos h]

end Text
end Foundation
end Ephor
