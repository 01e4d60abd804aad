import Mathlib.Logic.Relation
import Ephor.Gateway.DkimCompleteness

/-!
# Relaxed canonicalization

Two bodies have one canonical form exactly when white space alone tells them apart: the length
and kind of its runs, what stands at the ends of lines, and empty lines at the end of the body.
The canonical form of a header depends on its name, trimmed and in lower case, and on its value
without folds, with runs of white space squeezed and none at the ends.
-/

namespace Ephor
namespace Gateway
namespace Dkim

open Foundation
open Foundation.Text

/-!
## Lines
-/

theorem splitCrlf_append_crlf (front rest : Bytes) :
    splitCrlf (front ++ crlf ++ rest) = splitCrlf front ++ splitCrlf rest := by
  induction front using splitCrlf.induct with
  | case1 => rfl
  | case2 b =>
      have hpair : ¬ (b = cr ∧ cr = lf) := by
        intro h
        exact absurd h.2 (by decide)
      change splitCrlf (b :: cr :: lf :: rest) = [[b]] ++ splitCrlf rest
      rw [splitCrlf_cons_cons, if_neg hpair]
      rfl
  | case3 b c front hpair ih =>
      change splitCrlf (b :: c :: (front ++ crlf ++ rest)) = _
      rw [splitCrlf_cons_cons, if_pos hpair, splitCrlf_cons_cons, if_pos hpair, ih]
      rfl
  | case4 b c front hpair ih =>
      change splitCrlf (b :: c :: (front ++ crlf ++ rest)) = _
      have htail : splitCrlf (c :: (front ++ crlf ++ rest)) =
          splitCrlf (c :: front) ++ splitCrlf rest := ih
      rw [splitCrlf_cons_cons, if_neg hpair, splitCrlf_cons_cons, if_neg hpair, htail]
      rcases List.exists_cons_of_ne_nil (splitCrlf_ne_nil (c :: front)) with ⟨first, more, hsplit⟩
      rw [hsplit]
      rfl

theorem splitCrlf_append_wsp {line : Bytes} (h : PairFree line) {b : UInt8}
    (hb : isWsp b = true) (rest : Bytes) :
    splitCrlf (line ++ b :: rest) = (splitCrlf rest).modifyHead (line ++ b :: ·) := by
  have hcr : b = cr -> rest.head? ≠ some lf := by
    intro heq
    rw [heq] at hb
    cases hb
  induction line with
  | nil => exact splitCrlf_cons hcr
  | cons x line ih =>
      rcases pairFree_of_cons h with ⟨hline, hx⟩
      have hhead : x = cr -> (line ++ b :: rest).head? ≠ some lf := by
        intro heq
        cases line with
        | nil =>
            intro hlf
            cases hlf
            cases hb
        | cons y line => exact hx heq
      rw [List.cons_append, splitCrlf_cons hhead, ih hline]
      rcases List.exists_cons_of_ne_nil (splitCrlf_ne_nil rest) with ⟨first, more, hsplit⟩
      rw [hsplit]
      rfl

theorem exists_lines (b : Bytes) :
    exists lines last, splitCrlf b = lines ++ [last] ∧
      (forall line, line ∈ lines -> PairFree line) ∧ PairFree last ∧
      b = lines.flatMap (· ++ crlf) ++ last := by
  rcases List.eq_nil_or_concat (splitCrlf b) with hnil | ⟨lines, last, hsplit⟩
  · exact absurd hnil (splitCrlf_ne_nil b)
  · rw [List.concat_eq_append] at hsplit
    refine ⟨lines, last, hsplit, ?_, ?_, ?_⟩
    · intro line hline
      exact pairFree_of_mem_splitCrlf (hsplit ▸ List.mem_append_left _ hline)
    · exact pairFree_of_mem_splitCrlf (hsplit ▸ List.mem_append_right _ List.mem_cons_self)
    · have hjoin := flatMap_splitCrlf b
      rw [hsplit, List.flatMap_append, List.flatMap_singleton, <- List.append_assoc] at hjoin
      exact (List.append_cancel_right hjoin).symm

/-!
## Collapsing
-/

/-- Whether white space is pending after the bytes. -/
def pending (wsp : Bool) (b : Bytes) : Bool :=
  (b.getLast?.map isWsp).getD wsp

theorem collapse_append (wsp : Bool) (front rest : Bytes) :
    collapse wsp (front ++ rest) = collapse wsp front ++ collapse (pending wsp front) rest := by
  induction front generalizing wsp with
  | nil => rfl
  | cons b front ih =>
      have hpending : pending wsp (b :: front) = pending (isWsp b) front := by
        unfold pending
        cases front with
        | nil => rfl
        | cons c front =>
            rw [List.getLast?_cons_cons, List.getLast?_eq_some_getLast (List.cons_ne_nil c front)]
            rfl
      rw [List.cons_append, collapse, collapse, hpending]
      cases hb : isWsp b with
      | true =>
          rw [if_pos rfl, if_pos rfl]
          exact ih true
      | false =>
          rw [if_neg Bool.false_ne_true, if_neg Bool.false_ne_true, ih false]
          simp only [List.append_assoc, List.cons_append]

variable {b w a : Bytes}

theorem collapse_wsp (h : w.all isWsp = true) (wsp : Bool) : collapse wsp w = [] := by
  induction w generalizing wsp with
  | nil => rfl
  | cons b w ih =>
      rw [List.all_cons, Bool.and_eq_true] at h
      rw [collapse, if_pos h.1]
      exact ih h.2 true

theorem collapse_append_wsp (wsp : Bool) (front : Bytes) (h : w.all isWsp = true) :
    collapse wsp (front ++ w) = collapse wsp front := by
  rw [collapse_append, collapse_wsp h, List.append_nil]

theorem pending_append_wsp (wsp : Bool) (front : Bytes) (h : w.all isWsp = true) (hne : w ≠ []) :
    pending wsp (front ++ w) = true := by
  rcases List.eq_nil_or_concat w with hnil | ⟨others, b, hw⟩
  · exact absurd hnil hne
  · rw [List.concat_eq_append] at hw
    have hb : isWsp b = true := List.all_eq_true.mp h b (hw ▸ by simp)
    rw [pending, hw, <- List.append_assoc, List.getLast?_concat, Option.map_some, hb]
    rfl

/-!
## Bodies
-/

inductive BodyEdit : Bytes -> Bytes -> Prop where
  | run {front w w' rest : Bytes} : w.all isWsp = true -> w ≠ [] -> w'.all isWsp = true ->
      w' ≠ [] -> BodyEdit (front ++ (w ++ rest)) (front ++ (w' ++ rest))
  | trailing {front w rest : Bytes} : w.all isWsp = true -> rest = [] ∨ crlf <+: rest ->
      BodyEdit (front ++ (w ++ rest)) (front ++ rest)
  | emptyLine {front : Bytes} : BodyEdit (front ++ crlf) front

/-- White space alone tells the bodies apart. -/
def SameBody : Bytes -> Bytes -> Prop :=
  Relation.EqvGen BodyEdit

/-- The lines with white space collapsed, empty ones at the end included. -/
def collapsedLines (body : Bytes) : List Bytes :=
  (splitCrlf body).map (collapse false)

theorem canonicalizeBody_congr (h : collapsedLines a = collapsedLines b) :
    canonicalizeBody a = canonicalizeBody b := by
  have hlines : (splitCrlf a).map (collapse false) = (splitCrlf b).map (collapse false) := h
  rw [canonicalizeBody, canonicalizeBody, hlines]

theorem no_cr_of_wsp (h : w.all isWsp = true) : cr ∉ w := by
  intro hmem
  exact absurd (List.all_eq_true.mp h cr hmem) (by decide)

theorem collapsedLines_run {lines : List Bytes} {last : Bytes}
    (hlines : forall line, line ∈ lines -> PairFree line) (hlast : PairFree last)
    (hw : w.all isWsp = true) (hne : w ≠ []) (rest : Bytes) :
    collapsedLines (lines.flatMap (· ++ crlf) ++ last ++ (w ++ rest)) =
      lines.map (collapse false) ++ ((splitCrlf rest).modifyHead (last ++ w ++ ·)).map
        (collapse false) := by
  rcases List.exists_cons_of_ne_nil hne with ⟨b, more, hcons⟩
  rw [hcons, List.all_cons, Bool.and_eq_true] at hw
  rw [collapsedLines, List.append_assoc, splitCrlf_lines hlines, List.map_append, hcons,
    List.cons_append, splitCrlf_append_wsp hlast hw.1, splitCrlf_append (no_cr_of_wsp hw.2),
    List.modifyHead_modifyHead]
  apply congrArg (fun f => lines.map (collapse false) ++
    (List.modifyHead f (splitCrlf rest)).map (collapse false))
  funext x
  simp

theorem canonicalizeBody_run (front : Bytes) {w' : Bytes} (hw : w.all isWsp = true)
    (hne : w ≠ []) (hw' : w'.all isWsp = true) (hne' : w' ≠ []) (rest : Bytes) :
    canonicalizeBody (front ++ (w ++ rest)) = canonicalizeBody (front ++ (w' ++ rest)) := by
  rcases exists_lines front with ⟨lines, last, _, hlines, hlast, hfront⟩
  rcases List.exists_cons_of_ne_nil (splitCrlf_ne_nil rest) with ⟨first, more, hsplit⟩
  apply canonicalizeBody_congr
  rw [hfront, collapsedLines_run hlines hlast hw hne, collapsedLines_run hlines hlast hw' hne',
    hsplit]
  apply congrArg (fun line => lines.map (collapse false) ++ line :: more.map (collapse false))
  dsimp only
  rw [collapse_append false (last ++ w), collapse_append false (last ++ w'),
    collapse_append_wsp false last hw, collapse_append_wsp false last hw',
    pending_append_wsp false last hw hne, pending_append_wsp false last hw' hne']

theorem collapsedLines_end {lines : List Bytes} {last : Bytes}
    (hlines : forall line, line ∈ lines -> PairFree line) (hlast : PairFree last) {rest : Bytes}
    (hrest : rest = [] ∨ crlf <+: rest) :
    collapsedLines (lines.flatMap (· ++ crlf) ++ last ++ rest) =
      lines.map (collapse false) ++ collapse false last :: (collapsedLines rest).tail := by
  have hfree : splitCrlf last = [last] := hlast
  rcases hrest with hrest | ⟨more, hrest⟩
  · rw [hrest, List.append_nil, collapsedLines, splitCrlf_lines hlines, hfree, List.map_append]
    rfl
  · have hempty : splitCrlf (crlf ++ more) = [] :: splitCrlf more :=
      splitCrlf_append_crlf [] more
    rw [<- hrest, List.append_assoc, <- List.append_assoc last, collapsedLines,
      splitCrlf_lines hlines, splitCrlf_line hlast, List.map_append, collapsedLines, hempty]
    rfl

theorem canonicalizeBody_trailing (front : Bytes) (hw : w.all isWsp = true) {rest : Bytes}
    (hrest : rest = [] ∨ crlf <+: rest) :
    canonicalizeBody (front ++ (w ++ rest)) = canonicalizeBody (front ++ rest) := by
  rcases exists_lines front with ⟨lines, last, _, hlines, hlast, hfront⟩
  have hfree : PairFree (last ++ w) := by
    cases w with
    | nil =>
        rw [List.append_nil]
        exact hlast
    | cons b w =>
        rw [List.all_cons, Bool.and_eq_true] at hw
        have hline : splitCrlf w = [w] := pairFree_of_no_cr (no_cr_of_wsp hw.2)
        rw [PairFree, splitCrlf_append_wsp hlast hw.1, hline]
        rfl
  have hsame : front ++ (w ++ rest) = lines.flatMap (· ++ crlf) ++ (last ++ w) ++ rest := by
    rw [hfront]
    simp only [List.append_assoc]
  apply canonicalizeBody_congr
  rw [hsame, hfront, collapsedLines_end hlines hfree hrest, collapsedLines_end hlines hlast hrest,
    collapse_append_wsp false last hw]

theorem canonicalizeBody_emptyLine (front : Bytes) :
    canonicalizeBody (front ++ crlf) = canonicalizeBody front := by
  have hsplit := splitCrlf_append_crlf front []
  have hnil : splitCrlf [] = [[]] := rfl
  rw [List.append_nil, hnil] at hsplit
  rw [canonicalizeBody, canonicalizeBody, hsplit, List.map_append]
  change (((splitCrlf front).map (collapse false) ++ [[]]).rdropWhile _).flatMap _ = _
  rw [List.rdropWhile_concat_pos _ _ _ rfl]

theorem canonicalizeBody_of_sameBody (h : SameBody a b) :
    canonicalizeBody a = canonicalizeBody b := by
  induction h with
  | rel a b hedit =>
      cases hedit with
      | run hw hne hw' hne' => exact canonicalizeBody_run _ hw hne hw' hne' _
      | trailing hw hrest => exact canonicalizeBody_trailing _ hw hrest
      | emptyLine => exact canonicalizeBody_emptyLine _
  | refl a => rfl
  | symm a b _ ih => exact ih.symm
  | trans a b c _ _ ihab ihbc => exact ihab.trans ihbc

/-!
## Reaching the canonical form
-/

theorem SameBody.step (h : BodyEdit a b) : SameBody a b :=
  Relation.EqvGen.rel a b h

theorem SameBody.refl (a : Bytes) : SameBody a a :=
  Relation.EqvGen.refl a

theorem SameBody.symm (h : SameBody a b) : SameBody b a :=
  Relation.EqvGen.symm a b h

theorem SameBody.trans {c : Bytes} (hab : SameBody a b) (hbc : SameBody b c) : SameBody a c :=
  Relation.EqvGen.trans a b c hab hbc

theorem sameBody_collapse (line : Bytes) {rest : Bytes} (hrest : rest = [] ∨ crlf <+: rest) :
    (forall front, SameBody (front ++ (line ++ rest)) (front ++ (collapse false line ++ rest))) ∧
      forall front, SameBody (front ++ (0x20 :: line ++ rest))
        (front ++ (collapse true line ++ rest)) := by
  induction line with
  | nil =>
      refine ⟨fun front => SameBody.refl _, ?_⟩
      intro front
      exact SameBody.step (@BodyEdit.trailing front [0x20] rest rfl hrest)
  | cons b line ih =>
      rw [collapse, collapse]
      cases hb : isWsp b with
      | true =>
          have hone : [b].all isWsp = true := by simp [hb]
          have htwo : [0x20, b].all isWsp = true := by
            rw [List.all_cons, hone]
            rfl
          rw [if_pos rfl, if_pos rfl]
          constructor
          · intro front
            refine SameBody.trans (SameBody.step ?_) (ih.2 front)
            exact @BodyEdit.run front [b] [0x20] (line ++ rest) hone (List.cons_ne_nil _ _) rfl
              (List.cons_ne_nil _ _)
          · intro front
            refine SameBody.trans (SameBody.step ?_) (ih.2 front)
            exact @BodyEdit.run front [0x20, b] [0x20] (line ++ rest) htwo (List.cons_ne_nil _ _)
              rfl (List.cons_ne_nil _ _)
      | false =>
          rw [if_neg Bool.false_ne_true, if_neg Bool.false_ne_true]
          constructor
          · intro front
            have hrest := ih.1 (front ++ [b])
            simpa using hrest
          · intro front
            have hrest := ih.1 (front ++ [0x20, b])
            simpa using hrest

theorem intercalate_lines (lines : List Bytes) (last : Bytes) :
    crlf.intercalate (lines ++ [last]) = lines.flatMap (· ++ crlf) ++ last := by
  induction lines with
  | nil => exact List.intercalate_singleton
  | cons line lines ih =>
      rw [List.cons_append, List.intercalate_cons_of_ne_nil (by simp), ih, List.flatMap_cons]
      simp only [List.append_assoc]

theorem sameBody_collapsedLines (lines : List Bytes) (front : Bytes) :
    SameBody (front ++ crlf.intercalate lines)
      (front ++ crlf.intercalate (lines.map (collapse false))) := by
  induction lines generalizing front with
  | nil => exact SameBody.refl _
  | cons line lines ih =>
      cases lines with
      | nil =>
          have hline := (sameBody_collapse line (Or.inl rfl)).1 front
          simpa using hline
      | cons next lines =>
          rw [List.intercalate_cons_cons, List.map_cons, List.map_cons, List.intercalate_cons_cons,
            List.append_assoc, List.append_assoc]
          refine SameBody.trans
            ((sameBody_collapse line (Or.inr (List.prefix_append _ _))).1 front) ?_
          have hrest := ih (front ++ (collapse false line ++ crlf))
          simpa using hrest

theorem sameBody_ended (lines : List Bytes) :
    SameBody (crlf.intercalate lines) ((lines.rdropWhile (·.isEmpty)).flatMap (· ++ crlf)) := by
  induction lines using List.reverseRecOn with
  | nil => exact SameBody.refl _
  | append_singleton lines last ih =>
      rw [intercalate_lines]
      cases last with
      | nil =>
          rw [List.rdropWhile_concat_pos _ _ _ rfl, List.append_nil]
          rcases List.eq_nil_or_concat lines with hnil | ⟨others, line, hlines⟩
          · rw [hnil]
            exact SameBody.refl _
          · rw [List.concat_eq_append] at hlines
            have hend : lines.flatMap (· ++ crlf) = crlf.intercalate lines ++ crlf := by
              rw [hlines, intercalate_lines, List.flatMap_append, List.flatMap_singleton,
                List.append_assoc]
            rw [hend]
            exact SameBody.trans (SameBody.step BodyEdit.emptyLine) ih
      | cons b last =>
          rw [List.rdropWhile_concat_neg _ _ _ Bool.false_ne_true, List.flatMap_append,
            List.flatMap_singleton, <- List.append_assoc]
          exact (SameBody.step BodyEdit.emptyLine).symm

theorem sameBody_canonicalizeBody (body : Bytes) : SameBody body (canonicalizeBody body) := by
  rcases exists_lines body with ⟨lines, last, hsplit, _, _, hbody⟩
  have hjoin : body = crlf.intercalate (splitCrlf body) := by
    rw [hsplit, intercalate_lines]
    exact hbody
  have hcollapse := sameBody_collapsedLines (splitCrlf body) []
  rw [List.nil_append, List.nil_append, <- hjoin] at hcollapse
  exact SameBody.trans hcollapse (sameBody_ended _)

theorem canonicalizeBody_eq_iff (a b : Bytes) :
    canonicalizeBody a = canonicalizeBody b <-> SameBody a b := by
  constructor
  · intro h
    have hb := (sameBody_canonicalizeBody b).symm
    rw [<- h] at hb
    exact SameBody.trans (sameBody_canonicalizeBody a) hb
  · exact canonicalizeBody_of_sameBody

theorem canonicalizeBody_idempotent (body : Bytes) :
    canonicalizeBody (canonicalizeBody body) = canonicalizeBody body :=
  canonicalizeBody_of_sameBody (sameBody_canonicalizeBody body).symm

/-- The bytes that are neither white space nor part of a line end. -/
def textBytes (body : Bytes) : Bytes :=
  body.filter fun b => !isWsp b && b != cr && b != lf

theorem textBytes_append (a b : Bytes) : textBytes (a ++ b) = textBytes a ++ textBytes b :=
  List.filter_append a b

theorem textBytes_wsp (h : w.all isWsp = true) : textBytes w = [] := by
  rw [textBytes, List.filter_eq_nil_iff]
  intro b hb
  rw [List.all_eq_true.mp h b hb]
  exact Bool.false_ne_true

theorem textBytes_of_sameBody (h : SameBody a b) : textBytes a = textBytes b := by
  induction h with
  | rel a b hedit =>
      cases hedit with
      | run hw _ hw' _ =>
          rw [textBytes_append, textBytes_append, textBytes_append, textBytes_append,
            textBytes_wsp hw, textBytes_wsp hw']
      | trailing hw _ =>
          rw [textBytes_append, textBytes_append, textBytes_append, textBytes_wsp hw,
            List.nil_append]
      | emptyLine =>
          rw [textBytes_append]
          exact List.append_nil _
  | refl a => rfl
  | symm a b _ ih => exact ih.symm
  | trans a b c _ _ ihab ihbc => exact ihab.trans ihbc

/-- Nothing, or lines of which the last one is not empty and ends in one CRLF. -/
def Ended (body : Bytes) : Prop :=
  body = [] ∨ exists (lines : List Bytes) (last : Bytes), PairFree last ∧ last ≠ [] ∧
    body = lines.flatMap (· ++ crlf) ++ (last ++ crlf)

theorem ended_canonicalizeBody (body : Bytes) : Ended (canonicalizeBody body) := by
  rcases List.eq_nil_or_concat (bodyLines body) with hnil | ⟨lines, last, hlines⟩
  · refine Or.inl ?_
    change (bodyLines body).flatMap (· ++ crlf) = []
    rw [hnil]
    rfl
  · rw [List.concat_eq_append] at hlines
    refine Or.inr ⟨lines, last, ?_, ?_, ?_⟩
    · have hmem : last ∈ splitCrlf (canonicalizeBody body) := by
        rw [splitCrlf_canonicalizeBody, hlines]
        simp
      exact pairFree_of_mem_splitCrlf hmem
    · intro hempty
      have hself := List.rdropWhile_idempotent (fun line : Bytes => line.isEmpty)
        ((splitCrlf body).map (collapse false))
      change (bodyLines body).rdropWhile _ = bodyLines body at hself
      rw [hlines, hempty, List.rdropWhile_concat_pos _ _ _ rfl] at hself
      have hle := (List.rdropWhile_prefix (fun line : Bytes => line.isEmpty) lines).length_le
      rw [hself, List.length_append, List.length_singleton] at hle
      omega
    · change (bodyLines body).flatMap (· ++ crlf) = _
      rw [hlines, List.flatMap_append, List.flatMap_singleton]

/-!
## Headers
-/

def unfolded (value : Bytes) : Bytes :=
  (splitCrlf value).flatten

/-- Each run of white space one space; `wsp` is set inside a run. -/
def squeezed (wsp : Bool) : Bytes -> Bytes
  | [] => if wsp then [0x20] else []
  | b :: rest =>
      if isWsp b then squeezed true rest
      else (if wsp then [0x20] else []) ++ b :: squeezed false rest

def trimWsp (b : Bytes) : Bytes :=
  (b.dropWhile isWsp).rdropWhile isWsp

/-- What a header's canonical form keeps of the value. -/
def relaxedValue (value : Bytes) : Bytes :=
  trimWsp (squeezed false (unfolded value))

theorem unfolded_cons_cons (b c : UInt8) (rest : Bytes) :
    unfolded (b :: c :: rest) =
      if b = cr ∧ c = lf then unfolded rest else b :: unfolded (c :: rest) := by
  rw [unfolded, splitCrlf_cons_cons]
  split
  · rfl
  · rcases List.exists_cons_of_ne_nil (splitCrlf_ne_nil (c :: rest)) with ⟨first, more, hsplit⟩
    rw [unfolded, hsplit]
    rfl

theorem relax_started (wsp : Bool) (value : Bytes) :
    relax wsp true value = collapse wsp (unfolded value) := by
  induction value using splitCrlf.induct generalizing wsp with
  | case1 => rfl
  | case2 b =>
      change relax wsp true [b] = collapse wsp [b]
      rw [relax, collapse, Bool.and_true]
      rfl
  | case3 b c rest hpair ih =>
      rw [relax, if_pos hpair, unfolded_cons_cons, if_pos hpair]
      exact ih wsp
  | case4 b c rest hpair ih =>
      rw [relax, if_neg hpair, unfolded_cons_cons, if_neg hpair, collapse, Bool.and_true]
      cases isWsp b with
      | true =>
          rw [if_pos rfl, if_pos rfl]
          exact ih true
      | false =>
          rw [if_neg Bool.false_ne_true, if_neg Bool.false_ne_true, ih false]

theorem relax_unfolded (value : Bytes) :
    relax false false value = collapse false ((unfolded value).dropWhile isWsp) := by
  induction value using splitCrlf.induct with
  | case1 => rfl
  | case2 b =>
      change relax false false [b] = collapse false ([b].dropWhile isWsp)
      rw [relax, List.dropWhile_cons]
      cases hb : isWsp b with
      | true => rfl
      | false =>
          rw [if_neg Bool.false_ne_true, if_neg Bool.false_ne_true, collapse, hb]
          rfl
  | case3 b c rest hpair ih =>
      rw [relax, if_pos hpair, unfolded_cons_cons, if_pos hpair]
      exact ih
  | case4 b c rest hpair ih =>
      rw [relax, if_neg hpair, unfolded_cons_cons, if_neg hpair, List.dropWhile_cons]
      cases hb : isWsp b with
      | true =>
          rw [if_pos rfl, if_pos rfl, relax_unstarted]
          exact ih
      | false =>
          rw [if_neg Bool.false_ne_true, if_neg Bool.false_ne_true, relax_started, collapse, hb]
          rfl

theorem dropWhile_squeezed (wsp : Bool) (b : Bytes) :
    (squeezed wsp b).dropWhile isWsp = squeezed false (b.dropWhile isWsp) := by
  induction b generalizing wsp with
  | nil => cases wsp <;> rfl
  | cons x b ih =>
      rw [squeezed, List.dropWhile_cons]
      cases hx : isWsp x with
      | true =>
          rw [if_pos rfl, if_pos rfl]
          exact ih true
      | false =>
          rw [if_neg Bool.false_ne_true, if_neg Bool.false_ne_true, squeezed, hx]
          cases wsp with
          | false => exact List.dropWhile_cons_of_neg (by simp [hx])
          | true =>
              change (0x20 :: x :: squeezed false b).dropWhile isWsp = _
              rw [List.dropWhile_cons_of_pos rfl, List.dropWhile_cons_of_neg (by simp [hx])]
              rfl

theorem rdropWhile_append_cons {p : UInt8 -> Bool} {x : UInt8} (hx : p x = false)
    (front rest : Bytes) : (front ++ x :: rest).rdropWhile p = front ++ x :: rest.rdropWhile p := by
  induction rest using List.reverseRecOn with
  | nil =>
      rw [List.rdropWhile_concat_neg _ _ _ (by simp [hx])]
      rfl
  | append_singleton rest last ih =>
      have hassoc : front ++ x :: (rest ++ [last]) = front ++ x :: rest ++ [last] := by simp
      rw [hassoc, List.rdropWhile_concat, List.rdropWhile_concat, ih]
      split
      · rfl
      · rw [hassoc]

theorem rdropWhile_squeezed (wsp : Bool) (b : Bytes) :
    (squeezed wsp b).rdropWhile isWsp = collapse wsp b := by
  induction b generalizing wsp with
  | nil => cases wsp <;> rfl
  | cons x b ih =>
      rw [squeezed, collapse]
      cases hx : isWsp x with
      | true =>
          rw [if_pos rfl, if_pos rfl]
          exact ih true
      | false =>
          rw [if_neg Bool.false_ne_true, if_neg Bool.false_ne_true, rdropWhile_append_cons hx,
            ih false]

theorem relax_eq_relaxedValue (value : Bytes) : relax false false value = relaxedValue value := by
  rw [relax_unfolded, relaxedValue, trimWsp, dropWhile_squeezed, rdropWhile_squeezed]

theorem canonicalizeHeader_eq (header : Header) :
    canonicalizeHeader header =
      utf8 (lower (trim header.1)) ++ 0x3A :: (relaxedValue header.2 ++ crlf) := by
  rw [canonicalizeHeader, canonicalLine, relax_eq_relaxedValue, List.append_assoc]
  rfl

/--
Canonicalizing a body again changes nothing.  Two bodies have one form exactly when white space
alone tells them apart, and the form has all other bytes of the body, in order; it is empty or
ends in one CRLF after a line with something on it.  The form of a header is made of its name,
trimmed and in lower case, and of its value without folds, squeezed and trimmed.
-/
theorem relaxed_canonicalization :
    (forall body, canonicalizeBody (canonicalizeBody body) = canonicalizeBody body) ∧
    (forall a b, canonicalizeBody a = canonicalizeBody b <-> SameBody a b) ∧
    (forall body, textBytes (canonicalizeBody body) = textBytes body) ∧
    (forall body, Ended (canonicalizeBody body)) ∧
    (forall header : Header, canonicalizeHeader header =
      utf8 (lower (trim header.1)) ++
        0x3A :: (trimWsp (squeezed false (unfolded header.2)) ++ crlf)) := by
  refine ⟨canonicalizeBody_idempotent, canonicalizeBody_eq_iff, ?_, ended_canonicalizeBody,
    canonicalizeHeader_eq⟩
  intro body
  exact (textBytes_of_sameBody (sameBody_canonicalizeBody body)).symm

end Dkim
end Gateway
end Ephor
