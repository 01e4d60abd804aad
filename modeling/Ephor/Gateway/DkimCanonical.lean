import Ephor.Gateway.Dkim

/-!
# Lines and canonical headers

The signing input is a list of canonical headers, each ended by a CRLF, and the signature's
own header.  No canonical header has a CRLF inside, so the input can be read back in one
way only.
-/

namespace Ephor
namespace Gateway
namespace Dkim

open Foundation
open Foundation.Text

/-!
## CRLF pairs
-/

/-- The bytes hold no CRLF. -/
def PairFree (b : Bytes) : Prop :=
  splitCrlf b = [b]

theorem splitCrlf_cons_cons (b c : UInt8) (rest : Bytes) :
    splitCrlf (b :: c :: rest) =
      if b = cr ∧ c = lf then [] :: splitCrlf rest
      else (splitCrlf (c :: rest)).modifyHead (b :: ·) := by
  rw [splitCrlf]

theorem splitCrlf_ne_nil (b : Bytes) : splitCrlf b ≠ [] := by
  induction b using splitCrlf.induct with
  | case1 | case2 b => exact List.cons_ne_nil _ _
  | case3 b c rest hpair ih =>
      rw [splitCrlf_cons_cons, if_pos hpair]
      exact List.cons_ne_nil _ _
  | case4 b c rest hpair ih =>
      rw [splitCrlf_cons_cons, if_neg hpair]
      intro h
      exact ih (List.modifyHead_eq_nil_iff.mp h)

variable {b : UInt8} {rest : Bytes}

theorem splitCrlf_cons (h : b = cr -> rest.head? ≠ some lf) :
    splitCrlf (b :: rest) = (splitCrlf rest).modifyHead (b :: ·) := by
  cases rest with
  | nil => rfl
  | cons c rest =>
      rw [splitCrlf_cons_cons, if_neg]
      intro hpair
      exact h hpair.1 (congrArg some hpair.2)

theorem pairFree_cons (hrest : PairFree rest) (h : b = cr -> rest.head? ≠ some lf) :
    PairFree (b :: rest) := by
  have hfree : splitCrlf rest = [rest] := hrest
  rw [PairFree, splitCrlf_cons h, hfree]
  rfl

theorem splitCrlf_append {front : Bytes} (h : cr ∉ front) (rest : Bytes) :
    splitCrlf (front ++ rest) = (splitCrlf rest).modifyHead (front ++ ·) := by
  induction front with
  | nil =>
      cases hsplit : splitCrlf rest with
      | nil => exact absurd hsplit (splitCrlf_ne_nil rest)
      | cons piece pieces =>
          rw [List.nil_append, hsplit]
          rfl
  | cons b front ih =>
      have hb : b ≠ cr := fun heq => h (heq ▸ List.mem_cons_self)
      rw [List.cons_append, splitCrlf_cons (fun heq => absurd heq hb),
        ih (fun hmem => h (List.mem_cons_of_mem b hmem))]
      cases splitCrlf rest with
      | nil | cons piece pieces => rfl

theorem pairFree_append {front : Bytes} (h : cr ∉ front) (hrest : PairFree rest) :
    PairFree (front ++ rest) := by
  have hfree : splitCrlf rest = [rest] := hrest
  rw [PairFree, splitCrlf_append h, hfree]
  rfl

theorem pairFree_of_no_cr {b : Bytes} (h : cr ∉ b) : PairFree b := by
  have hsplit := splitCrlf_append h []
  rw [List.append_nil] at hsplit
  rw [PairFree, hsplit]
  show [b ++ []] = [b]
  rw [List.append_nil]

theorem pairFree_of_cons (h : PairFree (b :: rest)) :
    PairFree rest ∧ (b = cr -> rest.head? ≠ some lf) := by
  cases rest with
  | nil => exact ⟨rfl, fun _ h => nomatch h⟩
  | cons c rest =>
      rw [PairFree, splitCrlf_cons_cons] at h
      split at h
      · cases h
      · rename_i hpair
        constructor
        · cases hsplit : splitCrlf (c :: rest) with
          | nil =>
              rw [hsplit] at h
              cases h
          | cons piece pieces =>
              rw [hsplit] at h
              injection h with hpiece hpieces
              injection hpiece with _ hpiece
              rw [PairFree, hsplit, hpiece, hpieces]
        · intro hcr hhead
          exact hpair ⟨hcr, Option.some.inj hhead⟩

theorem head?_line {line : Bytes} (h : b = cr -> line.head? ≠ some lf) (rest : Bytes) :
    b = cr -> (line ++ crlf ++ rest).head? ≠ some lf := by
  intro hcr
  cases line with
  | nil =>
      intro hlf
      cases hlf
  | cons c line => exact h hcr

theorem splitCrlf_line {line : Bytes} (h : PairFree line) (rest : Bytes) :
    splitCrlf (line ++ crlf ++ rest) = line :: splitCrlf rest := by
  induction line with
  | nil =>
      show splitCrlf (cr :: lf :: rest) = [] :: splitCrlf rest
      rw [splitCrlf_cons_cons, if_pos ⟨rfl, rfl⟩]
  | cons b line ih =>
      rcases pairFree_of_cons h with ⟨hline, hb⟩
      rw [List.cons_append, List.cons_append, splitCrlf_cons (head?_line hb rest), ih hline]
      rfl

theorem head?_of_splitCrlf {b first : Bytes} {pieces : List Bytes} {x : UInt8}
    (h : splitCrlf b = first :: pieces) (hx : first.head? = some x) : b.head? = some x := by
  cases b with
  | nil =>
      cases h
      cases hx
  | cons c rest =>
      cases rest with
      | nil =>
          cases h
          exact hx
      | cons d rest =>
          rw [splitCrlf_cons_cons] at h
          split at h
          · cases h
            cases hx
          · cases hsplit : splitCrlf (d :: rest) with
            | nil =>
                rw [hsplit] at h
                cases h
            | cons piece others =>
                rw [hsplit] at h
                cases h
                exact hx

theorem pairFree_of_mem_splitCrlf {b piece : Bytes} (h : piece ∈ splitCrlf b) : PairFree piece := by
  induction b using splitCrlf.induct generalizing piece with
  | case1 | case2 b =>
      rw [List.mem_singleton.mp h]
      rfl
  | case3 b c rest hpair ih =>
      rw [splitCrlf_cons_cons, if_pos hpair] at h
      rcases List.mem_cons.mp h with heq | hmem
      · rw [heq]
        rfl
      · exact ih hmem
  | case4 b c rest hpair ih =>
      rw [splitCrlf_cons_cons, if_neg hpair] at h
      cases hsplit : splitCrlf (c :: rest) with
      | nil =>
          rw [hsplit] at h
          cases h
      | cons first pieces =>
          rw [hsplit] at h ih
          rcases List.mem_cons.mp h with heq | hmem
          · rw [heq]
            apply pairFree_cons (ih List.mem_cons_self)
            intro hcr hhead
            have hstart := head?_of_splitCrlf hsplit hhead
            exact hpair ⟨hcr, Option.some.inj hstart⟩
          · exact ih (List.mem_cons_of_mem first hmem)

theorem pairFree_drop {b : Bytes} (h : PairFree b) (n : Nat) : PairFree (b.drop n) := by
  induction n generalizing b with
  | zero => exact h
  | succ n ih =>
      cases b with
      | nil => exact h
      | cons x b => exact ih (pairFree_of_cons h).1

/-!
## Folded values

Every CRLF inside a header's value is followed by white space.
-/

/-- Every CRLF is followed by white space. -/
def Folds : Bytes -> Prop
  | [] => True
  | [_] => True
  | b :: c :: rest =>
      if b = cr ∧ c = lf then
        (exists w tail, rest = w :: tail ∧ isWsp w = true) ∧ Folds rest
      else
        Folds (c :: rest)

theorem folds_cons_cons {c : UInt8} (h : ¬ (b = cr ∧ c = lf)) :
    Folds (b :: c :: rest) <-> Folds (c :: rest) := by
  rw [Folds, if_neg h]

theorem folds_pair :
    Folds (cr :: lf :: rest) <->
      (exists w tail, rest = w :: tail ∧ isWsp w = true) ∧ Folds rest := by
  rw [Folds, if_pos ⟨rfl, rfl⟩]

theorem folds_of_pairFree {b : Bytes} (h : PairFree b) : Folds b := by
  induction b with
  | nil => trivial
  | cons x b ih =>
      rcases pairFree_of_cons h with ⟨hb, hx⟩
      cases b with
      | nil => trivial
      | cons y b =>
          rw [folds_cons_cons]
          · exact ih hb
          · intro hpair
            exact hx hpair.1 (congrArg some hpair.2)

theorem folds_append {v : Bytes} (h : Folds v) {w : UInt8} (hw : isWsp w = true) {raw : Bytes}
    (hraw : PairFree (w :: raw)) : Folds (v ++ crlf ++ w :: raw) := by
  have hlast : Folds (crlf ++ w :: raw) :=
    folds_pair.mpr ⟨⟨w, raw, rfl, hw⟩, folds_of_pairFree hraw⟩
  induction v using Folds.induct with
  | case1 => exact hlast
  | case2 b =>
      have hne : ¬ (b = cr ∧ cr = lf) := fun hpair => nomatch hpair.2
      exact (folds_cons_cons hne).mpr hlast
  | case3 b c rest hpair ih =>
      rcases hpair with ⟨rfl, rfl⟩
      rcases folds_pair.mp h with ⟨⟨w', tail, hrest, hw'⟩, hfolds⟩
      exact folds_pair.mpr ⟨⟨w', tail ++ crlf ++ w :: raw, by rw [hrest]; rfl, hw'⟩, ih hfolds⟩
  | case4 b c rest hpair ih =>
      exact (folds_cons_cons hpair).mpr (ih ((folds_cons_cons hpair).mp h))

theorem folds_continueLast {out : List Header} (h : forall header, header ∈ out -> Folds header.2)
    {w : UInt8} (hw : isWsp w = true) {raw : Bytes} (hraw : PairFree (w :: raw)) :
    forall header, header ∈ continueLast (w :: raw) out -> Folds header.2 := by
  induction out with
  | nil => exact h
  | cons first rest ih =>
      cases rest with
      | nil =>
          intro header hmem
          rw [List.mem_singleton.mp hmem]
          exact folds_append (h first List.mem_cons_self) hw hraw
      | cons second rest =>
          intro header hmem
          rcases List.mem_cons.mp hmem with rfl | hmem
          · exact h header List.mem_cons_self
          · exact ih (List.forall_mem_cons.mp h).2 header hmem

theorem folds_parseLine {out : List Header} (h : forall header, header ∈ out -> Folds header.2)
    {raw : Bytes} (hraw : PairFree raw) :
    forall header, header ∈ parseLine out raw -> Folds header.2 := by
  cases raw with
  | nil => exact h
  | cons b raw =>
      rw [parseLine]
      split
      · rename_i hb
        exact folds_continueLast h hb hraw
      · split
        · rename_i colon _
          intro header hmem
          rcases List.mem_append.mp hmem with hmem | hmem
          · exact h header hmem
          · rw [List.mem_singleton.mp hmem]
            exact folds_of_pairFree (pairFree_drop hraw (colon + 1))
        · exact h

theorem folds_foldl_parseLine {lines : List Bytes}
    (hlines : forall raw, raw ∈ lines -> PairFree raw)
    {out : List Header} (h : forall header, header ∈ out -> Folds header.2) :
    forall header, header ∈ lines.foldl parseLine out -> Folds header.2 := by
  induction lines generalizing out with
  | nil => exact h
  | cons raw lines ih =>
      have hraw := hlines raw List.mem_cons_self
      exact ih (List.forall_mem_cons.mp hlines).2
        (folds_parseLine h hraw)

theorem folds_of_mem_headers {message : Bytes} {header : Header}
    (h : header ∈ (splitHeadersBody message).1) : Folds header.2 := by
  have hparse : forall head, header ∈ parseHeaders head -> Folds header.2 := by
    intro head hmem
    exact folds_foldl_parseLine (fun _ => pairFree_of_mem_splitCrlf)
      (fun _ hnil => absurd hnil List.not_mem_nil)
      header hmem
  rw [splitHeadersBody] at h
  split at h
  · exact hparse _ h
  · exact hparse _ h

/-!
## Relaxed values
-/

theorem relax_pair (wsp started : Bool) (rest : Bytes) :
    relax wsp started (cr :: lf :: rest) = relax wsp started rest := by
  rw [relax, if_pos ⟨rfl, rfl⟩]

theorem relax_wsp (h : isWsp b = true) (wsp started : Bool) (rest : Bytes) :
    relax wsp started (b :: rest) = relax true started rest := by
  have hb : b ≠ cr := by
    intro heq
    rw [heq] at h
    cases h
  cases rest with
  | nil => exact if_pos h
  | cons c rest => rw [relax, if_neg (fun hpair => hb hpair.1), if_pos h]

theorem relax_other (h : isWsp b = false) (hpair : b = cr -> rest.head? ≠ some lf)
    (wsp started : Bool) :
    relax wsp started (b :: rest) =
      (if wsp && started then [0x20] else []) ++ b :: relax false true rest := by
  have hb : ¬ isWsp b = true := by
    rw [h]
    exact Bool.false_ne_true
  cases rest with
  | nil => exact if_neg hb
  | cons c rest =>
      have hne : ¬ (b = cr ∧ c = lf) := by
        intro hboth
        exact hpair hboth.1 (congrArg some hboth.2)
      rw [relax, if_neg hne, if_neg hb]

theorem head?_relax_true (w : Bytes) : (relax true true w).head? ≠ some lf := by
  have hgeneral : forall wsp started, wsp = true -> started = true ->
      (relax wsp started w).head? ≠ some lf := by
    intro wsp started
    induction wsp, started, w using relax.induct with
    | case1 wsp started =>
        intro _ _ h
        cases h
    | case2 wsp started b hb =>
        intro _ _ h
        rw [relax, if_pos hb] at h
        cases h
    | case3 wsp started b hb =>
        intro hwsp hstarted h
        rw [relax, if_neg hb, hwsp, hstarted] at h
        cases h
    | case4 wsp started b c rest hpair ih =>
        intro hwsp hstarted
        rw [relax, if_pos hpair]
        exact ih hwsp hstarted
    | case5 wsp started b c rest hpair hb ih =>
        intro _ hstarted
        rw [relax, if_neg hpair, if_pos hb]
        exact ih rfl hstarted
    | case6 wsp started b c rest hpair hb ih =>
        intro hwsp hstarted h
        rw [relax, if_neg hpair, if_neg hb, hwsp, hstarted] at h
        cases h
  exact hgeneral true true rfl rfl

theorem head?_relax {w : Bytes} (hfolds : Folds w) (hhead : w.head? ≠ some lf) :
    (relax false true w).head? ≠ some lf := by
  cases w with
  | nil => exact hhead
  | cons b rest =>
      by_cases hwsp : isWsp b = true
      · rw [relax_wsp hwsp]
        exact head?_relax_true rest
      · have hplain := Bool.eq_false_iff.mpr hwsp
        by_cases hpair : b = cr ∧ rest.head? = some lf
        · rcases hpair with ⟨rfl, hlf⟩
          cases rest with
          | nil => cases hlf
          | cons c rest =>
              cases hlf
              rcases folds_pair.mp hfolds with ⟨⟨w', tail, hrest, hw'⟩, _⟩
              rw [relax_pair, hrest, relax_wsp hw']
              exact head?_relax_true tail
        · have hfree : b = cr -> rest.head? ≠ some lf := fun hb hlf => hpair ⟨hb, hlf⟩
          rw [relax_other hplain hfree]
          exact hhead

theorem relax_pairFree {w : Bytes} (h : Folds w) (wsp started : Bool) :
    PairFree (relax wsp started w) := by
  induction wsp, started, w using relax.induct with
  | case1 wsp started => exact rfl
  | case2 wsp started b hb =>
      rw [relax, if_pos hb]
      exact rfl
  | case3 wsp started b hb =>
      have hspace : (0x20 : UInt8) ≠ cr := by decide
      rw [relax, if_neg hb]
      split
      · exact pairFree_cons rfl (fun heq => absurd heq hspace)
      · exact rfl
  | case4 wsp started b c rest hpair ih =>
      rcases hpair with ⟨rfl, rfl⟩
      rw [relax_pair]
      exact ih (folds_pair.mp h).2
  | case5 wsp started b c rest hpair hb ih =>
      rw [relax_wsp hb]
      exact ih ((folds_cons_cons hpair).mp h)
  | case6 wsp started b c rest hpair hb ih =>
      have hspace : (0x20 : UInt8) ≠ cr := by decide
      have hrest := (folds_cons_cons hpair).mp h
      have hout : PairFree (b :: relax false true (c :: rest)) := by
        apply pairFree_cons (ih hrest)
        intro hcr
        apply head?_relax hrest
        intro hlf
        exact hpair ⟨hcr, Option.some.inj hlf⟩
      rw [relax, if_neg hpair, if_neg hb]
      split
      · exact pairFree_cons hout (fun heq => absurd heq hspace)
      · exact hout

theorem relax_pairFree_of_no_cr {w : Bytes} (h : cr ∉ w) : PairFree (relax false false w) :=
  relax_pairFree (folds_of_pairFree (pairFree_of_no_cr h)) false false

/-!
## Bare values

What canonicalization leaves of a value once its spaces are dropped.
-/

def bare : Bytes -> Bytes
  | [] => []
  | [b] => if isWsp b then [] else [b]
  | b :: c :: rest =>
      if b = cr ∧ c = lf then bare rest
      else if isWsp b then bare (c :: rest)
      else b :: bare (c :: rest)

theorem filter_relax (wsp started : Bool) (w : Bytes) :
    (relax wsp started w).filter (fun b => !isWsp b) = bare w := by
  have hspace : forall flag : Bool, ((if flag then [0x20] else []) : Bytes).filter
      (fun b => !isWsp b) = [] := by
    intro flag
    cases flag <;> rfl
  induction wsp, started, w using relax.induct with
  | case1 wsp started => rfl
  | case2 wsp started b hb => rw [relax, if_pos hb, bare, if_pos hb, List.filter_nil]
  | case3 wsp started b hb =>
      have hkept : (!isWsp b) = true := by rw [Bool.eq_false_iff.mpr hb]; rfl
      rw [relax, if_neg hb, bare, if_neg hb, List.filter_append, hspace, List.nil_append,
        List.filter_cons, if_pos hkept, List.filter_nil]
  | case4 wsp started b c rest hpair ih =>
      rw [relax, if_pos hpair, bare, if_pos hpair, ih]
  | case5 wsp started b c rest hpair hb ih =>
      rw [relax, if_neg hpair, if_pos hb, bare, if_neg hpair, if_pos hb, ih]
  | case6 wsp started b c rest hpair hb ih =>
      have hkept : (!isWsp b) = true := by rw [Bool.eq_false_iff.mpr hb]; rfl
      rw [relax, if_neg hpair, if_neg hb, bare, if_neg hpair, if_neg hb, List.filter_append,
        hspace, List.nil_append, List.filter_cons, if_pos hkept, ih]

/-!
## Reading the signing input back
-/

theorem splitCrlf_lines {lines : List Bytes} (h : forall line, line ∈ lines -> PairFree line)
    (rest : Bytes) : splitCrlf (lines.flatMap (· ++ crlf) ++ rest) = lines ++ splitCrlf rest := by
  induction lines with
  | nil => rfl
  | cons line lines ih =>
      rw [List.flatMap_cons, List.append_assoc, splitCrlf_line (h line List.mem_cons_self),
        ih (List.forall_mem_cons.mp h).2]
      rfl

theorem eq_of_splitCrlf_singleton {b piece : Bytes} (h : splitCrlf b = [piece]) : b = piece := by
  induction b using splitCrlf.induct generalizing piece with
  | case1 | case2 b => exact List.singleton_inj.mp h
  | case3 b c rest hpair ih =>
      rw [splitCrlf_cons_cons, if_pos hpair] at h
      injection h with _ hnil
      exact absurd hnil (splitCrlf_ne_nil rest)
  | case4 b c rest hpair ih =>
      rw [splitCrlf_cons_cons, if_neg hpair] at h
      cases hsplit : splitCrlf (c :: rest) with
      | nil => exact absurd hsplit (splitCrlf_ne_nil _)
      | cons first pieces =>
          rw [hsplit] at h
          injection h with hfirst hpieces
          rw [hpieces] at hsplit
          rw [<- hfirst, ih hsplit]

theorem lines_inj {lines lines' : List Bytes} {last front tail : Bytes}
    (hlines : forall line, line ∈ lines -> PairFree line)
    (hlines' : forall line, line ∈ lines' -> PairFree line) (hlast : PairFree last)
    (hfront : cr ∉ front) (hnone : forall line, line ∈ lines -> ¬ front <+: line)
    (h : lines'.flatMap (· ++ crlf) ++ (front ++ tail) = lines.flatMap (· ++ crlf) ++ last) :
    lines' = lines ∧ front ++ tail = last := by
  have hpieces := congrArg splitCrlf h
  have hlast' : splitCrlf last = [last] := hlast
  rw [splitCrlf_lines hlines', splitCrlf_lines hlines, hlast', splitCrlf_append hfront] at hpieces
  cases hsplit : splitCrlf tail with
  | nil => exact absurd hsplit (splitCrlf_ne_nil tail)
  | cons first more =>
      rw [hsplit, List.modifyHead_cons] at hpieces
      rcases List.eq_nil_or_concat more with rfl | ⟨more, piece, rfl⟩
      · rcases List.append_inj' hpieces rfl with ⟨heq, hend⟩
        have htail := eq_of_splitCrlf_singleton hsplit
        rw [htail]
        exact ⟨heq, List.singleton_inj.mp hend⟩
      · -- A pair in the end of the other input would leave its start among the lines.
        have hcut : (lines' ++ (front ++ first) :: more) ++ [piece] = lines ++ [last] := by
          rw [<- hpieces, List.append_assoc, List.concat_eq_append]
          rfl
        rcases List.append_inj' hcut rfl with ⟨heq, _⟩
        have hmem : front ++ first ∈ lines := by
          rw [<- heq]
          exact List.mem_append_right _ List.mem_cons_self
        exact absurd (List.prefix_append front first) (hnone _ hmem)

end Dkim
end Gateway
end Ephor
