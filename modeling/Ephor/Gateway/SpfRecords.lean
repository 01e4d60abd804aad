import Ephor.Gateway.SpfTerms

/-!
# What becomes of an SPF record

The terms of a record that `parse_record` accepts, against the grammar: each directive is
kept as the mechanism it stands for, and modifiers alone are ignored.
-/

namespace Ephor
namespace Gateway
namespace Spf

open Foundation
open Foundation.Text
open Grammar

/-!
# Directives
-/

theorem readQualifier_sign (term : Str) :
    exists sign, term = sign ++ (readQualifier term).2 ∧
      QualifierText sign (readQualifier term).1 := by
  unfold readQualifier
  split
  · exact ⟨['+'], rfl, QualifierText.plus⟩
  · exact ⟨['-'], rfl, QualifierText.minus⟩
  · exact ⟨['~'], rfl, QualifierText.tilde⟩
  · exact ⟨['?'], rfl, QualifierText.question⟩
  · exact ⟨[], rfl, QualifierText.absent⟩

variable {rest term name value : Str} {m : Mechanism} {terms : List Str}
    {mechanisms : List (Qualifier × Mechanism)} {redirect : Option Str}

theorem readQualifier_append {sign body : Str} {q : Qualifier} {c : Char}
    (hsign : QualifierText sign q) (hbody : body = c :: rest) (hc : c.toLower.isAlphanum = true) :
    readQualifier (sign ++ body) = (q, body) := by
  rw [hbody]
  cases hsign with
  | absent =>
      rw [List.nil_append, readQualifier]
      all_goals
        intro others hothers
        cases hothers
        exact absurd hc (by decide)
  | plus | minus | tilde | question => rfl

theorem Arguments.word_alphanum {word : Str} (h : Arguments word rest m) :
    word ≠ [] ∧ word.all Char.isAlphanum = true := by
  cases h <;> exact ⟨by decide, by decide⟩

def inWord (c : Char) : Bool :=
  c ≠ ':' && c ≠ '/'

theorem HostText.starts {domain : Option Str} {bits4 bits6 : Nat}
    (h : HostText rest domain bits4 bits6) : rest.takeWhile inWord = [] := by
  cases h with
  | unnamed hdual => cases hdual <;> rfl
  | named => rfl

theorem NetworkText.starts {width largest : Nat} {network : Str -> BitVec width -> Prop}
    {net : BitVec width} {bits : Nat} (h : NetworkText largest network rest net bits) :
    rest.takeWhile inWord = [] := by
  cases h with
  | host | cidr => rfl

theorem Arguments.rest_starts {word : Str} (h : Arguments word rest m) :
    rest.takeWhile inWord = [] := by
  cases h with
  | all | «include» | ptr | ptrDomain | «exists» => rfl
  | a htext | mx htext => exact HostText.starts htext
  | ip4 htext | ip6 htext => exact NetworkText.starts htext

theorem Arguments.split {word : Str} (h : Arguments (lower word) rest m) :
    wordText (word ++ rest) = word ∧ argumentText (word ++ rest) = rest := by
  have hword : forall c, c ∈ word -> inWord c = true := by
    intro c hc
    have halphanum := List.all_eq_true.mp (Arguments.word_alphanum h).2 c.toLower
      (List.mem_map_of_mem hc)
    unfold inWord
    by_cases hcolon : c = ':'
    · rw [hcolon] at halphanum
      exact absurd halphanum (by decide)
    · by_cases hslash : c = '/'
      · rw [hslash] at halphanum
        exact absurd halphanum (by decide)
      · simp [hcolon, hslash]
  have htake := Arguments.rest_starts h
  have hdrop : rest.dropWhile inWord = rest := by
    have hsplit := @List.takeWhile_append_dropWhile _ inWord rest
    rw [htake, List.nil_append] at hsplit
    exact hsplit
  constructor
  · change (word ++ rest).takeWhile inWord = word
    rw [List.takeWhile_append_of_pos hword, htake, List.append_nil]
  · change (word ++ rest).dropWhile inWord = rest
    rw [List.dropWhile_append_of_pos hword, hdrop]

theorem directive_iff {body : Str} {q : Qualifier} (hread : readQualifier term = (q, body))
    (hm : parseMechanism body = some m) :
    Directive term (q, m) <-> PlainArguments (lower (wordText body)) (argumentText body) := by
  rw [<- arguments_iff (parseMechanism_eq_some hm)]
  constructor
  · intro hdirective
    cases hdirective with
    | @mk sign word rest _ _ hsign harguments =>
        rcases Arguments.word_alphanum harguments with ⟨hne, hall⟩
        cases word with
        | nil => exact absurd rfl hne
        | cons c others =>
            have hc := List.all_eq_true.mp hall c.toLower List.mem_cons_self
            rw [readQualifier_append hsign List.cons_append hc] at hread
            cases hread
            rcases Arguments.split harguments with ⟨hword, hrest⟩
            rw [hword, hrest]
            exact harguments
  · intro harguments
    rcases readQualifier_sign term with ⟨sign, hterm, hsign⟩
    rw [hread] at hterm hsign
    have hbody : body = wordText body ++ argumentText body :=
      List.takeWhile_append_dropWhile.symm
    rw [hterm]
    dsimp only
    rw [hbody]
    exact Directive.mk hsign harguments

/-!
# Terms
-/

/-- A term with an equals sign has the name of a modifier; the others follow the grammar where
`parse_mechanism` does not see to it. -/
def PlainTerm (term : Str) : Prop :=
  match splitOnce '=' term with
  | some (name, _) => IsName name
  | none =>
      PlainArguments (lower (wordText (readQualifier term).2))
        (argumentText (readQualifier term).2)

theorem plainTerm_modifier (h : splitOnce '=' term = some (name, value)) :
    PlainTerm term <-> IsName name := by
  unfold PlainTerm
  rw [h]

/-- What `parse_record` reads the terms as. -/
inductive ReadsTerms : List Str -> List (Qualifier × Mechanism) -> Option Str -> Prop where
  | nil : ReadsTerms [] [] none
  | ignored {term name value : Str} {terms : List Str}
      {mechanisms : List (Qualifier × Mechanism)} {redirect : Option Str} :
      splitOnce '=' term = some (name, value) -> eqIgnoreCase name "redirect".toList = false ->
      ReadsTerms terms mechanisms redirect -> ReadsTerms (term :: terms) mechanisms redirect
  | redirect {term name value : Str} {terms : List Str}
      {mechanisms : List (Qualifier × Mechanism)} :
      splitOnce '=' term = some (name, value) -> eqIgnoreCase name "redirect".toList = true ->
      value ≠ [] -> ReadsTerms terms mechanisms none ->
        ReadsTerms (term :: terms) mechanisms (some value)
  | directive {term body : Str} {terms : List Str} {q : Qualifier} {m : Mechanism}
      {mechanisms : List (Qualifier × Mechanism)} {redirect : Option Str} :
      splitOnce '=' term = none -> readQualifier term = (q, body) ->
      parseMechanism body = some m -> ReadsTerms terms mechanisms redirect ->
        ReadsTerms (term :: terms) ((q, m) :: mechanisms) redirect

theorem ReadsTerms.of_ignored (hsplit : splitOnce '=' term = some (name, value))
    (hname : eqIgnoreCase name "redirect".toList = false) :
    ReadsTerms (term :: terms) mechanisms redirect <-> ReadsTerms terms mechanisms redirect := by
  constructor
  · intro h
    cases h with
    | ignored _ _ hrest => exact hrest
    | redirect hother hredirect =>
        rw [hsplit] at hother
        cases hother
        rw [hname] at hredirect
        cases hredirect
    | directive hother =>
        rw [hsplit] at hother
        cases hother
  · exact ReadsTerms.ignored hsplit hname

theorem ReadsTerms.of_redirect (hsplit : splitOnce '=' term = some (name, value))
    (hname : eqIgnoreCase name "redirect".toList = true) :
    ReadsTerms (term :: terms) mechanisms redirect <->
      redirect = some value ∧ value ≠ [] ∧ ReadsTerms terms mechanisms none := by
  constructor
  · intro h
    cases h with
    | ignored hother hignored =>
        rw [hsplit] at hother
        cases hother
        rw [hname] at hignored
        cases hignored
    | redirect hother _ hvalue hrest =>
        rw [hsplit] at hother
        cases hother
        exact ⟨rfl, hvalue, hrest⟩
    | directive hother =>
        rw [hsplit] at hother
        cases hother
  · intro h
    rw [h.1]
    exact ReadsTerms.redirect hsplit hname h.2.1 h.2.2

theorem ReadsTerms.of_directive {body : Str} {q : Qualifier}
    (hsplit : splitOnce '=' term = none) (hread : readQualifier term = (q, body)) :
    ReadsTerms (term :: terms) mechanisms redirect <->
      exists m rest, parseMechanism body = some m ∧ mechanisms = (q, m) :: rest ∧
        ReadsTerms terms rest redirect := by
  constructor
  · intro h
    cases h with
    | ignored hother | redirect hother =>
        rw [hsplit] at hother
        cases hother
    | directive _ hother hm hrest =>
        rw [hread] at hother
        cases hother
        exact ⟨_, _, hm, rfl, hrest⟩
  · intro h
    rcases h with ⟨m, rest, hm, hmechanisms, hrest⟩
    rw [hmechanisms]
    exact ReadsTerms.directive hsplit hread hm hrest

theorem parseTerms_eq_some {before parsed : ParsedRecord} :
    parseTerms terms before = some parsed <->
      exists mechanisms redirect, ReadsTerms terms mechanisms redirect ∧
        (before.redirect = none ∨ redirect = none) ∧
        parsed = ⟨before.mechanisms ++ mechanisms, before.redirect.or redirect⟩ := by
  induction terms generalizing before with
  | nil =>
      constructor
      · intro h
        cases h
        exact ⟨[], none, ReadsTerms.nil, Or.inr rfl, by rw [List.append_nil, Option.or_none]⟩
      · intro h
        rcases h with ⟨mechanisms, redirect, hreads, _, hparsed⟩
        cases hreads
        rw [hparsed, List.append_nil, Option.or_none]
        rfl
  | cons term terms ih =>
      rw [parseTerms]
      cases hsplit : splitOnce '=' term with
      | some parts =>
          rcases parts with ⟨name, value⟩
          dsimp only
          cases hname : eqIgnoreCase name "redirect".toList with
          | false =>
              rw [if_neg Bool.false_ne_true, ih]
              simp only [ReadsTerms.of_ignored hsplit hname]
          | true =>
              rw [if_pos rfl]
              constructor
              · intro h
                split at h
                · cases h
                · rename_i hrefused
                  rw [Bool.not_eq_true, Bool.or_eq_false_iff, Option.isSome_eq_false_iff,
                    Option.isNone_iff_eq_none] at hrefused
                  rcases ih.mp h with ⟨mechanisms, redirect, hreads, hone, hparsed⟩
                  have hnone : redirect = none := hone.resolve_left (Option.some_ne_none value)
                  have hvalue : value ≠ [] := by
                    intro hempty
                    rw [hempty] at hrefused
                    cases hrefused.2
                  rw [hnone] at hreads hparsed
                  refine ⟨mechanisms, some value,
                    (ReadsTerms.of_redirect hsplit hname).mpr ⟨rfl, hvalue, hreads⟩,
                    Or.inl hrefused.1, ?_⟩
                  rw [hparsed, hrefused.1]
                  rfl
              · intro h
                rcases h with ⟨mechanisms, redirect, hreads, hone, hparsed⟩
                rcases (ReadsTerms.of_redirect hsplit hname).mp hreads with
                  ⟨hredirect, hvalue, hrest⟩
                rw [hredirect] at hone hparsed
                have hbefore : before.redirect = none :=
                  hone.resolve_right (Option.some_ne_none value)
                rw [if_neg (by simp [hbefore, hvalue]), ih]
                refine ⟨mechanisms, none, hrest, Or.inr rfl, ?_⟩
                rw [hparsed, hbefore]
                rfl
      | none =>
          dsimp only
          rcases hqualifier : readQualifier term with ⟨q, body⟩
          dsimp only
          constructor
          · intro h
            rcases Option.bind_eq_some_iff.mp h with ⟨m, hm, hrest⟩
            rcases ih.mp hrest with ⟨mechanisms, redirect, hreads, hone, hparsed⟩
            refine ⟨(q, m) :: mechanisms, redirect,
              ReadsTerms.directive hsplit hqualifier hm hreads, hone, ?_⟩
            rw [hparsed, List.append_assoc]
            rfl
          · intro h
            rcases h with ⟨mechanisms, redirect, hreads, hone, hparsed⟩
            rcases (ReadsTerms.of_directive hsplit hqualifier).mp hreads with
              ⟨m, rest, hm, hmechanisms, hrest⟩
            refine Option.bind_eq_some_iff.mpr ⟨m, hm, ih.mpr ⟨rest, redirect, hrest, hone, ?_⟩⟩
            rw [hparsed, hmechanisms, List.append_assoc]
            rfl

/-!
# Records
-/

def recordTerms (record : Str) : List Str :=
  (splitWhitespace record).tail

theorem parseRecord_eq_some {record : Str} {parsed : ParsedRecord} :
    parseRecord record = some parsed <->
      (splitWhitespace record).head? = some "v=spf1".toList ∧
        ReadsTerms (recordTerms record) parsed.mechanisms parsed.redirect := by
  unfold parseRecord recordTerms
  cases splitWhitespace record with
  | nil =>
      constructor
      · intro h
        cases h
      · intro h
        cases h.1
  | cons version terms =>
      dsimp only
      rw [List.head?_cons, List.tail_cons, Option.some.injEq]
      by_cases hversion : version = "v=spf1".toList
      · rw [if_pos hversion, parseTerms_eq_some]
        constructor
        · intro h
          rcases h with ⟨mechanisms, redirect, hreads, _, hparsed⟩
          rw [hparsed]
          exact ⟨hversion, hreads⟩
        · intro h
          exact ⟨parsed.mechanisms, parsed.redirect, h.2, Or.inl rfl, rfl⟩
      · rw [if_neg hversion]
        constructor
        · intro h
          cases h
        · intro h
          exact absurd h.1 hversion

theorem Kept.count_le (h : Kept terms mechanisms redirect) :
    terms.countP (fun term => !term.contains '=') <= mechanisms.length := by
  induction h with
  | nil => exact Nat.le_refl 0
  | ignored _ _ _ ih | redirect _ _ _ ih =>
      rw [List.countP_cons_of_neg (by simp)]
      exact ih
  | directive _ _ ih =>
      rw [List.countP_cons, List.length_cons]
      split
      · omega
      · omega

theorem ReadsTerms.count_eq (h : ReadsTerms terms mechanisms redirect) :
    terms.countP (fun term => !term.contains '=') = mechanisms.length := by
  induction h with
  | nil => rfl
  | ignored hsplit _ _ ih | redirect hsplit _ _ _ ih =>
      rw [(splitOnce_eq_some hsplit).1, List.countP_cons_of_neg (by simp)]
      exact ih
  | directive hsplit _ _ _ ih =>
      rw [List.countP_cons_of_pos (by simp [splitOnce_eq_none.mp hsplit]), List.length_cons, ih]

theorem ReadsTerms.not_kept_late {other : Option Str} {directive : Qualifier × Mechanism}
    (h : ReadsTerms terms (directive :: mechanisms) redirect) :
    Not (Kept terms mechanisms other) := by
  intro hkept
  have hcount := Kept.count_le hkept
  rw [h.count_eq, List.length_cons] at hcount
  omega

theorem IsName.not_mem (h : IsName name) : '=' ∉ name := by
  intro hmem
  cases name with
  | nil => cases hmem
  | cons c rest =>
      rcases List.mem_cons.mp hmem with hc | hrest
      · rw [<- hc] at h
        exact absurd h.1 (by decide)
      · rcases h.2 '=' hrest with h | h | h | h <;> exact absurd h (by decide)

theorem splitOnce_modifier {name' value' : Str} (hname : IsName name)
    (h : splitOnce '=' (name ++ '=' :: value) = some (name', value')) :
    name' = name ∧ value' = value := by
  rw [splitOnce_piece (IsName.not_mem hname)] at h
  cases h
  exact ⟨rfl, rfl⟩

theorem ReadsTerms.kept_iff (h : ReadsTerms terms mechanisms redirect) :
    Kept terms mechanisms redirect <-> forall term, term ∈ terms -> PlainTerm term := by
  induction h with
  | nil =>
      refine iff_of_true Kept.nil ?_
      intro term hterm
      cases hterm
  | @ignored term name value terms mechanisms redirect hsplit hname hrest ih =>
      rw [List.forall_mem_cons, plainTerm_modifier hsplit, <- ih]
      constructor
      · intro hkept
        cases hkept with
        | ignored hisName _ hkept =>
            rw [(splitOnce_modifier hisName hsplit).1]
            exact ⟨hisName, hkept⟩
        | redirect hisName hredirect =>
            rw [(splitOnce_modifier hisName hsplit).1, hredirect] at hname
            cases hname
        | directive _ hkept => exact absurd hkept hrest.not_kept_late
      · intro hplain
        rw [(splitOnce_eq_some hsplit).1]
        exact Kept.ignored hplain.1 hname hplain.2
  | @redirect term name value terms mechanisms hsplit hname hvalue hrest ih =>
      rw [List.forall_mem_cons, plainTerm_modifier hsplit, <- ih]
      constructor
      · intro hkept
        cases hkept with
        | ignored hisName hignored =>
            rw [(splitOnce_modifier hisName hsplit).1, hignored] at hname
            cases hname
        | redirect hisName _ hkept =>
            rw [(splitOnce_modifier hisName hsplit).1]
            exact ⟨hisName, hkept⟩
        | directive _ hkept => exact absurd hkept hrest.not_kept_late
      · intro hplain
        rw [(splitOnce_eq_some hsplit).1]
        exact Kept.redirect hplain.1 hname hplain.2
  | @directive term body terms q m mechanisms redirect hsplit hread hm hrest ih =>
      have hplain : PlainTerm term <-> Directive term (q, m) := by
        unfold PlainTerm
        rw [hsplit, directive_iff hread hm, hread]
      rw [List.forall_mem_cons, hplain, <- ih]
      constructor
      · intro hkept
        cases hkept with
        | ignored hisName | redirect hisName =>
            rw [splitOnce_piece (IsName.not_mem hisName)] at hsplit
            cases hsplit
        | directive hdirective hkept => exact ⟨hdirective, hkept⟩
      · intro hboth
        exact Kept.directive hboth.1 hboth.2

/-!
# Refusals
-/

def isRedirect (term : Str) : Bool :=
  match splitOnce '=' term with
  | some (name, _) => eqIgnoreCase name "redirect".toList
  | none => false

/-- An empty redirect, or a term that is not read as a mechanism. -/
def refusedTerm (term : Str) : Bool :=
  match splitOnce '=' term with
  | some (name, value) => eqIgnoreCase name "redirect".toList && value.isEmpty
  | none => (parseMechanism (readQualifier term).2).isNone

/-- Another version, a term that is refused, or a second redirect. -/
def RefusedRecord (record : Str) : Prop :=
  (splitWhitespace record).head? ≠ some "v=spf1".toList ∨
    (exists term, term ∈ recordTerms record ∧ refusedTerm term = true) ∨
    2 <= (recordTerms record).countP isRedirect

theorem refusedTerm_modifier (h : splitOnce '=' term = some (name, value)) :
    refusedTerm term = (eqIgnoreCase name "redirect".toList && value.isEmpty) ∧
      isRedirect term = eqIgnoreCase name "redirect".toList := by
  unfold refusedTerm isRedirect
  rw [h]
  exact ⟨rfl, rfl⟩

theorem refusedTerm_directive (h : splitOnce '=' term = none) :
    refusedTerm term = (parseMechanism (readQualifier term).2).isNone ∧
      isRedirect term = false := by
  unfold refusedTerm isRedirect
  rw [h]
  exact ⟨rfl, rfl⟩

theorem ReadsTerms.redirects (h : ReadsTerms terms mechanisms redirect) :
    (forall term, term ∈ terms -> refusedTerm term = false) ∧
      terms.countP isRedirect = if redirect.isSome then 1 else 0 := by
  induction h with
  | nil =>
      refine ⟨?_, rfl⟩
      intro term hterm
      cases hterm
  | ignored hsplit hname _ ih =>
      rcases refusedTerm_modifier hsplit with ⟨hrefused, hredirect⟩
      rw [hname] at hrefused hredirect
      rw [List.forall_mem_cons, List.countP_cons, hredirect]
      exact ⟨⟨hrefused, ih.1⟩, ih.2⟩
  | redirect hsplit hname hvalue _ ih =>
      rcases refusedTerm_modifier hsplit with ⟨hrefused, hredirect⟩
      rw [hname, Bool.true_and, List.isEmpty_eq_false_iff.mpr hvalue] at hrefused
      rw [List.forall_mem_cons, List.countP_cons, hredirect, hname, ih.2]
      exact ⟨⟨hrefused, ih.1⟩, rfl⟩
  | directive hsplit hread hm _ ih =>
      rcases refusedTerm_directive hsplit with ⟨hrefused, hredirect⟩
      rw [hread, hm] at hrefused
      rw [List.forall_mem_cons, List.countP_cons, hredirect]
      exact ⟨⟨hrefused, ih.1⟩, ih.2⟩

theorem readsTerms_of_accepted (hterms : forall term, term ∈ terms -> refusedTerm term = false)
    (hone : terms.countP isRedirect <= 1) :
    exists mechanisms redirect, ReadsTerms terms mechanisms redirect := by
  induction terms with
  | nil => exact ⟨[], none, ReadsTerms.nil⟩
  | cons term terms ih =>
      rw [List.forall_mem_cons] at hterms
      rw [List.countP_cons] at hone
      rcases ih hterms.2 (by omega) with ⟨mechanisms, redirect, hreads⟩
      cases hsplit : splitOnce '=' term with
      | some parts =>
          rcases parts with ⟨name, value⟩
          rcases refusedTerm_modifier hsplit with ⟨hrefused, hredirect⟩
          cases hname : eqIgnoreCase name "redirect".toList with
          | false => exact ⟨mechanisms, redirect, ReadsTerms.ignored hsplit hname hreads⟩
          | true =>
              rw [hterms.1, hname, Bool.true_and] at hrefused
              rw [hredirect, hname, if_pos rfl, hreads.redirects.2] at hone
              cases redirect with
              | some other =>
                  rw [Option.isSome_some, if_pos rfl] at hone
                  omega
              | none =>
                  exact ⟨mechanisms, some value, ReadsTerms.redirect hsplit hname
                    (List.isEmpty_eq_false_iff.mp hrefused.symm) hreads⟩
      | none =>
          have hrefused := (refusedTerm_directive hsplit).1
          rw [hterms.1] at hrefused
          rcases Option.isSome_iff_exists.mp (Option.isNone_eq_false_iff.mp hrefused.symm) with
            ⟨m, hm⟩
          exact ⟨((readQualifier term).1, m) :: mechanisms, redirect,
            ReadsTerms.directive hsplit rfl hm hreads⟩

theorem parseRecord_eq_none {record : Str} :
    parseRecord record = none <-> RefusedRecord record := by
  constructor
  · intro h
    by_cases hversion : (splitWhitespace record).head? = some "v=spf1".toList
    · apply Or.inr
      by_cases hterms : exists term, term ∈ recordTerms record ∧ refusedTerm term = true
      · exact Or.inl hterms
      · refine Or.inr (Nat.lt_of_not_le ?_)
        intro hone
        have haccepted : forall term, term ∈ recordTerms record -> refusedTerm term = false := by
          intro term hterm
          rw [Bool.eq_false_iff]
          intro hrefused
          exact hterms ⟨term, hterm, hrefused⟩
        rcases readsTerms_of_accepted haccepted hone with ⟨mechanisms, redirect, hreads⟩
        have hsome : parseRecord record = some ⟨mechanisms, redirect⟩ :=
          parseRecord_eq_some.mpr ⟨hversion, hreads⟩
        rw [h] at hsome
        cases hsome
    · exact Or.inl hversion
  · intro hrefused
    rw [Option.eq_none_iff_forall_ne_some]
    intro parsed hparsed
    rcases parseRecord_eq_some.mp hparsed with ⟨hversion, hreads⟩
    rcases hreads.redirects with ⟨hterms, hcount⟩
    rcases hrefused with hother | ⟨term, hterm, hrefused⟩ | htwo
    · exact hother hversion
    · rw [hterms term hterm] at hrefused
      cases hrefused
    · rw [hcount] at htwo
      split at htwo
      · omega
      · omega

/-- `parse_record` accounts for every term of the record, or fails. -/
def TermsKept (record : Str) : Prop :=
  forall parsed, parseRecord record = some parsed ->
    Kept (recordTerms record) parsed.mechanisms parsed.redirect

/--
No term is dropped or misread exactly for the records that are refused, and for those whose
every term has a modifier's name before its equals sign or, without one, follows the grammar
where the reading does not see to it.
-/
theorem termsKept_iff (record : Str) :
    TermsKept record <->
      RefusedRecord record ∨ forall term, term ∈ recordTerms record -> PlainTerm term := by
  cases hparse : parseRecord record with
  | none =>
      refine iff_of_true ?_ (Or.inl (parseRecord_eq_none.mp hparse))
      intro parsed hparsed
      rw [hparse] at hparsed
      cases hparsed
  | some parsed =>
      have hkept := (parseRecord_eq_some.mp hparse).2.kept_iff
      constructor
      · intro h
        exact Or.inr (hkept.mp (h parsed hparse))
      · intro h other hother
        rw [hparse] at hother
        cases hother
        rcases h with hrefused | hplain
        · rw [parseRecord_eq_none.mpr hrefused] at hparse
          cases hparse
        · exact hkept.mpr hplain

theorem hard_fail_is_kept : TermsKept "v=spf1 -all".toList := by
  apply (termsKept_iff _).mpr
  have hterms : recordTerms "v=spf1 -all".toList = ["-all".toList] := by decide +kernel
  refine Or.inr ?_
  rw [hterms, List.forall_mem_singleton]
  exact ⟨fun h => absurd h (by decide), fun h => absurd h (by decide), fun _ => by decide⟩

/-- The network that is refused has an equals sign behind it, and with that no effect. -/
theorem dropped_directive :
    parseRecord "v=spf1 -ip4:192.0.2.0/24=x +all".toList =
        some ⟨[(Qualifier.pass, Mechanism.all)], none⟩ ∧
      Not (TermsKept "v=spf1 -ip4:192.0.2.0/24=x +all".toList) := by
  have hparse : parseRecord "v=spf1 -ip4:192.0.2.0/24=x +all".toList =
      some ⟨[(Qualifier.pass, Mechanism.all)], none⟩ := by decide +kernel
  refine ⟨hparse, ?_⟩
  intro hkept
  have hplain := (parseRecord_eq_some.mp hparse).2.kept_iff.mp (hkept _ hparse)
    "-ip4:192.0.2.0/24=x".toList (by decide +kernel)
  have hsplit : splitOnce '=' "-ip4:192.0.2.0/24=x".toList =
      some ("-ip4:192.0.2.0/24".toList, ['x']) := by decide
  exact absurd ((plainTerm_modifier hsplit).mp hplain).1 (by decide)

end Spf
end Gateway
end Ephor
