import Ephor.Gateway.Downgrade
import Ephor.Gateway.EnvelopeHeaders

/-!
# The envelope and the addresses it was meant for

The renderer writes the addresses into headers, and the transport reads them back.  A display name
that is broken over two lines hides its address, and an address that is not one plain word is read
as another one.  The MX is looked up for what follows the last `@` of the whole text, so a word
after the brackets can lead elsewhere.
-/

namespace Ephor
namespace Gateway
namespace Outbound

open Foundation
open Foundation.Text
open Dkim (DkimKey OneLine Suite isWhiteSpace_of_visible mem_of_mem_trim visible_of_alphanum)

variable {L : Libraries}

/-!
# Addresses
-/

/-- The ASCII form of the domain of an address; an empty one is left as it is. -/
def asciiDomain (L : Libraries) (domain : Str) : Except OutboundError Str :=
  if domain.isEmpty then .ok [] else convertDomain L domain

variable {addr spec domain ascii raw front inner tail closing dest before : Str}
    {name : Option Str}

theorem wireAddress_eq_ok (h : wireAddress L addr = .ok (name, spec)) :
    name = (splitAddress (trim addr)).1 ∧
      ((rsplitOnce '@' (splitAddress (trim addr)).2 = none ∧
          spec = (splitAddress (trim addr)).2) ∨
        exists localPart domain ascii,
          rsplitOnce '@' (splitAddress (trim addr)).2 = some (localPart, domain) ∧
            asciiDomain L domain = .ok ascii ∧ spec = localPart ++ '@' :: ascii) := by
  unfold wireAddress at h
  generalize splitAddress (trim addr) = split at h ⊢
  rcases split with ⟨found, text⟩
  dsimp only at h ⊢
  cases hat : rsplitOnce '@' text with
  | none =>
      rw [hat] at h
      cases h
      exact ⟨rfl, Or.inl ⟨rfl, rfl⟩⟩
  | some parts =>
      rcases parts with ⟨localPart, domain⟩
      rw [hat] at h
      dsimp only at h
      split at h
      · rename_i hempty
        cases h
        have htext := rsplitOnce_eq_some hat
        rw [List.isEmpty_iff.mp hempty] at htext hat
        exact ⟨rfl, Or.inr ⟨localPart, [], [], by rw [List.isEmpty_iff.mp hempty], rfl, htext⟩⟩
      · rename_i hempty
        cases hascii : convertDomain L domain with
        | error e =>
            rw [hascii] at h
            cases h
        | ok ascii =>
            rw [hascii] at h
            cases h
            refine ⟨rfl, Or.inr ⟨localPart, domain, ascii, rfl, ?_, rfl⟩⟩
            rw [asciiDomain, if_neg hempty, hascii]

theorem plainDomain_of_convertDomain (hL : L.WritesPlain)
    (h : convertDomain L domain = .ok ascii) : PlainDomain domain ∧ PlainDomain ascii :=
  hL.domain domain ascii (domainToAsciiCow_of_convertDomain h)

theorem plainDomain_of_asciiDomain (hL : L.WritesPlain) (h : asciiDomain L domain = .ok ascii) :
    PlainDomain domain ∧ PlainDomain ascii := by
  have hnil : PlainDomain [] := fun _ hc => absurd hc List.not_mem_nil
  unfold asciiDomain at h
  split at h
  · rename_i hempty
    cases h
    rw [List.isEmpty_iff.mp hempty]
    exact ⟨hnil, hnil⟩
  · exact plainDomain_of_convertDomain hL h

theorem trim_splitAddress (addr : Str) :
    trim (splitAddress (trim addr)).2 = (splitAddress (trim addr)).2 := by
  by_cases hcut : Bracketed (trim addr)
  · rcases exists_cut hcut with ⟨front, inner, tail, hcut'⟩
    rw [splitAddress_cut hcut', trim_trim]
  · rw [splitAddress_uncut hcut, trim_trim]

theorem not_mem_name {name : Str} (h : (splitAddress (trim addr)).1 = some name) : '<' ∉ name := by
  by_cases hcut : Bracketed (trim addr)
  · rcases exists_cut hcut with ⟨front, inner, tail, hcut'⟩
    rw [splitAddress_cut hcut', nameOf] at h
    dsimp only at h
    split at h
    · cases h
    · cases h
      intro hmem
      have hquotes := mem_of_mem_trim hmem
      have hinner := (List.dropWhile_suffix _).mem ((List.rdropWhile_prefix _ _).mem hquotes)
      exact hcut'.opens (mem_of_mem_trim hinner)
  · rw [splitAddress_uncut hcut] at h
    cases h

theorem trim_spec (hL : L.WritesPlain) (h : wireAddress L addr = .ok (name, spec)) :
    trim spec = spec := by
  have hends := ends_of_drop (trim_splitAddress addr)
  rcases (wireAddress_eq_ok h).2 with ⟨_, rfl⟩ | ⟨localPart, domain, ascii, hat, hascii, rfl⟩
  · exact trim_splitAddress addr
  · rw [rsplitOnce_eq_some hat] at hends
    apply trim_of_ends
    · intro c hc
      apply hends.1
      cases localPart with
      | nil | cons d localPart => exact hc
    · intro c hc
      rw [List.getLast?_append_of_ne_nil _ (List.cons_ne_nil _ _)] at hc
      rcases List.mem_cons.mp (List.mem_of_getLast? hc) with rfl | hc
      · decide
      · exact ((plainDomain_of_asciiDomain hL hascii).2 c hc).1

/-!
# Reading an address back
-/

structure PlainLocal (localPart : Str) : Prop where
  solid : forall c, c ∈ localPart -> isWhiteSpace c = false
  opens : forall c, c ∈ localPart.head? -> isAngle c = false
  flat : ¬ Bracketed localPart

/-- The conditions under which an address is read back: its display name stays on one line, and
without one its local part is plain. -/
structure ReadsBack (L : Libraries) (addr : Str) : Prop where
  named : forall name, (splitAddress (trim addr)).1 = some name ->
    OneLine (L.encodeDisplayName name)
  bare : (splitAddress (trim addr)).1 = none -> exists localPart domain,
    rsplitOnce '@' (splitAddress (trim addr)).2 = some (localPart, domain) ∧ PlainLocal localPart

theorem bracketed_spec {localPart : Str} (hascii : PlainDomain ascii) :
    Bracketed (localPart ++ '@' :: ascii) <-> Bracketed localPart := by
  constructor
  · intro h
    rcases List.sublist_append_iff.mp h with ⟨front, tail, hsplit, hfront, htail⟩
    have hplain : forall c, c ∈ tail -> c ≠ '<' ∧ c ≠ '>' := by
      intro c hc
      rcases List.mem_cons.mp (htail.subset hc) with rfl | hc
      · decide
      · exact ⟨(hascii c hc).2.1, (hascii c hc).2.2.1⟩
    have hempty : tail = [] := by
      rcases List.eq_nil_or_concat tail with hnil | ⟨more, last, rfl⟩
      · exact hnil
      · rw [List.concat_eq_append] at hsplit hplain
        have hlast := congrArg List.getLast? hsplit
        rw [<- List.append_assoc, List.getLast?_concat] at hlast
        have hclose := (hplain last (List.mem_append_right _ List.mem_cons_self)).2
        exact absurd (Option.some.inj hlast).symm hclose
    rw [hempty, List.append_nil] at hsplit
    rw [Bracketed, hsplit]
    exact hfront
  · exact fun h => h.trans (List.sublist_append_left _ _)

theorem valueAddr_spec_iff {localPart : Str} (hascii : PlainDomain ascii) :
    valueAddr (localPart ++ '@' :: ascii) = some (localPart ++ '@' :: ascii) <->
      PlainLocal localPart := by
  rw [valueAddr_eq_self, bracketed_spec hascii]
  constructor
  · intro h
    refine ⟨fun c hc => h.2.solid c (List.mem_append_left _ hc), ?_, h.1⟩
    intro c hc
    apply h.2.opens
    cases localPart with
    | nil => cases hc
    | cons d localPart => exact hc
  · intro h
    refine ⟨h.flat, List.mem_append_right _ List.mem_cons_self, ?_, ?_, ?_⟩
    · intro c hc
      rcases List.mem_append.mp hc with hc | hc
      · exact h.solid c hc
      · rcases List.mem_cons.mp hc with rfl | hc
        · decide
        · exact (hascii c hc).1
    · intro c hc
      cases localPart with
      | nil =>
          cases hc
          decide
      | cons d localPart => exact h.opens c hc
    · intro c hc
      rw [List.getLast?_append_of_ne_nil _ (List.cons_ne_nil _ _)] at hc
      rcases List.mem_cons.mp (List.mem_of_getLast? hc) with rfl | hc
      · decide
      · rw [isAngle, beq_false_of_ne (hascii c hc).2.1, beq_false_of_ne (hascii c hc).2.2.1]
        rfl

theorem valueAddr_bare (hL : L.WritesPlain) (hparts : wireAddress L addr = .ok (none, spec)) :
    valueAddr spec = some spec <-> ReadsBack L addr := by
  rcases wireAddress_eq_ok hparts with ⟨hname, hspec⟩
  have hreads : ReadsBack L addr <-> exists localPart domain,
      rsplitOnce '@' (splitAddress (trim addr)).2 = some (localPart, domain) ∧
        PlainLocal localPart := by
    constructor
    · exact fun h => h.bare hname.symm
    · intro h
      refine ⟨fun name hsome => ?_, fun _ => h⟩
      rw [<- hname] at hsome
      cases hsome
  rw [hreads]
  rcases hspec with ⟨hat, rfl⟩ | ⟨localPart, domain, ascii, hat, hascii, rfl⟩
  · constructor
    · intro h
      exact absurd (valueAddr_eq_self.mp h).2.at_mem (rsplitOnce_eq_none.mp hat)
    · intro h
      rcases h with ⟨localPart, domain, hsome, _⟩
      rw [hat] at hsome
      cases hsome
  · rw [valueAddr_spec_iff (plainDomain_of_asciiDomain hL hascii).2, hat]
    constructor
    · exact fun h => ⟨localPart, domain, rfl, h⟩
    · intro h
      rcases h with ⟨localPart', domain', hsame, hplain⟩
      cases hsame
      exact hplain

theorem not_mem_encodeDisplayName (hL : L.WritesPlain) {name : Str} (hname : OneLine name)
    (hopen : '<' ∉ name) : '<' ∉ L.encodeDisplayName name := by
  intro hmem
  rcases hL.displayName name hname with hquoted | hwords
  · rcases List.mem_cons.mp (hquoted hmem) with heq | hmem
    · cases heq
    · rcases List.mem_cons.mp hmem with heq | hmem
      · cases heq
      · exact hopen hmem
  · exact (hwords.plain _ hmem).1 rfl

theorem valueAddr_folded (hL : L.WritesPlain) {name : Str} (hname : OneLine name)
    (hfolded : ¬ OneLine (L.encodeDisplayName name)) (tail : Str) :
    valueAddr (trim (firstLine (L.encodeDisplayName name ++ tail))) = none := by
  rcases hL.displayName name hname with hquoted | hwords
  · exact absurd (oneLine_of_quoted hname hquoted) hfolded
  · have hplain : forall c, c ∈ trim (firstLine (L.encodeDisplayName name ++ tail)) ->
        c ≠ '<' ∧ c ≠ '@' := by
      have hfolds := hwords.folds
      have hwordsPlain := hwords.plain
      generalize L.encodeDisplayName name = text at hfolds hwordsPlain hfolded
      intro c hc
      cases hfolds with
      | line h => exact absurd h hfolded
      | fold h hword hstart =>
          rw [List.append_assoc, List.cons_append, List.cons_append, firstLine_append] at hc
          exact hwordsPlain c (List.mem_append_left _ (firstLine_subset _ (mem_of_mem_trim hc)))
    apply valueAddr_eq_none
    · exact fun hmem => (hplain _ hmem).1 rfl
    · exact fun hmem => (hplain _ hmem).2 rfl

theorem valueAddr_named (hL : L.WritesPlain) {name : Str} (hname : OneLine name)
    (hopen : '<' ∉ name) (hspec : OneLine spec) (htrim : trim spec = spec) :
    valueAddr (trim (firstLine (L.encodeDisplayName name ++ (' ' :: '<' :: (spec ++ ['>']))))) =
        some spec <->
      OneLine (L.encodeDisplayName name) := by
  constructor
  · intro h
    apply Decidable.byContradiction
    intro hfolded
    rw [valueAddr_folded hL hname hfolded] at h
    cases h
  · intro h
    have hbrackets : OneLine [' ', '<'] ∧ OneLine ['>'] := by decide
    have hline : OneLine (L.encodeDisplayName name ++ (' ' :: '<' :: (spec ++ ['>']))) :=
      h.append (hbrackets.1.append (hspec.append hbrackets.2))
    have hfront : '<' ∉ L.encodeDisplayName name ++ [' '] := by
      intro hmem
      rcases List.mem_append.mp hmem with hmem | hmem
      · exact not_mem_encodeDisplayName hL hname hopen hmem
      · cases List.mem_singleton.mp hmem
    have hsplit : L.encodeDisplayName name ++ (' ' :: '<' :: (spec ++ ['>'])) =
        (L.encodeDisplayName name ++ [' ']) ++ '<' :: (spec ++ ['>']) := by
      rw [List.append_assoc, List.singleton_append]
    rw [firstLine_of_not_mem hline.2, hsplit, valueAddr_angle hfront, htrim]

theorem valueAddr_field (hL : L.WritesPlain) {field : Str} (haddr : OneLine addr)
    (hparts : wireAddress L addr = .ok (name, spec))
    (hfield : wireAddressField L addr = .ok field) :
    valueAddr (trim (firstLine field)) = some spec <-> ReadsBack L addr := by
  have hone := oneLine_wireAddress hL.foldsOnly haddr hparts
  have htrim := trim_spec hL hparts
  rcases wireAddressField_eq_ok hfield with ⟨name', spec', hparts', hform⟩
  rw [hparts] at hparts'
  cases hparts'
  rcases hform with ⟨rfl, rfl⟩ | ⟨n, rfl, rfl⟩
  · rw [firstLine_of_not_mem hone.spec.2, htrim]
    exact valueAddr_bare hL hparts
  · have hname := (wireAddress_eq_ok hparts).1
    rw [valueAddr_named hL (hone.name n rfl) (not_mem_name hname.symm) hone.spec htrim]
    constructor
    · intro h
      refine ⟨fun other hother => ?_, fun hnone => ?_⟩
      · rw [<- hname] at hother
        cases hother
        exact h
      · rw [<- hname] at hnone
        cases hnone
    · exact fun h => h.named n hname.symm

/-!
# Looking up the domain
-/

def afterBrackets (raw : Str) : Str :=
  match raw.idxOf? '<', rfind '>' raw with
  | some l, some r => if l < r then raw.drop (r + 1) else []
  | _, _ => []

/-- What follows the brackets of an address names no domain but its own, in ASCII form. -/
def SameDomain (L : Libraries) (addr : Str) : Prop :=
  forall before domain, rsplitOnce '@' (afterBrackets (trim addr)) = some (before, domain) ->
    exists localPart own, rsplitOnce '@' (splitAddress (trim addr)).2 = some (localPart, own) ∧
      convertDomain L domain = asciiDomain L own

theorem afterBrackets_cut (h : Cut raw front inner tail) : afterBrackets raw = tail := by
  have hlt : front.length < front.length + 1 + inner.length := by omega
  have hraw : raw = (front ++ '<' :: inner ++ ['>']) ++ tail := by
    rw [h.text_eq]
    simp
  have hlength : front.length + 1 + inner.length + 1 = (front ++ '<' :: inner ++ ['>']).length := by
    simp
    omega
  rw [afterBrackets, h.first, h.last]
  dsimp only
  rw [if_pos hlt, hlength, hraw, List.drop_left]

theorem afterBrackets_uncut (h : ¬ Bracketed raw) : afterBrackets raw = [] := by
  unfold afterBrackets
  split
  · rename_i l r hl hr
    rw [if_neg (not_lt_of_not_bracketed h hl hr)]
  · rfl

theorem domainOf_eq_some (h : domainOf addr = some domain) :
    domain ≠ [] ∧ exists front closing,
      rsplitOnce '@' (trim addr) = some (front, domain ++ closing) ∧
        forall c, c ∈ closing -> c = '>' := by
  rcases Option.filter_eq_some_iff.mp h with ⟨hmap, hne⟩
  rcases Option.map_eq_some_iff.mp hmap with ⟨⟨before, after⟩, hparts, hdomain⟩
  dsimp only at hdomain
  rw [hdomain] at hparts
  have hnonempty : domain ≠ [] := by
    intro hnil
    rw [hnil] at hne
    cases hne
  refine ⟨hnonempty, ?_⟩
  have htext := rsplitOnce_eq_some hparts
  generalize hopened : (trim addr).dropWhile (· == '<') = opened at htext
  have hclosed : opened = opened.rdropWhile (· == '>') ++
      (opened.reverse.takeWhile (· == '>')).reverse := by
    rw [List.rdropWhile, <- List.reverse_append, List.takeWhile_append_dropWhile,
      List.reverse_reverse]
  have hclosing : forall c, c ∈ (opened.reverse.takeWhile (· == '>')).reverse -> c = '>' := by
    intro c hc
    have hclose := List.mem_takeWhile_imp (List.mem_reverse.mp hc)
    exact eq_of_beq hclose
  have hfree : '@' ∉ domain ++ (opened.reverse.takeWhile (· == '>')).reverse := by
    intro hmem
    rcases List.mem_append.mp hmem with hmem | hmem
    · exact not_mem_of_rsplitOnce hparts hmem
    · cases hclosing _ hmem
  have hraw : trim addr = ((trim addr).takeWhile (· == '<') ++ before) ++
      '@' :: (domain ++ (opened.reverse.takeWhile (· == '>')).reverse) := by
    calc trim addr
        = (trim addr).takeWhile (· == '<') ++ opened := by
          rw [<- hopened, List.takeWhile_append_dropWhile]
      _ = (trim addr).takeWhile (· == '<') ++ (before ++ '@' :: domain ++
            (opened.reverse.takeWhile (· == '>')).reverse) := by rw [<- htext, <- hclosed]
      _ = _ := by simp only [List.append_assoc, List.cons_append]
  exact ⟨_, _, hraw ▸ rsplitOnce_cons _ hfree, hclosing⟩

theorem closing_eq_nil {text : Str} (hplain : PlainDomain (text ++ closing))
    (hclosing : forall c, c ∈ closing -> c = '>') : closing = [] := by
  apply List.eq_nil_iff_forall_not_mem.mpr
  intro c hc
  exact (hplain c (List.mem_append_right _ hc)).2.2.1 (hclosing c hc)

theorem rsplitOnce_spec (hL : L.WritesPlain) {localPart : Str}
    (h : asciiDomain L domain = .ok ascii) :
    rsplitOnce '@' (localPart ++ '@' :: ascii) = some (localPart, ascii) :=
  rsplitOnce_cons localPart (fun hmem => ((plainDomain_of_asciiDomain hL h).2 _ hmem).2.2.2 rfl)

theorem spec_domain (hL : L.WritesPlain) (hparts : wireAddress L addr = .ok (name, spec))
    (hne : domain ≠ [])
    (hfound : rsplitOnce '@' (splitAddress (trim addr)).2 = some (front, domain ++ closing))
    (hclosing : forall c, c ∈ closing -> c = '>') (hdest : convertDomain L domain = .ok dest) :
    exists localPart, rsplitOnce '@' spec = some (localPart, dest) := by
  rcases (wireAddress_eq_ok hparts).2 with ⟨hat, _⟩ | ⟨localPart, own, ascii, hat, hascii, rfl⟩
  · rw [hfound] at hat
    cases hat
  · rw [hfound] at hat
    cases hat
    have hnil := closing_eq_nil (plainDomain_of_asciiDomain hL hascii).1 hclosing
    have hnonempty : ¬ domain.isEmpty = true := fun hempty => hne (List.isEmpty_iff.mp hempty)
    refine ⟨front, ?_⟩
    rw [rsplitOnce_spec hL hascii]
    rw [hnil, List.append_nil, asciiDomain, if_neg hnonempty, hdest] at hascii
    cases hascii
    rfl

theorem rsplitOnce_cut {rest after : Str} {c d : Char} (hc : c ∉ d :: tail)
    (htext : rest = front ++ d :: tail) (h : rsplitOnce c rest = some (before, after)) :
    exists middle, rsplitOnce c front = some (before, middle) ∧ after = middle ++ d :: tail := by
  rw [htext, rsplitOnce_append hc] at h
  rcases Option.map_eq_some_iff.mp h with ⟨⟨found, middle⟩, hfound, hpair⟩
  cases hpair
  exact ⟨middle, hfound, rfl⟩

theorem domain_in_brackets (hcut : Cut raw front inner tail) (htail : '@' ∉ tail)
    (hdomain : PlainDomain domain) (hclosing : forall c, c ∈ closing -> c = '>')
    (hraw : rsplitOnce '@' raw = some (before, domain ++ closing)) :
    exists start more, inner = start ++ '@' :: (domain ++ more) ∧
      forall c, c ∈ more -> c = '>' := by
  have hopen : '<' ∉ domain ++ closing := by
    intro hmem
    rcases List.mem_append.mp hmem with hmem | hmem
    · exact (hdomain _ hmem).2.1 rfl
    · cases hclosing _ hmem
  have hclose : '@' ∉ '>' :: tail := List.not_mem_cons_of_ne_of_not_mem (by decide) htail
  have hsplit : raw = (front ++ '<' :: inner) ++ '>' :: tail := by
    rw [hcut.text_eq, List.append_assoc, List.cons_append]
  rcases rsplitOnce_cut hclose hsplit hraw with ⟨middle, hmiddle, hafter⟩
  by_cases hat : '@' ∈ inner
  · cases hinner : rsplitOnce '@' inner with
    | none => exact absurd hat (rsplitOnce_eq_none.mp hinner)
    | some parts =>
        rcases parts with ⟨start, last⟩
        have hlast := not_mem_of_rsplitOnce hinner
        have hinnerText := rsplitOnce_eq_some hinner
        have hfront : front ++ '<' :: inner = (front ++ '<' :: start) ++ '@' :: last := by
          rw [hinnerText, List.append_assoc, List.cons_append]
        rw [hfront, rsplitOnce_cons _ hlast] at hmiddle
        cases hmiddle
        rcases List.append_eq_append_iff.mp hafter with ⟨more, hmore, hrest⟩ | ⟨more, hmore, hrest⟩
        · refine ⟨start, more, ?_, ?_⟩
          · rw [hinnerText, hmore]
          · intro c hc
            apply hclosing
            rw [hrest]
            exact List.mem_append_left _ hc
        · refine ⟨start, [], ?_, fun c hc => absurd hc List.not_mem_nil⟩
          cases more with
          | nil =>
              rw [hinnerText, hmore, List.append_nil, List.append_nil]
          | cons c more =>
              injection hrest with hc _
              have hmem : '>' ∈ domain := by
                rw [hmore, hc]
                exact List.mem_append_right _ List.mem_cons_self
              exact absurd rfl (hdomain _ hmem).2.2.1
  · have hnone : '@' ∉ '<' :: inner := List.not_mem_cons_of_ne_of_not_mem (by decide) hat
    rcases rsplitOnce_cut hnone rfl hmiddle with ⟨_, _, hlast⟩
    rw [hlast] at hafter
    rw [hafter] at hopen
    exact absurd (List.mem_append_left _ (List.mem_append_right _ List.mem_cons_self)) hopen

theorem domain_behind {last start : Str} (hcut : Cut raw front inner tail)
    (hbehind : rsplitOnce '@' tail = some (before, last))
    (hclosing : forall c, c ∈ closing -> c = '>')
    (hraw : rsplitOnce '@' raw = some (start, domain ++ closing)) : last = domain := by
  have hlast : last = domain ++ closing := by
    have hsplit : raw = (front ++ '<' :: (inner ++ '>' :: before)) ++ '@' :: last := by
      rw [hcut.text_eq, rsplitOnce_eq_some hbehind]
      simp only [List.append_assoc, List.cons_append]
    rw [hsplit, rsplitOnce_cons _ (not_mem_of_rsplitOnce hbehind)] at hraw
    cases hraw
    rfl
  have hnil : closing = [] := by
    apply List.eq_nil_iff_forall_not_mem.mpr
    intro c hc
    apply hcut.closes
    rw [rsplitOnce_eq_some hbehind, hlast, <- hclosing c hc]
    exact List.mem_append_right _ (List.mem_cons_of_mem _ (List.mem_append_right _ hc))
  rw [hlast, hnil, List.append_nil]

theorem sameDomain_of_not_mem (h : '@' ∉ afterBrackets (trim addr)) : SameDomain L addr := by
  intro before domain hfound
  rw [rsplitOnce_eq_none.mpr h] at hfound
  cases hfound

theorem destination_behind (hL : L.WritesPlain) (hparts : wireAddress L addr = .ok (name, spec))
    (hbehind : rsplitOnce '@' (afterBrackets (trim addr)) = some (before, domain))
    (hdest : convertDomain L domain = .ok dest) :
    (exists localPart, rsplitOnce '@' spec = some (localPart, dest)) <-> SameDomain L addr := by
  rcases (wireAddress_eq_ok hparts).2 with ⟨hat, hspec⟩ | ⟨localPart, own, ascii, hat, hascii, rfl⟩
  · constructor
    · intro h
      rcases h with ⟨localPart, hsome⟩
      rw [hspec, hat] at hsome
      cases hsome
    · intro h
      rcases h before domain hbehind with ⟨localPart, own, hsome, _⟩
      rw [hat] at hsome
      cases hsome
  · rw [rsplitOnce_spec hL hascii]
    constructor
    · intro h
      rcases h with ⟨localPart', hsame⟩
      cases hsame
      intro before' domain' hbehind'
      rw [hbehind] at hbehind'
      cases hbehind'
      exact ⟨localPart, own, hat, hdest.trans hascii.symm⟩
    · intro h
      rcases h before domain hbehind with ⟨localPart', own', hown, hsame⟩
      rw [hat] at hown
      cases hown
      rw [hdest, hascii] at hsame
      cases hsame
      exact ⟨localPart, rfl⟩

theorem destination_inside (hL : L.WritesPlain) (hcut : Cut (trim addr) front inner tail)
    (htail : '@' ∉ tail) (hparts : wireAddress L addr = .ok (name, spec)) (hne : domain ≠ [])
    (hclosing : forall c, c ∈ closing -> c = '>')
    (hraw : rsplitOnce '@' (trim addr) = some (before, domain ++ closing))
    (hdest : convertDomain L domain = .ok dest) :
    exists localPart, rsplitOnce '@' spec = some (localPart, dest) := by
  have hplain := (plainDomain_of_convertDomain hL hdest).1
  rcases domain_in_brackets hcut htail hplain hclosing hraw with ⟨start, more, hinner, hmore⟩
  have hsolid : forall c, c ∈ '@' :: (domain ++ more) -> isWhiteSpace c = false := by
    intro c hc
    rcases List.mem_cons.mp hc with rfl | hc
    · decide
    · rcases List.mem_append.mp hc with hc | hc
      · exact (hplain c hc).1
      · rw [hmore c hc]
        decide
  have htrim : trim inner = start.dropWhile isWhiteSpace ++ '@' :: (domain ++ more) := by
    rw [hinner]
    exact trim_front start (List.cons_ne_nil _ _) (fun c hc => hsolid c (List.mem_of_head? hc))
      (fun c hc => hsolid c (List.mem_of_getLast? hc))
  have hfree : '@' ∉ domain ++ more := by
    intro hmem
    rcases List.mem_append.mp hmem with hmem | hmem
    · exact (hplain _ hmem).2.2.2 rfl
    · cases hmore _ hmem
  have hfound : rsplitOnce '@' (splitAddress (trim addr)).2 =
      some (start.dropWhile isWhiteSpace, domain ++ more) := by
    rw [splitAddress_cut hcut]
    dsimp only
    rw [htrim]
    exact rsplitOnce_cons _ hfree
  exact spec_domain hL hparts hne hfound hmore hdest

theorem destination_iff (hL : L.WritesPlain) (hparts : wireAddress L addr = .ok (name, spec))
    (hdest : destination L addr = .ok dest) :
    (exists localPart, rsplitOnce '@' spec = some (localPart, dest)) <-> SameDomain L addr := by
  unfold destination at hdest
  cases hdomain : domainOf addr with
  | none =>
      rw [hdomain] at hdest
      cases hdest
  | some domain =>
      rw [hdomain] at hdest
      dsimp only at hdest
      rcases domainOf_eq_some hdomain with ⟨hne, hraw⟩
      rcases hraw with ⟨front, closing, hraw, hclosing⟩
      by_cases hbracketed : Bracketed (trim addr)
      · rcases exists_cut hbracketed with ⟨start, inner, tail, hcut⟩
        have hafter := afterBrackets_cut hcut
        cases hbehind : rsplitOnce '@' tail with
        | none =>
            have htail := rsplitOnce_eq_none.mp hbehind
            have hspec := destination_inside hL hcut htail hparts hne hclosing hraw hdest
            exact ⟨fun _ => sameDomain_of_not_mem (hafter ▸ htail), fun _ => hspec⟩
        | some parts =>
            rcases parts with ⟨before, last⟩
            rw [domain_behind hcut hbehind hclosing hraw, <- hafter] at hbehind
            exact destination_behind hL hparts hbehind hdest
      · have hafter := afterBrackets_uncut hbracketed
        have hfound : rsplitOnce '@' (splitAddress (trim addr)).2 =
            some (front, domain ++ closing) := by
          rw [splitAddress_uncut hbracketed]
          exact hraw
        have hspec := spec_domain hL hparts hne hfound hclosing hdest
        exact ⟨fun _ => sameDomain_of_not_mem (hafter ▸ List.not_mem_nil), fun _ => hspec⟩

/-!
# Messages that reach the transport
-/

variable {S : Suite} {σ : Type}

theorem send_of_dial {gw : OutboundGateway S σ} {payload : Payload} {fromAddr toAddr : Str}
    {now : UInt64} {s : σ} {dial : Dial}
    (h : dial ∈ (send L gw payload fromAddr toAddr now s).dials) :
    exists dest, translateAndSign L gw.dkimKeys payload fromAddr toAddr now = .ok dial.message ∧
      destination L toAddr = .ok dest ∧ exists host, host ∈ gw.resolveMx dest ∧
        dial.host = host.host := by
  cases hsigned : translateAndSign L gw.dkimKeys payload fromAddr toAddr now with
  | error e =>
      rw [send, hsigned] at h
      exact absurd h List.not_mem_nil
  | ok signed =>
      cases hdest : destination L toAddr with
      | error e =>
          rw [send, hsigned] at h
          dsimp only at h
          rw [hdest] at h
          exact absurd h List.not_mem_nil
      | ok dest =>
          rw [send_of_ok hsigned hdest, dials_sendTo] at h
          rcases List.mem_map.mp h with ⟨host, hhost, rfl⟩
          have heligible := List.mem_of_head? (Option.mem_toList.mp hhost)
          refine ⟨dest, rfl, rfl, host, ?_, rfl⟩
          unfold eligible at heligible
          split at heligible
          · exact heligible
          · exact List.mem_of_mem_filter heligible

/-- Every message that is handed over goes to a host of the receiver's domain, and its envelope is
that of the addresses. -/
def EnvelopeIsIntent (L : Libraries) (gw : OutboundGateway S σ) (payload : Payload)
    (fromAddr toAddr : Str) (now : UInt64) (s : σ) : Prop :=
  forall dial, dial ∈ (send L gw payload fromAddr toAddr now s).dials ->
    exists fromName mailFrom toName rcptTo localPart dest,
      wireAddress L fromAddr = .ok (fromName, mailFrom) ∧
      wireAddress L toAddr = .ok (toName, rcptTo) ∧
      envelope dial.message = some ⟨mailFrom, rcptTo⟩ ∧
      destination L toAddr = .ok dest ∧ rsplitOnce '@' rcptTo = some (localPart, dest) ∧
      exists host, host ∈ gw.resolveMx dest ∧ dial.host = host.host

theorem at_mem_sender {keys : List (DkimKey S)} {payload : Payload} {fromAddr toAddr : Str}
    {now : UInt64} {signed : Bytes} {mailFrom : Str}
    (h : translateAndSign L keys payload fromAddr toAddr now = .ok signed)
    (hparts : wireAddress L fromAddr = .ok (name, mailFrom)) : '@' ∈ mailFrom := by
  rcases translateAndSign_eq_ok h with ⟨key, _, hdelegated, _⟩
  rw [delegatedKey, hparts] at hdelegated
  rcases Option.bind_eq_some_iff.mp hdelegated with ⟨domain, hdomain, _⟩
  rcases domainOf_eq_some hdomain with ⟨_, front, closing, htext, _⟩
  apply mem_of_mem_trim
  rw [rsplitOnce_eq_some htext]
  exact List.mem_append_right _ List.mem_cons_self

theorem envelope_signed_iff (hL : L.WritesPlain) {keys : List (DkimKey S)}
    (hkeys : forall key, key ∈ keys -> '\n' ∉ key.selector) {payload : Payload}
    {fromAddr toAddr : Str} {now : UInt64} {signed : Bytes}
    (h : translateAndSign L keys payload fromAddr toAddr now = .ok signed)
    {fromName toName : Option Str} {mailFrom rcptTo : Str}
    (hfrom : wireAddress L fromAddr = .ok (fromName, mailFrom))
    (hto : wireAddress L toAddr = .ok (toName, rcptTo)) :
    envelope signed = some ⟨mailFrom, rcptTo⟩ <-> ReadsBack L fromAddr ∧ ReadsBack L toAddr := by
  rcases headerAddr_signed hL hkeys h with ⟨hfromLine, htoLine, fromField, toField, hfromField,
    htoField, hfromAddr, htoAddr⟩
  have hreadFrom := valueAddr_field hL hfromLine hfrom hfromField
  have hreadTo := valueAddr_field hL htoLine hto htoField
  rw [<- hreadFrom, <- hreadTo, envelope, hfromAddr, htoAddr]
  constructor
  · intro henvelope
    rcases Option.map_eq_some_iff.mp henvelope with ⟨found, hfound, hpair⟩
    injection hpair with hmail hrcpt
    rw [hrcpt] at hfound
    refine ⟨?_, hfound⟩
    cases hvalue : valueAddr (trim (firstLine fromField)) with
    | some value =>
        rw [hvalue] at hmail
        exact congrArg some hmail
    | none =>
        -- The empty sender is not an address, and the message has one.
        rw [hvalue] at hmail
        have hat := at_mem_sender h hfrom
        rw [<- hmail] at hat
        exact absurd hat (by decide)
  · intro hboth
    rw [hboth.1, hboth.2]
    rfl

/--
A message that `send` hands over has the envelope of its addresses, and goes to a host of the
receiver's domain, exactly when both addresses are read back from the headers and nothing after
the brackets of the receiver's names another domain.
-/
theorem envelope_is_intent_iff (L : Libraries) (hL : L.WritesPlain) (S : Suite) (σ : Type)
    (gw : OutboundGateway S σ) (hkeys : forall key, key ∈ gw.dkimKeys -> '\n' ∉ key.selector)
    (payload : Payload) (fromAddr toAddr : Str) (now : UInt64) (s : σ)
    (hsent : (send L gw payload fromAddr toAddr now s).dials ≠ []) :
    EnvelopeIsIntent L gw payload fromAddr toAddr now s <->
      ReadsBack L fromAddr ∧ ReadsBack L toAddr ∧ SameDomain L toAddr := by
  have hread {signed : Bytes}
      (hsigned : translateAndSign L gw.dkimKeys payload fromAddr toAddr now = .ok signed) :
      exists fromName mailFrom toName rcptTo, wireAddress L fromAddr = .ok (fromName, mailFrom) ∧
        wireAddress L toAddr = .ok (toName, rcptTo) ∧
        (envelope signed = some ⟨mailFrom, rcptTo⟩ <->
          ReadsBack L fromAddr ∧ ReadsBack L toAddr) := by
    rcases headerAddr_signed hL hkeys hsigned with
      ⟨_, _, fromField, toField, hfromField, htoField, _⟩
    rcases wireAddressField_eq_ok hfromField with ⟨fromName, mailFrom, hfrom, _⟩
    rcases wireAddressField_eq_ok htoField with ⟨toName, rcptTo, hto, _⟩
    exact ⟨fromName, mailFrom, toName, rcptTo, hfrom, hto,
      envelope_signed_iff hL hkeys hsigned hfrom hto⟩
  constructor
  · intro hintent
    rcases List.exists_mem_of_ne_nil _ hsent with ⟨dial, hdial⟩
    rcases send_of_dial hdial with ⟨_, hsigned, _⟩
    rcases hread hsigned with ⟨fromName, mailFrom, toName, rcptTo, hfrom, hto, hiff⟩
    rcases hintent dial hdial with
      ⟨_, _, _, _, localPart, dest, hfrom', hto', henvelope, hdest, hat, _⟩
    rw [hfrom] at hfrom'
    cases hfrom'
    rw [hto] at hto'
    cases hto'
    have hboth := hiff.mp henvelope
    exact ⟨hboth.1, hboth.2, (destination_iff hL hto hdest).mp ⟨localPart, hat⟩⟩
  · intro hall dial hdial
    rcases send_of_dial hdial with ⟨dest, hsigned, hdest, hhost⟩
    rcases hread hsigned with ⟨fromName, mailFrom, toName, rcptTo, hfrom, hto, hiff⟩
    rcases (destination_iff hL hto hdest).mpr hall.2.2 with ⟨localPart, hat⟩
    exact ⟨fromName, mailFrom, toName, rcptTo, localPart, dest, hfrom, hto,
      hiff.mpr ⟨hall.1, hall.2.1⟩, hdest, hat, hhost⟩

/-!
A gateway that dials the domain itself, with libraries that take lower case domains only and
quote names.  The second receiver has a word behind its brackets.
-/

def quotingLibraries : Libraries where
  domainToAsciiCow := sampleLibraries.domainToAsciiCow
  encodeDisplayName name := '"' :: name ++ ['"']
  encodeHeaderValue value := value
  formatRfc5322Date := plainLibraries.formatRfc5322Date
  contentDigest := plainLibraries.contentDigest

def directGateway : OutboundGateway plainSuite Unit where
  dkimKeys := [plainKey]
  tlsPolicy := ⟨fun _ s => (.opportunistic, s), fun _ s => ([], s)⟩
  deliver := accepts
  resolveMx dest := [⟨dest, 0⟩]

theorem writesPlain_quotingLibraries : quotingLibraries.WritesPlain where
  domain := by
    intro domain ascii h
    have hall : PlainDomain domain ∧ ascii = domain := by
      change (if domain.all fun c => c.isLower || c.isDigit || c == '-' || c == '.' then
        Except.ok domain else Except.error "disallowed".toList) = Except.ok ascii at h
      split at h
      · rename_i hplain
        cases h
        refine ⟨fun c hc => ?_, rfl⟩
        have hletter := List.all_eq_true.mp hplain c hc
        have hbounds : 0x21 <= c.toNat ∧ c.toNat <= 0x7E := by
          simp only [Bool.or_eq_true, beq_iff_eq] at hletter
          rcases hletter with ((hlower | hdigit) | rfl) | rfl
          · have halpha : c.isAlpha = true := Bool.or_eq_true_iff.mpr (Or.inr hlower)
            have hvisible := @visible_of_alphanum c (by simp [Char.isAlphanum, halpha])
            exact ⟨hvisible.1, hvisible.2.1⟩
          · have hvisible := @visible_of_alphanum c (by simp [Char.isAlphanum, hdigit])
            exact ⟨hvisible.1, hvisible.2.1⟩
          · decide
          · decide
        refine ⟨isWhiteSpace_of_visible hbounds.1 hbounds.2, ?_, ?_, ?_⟩ <;>
          exact fun heq => absurd (heq ▸ hletter) (by decide)
      · cases h
    rw [hall.2]
    exact ⟨hall.1, hall.1⟩
  displayName := by
    intro name _
    apply Or.inl
    intro c hc
    rcases List.mem_append.mp hc with hc | hc
    · rcases List.mem_cons.mp hc with rfl | hc
      · exact List.mem_cons_self
      · exact List.mem_cons_of_mem _ (List.mem_cons_of_mem _ hc)
    · rw [List.mem_singleton.mp hc]
      exact List.mem_cons_self
  headerValue := fun _ hvalue => .line hvalue
  date := sampleLibraries_folds.date

theorem plain_addresses_are_read_back :
    (send quotingLibraries directGateway plainPayload "alice@sender.example".toList
        "bob@example.com".toList 1752600000000 ()).dials ≠ [] ∧
      (EnvelopeIsIntent quotingLibraries directGateway plainPayload "alice@sender.example".toList
          "bob@example.com".toList 1752600000000 () <->
        ReadsBack quotingLibraries "alice@sender.example".toList ∧
          ReadsBack quotingLibraries "bob@example.com".toList ∧
          SameDomain quotingLibraries "bob@example.com".toList) := by
  have hsent : (send quotingLibraries directGateway plainPayload "alice@sender.example".toList
      "bob@example.com".toList 1752600000000 ()).dials ≠ [] := by
    decide +kernel
  have hkeys : forall key, key ∈ directGateway.dkimKeys -> '\n' ∉ key.selector := by
    intro key hkey
    rw [List.mem_singleton.mp hkey]
    decide +kernel
  exact ⟨hsent, envelope_is_intent_iff quotingLibraries writesPlain_quotingLibraries plainSuite Unit
    directGateway hkeys plainPayload _ _ 1752600000000 () hsent⟩

/-- A word behind the brackets sends the message to another domain. -/
theorem other_domain_is_dialled :
    ¬ forall payload fromAddr toAddr now,
      (send quotingLibraries directGateway payload fromAddr toAddr now ()).dials ≠ [] ->
        EnvelopeIsIntent quotingLibraries directGateway payload fromAddr toAddr now () := by
  have hsent : (send quotingLibraries directGateway plainPayload "alice@sender.example".toList
      "Bob <bob@example.com> via@other.example".toList 1752600000000 ()).dials ≠ [] := by
    decide +kernel
  have hparts : wireAddress quotingLibraries "Bob <bob@example.com> via@other.example".toList =
      .ok (some "Bob".toList, "bob@example.com".toList) := by
    decide +kernel
  have hlooked : destination quotingLibraries "Bob <bob@example.com> via@other.example".toList =
      .ok "other.example".toList := by
    decide +kernel
  have hown : rsplitOnce '@' "bob@example.com".toList =
      some ("bob".toList, "example.com".toList) := by
    decide +kernel
  intro h
  have hintent := h plainPayload _ _ _ hsent
  rcases List.exists_mem_of_ne_nil _ hsent with ⟨dial, hdial⟩
  rcases hintent dial hdial with ⟨_, _, _, _, localPart, dest, _, hto, _, hdest, hat, _⟩
  rw [hparts] at hto
  cases hto
  rw [hlooked] at hdest
  cases hdest
  rw [hown] at hat
  have hother : some "example.com".toList ≠ some "other.example".toList := by decide +kernel
  exact hother (congrArg (Option.map Prod.snd) hat)

end Outbound
end Gateway
end Ephor
