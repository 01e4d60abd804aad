import Ephor.Gateway.DkimRoundTrip
import Ephor.Gateway.Envelope
import Ephor.Gateway.OutboundTransfer

/-!
# The head of a signed message, line by line

A line gives an address only if it names the header.  The lines that an encoder breaks a value
into start with an encoded word, so only the first line of a header counts.
-/

namespace Ephor
namespace Gateway
namespace Outbound

open Foundation
open Foundation.Text
open Dkim hiding crlf

/-!
# Lines
-/

/-- Text on one line, and after it lines that are a space and encoded words. -/
inductive WordFolds : Str -> Prop
  | line {text : Str} (h : OneLine text) : WordFolds text
  | fold {text word : Str} (h : WordFolds text) (hword : OneLine word)
      (hstart : "=?".toList <+: word) : WordFolds (text ++ '\r' :: '\n' :: ' ' :: word)

theorem WordFolds.folded {text : Str} (h : WordFolds text) : Folded text := by
  induction h with
  | line h => exact .line h
  | fold h hword _ ih =>
      have hempty : OneLine [] := by decide
      exact ih.append (.fold hempty (.line hword))

theorem WordFolds.append {text tail : Str} (h : WordFolds text) (htail : OneLine tail) :
    WordFolds (text ++ tail) := by
  cases h with
  | line h => exact .line (h.append htail)
  | fold h hword hstart =>
      rw [List.append_assoc]
      exact .fold h (hword.append htail) (hstart.trans (List.prefix_append _ tail))

/-- Lines after the first one that are encoded words. -/
def WordLines (value : Str) : Prop :=
  forall line, line ∈ (crlfLines value).tail -> " =?".toList <+: line

theorem wordLines_of_not_mem {value : Str} (h : '\n' ∉ value) : WordLines value := by
  intro line hline
  rw [crlfLines_of_not_mem h] at hline
  exact absurd hline List.not_mem_nil

theorem WordFolds.lines {value : Str} (h : WordFolds value) : WordLines value := by
  induction h with
  | line h => exact wordLines_of_not_mem h.2
  | @fold text word h hword hstart ih =>
      have hlast : '\n' ∉ ' ' :: word := List.not_mem_cons_of_ne_of_not_mem (by decide) hword.2
      intro line hline
      rw [crlfLines_append, crlfLines_eq_cons text, crlfLines_of_not_mem hlast, List.cons_append,
        List.tail_cons] at hline
      rcases List.mem_append.mp hline with hline | hline
      · exact ih line hline
      · rw [List.mem_singleton.mp hline]
        exact List.cons_prefix_cons.mpr ⟨rfl, hstart⟩

def envelopeNames : List Str :=
  ["from".toList, "to".toList]

theorem lineAddr_word {name line : Str} (hname : name ∈ envelopeNames)
    (h : " =?".toList <+: line) : lineAddr name line = none := by
  rw [lineAddr, Option.bind_eq_none_iff]
  intro parts hparts
  rcases parts with ⟨front, value⟩
  have hline := (splitOnce_eq_some hparts).1
  have hstart : exists more, front = ' ' :: '=' :: more := by
    rcases h with ⟨rest, hrest⟩
    rw [hline] at hrest
    cases front with
    | nil => cases hrest
    | cons c front =>
        injection hrest with hc hrest
        cases front with
        | nil => cases hrest
        | cons d front =>
            injection hrest with hd _
            rw [<- hc, <- hd]
            exact ⟨front, rfl⟩
  rcases hstart with ⟨more, rfl⟩
  rcases trim_of_head (by decide : isWhiteSpace '=' = false) more with ⟨tail, htail⟩
  have hnot : ¬ eqIgnoreCase (trim (' ' :: '=' :: more)) name = true := by
    intro heq
    have hupper := eq_of_beq heq
    rw [trim_cons (by decide), htail] at hupper
    simp only [envelopeNames, List.mem_cons, List.not_mem_nil, or_false] at hname
    rcases hname with rfl | rfl <;>
    · injection hupper with hletter _
      exact absurd hletter (by decide)
  exact if_neg hnot

theorem lineAddr_header {header : Str} (hcolon : ':' ∉ header) (name value : Str) :
    lineAddr name (header ++ ": ".toList ++ value) =
      if eqIgnoreCase (trim header) name then valueAddr (trim value) else none := by
  have hline : header ++ ": ".toList ++ value = header ++ ':' :: (' ' :: value) := by
    rw [List.append_assoc]
    rfl
  rw [lineAddr, hline, splitOnce_piece hcolon, Option.bind_some]
  dsimp only
  rw [trim_cons (by decide)]

/-!
# Headers
-/

def fieldText (field : String × Str) : Str :=
  field.1.toList ++ ": ".toList ++ field.2

/-- What a header gives: what its first line does. -/
def fieldAddr (name : Str) (field : String × Str) : Option Str :=
  if eqIgnoreCase (trim field.1.toList) name then valueAddr (trim (firstLine field.2)) else none

structure LineField (field : String × Str) : Prop where
  plain : PlainHeader (entry field)
  name : ':' ∉ field.1.toList ∧ '\r' ∉ field.1.toList
  words : WordLines field.2

theorem findSome?_fieldText {field : String × Str} (h : LineField field) {name : Str}
    (hname : name ∈ envelopeNames) :
    (crlfLines (fieldText field)).findSome? (lineAddr name) = fieldAddr name field := by
  have hcolon : OneLine ": ".toList := by decide
  have hfront : '\r' ∉ field.1.toList ++ ": ".toList :=
    fun hmem => (List.mem_append.mp hmem).elim h.name.2 hcolon.1
  have hrest : (crlfLines field.2).tail.findSome? (lineAddr name) = none := by
    apply List.findSome?_eq_none_iff.mpr
    exact fun line hline => lineAddr_word hname (h.words line hline)
  rw [fieldText, crlfLines_front hfront, List.findSome?_cons, hrest, lineAddr_header h.name.1,
    fieldAddr]
  split
  · rename_i addr hsome
    exact hsome.symm
  · rename_i hnone
    exact hnone.symm

theorem writtenHeader_entry (field : String × Str) :
    writtenHeader (entry field) = utf8 (fieldText field) := by
  have hcolon : utf8 ": ".toList = [0x3A, 0x20] := by decide +kernel
  rw [fieldText, utf8_append, utf8_append, hcolon, writtenHeader, entry, List.append_assoc]
  rfl

def headText (first : String × Str) (fields : List (String × Str)) : Str :=
  fieldText first ++ (fields.map fieldText).flatMap fun text => '\r' :: '\n' :: text

theorem append_flatMap_shift {α β : Type} (sep : List β) (f : α -> List β) (xs : List α) :
    sep ++ xs.flatMap (fun x => f x ++ sep) = xs.flatMap (fun x => sep ++ f x) ++ sep := by
  induction xs with
  | nil => rw [List.flatMap_nil, List.flatMap_nil, List.append_nil, List.nil_append]
  | cons x xs ih =>
      rw [List.flatMap_cons, List.flatMap_cons, List.append_assoc, ih]
      simp only [List.append_assoc]

theorem findSome?_flatMap {α β γ : Type} (f : α -> List β) (g : β -> Option γ) (xs : List α) :
    (xs.flatMap f).findSome? g = xs.findSome? fun x => (f x).findSome? g := by
  induction xs with
  | nil => rfl
  | cons x xs ih =>
      rw [List.flatMap_cons, List.findSome?_append, ih, List.findSome?_cons]
      cases (f x).findSome? g with
      | none | some c => rfl

theorem findSome?_congr {α β : Type} {f g : α -> Option β} {xs : List α}
    (h : forall x, x ∈ xs -> f x = g x) : xs.findSome? f = xs.findSome? g := by
  induction xs with
  | nil => rfl
  | cons x xs ih =>
      rw [List.findSome?_cons, List.findSome?_cons, h x List.mem_cons_self,
        ih (List.forall_mem_cons.mp h).2]

theorem utf8_headText (first : String × Str) (fields : List (String × Str)) :
    writtenHead ((first :: fields).map entry) =
      utf8 (headText first fields) ++ (Dkim.crlf ++ Dkim.crlf) := by
  have hbreak : forall text : Str, utf8 ('\r' :: '\n' :: text) = Dkim.crlf ++ utf8 text := by
    intro text
    have hpair : utf8 ['\r', '\n'] = Dkim.crlf := by decide +kernel
    rw [<- hpair, <- utf8_append]
    rfl
  have htexts : utf8 ((fields.map fieldText).flatMap fun text => '\r' :: '\n' :: text) =
      fields.flatMap fun field => Dkim.crlf ++ writtenHeader (entry field) := by
    rw [utf8, List.flatMap_assoc, List.flatMap_map]
    apply congrArg (fun f => List.flatMap f fields)
    funext field
    rw [writtenHeader_entry]
    exact hbreak _
  have hshift := append_flatMap_shift Dkim.crlf (fun field => writtenHeader (entry field)) fields
  rw [headText, utf8_append, htexts, writtenHead, List.flatMap_map, List.flatMap_cons,
    writtenHeader_entry, List.append_assoc (utf8 (fieldText first)), hshift]
  simp only [List.append_assoc]

theorem findBlankLine_writtenHead {header : Header} {headers : List Header}
    (h : forall other, other ∈ header :: headers -> PlainHeader other) {head : Bytes}
    (hhead : writtenHead (header :: headers) = head ++ (Dkim.crlf ++ Dkim.crlf)) (body : Bytes) :
    findBlankLine (writtenHead (header :: headers) ++ body) = some head.length := by
  have hne : (header :: headers).flatMap (fun other => splitCrlf (writtenHeader other)) ≠ [] := by
    rw [List.flatMap_cons]
    exact List.append_ne_nil_of_left_ne_nil (splitCrlf_ne_nil _) _
  rcases findBlankLine_head hne (headLines h) with ⟨found, hfound, _, hblank⟩
  rw [writtenHead_eq] at hhead ⊢
  rw [hblank, List.append_cancel_right (hfound.symm.trans hhead)]

theorem headerAddr_written {first : String × Str} {fields : List (String × Str)}
    (h : forall field, field ∈ first :: fields -> LineField field) {name : Str}
    (hname : name ∈ envelopeNames) (body : Bytes) :
    headerAddr (writtenHead ((first :: fields).map entry) ++ body) name =
      (first :: fields).findSome? (fieldAddr name) := by
  have hplain : forall header, header ∈ (first :: fields).map entry -> PlainHeader header := by
    intro header hheader
    rcases List.mem_map.mp hheader with ⟨field, hfield, rfl⟩
    exact (h field hfield).plain
  have hblank : findBlankLine (writtenHead ((first :: fields).map entry) ++ body) =
      some (utf8 (headText first fields)).length :=
    findBlankLine_writtenHead hplain (utf8_headText first fields) body
  have hlines : crlfLines (headText first fields) =
      (first :: fields).flatMap fun field => crlfLines (fieldText field) := by
    rw [headText, crlfLines_flatMap, List.flatMap_map, List.flatMap_cons]
  rw [headerAddr, hblank, utf8_headText, Option.getD_some, List.append_assoc, List.take_left,
    fromUtf8Lossy_utf8, hlines, findSome?_flatMap]
  exact findSome?_congr (fun field hfield => findSome?_fieldText (h field hfield) hname)

/-!
# Signed messages
-/

theorem newline_of_eqIgnoreCase {a b : Str} (h : eqIgnoreCase a b = true) (hmem : '\n' ∈ a) :
    '\n' ∈ b := by
  have hlower : '\n' ∈ lower b := by
    rw [<- lower_eq_of_eqIgnoreCase h]
    exact List.mem_map.mpr ⟨'\n', hmem, by decide⟩
  rcases List.mem_map.mp hlower with ⟨c, hc, hnewline⟩
  rw [(toLower_eq_iff (by decide)).mp hnewline] at hc
  exact hc

theorem newline_not_mem_of_tagText {text : Str} (h : TagText text) : '\n' ∉ text :=
  (oneLine_of_solid h.solid).2

def signatureField {S : Suite} (key : DkimKey S) (headers : List Header) (body : Bytes)
    (t : UInt64) : String × Str :=
  ("DKIM-Signature", joinedTags (signedTags key headers body t) (signatureText key headers body t))

theorem newline_not_mem_signature {S : Suite} {key : DkimKey S} (hdomain : '\n' ∉ key.domain)
    (hselector : '\n' ∉ key.selector) (headers : List Header) (body : Bytes) (t : UInt64) :
    '\n' ∉ (signatureField key headers body t).2 := by
  have hbase := forall_baseTags (fun _ h => newline_not_mem_of_tagText h) hdomain hselector t
    (tagText_names headers) (tagText_b64Encode (S.sha256 (canonicalizeBody body)).toBytes)
  have hsep : forall c, c ∈ "; ".toList -> c ≠ '\n' := by
    intro c hc heq
    subst heq
    exact absurd hc (by decide)
  have htext : forall text, text ∈ (signedTags key headers body t).map tagText ++
      [tagText (bName, signatureText key headers body t)] -> '\n' ∉ text := by
    intro text htext
    rcases List.mem_append.mp htext with htext | htext
    · rcases List.mem_map.mp htext with ⟨tag, htag, rfl⟩
      rcases hbase tag htag with ⟨hname, _, _, hvalue⟩
      rw [tagText_eq]
      exact fun hmem =>
        (List.mem_append.mp hmem).elim (newline_not_mem_of_tagText hname) hvalue
    · have hb : TagText (bName ++ ['=']) := by decide
      rw [List.mem_singleton.mp htext, tagText_eq]
      exact newline_not_mem_of_tagText (hb.append (tagText_b64Encode _))
  have hall : forall c, c ∈ (signatureField key headers body t).2 -> c ≠ '\n' :=
    forall_mem_intercalate hsep (fun text htext' c hc heq => htext text htext' (heq ▸ hc))
  exact fun hmem => hall _ hmem rfl

theorem lineField_signature {S : Suite} {key : DkimKey S} (hdomain : '\n' ∉ key.domain)
    (hselector : '\n' ∉ key.selector) (headers : List Header) (body : Bytes) (t : UInt64) :
    LineField (signatureField key headers body t) := by
  have hnewline := newline_not_mem_signature hdomain hselector headers body t
  have hname : ':' ∉ "DKIM-Signature".toList ∧ '\r' ∉ "DKIM-Signature".toList := by decide
  have hbytes : utf8 "DKIM-Signature".toList = 0x44 :: utf8 "KIM-Signature".toList ∧
      (0x3A : UInt8) ∉ utf8 "DKIM-Signature".toList ∧ cr ∉ utf8 "DKIM-Signature".toList := by
    decide +kernel
  have hfolds : Folds (0x20 :: utf8 (signatureField key headers body t).2) := by
    apply folds_of_pairFree
    apply pairFree_of_no_lf
    apply List.not_mem_cons_of_ne_of_not_mem (by decide)
    exact fun hmem => hnewline (mem_of_mem_utf8 (by decide) hmem)
  have hstart : exists b rest, utf8 "DKIM-Signature".toList = b :: rest ∧ isWsp b = false :=
    ⟨0x44, utf8 "KIM-Signature".toList, hbytes.1, rfl⟩
  have hplain : PlainHeader
      ("DKIM-Signature".toList, 0x20 :: utf8 (signatureField key headers body t).2) :=
    ⟨hstart, hbytes.2.1, hbytes.2.2, hfolds⟩
  exact ⟨hplain, hname, wordLines_of_not_mem hnewline⟩

/-!
# Rendered messages
-/

/-- Text of a domain that has an ASCII form, before and after. -/
def PlainDomain (text : Str) : Prop :=
  forall c, c ∈ text -> isWhiteSpace c = false ∧ c ≠ '<' ∧ c ≠ '>' ∧ c ≠ '@'

/-- RFC 2047 encoded words; their alphabets have neither a bracket nor an `@`. -/
structure EncodedWords (text : Str) : Prop where
  folds : WordFolds text
  plain : forall c, c ∈ text -> c ≠ '<' ∧ c ≠ '@'

/--
What the transport relies on of the libraries.  The URL deny list keeps white space, brackets and
the `@` out of domains.  A display name becomes a quoted string, which adds quotes and backslashes
only, or encoded words; lines are broken in front of encoded words only.
-/
structure Libraries.WritesPlain (L : Libraries) : Prop where
  domain : forall domain ascii, L.domainToAsciiCow domain = .ok ascii ->
    PlainDomain domain ∧ PlainDomain ascii
  displayName : forall name, OneLine name ->
    L.encodeDisplayName name ⊆ '"' :: '\\' :: name ∨ EncodedWords (L.encodeDisplayName name)
  headerValue : forall value, OneLine value -> WordFolds (L.encodeHeaderValue value)
  date : forall ts, OneLine (L.formatRfc5322Date ts)

variable {L : Libraries} (hL : L.WritesPlain)

theorem oneLine_of_plainDomain {text : Str} (h : PlainDomain text) : OneLine text :=
  ⟨fun hmem => absurd (h _ hmem).1 (by decide), fun hmem => absurd (h _ hmem).1 (by decide)⟩

theorem oneLine_of_quoted {name text : Str} (hname : OneLine name)
    (h : text ⊆ '"' :: '\\' :: name) : OneLine text := by
  have hquotes : OneLine ['"', '\\'] := by decide
  exact (hquotes.append hname).subset h

include hL

theorem wordFolds_encodeDisplayName {name : Str} (hname : OneLine name) :
    WordFolds (L.encodeDisplayName name) := by
  rcases hL.displayName name hname with hquoted | hwords
  · exact .line (oneLine_of_quoted hname hquoted)
  · exact hwords.folds

theorem Libraries.WritesPlain.foldsOnly : L.FoldsOnly where
  domain domain ascii h := oneLine_of_plainDomain (hL.domain domain ascii h).2
  displayName _ hname := (wordFolds_encodeDisplayName hL hname).folded
  headerValue value hvalue := (hL.headerValue value hvalue).folded
  date := hL.date

theorem wordFolds_wireAddressField {addr field : Str} (haddr : OneLine addr)
    (h : wireAddressField L addr = .ok field) : WordFolds field := by
  rcases wireAddressField_eq_ok h with ⟨name, spec, hparts, hfield⟩
  have hone := oneLine_wireAddress hL.foldsOnly haddr hparts
  rcases hfield with ⟨_, rfl⟩ | ⟨n, rfl, rfl⟩
  · exact .line hone.spec
  · have hopen : OneLine [' ', '<'] := by decide
    have hclose : OneLine ['>'] := by decide
    have hname := wordFolds_encodeDisplayName hL (hone.name n rfl)
    exact hname.append (hopen.append (hone.spec.append hclose))

structure RenderedFor (L : Libraries) (fromAddr toAddr : Str) (fields : List (String × Str)) :
    Prop where
  fromLine : OneLine fromAddr
  toLine : OneLine toAddr
  fields_eq : exists fromField toField date subject mid mime,
    fields = fieldsOf fromField toField date subject mid mime ∧
      wireAddressField L fromAddr = .ok fromField ∧ wireAddressField L toAddr = .ok toField ∧
      WordFolds date ∧ WordFolds subject ∧ WordFolds mid ∧ WordFolds mime

theorem renderedFor_of_ok {payload : Payload} {fromAddr toAddr : Str} {ts : UInt64}
    {message : Bytes} (h : renderRfc5322 L payload fromAddr toAddr ts = .ok message) :
    exists fields, RenderedFor L fromAddr toAddr fields ∧
      message = writtenHead (fields.map entry) ++ finishBody payload.body := by
  rcases renderRfc5322_parts hL.foldsOnly h with
    ⟨hfrom, hto, fromField, toField, _, _, _, hfromField, htoField, hsubject, hmid, hmime, rfl⟩
  exact ⟨_, ⟨hfrom, hto, fromField, toField, _, _, _, _, rfl, hfromField, htoField,
    .line (hL.date ts), hL.headerValue _ hsubject, .line hmid, .line hmime⟩, rfl⟩

theorem RenderedFor.wordFolds {fromAddr toAddr : Str} {fields : List (String × Str)}
    (h : RenderedFor L fromAddr toAddr fields) {field : String × Str} (hfield : field ∈ fields) :
    WordFolds field.2 := by
  rcases h with ⟨hfrom, hto, fromField, toField, date, subject, mid, mime, rfl, hfromField,
    htoField, hdate, hsubject, hmid, hmime⟩
  have hversion : OneLine "1.0".toList := by decide
  have hencoding : OneLine "8bit".toList := by decide
  simp only [fieldsOf, List.mem_cons, List.not_mem_nil, or_false] at hfield
  rcases hfield with rfl | rfl | rfl | rfl | rfl | rfl | rfl | rfl
  · exact wordFolds_wireAddressField hL hfrom hfromField
  · exact wordFolds_wireAddressField hL hto htoField
  · exact hdate
  · exact hsubject
  · exact hmid
  · exact .line hversion
  · exact hmime
  · exact .line hencoding

theorem RenderedFor.rendered {fromAddr toAddr : Str} {fields : List (String × Str)}
    (h : RenderedFor L fromAddr toAddr fields) : Rendered fields := by
  refine ⟨?_, fun field hfield => (h.wordFolds hL hfield).folded⟩
  rcases h with ⟨_, _, _, _, _, _, _, _, rfl, _⟩
  rfl

theorem RenderedFor.lineField {fromAddr toAddr : Str} {fields : List (String × Str)}
    (h : RenderedFor L fromAddr toAddr fields) {field : String × Str} (hfield : field ∈ fields) :
    LineField field := by
  have hnames : forall name, name ∈ fieldNames -> ':' ∉ name.toList ∧ '\r' ∉ name.toList := by
    decide
  have hrendered := h.rendered hL
  exact ⟨hrendered.unsigned.plain _ (List.mem_map_of_mem hfield),
    hnames _ (hrendered.name_mem hfield), (h.wordFolds hL hfield).lines⟩

omit hL in
theorem fieldAddr_of_ne {name : Str} {field : String × Str}
    (h : eqIgnoreCase (trim field.1.toList) name = false) : fieldAddr name field = none :=
  if_neg (ne_true_of_eq_false h)

omit hL in
theorem findSome?_fieldsOf {first : String × Str} (hfirst : first.1 = "DKIM-Signature")
    (fromField toField date subject mid mime : Str) :
    (first :: fieldsOf fromField toField date subject mid mime).findSome?
          (fieldAddr "from".toList) = valueAddr (trim (firstLine fromField)) ∧
      (first :: fieldsOf fromField toField date subject mid mime).findSome?
          (fieldAddr "to".toList) = valueAddr (trim (firstLine toField)) := by
  have hfrom : forall name, name ∈ "DKIM-Signature" :: fieldNames.tail ->
      eqIgnoreCase (trim name.toList) "from".toList = false := by decide +kernel
  have hto : forall name, name ∈ "DKIM-Signature" :: "From" :: fieldNames.tail.tail ->
      eqIgnoreCase (trim name.toList) "to".toList = false := by decide +kernel
  have hfromSelf : eqIgnoreCase (trim "From".toList) "from".toList = true := by decide +kernel
  have htoSelf : eqIgnoreCase (trim "To".toList) "to".toList = true := by decide +kernel
  have hfromRest : (fieldsOf fromField toField date subject mid mime).tail.findSome?
      (fieldAddr "from".toList) = none := by
    apply List.findSome?_eq_none_iff.mpr
    intro field hfield
    have hname : field.1 ∈ fieldNames.tail := List.mem_map_of_mem hfield
    exact fieldAddr_of_ne (hfrom _ (List.mem_cons_of_mem _ hname))
  have htoRest : (fieldsOf fromField toField date subject mid mime).tail.tail.findSome?
      (fieldAddr "to".toList) = none := by
    apply List.findSome?_eq_none_iff.mpr
    intro field hfield
    have hname : field.1 ∈ fieldNames.tail.tail := List.mem_map_of_mem hfield
    exact fieldAddr_of_ne (hto _ (List.mem_cons_of_mem _ (List.mem_cons_of_mem _ hname)))
  have hfromFirst : fieldAddr "from".toList first = none := by
    apply fieldAddr_of_ne
    rw [hfirst]
    exact hfrom _ List.mem_cons_self
  have htoFirst : fieldAddr "to".toList first = none := by
    apply fieldAddr_of_ne
    rw [hfirst]
    exact hto _ List.mem_cons_self
  have htoFrom : fieldAddr "to".toList ("From", fromField) = none :=
    fieldAddr_of_ne (hto _ (List.mem_cons_of_mem _ List.mem_cons_self))
  constructor
  · rw [List.findSome?_cons, hfromFirst]
    dsimp only [fieldsOf, List.tail_cons] at hfromRest ⊢
    rw [List.findSome?_cons, hfromRest, fieldAddr, if_pos hfromSelf]
    cases valueAddr (trim (firstLine fromField)) with
    | none | some addr => rfl
  · rw [List.findSome?_cons, htoFirst]
    dsimp only [fieldsOf, List.tail_cons] at htoRest ⊢
    rw [List.findSome?_cons, htoFrom]
    dsimp only
    rw [List.findSome?_cons, htoRest, fieldAddr, if_pos htoSelf]
    cases valueAddr (trim (firstLine toField)) with
    | none | some addr => rfl

variable {S : Suite}

theorem headerAddr_fields {key : DkimKey S} (hdomain : '\n' ∉ key.domain)
    (hselector : '\n' ∉ key.selector) {fromAddr toAddr : Str} {fields : List (String × Str)}
    (hfields : RenderedFor L fromAddr toAddr fields) (body : Bytes) (t : UInt64) {name : Str}
    (hname : name ∈ envelopeNames) :
    headerAddr (utf8 (Dkim.sign S key (writtenHead (fields.map entry) ++ body) t) ++
        (writtenHead (fields.map entry) ++ body)) name =
      (signatureField key (fields.map entry) body t :: fields).findSome? (fieldAddr name) := by
  have hwritten : writtenHead (signatureHeader key (fields.map entry) body t :: fields.map entry) =
      writtenHead ((signatureField key (fields.map entry) body t :: fields).map entry) := rfl
  rw [signed_written (hfields.rendered hL).unsigned, hwritten]
  apply headerAddr_written _ hname
  intro field hfield
  rcases List.mem_cons.mp hfield with rfl | hfield
  · exact lineField_signature hdomain hselector _ _ _
  · exact hfields.lineField hL hfield

theorem newline_not_mem_domain {keys : List (DkimKey S)} {fromAddr : Str} (hfrom : OneLine fromAddr)
    {key : DkimKey S} (h : delegatedKey L keys fromAddr = some key) : '\n' ∉ key.domain := by
  unfold delegatedKey at h
  split at h
  · rename_i name fromSpec hparts
    rcases Option.bind_eq_some_iff.mp h with ⟨domain, hdomain, hkey⟩
    have hspec := (oneLine_wireAddress hL.foldsOnly hfrom hparts).spec
    rw [dkimKeyFor] at hkey
    have hsame := List.find?_some hkey
    exact fun hmem => (oneLine_domainOf hspec hdomain).2 (newline_of_eqIgnoreCase hsame hmem)
  · cases h

theorem headerAddr_signed {keys : List (DkimKey S)}
    (hkeys : forall key, key ∈ keys -> '\n' ∉ key.selector) {payload : Payload}
    {fromAddr toAddr : Str} {now : UInt64} {signed : Bytes}
    (h : translateAndSign L keys payload fromAddr toAddr now = .ok signed) :
    OneLine fromAddr ∧ OneLine toAddr ∧ exists fromField toField,
      wireAddressField L fromAddr = .ok fromField ∧ wireAddressField L toAddr = .ok toField ∧
      headerAddr signed "from".toList = valueAddr (trim (firstLine fromField)) ∧
      headerAddr signed "to".toList = valueAddr (trim (firstLine toField)) := by
  rcases translateAndSign_eq_ok h with ⟨key, message, hdelegated, hmessage, rfl⟩
  rcases renderedFor_of_ok hL hmessage with ⟨fields, hfields, rfl⟩
  have hselector := hkeys key (mem_of_delegatedKey hdelegated)
  have hread {name : Str} := @headerAddr_fields L hL S key
    (newline_not_mem_domain hL hfields.fromLine hdelegated) hselector fromAddr toAddr fields hfields
    (finishBody payload.body) (now / 1000) name
  rcases hfields.fields_eq with ⟨fromField, toField, date, subject, mid, mime, hfieldsOf,
    hfromField, htoField, _⟩
  refine ⟨hfields.fromLine, hfields.toLine, fromField, toField, hfromField, htoField, ?_, ?_⟩
  · rw [hread List.mem_cons_self]
    generalize hfirst : signatureField key (fields.map entry) (finishBody payload.body)
      (now / 1000) = first
    rw [hfieldsOf]
    exact (findSome?_fieldsOf (congrArg Prod.fst hfirst).symm _ _ _ _ _ _).1
  · rw [hread (List.mem_cons_of_mem _ List.mem_cons_self)]
    generalize hfirst : signatureField key (fields.map entry) (finishBody payload.body)
      (now / 1000) = first
    rw [hfieldsOf]
    exact (findSome?_fieldsOf (congrArg Prod.fst hfirst).symm _ _ _ _ _ _).2

end Outbound
end Gateway
end Ephor
