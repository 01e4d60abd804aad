import Ephor.Gateway.DkimCompleteness
import Ephor.Gateway.Outbound
import Ephor.Gateway.Transfer

/-!
# Signed mail on its way

`translate_and_sign` signs the body as the payload has it, and the transport sends it line by
line.  Lines end at line feeds there, and the receiver writes a CRLF after each.  A line feed
with no carriage return before it is a part of its line for the signature and the end of a
line for the receiver.
-/

namespace Ephor
namespace Gateway

open Foundation
open Foundation.Text
open Dkim hiding crlf

/-!
# Bodies
-/

theorem lineFeed_not_mem_stripReturn {line : Bytes} (h : lineFeed ∉ line) :
    lineFeed ∉ stripReturn line := by
  unfold stripReturn
  split
  · exact fun hmem => h ((List.dropLast_prefix line).mem hmem)
  · exact h

theorem straight_reassembled {lines : List Bytes}
    (h : forall line, line ∈ lines -> lineFeed ∉ line) {tail : Bytes} (htail : lineFeed ∉ tail) :
    Straight (reassembled lines ++ tail) := by
  have hflat : reassembled lines = (lines.map stripReturn).flatMap (· ++ crlf) := by
    rw [reassembled, List.flatMap_map]
  rw [hflat]
  apply straight_lines _ htail
  intro line hline
  rcases List.mem_map.mp hline with ⟨whole, hwhole, rfl⟩
  exact lineFeed_not_mem_stripReturn (h whole hwhole)

variable {b message body : Bytes} {fromAddr : Str}

theorem straight_iff : Straight b <-> LineFeedsFollowReturns b := by
  constructor
  · intro h
    rcases lines_of_straight h with ⟨lines, tail, hlines, htail, rfl⟩
    have hjoin : lines.flatMap (· ++ Dkim.crlf) =
        Lines.join lineFeed (lines.map (· ++ [0x0D])) := by
      rw [Lines.join, List.flatMap_map]
      apply congrArg (fun f => List.flatMap f lines)
      funext line
      exact (List.append_assoc line [0x0D] [lineFeed]).symm
    have hmarks : forall line, line ∈ lines.map (· ++ [0x0D]) -> lineFeed ∉ line := by
      intro line hline hmem
      rcases List.mem_map.mp hline with ⟨front, hfront, rfl⟩
      rcases List.mem_append.mp hmem with hmem | hmem
      · exact hlines front hfront hmem
      · exact absurd hmem (by decide)
    intro line hline
    rw [hjoin, Lines.split_join lineFeed hmarks htail] at hline
    rcases List.mem_map.mp hline with ⟨front, _, rfl⟩
    exact List.getLast?_concat
  · intro h
    rcases Lines.mark_not_mem_split lineFeed b with ⟨hlines, htail⟩
    rw [<- Lines.join_split lineFeed b, <- reassembled_of_returns h]
    exact straight_reassembled hlines htail

theorem splitCrlf_concat (b : Bytes) : splitCrlf (b ++ Dkim.crlf) = splitCrlf b ++ [[]] := by
  have hlines := splitCrlf_lines
    (fun piece (hpiece : piece ∈ splitCrlf b) => pairFree_of_mem_splitCrlf hpiece) []
  rw [List.append_nil, flatMap_splitCrlf] at hlines
  exact hlines

theorem straight_concat : Straight (b ++ Dkim.crlf) <-> Straight b := by
  rw [Straight, splitCrlf_concat]
  constructor
  · intro h piece hpiece
    exact h piece (List.mem_append_left _ hpiece)
  · intro h piece hpiece
    rcases List.mem_append.mp hpiece with hpiece | hpiece
    · exact h piece hpiece
    · rw [List.mem_singleton.mp hpiece]
      exact List.not_mem_nil

theorem crlf_of_straight (h : Straight b) (hends : [lineFeed] <:+ b) : crlf <:+ b := by
  rcases lines_of_straight h with ⟨lines, tail, _, htail, rfl⟩
  rcases hends with ⟨front, hfront⟩
  rcases List.eq_nil_or_concat tail with rfl | ⟨before, last, rfl⟩
  · rcases List.eq_nil_or_concat lines with rfl | ⟨others, final, rfl⟩
    · exact absurd hfront (List.append_ne_nil_of_right_ne_nil _ (List.cons_ne_nil _ _))
    · rw [List.concat_eq_append, List.flatMap_append, List.flatMap_singleton, List.append_nil,
        <- List.append_assoc]
      exact ⟨_, rfl⟩
  · rw [List.concat_eq_append, <- List.append_assoc] at hfront
    have hlast : lineFeed = last := List.singleton_inj.mp (List.append_inj_right' hfront rfl)
    rw [List.concat_eq_append, <- hlast] at htail
    exact absurd (List.mem_append_right _ List.mem_cons_self) htail

theorem crlf_suffix_iff (hne : message ≠ []) (line : Bytes) :
    crlf <:+ line ++ crlf ++ message <-> crlf <:+ message := by
  constructor
  · intro h
    rcases List.suffix_or_suffix_of_suffix h (List.suffix_append (line ++ crlf) message) with
      hcrlf | hshort
    · exact hcrlf
    · rcases List.suffix_cons_iff.mp hshort with rfl | hshort
      · exact List.suffix_refl _
      · rcases List.suffix_cons_iff.mp hshort with rfl | hshort
        · -- A line feed after the line's own.
          rcases h with ⟨front, hfront⟩
          have hpair : (front ++ [0x0D]) ++ [lineFeed] =
              (line ++ [0x0D] ++ [lineFeed]) ++ [lineFeed] := by
            rw [List.append_assoc, List.append_assoc line]
            exact hfront
          have hlast := List.append_inj_right' (List.append_cancel_right hpair) rfl
          exact absurd hlast (by decide)
        · exact absurd (List.suffix_nil.mp hshort) hne
  · intro h
    exact h.trans (List.suffix_append _ _)

theorem sentLines_line {line : Bytes} (hline : lineFeed ∉ line) (hne : message ≠ []) :
    sentLines (line ++ crlf ++ message) = (line ++ [0x0D]) :: sentLines message := by
  have hcompleted : completed (line ++ crlf ++ message) =
      (line ++ [0x0D]) ++ lineFeed :: completed message := by
    rw [completed, completed]
    simp only [crlf_suffix_iff hne]
    simp only [List.append_assoc]
    rfl
  have hmark : lineFeed ∉ line ++ [0x0D] := by
    intro hmem
    rcases List.mem_append.mp hmem with hmem | hmem
    · exact hline hmem
    · exact absurd hmem (by decide)
  rw [sentLines, hcompleted, Lines.split_line lineFeed hmark]
  rfl

theorem reassembled_lines {lines : List Bytes}
    (hlines : forall line, line ∈ lines -> lineFeed ∉ line) (hne : message ≠ []) :
    reassembled (sentLines (lines.flatMap (· ++ crlf) ++ message)) =
      lines.flatMap (· ++ crlf) ++ reassembled (sentLines message) := by
  induction lines with
  | nil => rfl
  | cons line lines ih =>
      have hrest := ih (List.forall_mem_cons.mp hlines).2
      have hmore : lines.flatMap (· ++ crlf) ++ message ≠ [] :=
        List.append_ne_nil_of_right_ne_nil _ hne
      rw [List.flatMap_cons, List.append_assoc,
        sentLines_line (hlines line List.mem_cons_self) hmore, reassembled, List.flatMap_cons,
        stripReturn_concat, List.append_assoc (line ++ crlf)]
      exact congrArg (line ++ crlf ++ ·) hrest

namespace Outbound

theorem finishBody_ne_nil (body : Bytes) : finishBody body ≠ [] := by
  unfold finishBody
  split
  · rename_i hends
    intro hnil
    rw [hnil] at hends
    exact absurd (List.suffix_nil.mp hends) (List.cons_ne_nil _ _)
  · exact List.append_ne_nil_of_right_ne_nil _ (List.cons_ne_nil _ _)

theorem straight_finishBody : Straight (finishBody body) <-> LineFeedsFollowReturns body := by
  unfold finishBody
  split
  · exact straight_iff
  · exact straight_concat.trans straight_iff

theorem crlf_finishBody (h : LineFeedsFollowReturns body) : crlf <:+ finishBody body := by
  have hstraight := straight_finishBody.mpr h
  unfold finishBody at hstraight ⊢
  split at hstraight
  · rename_i hends
    rw [if_pos hends]
    exact crlf_of_straight hstraight hends
  · rename_i hends
    rw [if_neg hends]
    exact List.suffix_append body crlf

def arrivedBody (body : Bytes) : Bytes :=
  reassembled (sentLines (finishBody body))

theorem canonicalizeBody_arrived_iff :
    canonicalizeBody (arrivedBody body) = canonicalizeBody (finishBody body) <->
      LineFeedsFollowReturns body := by
  constructor
  · intro h
    have hstraight := @straight_reassembled (sentLines (finishBody body))
      (fun line hline => lineFeed_not_mem hline) [] List.not_mem_nil
    rw [List.append_nil] at hstraight
    exact straight_finishBody.mp (straight_of_canonicalizeBody hstraight h.symm)
  · intro h
    have hreturns := straight_iff.mp (straight_finishBody.mpr h)
    rw [arrivedBody, reassembled_sentLines hreturns (crlf_finishBody h)]

/-!
# Headers
-/

/-- Text whose line breaks are folds: a CRLF and a space. -/
inductive Folded : Str -> Prop
  | line {text : Str} (h : OneLine text) : Folded text
  | fold {text rest : Str} (h : OneLine text) (hrest : Folded rest) :
      Folded (text ++ "\r\n ".toList ++ rest)

theorem Folded.append {a b : Str} (ha : Folded a) (hb : Folded b) : Folded (a ++ b) := by
  induction ha with
  | line h =>
      cases hb with
      | line hb => exact .line (h.append hb)
      | fold hb hrest =>
          rw [<- List.append_assoc, <- List.append_assoc]
          exact .fold (h.append hb) hrest
  | fold h _ ih =>
      rw [List.append_assoc]
      exact .fold h ih

theorem folds_append_left {front rest : Bytes} (h : cr ∉ front) (hrest : Folds rest) :
    Folds (front ++ rest) := by
  induction front with
  | nil => exact hrest
  | cons b front ih =>
      rcases List.ne_and_not_mem_of_not_mem_cons h with ⟨hb, hfront⟩
      have hfolds := ih hfront
      rw [List.cons_append]
      cases hmore : front ++ rest with
      | nil => trivial
      | cons c more =>
          rw [hmore] at hfolds
          exact (folds_cons_cons (fun hpair => hb hpair.1.symm)).mpr hfolds

theorem Folded.bytes {text : Str} (h : Folded text) : Folds (utf8 text) ∧ Straight (utf8 text) := by
  induction h with
  | line h =>
      exact ⟨folds_of_pairFree (pairFree_of_no_cr h.bytes.1), straight_of_no_lf h.bytes.2⟩
  | @fold text rest h _ ih =>
      have hbreak : utf8 "\r\n ".toList = crlf ++ [0x20] := by decide +kernel
      have hutf8 : utf8 (text ++ "\r\n ".toList ++ rest) =
          utf8 text ++ (crlf ++ ([0x20] ++ utf8 rest)) := by
        rw [utf8_append, utf8_append, hbreak, List.append_assoc, List.append_assoc]
      have hcr : cr ∉ [(0x20 : UInt8)] := by decide
      have hlf : lf ∉ [(0x20 : UInt8)] := by decide
      have hafter : Folds ([0x20] ++ utf8 rest) := folds_append_left hcr ih.1
      rw [hutf8]
      constructor
      · apply folds_append_left h.bytes.1
        exact folds_pair.mpr ⟨⟨0x20, utf8 rest, rfl, rfl⟩, hafter⟩
      · apply straight_append h.bytes.1 h.bytes.2
        exact straight_crlf (straight_append hcr hlf ih.2)

/-- What the gateway relies on of the libraries: domains in ASCII form and dates are on one
line, and the encoders of names and values break lines with folds only. -/
structure Libraries.FoldsOnly (L : Libraries) : Prop where
  domain : forall domain ascii, L.domainToAsciiCow domain = .ok ascii -> OneLine ascii
  displayName : forall name, OneLine name -> Folded (L.encodeDisplayName name)
  headerValue : forall value, OneLine value -> Folded (L.encodeHeaderValue value)
  date : forall ts, OneLine (L.formatRfc5322Date ts)

theorem oneLine_of_noInject {field : Str} {name : String} (h : noInject field name = .ok ()) :
    OneLine field := by
  unfold noInject at h
  split at h
  · cases h
  · rename_i hany
    have hclean : forall c, c ∈ field -> ¬ (c == '\r' || c == '\n' || c == '\x00') = true :=
      fun c hc hbad => hany (List.any_eq_true.mpr ⟨c, hc, hbad⟩)
    exact ⟨fun hmem => hclean _ hmem rfl, fun hmem => hclean _ hmem rfl⟩

theorem splitAddress_subset (raw : Str) :
    (forall name, (splitAddress raw).1 = some name -> name ⊆ raw) ∧ (splitAddress raw).2 ⊆ raw := by
  have hnone : (forall name : Str, (none : Option Str) = some name -> name ⊆ raw) ∧ raw ⊆ raw :=
    ⟨fun _ hname => absurd hname.symm (Option.some_ne_none _), List.Subset.refl raw⟩
  unfold splitAddress
  split
  · rename_i l r _ _
    split
    · constructor
      · intro name hname c hc
        dsimp only at hname
        split at hname
        · cases hname
        · cases hname
          have hquotes := mem_of_mem_trim hc
          have hinner := (List.dropWhile_suffix _).mem ((List.rdropWhile_prefix _ _).mem hquotes)
          exact (List.take_prefix l raw).mem (mem_of_mem_trim hinner)
      · intro c hc
        have hdrop := (List.drop_suffix _ _).mem (mem_of_mem_trim hc)
        exact (List.take_prefix r raw).mem hdrop
    · exact hnone
  · exact hnone

variable {L : Libraries} (hL : L.FoldsOnly)

omit hL in
theorem domainToAsciiCow_of_convertDomain {domain ascii : Str}
    (h : convertDomain L domain = .ok ascii) : L.domainToAsciiCow domain = .ok ascii := by
  unfold convertDomain domainToAscii at h
  cases hascii : L.domainToAsciiCow domain with
  | error reason =>
      rw [hascii] at h
      cases h
  | ok found =>
      rw [hascii] at h
      dsimp only at h
      split at h
      · rename_i hfound
        split at hfound
        · cases hfound
        · split at hfound
          · cases hfound
          · cases hfound
            cases h
            rfl
      · cases h

include hL in
theorem oneLine_of_convertDomain {domain ascii : Str} (h : convertDomain L domain = .ok ascii) :
    OneLine ascii :=
  hL.domain domain ascii (domainToAsciiCow_of_convertDomain h)

structure OneLineAddress (parts : Option Str × Str) : Prop where
  name : forall name, parts.1 = some name -> OneLine name
  spec : OneLine parts.2

include hL in
theorem oneLine_wireAddress {addr : Str} (haddr : OneLine addr) {parts : Option Str × Str}
    (h : wireAddress L addr = .ok parts) : OneLineAddress parts := by
  have hraw : OneLine (trim addr) := haddr.subset (fun _ hc => mem_of_mem_trim hc)
  rcases splitAddress_subset (trim addr) with ⟨hname, hspec⟩
  have hsplit : OneLineAddress (splitAddress (trim addr)) :=
    ⟨fun name heq => hraw.subset (hname name heq), hraw.subset hspec⟩
  unfold wireAddress at h
  generalize splitAddress (trim addr) = split at h hsplit
  rcases split with ⟨name, spec⟩
  dsimp only at h
  split at h
  · rename_i localPart domain hat
    split at h
    · cases h
      exact hsplit
    · cases hascii : convertDomain L domain with
      | error e =>
          rw [hascii] at h
          cases h
      | ok ascii =>
          rw [hascii] at h
          cases h
          have htext := rsplitOnce_eq_some hat
          have hlocal : OneLine localPart := by
            apply hsplit.spec.subset
            intro c hc
            rw [htext]
            exact List.mem_append_left _ hc
          have hat : OneLine ['@'] := by decide
          exact ⟨hsplit.name, hlocal.append (hat.append (oneLine_of_convertDomain hL hascii))⟩
  · cases h
    exact hsplit

theorem wireAddressField_eq_ok {addr field : Str} (h : wireAddressField L addr = .ok field) :
    exists name spec, wireAddress L addr = .ok (name, spec) ∧
      ((name = none ∧ field = spec) ∨
        exists n, name = some n ∧
          field = L.encodeDisplayName n ++ (' ' :: '<' :: (spec ++ ['>']))) := by
  unfold wireAddressField at h
  cases hparts : wireAddress L addr with
  | error e =>
      rw [hparts] at h
      cases h
  | ok parts =>
      rw [hparts] at h
      rcases parts with ⟨name, spec⟩
      refine ⟨name, spec, rfl, ?_⟩
      cases name with
      | none => exact Or.inl ⟨rfl, (Except.ok.inj h).symm⟩
      | some n =>
          apply Or.inr
          refine ⟨n, rfl, ?_⟩
          have hfield := Except.ok.inj h
          dsimp only at hfield
          rw [<- hfield, List.append_assoc, List.append_assoc]
          rfl

include hL in
theorem folded_wireAddressField {addr field : Str} (haddr : OneLine addr)
    (h : wireAddressField L addr = .ok field) : Folded field := by
  rcases wireAddressField_eq_ok h with ⟨name, spec, hparts, hfield⟩
  have hone := oneLine_wireAddress hL haddr hparts
  rcases hfield with ⟨_, rfl⟩ | ⟨n, rfl, rfl⟩
  · exact .line hone.spec
  · have hopen : OneLine [' ', '<'] := by decide
    have hclose : OneLine ['>'] := by decide
    have hname := hL.displayName n (hone.name n rfl)
    exact hname.append (.line (hopen.append (hone.spec.append hclose)))

theorem oneLine_domainOf {addr domain : Str} (haddr : OneLine addr)
    (h : domainOf addr = some domain) : OneLine domain := by
  rcases Option.map_eq_some_iff.mp (Option.filter_eq_some_iff.mp h).1 with ⟨parts, hparts, hdomain⟩
  have htext := rsplitOnce_eq_some hparts
  apply haddr.subset
  intro c hc
  have hmem : c ∈ ((trim addr).dropWhile (· == '<')).rdropWhile (· == '>') := by
    rw [htext]
    exact List.mem_append_right _ (List.mem_cons_of_mem '@' (hdomain ▸ hc))
  exact mem_of_mem_trim ((List.dropWhile_suffix _).mem ((List.rdropWhile_prefix _ _).mem hmem))

theorem oneLine_b64Id (body : Bytes) : OneLine (b64Id L body) := by
  apply oneLine_of_le
  intro c hc
  rcases List.mem_map.mp hc with ⟨letter, hletter, rfl⟩
  split
  · decide
  · exact Nat.le_of_lt (tagText_b64Encode _ letter hletter).1

/-!
# Messages
-/

def entry (field : String × Str) : Header :=
  (field.1.toList, 0x20 :: utf8 field.2)

theorem headerLine_eq (name : String) (value : Str) :
    headerLine name value = writtenHeader (entry (name, value)) ++ Dkim.crlf := by
  have hcolon : utf8 ": ".toList = [0x3A, 0x20] := by decide +kernel
  have hend : utf8 "\r\n".toList = Dkim.crlf := by decide +kernel
  rw [headerLine, utf8_append, utf8_append, utf8_append, hcolon, hend, writtenHeader, entry]
  simp only [List.append_assoc, List.cons_append, List.nil_append]

def fieldNames : List String :=
  ["From", "To", "Date", "Subject", "Message-ID", "MIME-Version", "Content-Type",
    "Content-Transfer-Encoding"]

structure Rendered (fields : List (String × Str)) : Prop where
  names : fields.map Prod.fst = fieldNames
  values : forall field, field ∈ fields -> Folded field.2

namespace Rendered

variable {fields : List (String × Str)} (h : Rendered fields)

include h

theorem name_mem {field : String × Str} (hfield : field ∈ fields) : field.1 ∈ fieldNames := by
  rw [<- h.names]
  exact List.mem_map_of_mem hfield

theorem folded_value {field : String × Str} (hfield : field ∈ fields) :
    Folded (' ' :: field.2) := by
  have hspace : OneLine [' '] := by decide
  exact (Folded.line hspace).append (h.values field hfield)

theorem unsigned : Unsigned (fields.map entry) := by
  have hstart : forall name, name ∈ fieldNames ->
      (utf8 name.toList).head?.any (fun b => !isWsp b) = true := by decide +kernel
  have hplain : forall name, name ∈ fieldNames ->
      (0x3A : UInt8) ∉ utf8 name.toList ∧ cr ∉ utf8 name.toList := by decide +kernel
  have hother : forall name, name ∈ fieldNames ->
      eqIgnoreCase (trim name.toList) "dkim-signature".toList = false := by decide +kernel
  constructor
  · intro hnil
    have hnames := h.names
    rw [List.map_eq_nil_iff.mp hnil] at hnames
    cases hnames
  · intro header hheader
    rcases List.mem_map.mp hheader with ⟨field, hfield, rfl⟩
    have hname := h.name_mem hfield
    refine ⟨?_, (hplain field.1 hname).1, (hplain field.1 hname).2, (h.folded_value hfield).bytes.1⟩
    rcases (Option.any_eq_true _ _).mp (hstart field.1 hname) with ⟨b, hb, hwsp⟩
    rcases List.head?_eq_some_iff.mp hb with ⟨rest, hrest⟩
    rw [Bool.not_eq_true'] at hwsp
    exact ⟨b, rest, hrest, hwsp⟩
  · apply List.find?_eq_none.mpr
    intro header hheader
    rcases List.mem_map.mp (List.mem_reverse.mp hheader) with ⟨field, hfield, rfl⟩
    rw [Bool.not_eq_true]
    exact hother field.1 (h.name_mem hfield)

theorem straight {header : Header} (hheader : header ∈ fields.map entry) :
    Straight (writtenHeader header) := by
  have hname : forall name, name ∈ fieldNames ->
      cr ∉ utf8 name.toList ++ [0x3A] ∧ lf ∉ utf8 name.toList ++ [0x3A] := by decide +kernel
  rcases List.mem_map.mp hheader with ⟨field, hfield, rfl⟩
  rcases hname field.1 (h.name_mem hfield) with ⟨hcr, hlf⟩
  have hstraight := straight_append hcr hlf (h.folded_value hfield).bytes.2
  rw [List.append_assoc] at hstraight
  exact hstraight

end Rendered

def fieldsOf (fromField toField date subject mid mime : Str) : List (String × Str) :=
  [("From", fromField), ("To", toField), ("Date", date), ("Subject", subject), ("Message-ID", mid),
    ("MIME-Version", "1.0".toList), ("Content-Type", mime),
    ("Content-Transfer-Encoding", "8bit".toList)]

theorem writtenHead_fieldsOf (fromField toField date subject mid mime : Str) :
    writtenHead ((fieldsOf fromField toField date subject mid mime).map entry) =
      headerLine "From" fromField ++ headerLine "To" toField ++ headerLine "Date" date ++
        headerLine "Subject" subject ++ headerLine "Message-ID" mid ++
        headerLine "MIME-Version" "1.0".toList ++ headerLine "Content-Type" mime ++
        headerLine "Content-Transfer-Encoding" "8bit".toList ++ utf8 "\r\n".toList := by
  have hend : utf8 "\r\n".toList = Dkim.crlf := by decide +kernel
  simp only [writtenHead, fieldsOf, List.map_cons, List.map_nil, List.flatMap_cons,
    List.flatMap_nil, <- headerLine_eq, hend, List.append_assoc, List.append_nil]

theorem rendered_fieldsOf {fromField toField date subject mid mime : Str}
    (hfrom : Folded fromField) (hto : Folded toField) (hdate : Folded date)
    (hsubject : Folded subject) (hmid : Folded mid) (hmime : Folded mime) :
    Rendered (fieldsOf fromField toField date subject mid mime) where
  names := rfl
  values := by
    have hversion : OneLine "1.0".toList := by decide
    have hencoding : OneLine "8bit".toList := by decide
    intro field hfield
    simp only [fieldsOf, List.mem_cons, List.not_mem_nil, or_false] at hfield
    rcases hfield with rfl | rfl | rfl | rfl | rfl | rfl | rfl | rfl
    · exact hfrom
    · exact hto
    · exact hdate
    · exact hsubject
    · exact hmid
    · exact .line hversion
    · exact hmime
    · exact .line hencoding

theorem oneLine_messageId (body : Bytes) {spec : Str} (hspec : OneLine spec) :
    OneLine ("<".toList ++ b64Id L body ++ "@".toList ++
      (domainOf spec).getD "dmtap.local".toList ++ ">".toList) := by
  have hopen : OneLine "<".toList := by decide
  have hat : OneLine "@".toList := by decide
  have hclose : OneLine ">".toList := by decide
  have hdomain : OneLine ((domainOf spec).getD "dmtap.local".toList) := by
    cases hfound : domainOf spec with
    | none => decide
    | some domain => exact oneLine_domainOf hspec hfound
  exact (((hopen.append (oneLine_b64Id body)).append hat).append hdomain).append hclose

include hL in
theorem renderRfc5322_parts {payload : Payload} {toAddr : Str} {ts : UInt64}
    (h : renderRfc5322 L payload fromAddr toAddr ts = .ok message) :
    OneLine fromAddr ∧ OneLine toAddr ∧
      exists fromField toField subject mid mime,
        wireAddressField L fromAddr = .ok fromField ∧ wireAddressField L toAddr = .ok toField ∧
        OneLine subject ∧ OneLine mid ∧ OneLine mime ∧
        message = writtenHead ((fieldsOf fromField toField (L.formatRfc5322Date ts)
          (L.encodeHeaderValue subject) mid mime).map entry) ++ finishBody payload.body := by
  rcases bind_eq_ok.mp h with ⟨_, hfrom, h⟩
  rcases bind_eq_ok.mp h with ⟨_, hto, h⟩
  rcases bind_eq_ok.mp h with ⟨_, hsubject, h⟩
  rcases bind_eq_ok.mp h with ⟨_, hmime, h⟩
  rcases bind_eq_ok.mp h with ⟨fromField, hfromField, h⟩
  rcases bind_eq_ok.mp h with ⟨toField, htoField, h⟩
  rcases bind_eq_ok.mp h with ⟨parts, hparts, h⟩
  have hspec := (oneLine_wireAddress hL (oneLine_of_noInject hfrom) hparts).spec
  have hmid := @oneLine_messageId L payload.body parts.2 hspec
  refine ⟨oneLine_of_noInject hfrom, oneLine_of_noInject hto, fromField, toField, _, _, _,
    hfromField, htoField, oneLine_of_noInject hsubject, hmid, oneLine_of_noInject hmime, ?_⟩
  rw [writtenHead_fieldsOf]
  exact (Except.ok.inj h).symm

include hL in
theorem renderRfc5322_eq_ok {payload : Payload} {toAddr : Str} {ts : UInt64}
    (h : renderRfc5322 L payload fromAddr toAddr ts = .ok message) :
    exists fields, Rendered fields ∧
      message = writtenHead (fields.map entry) ++ finishBody payload.body := by
  rcases renderRfc5322_parts hL h with
    ⟨hfrom, hto, _, _, _, _, _, hfromField, htoField, hsubject, hmid, hmime, rfl⟩
  exact ⟨_, rendered_fieldsOf (folded_wireAddressField hL hfrom hfromField)
    (folded_wireAddressField hL hto htoField) (.line (hL.date ts)) (hL.headerValue _ hsubject)
    (.line hmid) (.line hmime), rfl⟩

/-!
# What arrives
-/

variable {S : Suite}

/-- The key that was delegated for the domain in `From`. -/
def delegatedKey (L : Libraries) (keys : List (DkimKey S)) (fromAddr : Str) : Option (DkimKey S) :=
  match wireAddress L fromAddr with
  | .ok (_, fromSpec) => (domainOf fromSpec).bind (dkimKeyFor keys)
  | .error _ => none

theorem translateAndSign_eq_ok {keys : List (DkimKey S)} {payload : Payload} {toAddr : Str}
    {now : UInt64} {signed : Bytes}
    (h : translateAndSign L keys payload fromAddr toAddr now = .ok signed) :
    exists key message, delegatedKey L keys fromAddr = some key ∧
      renderRfc5322 L payload fromAddr toAddr now = .ok message ∧
      signed = utf8 (Dkim.sign S key message (now / 1000)) ++ message := by
  rcases bind_eq_ok.mp h with ⟨parts, hparts, h⟩
  rcases parts with ⟨name, fromSpec⟩
  dsimp only at h
  cases hdomain : domainOf fromSpec with
  | none =>
      rw [hdomain] at h
      cases h
  | some fromDomain =>
      rw [hdomain] at h
      rcases bind_eq_ok.mp h with ⟨_, hsome, h⟩
      cases hsome
      cases hkey : dkimKeyFor keys fromDomain with
      | none =>
          rw [hkey] at h
          cases h
      | some key =>
          rw [hkey] at h
          rcases bind_eq_ok.mp h with ⟨_, hsome, h⟩
          cases hsome
          rcases bind_eq_ok.mp h with ⟨message, hmessage, h⟩
          refine ⟨key, message, ?_, hmessage, (Except.ok.inj h).symm⟩
          rw [delegatedKey, hparts]
          dsimp only
          rw [hdomain]
          exact hkey

theorem mem_of_delegatedKey {keys : List (DkimKey S)} {key : DkimKey S}
    (h : delegatedKey L keys fromAddr = some key) : key ∈ keys := by
  unfold delegatedKey at h
  split at h
  · rcases Option.bind_eq_some_iff.mp h with ⟨domain, _, hfound⟩
    exact List.mem_of_find?_eq_some hfound
  · cases h

/-- A key whose domain and selector can be published, and whose signatures verify. -/
structure Published (key : DkimKey S) : Prop where
  domain : TagText key.domain
  selector : TagText key.selector
  signs : SignsFor S key

theorem reassembled_head {headers : List Header}
    (h : forall header, header ∈ headers -> Straight (writtenHeader header)) (hne : body ≠ []) :
    reassembled (sentLines (writtenHead headers ++ body)) =
      writtenHead headers ++ reassembled (sentLines body) := by
  have hhead : writtenHead headers =
      (headers.flatMap (fun header => splitCrlf (writtenHeader header)) ++ [[]]).flatMap
        (· ++ crlf) := by
    rw [writtenHead_eq, headOf, List.flatMap_append]
    rfl
  rw [hhead]
  apply reassembled_lines _ hne
  intro line hline
  rcases List.mem_append.mp hline with hline | hline
  · rcases List.mem_flatMap.mp hline with ⟨header, hheader, hpiece⟩
    exact h header hheader line hpiece
  · rw [List.mem_singleton.mp hline]
    exact List.not_mem_nil

theorem reassembled_signed {key : DkimKey S} (hkey : Published key)
    {fields : List (String × Str)} (hfields : Rendered fields) (body : Bytes) (t : UInt64) :
    reassembled (sentLines
        (utf8 (Dkim.sign S key (writtenHead (fields.map entry) ++ finishBody body) t) ++
          (writtenHead (fields.map entry) ++ finishBody body))) =
      utf8 (Dkim.sign S key (writtenHead (fields.map entry) ++ finishBody body) t) ++
        (writtenHead (fields.map entry) ++ arrivedBody body) := by
  rw [signed_written hfields.unsigned, signed_written hfields.unsigned]
  apply reassembled_head _ (finishBody_ne_nil body)
  intro header hheader
  rcases List.mem_cons.mp hheader with rfl | hheader
  · exact straight_signatureHeader hkey.domain.solid hkey.selector.solid (finishBody body) t
  · exact hfields.straight hheader

theorem bodyHash_eq_iff {a : Bytes}
    (hcollision : S.sha256 (canonicalizeBody a) = S.sha256 (canonicalizeBody b) ->
      canonicalizeBody a = canonicalizeBody b) :
    Dkim.bodyHash S a = Dkim.bodyHash S b <-> canonicalizeBody a = canonicalizeBody b := by
  constructor
  · intro h
    exact hcollision (FixedBytes.ext_toBytes (b64Encode_injective h))
  · intro h
    rw [Dkim.bodyHash, Dkim.bodyHash, h]

include hL in
theorem reassembled_verifies_iff {keys : List (DkimKey S)}
    (hkeys : forall key, key ∈ keys -> Published key) {payload : Payload} {toAddr : Str}
    {now : UInt64} {signed : Bytes}
    (h : translateAndSign L keys payload fromAddr toAddr now = .ok signed)
    (hcollision : S.sha256 (canonicalizeBody (arrivedBody payload.body)) =
        S.sha256 (canonicalizeBody (finishBody payload.body)) ->
      canonicalizeBody (arrivedBody payload.body) = canonicalizeBody (finishBody payload.body)) :
    exists key, delegatedKey L keys fromAddr = some key ∧
      (Dkim.verify S (reassembled (sentLines signed)) (S.verifyingKey key.signing).toBytes =
          .ok () <->
        LineFeedsFollowReturns payload.body) := by
  rcases translateAndSign_eq_ok h with ⟨key, message, hdelegated, hmessage, rfl⟩
  rcases renderRfc5322_eq_ok hL hmessage with ⟨fields, hfields, rfl⟩
  have hkey := hkeys key (mem_of_delegatedKey hdelegated)
  refine ⟨key, hdelegated, ?_⟩
  rw [reassembled_signed hkey hfields, verify_signed_iff hkey.signs hkey.domain.solid
    hkey.selector.solid hfields.unsigned, bodyHash_eq_iff hcollision, canonicalizeBody_arrived_iff]

/--
A signed message that a receiver takes in verifies under the delegated key exactly when every
line feed of the payload's body has a carriage return before it.  The receiver takes it in
when its lines and its size fit.
-/
theorem arrives_verifiable_iff (L : Libraries) (hL : L.FoldsOnly) (S : Suite)
    (keys : List (DkimKey S)) (hkeys : forall key, key ∈ keys -> Published key)
    (payload : Payload) (fromAddr toAddr : Str) (now : UInt64) (signed : Bytes)
    (h : translateAndSign L keys payload fromAddr toAddr now = .ok signed)
    (hcollision : S.sha256 (canonicalizeBody (arrivedBody payload.body)) =
        S.sha256 (canonicalizeBody (finishBody payload.body)) ->
      canonicalizeBody (arrivedBody payload.body) = canonicalizeBody (finishBody payload.body))
    (gw : InboundGateway) (s : MxSession) (hopened : s.Opened gw) (rest : Bytes) :
    ((s.receive gw (dataBytes signed ++ rest)).isSome = true <->
      LinesFit signed ∧ (reassembled (sentLines signed)).length <= gw.maxMessageBytes) ∧
    exists key, delegatedKey L keys fromAddr = some key ∧
      forall message, s.receive gw (dataBytes signed ++ rest) = some message ->
        (Dkim.verify S message (S.verifyingKey key.signing).toBytes = .ok () <->
          LineFeedsFollowReturns payload.body) := by
  rw [MxSession.receive_dataBytes hopened]
  constructor
  · split
    · rename_i hfits
      exact ⟨fun _ => hfits, fun _ => rfl⟩
    · rename_i hfits
      exact ⟨fun hsome => absurd hsome Bool.false_ne_true, fun hboth => absurd hboth hfits⟩
  · rcases reassembled_verifies_iff hL hkeys h hcollision with ⟨key, hdelegated, hverifies⟩
    refine ⟨key, hdelegated, ?_⟩
    intro message hmessage
    split at hmessage
    · cases hmessage
      exact hverifies
    · cases hmessage

/-!
A body of two CRLF lines, the second with a dot in front, and a body with a lone line feed.  The
digests, the key and the signatures are those of BLAKE3, SHA-256 and Ed25519.
-/

/-- The libraries on these texts: plain domains and printable ASCII stay as they are. -/
def sampleLibraries : Libraries where
  domainToAsciiCow domain :=
    if domain.all fun c => c.isLower || c.isDigit || c == '-' || c == '.' then .ok domain
    else .error "disallowed".toList
  encodeDisplayName name := name
  encodeHeaderValue value := value
  formatRfc5322Date _ := "Tue, 15 Jul 2025 17:20:00 +0000".toList
  contentDigest body :=
    if body = bytesOf "hello\nworld" then
      FixedBytes.ofNat 0x205eee3a67dde1a72e376f21dc98b892a2ba2e255e70c5bab16a94bf842e6be2
    else
      FixedBytes.ofNat 0x5b436af36ad94562bf7a5365c9c2bf08fd6e6a067f9bc577710249931f43024b

def sampleVerifyingKey : FixedBytes 32 :=
  Dkim.greetingKey

/-- The signature of a digest; other digests are not signed here. -/
def sampleSign (digest : FixedBytes 32) (signature : FixedBytes 64) (b : Bytes) : FixedBytes 64 :=
  if b = digest.toBytes then signature else FixedBytes.zero 64

/-- The functions on one message: the digest of what is signed of it, and the signature. -/
def sampleSuite (digest : FixedBytes 32) (signature : FixedBytes 64) : Suite where
  SigningKey := Unit
  sha256 b :=
    if b = bytesOf "hello\r\n.dot\r\n" then
      FixedBytes.ofNat 0xb9111e5f4602047ef0e484c86d668964b8f954329fa3375f87153e6bb5bdea0f
    else if b = bytesOf "hello\nworld\r\n" then
      FixedBytes.ofNat 0x039e0f0099591278c44fc9b6a64433a5d41ff5c7a7febde6f2aaf2c2a538c961
    else if b = bytesOf "hello\r\nworld\r\n" then
      FixedBytes.ofNat 0x8f9e99332aa14be2fd8e6e7052c0a42ecedf771020a3293170dfefa344da59ac
    else
      digest
  sign _ b := sampleSign digest signature b
  verifyingKey _ := sampleVerifyingKey
  validKey key := key = sampleVerifyingKey
  verifies key b sig := key = sampleVerifyingKey && sig = sampleSign digest signature b

def dottedDigest : FixedBytes 32 :=
  FixedBytes.ofNat 0xa222b922bd76a944e06172128ea96d1c962d33fed3bad27f6950649ee0a5c56a

def dottedSignature : FixedBytes 64 :=
  FixedBytes.ofNat (0x87e13d83d8ed4b8bf1f675c93b5ffa9bab0251917de3a7d0bb92890e08fab97b <<< 256 +
    0xceff653fff650a090ffc310ee6505d008cfbc93a19d5be720d4d3d0ba57c7b07)

def newlineDigest : FixedBytes 32 :=
  FixedBytes.ofNat 0xbcad1de24b16d80abbc224160e35d982b05f133cc8cbd9d82259e365ac4e1ee4

def newlineSignature : FixedBytes 64 :=
  FixedBytes.ofNat (0xdac5031519f167e81ea85e784f6208fb3d9df002dfd3e781c7d1e6fdfb508819 <<< 256 +
    0xc4181b68bb05781552fb8ea9f0412b0a57cc241b193e4b0109f6971bcac3740c)

def samplePayload (body : String) : Payload where
  subject := some "hi".toList
  mime := none
  body := bytesOf body

def sampleKey (digest : FixedBytes 32) (signature : FixedBytes 64) :
    DkimKey (sampleSuite digest signature) :=
  ⟨"sender.example".toList, "s1".toList, ()⟩

def sampleSigned (digest : FixedBytes 32) (signature : FixedBytes 64) (body : String) :
    Except OutboundError Bytes :=
  translateAndSign sampleLibraries [sampleKey digest signature] (samplePayload body)
    "alice@sender.example".toList "bob@example.com".toList 1752600000000

theorem sampleLibraries_folds : sampleLibraries.FoldsOnly where
  domain := by
    intro domain ascii h
    unfold sampleLibraries at h
    dsimp only at h
    split at h
    · rename_i hplain
      cases h
      exact ⟨fun hmem => absurd (List.all_eq_true.mp hplain _ hmem) (by decide),
        fun hmem => absurd (List.all_eq_true.mp hplain _ hmem) (by decide)⟩
    · cases h
  displayName := fun _ h => .line h
  headerValue := fun _ h => .line h
  date := by
    have hdate : OneLine "Tue, 15 Jul 2025 17:20:00 +0000".toList := by decide +kernel
    exact fun _ => hdate

theorem published_sampleKey (digest : FixedBytes 32) (signature : FixedBytes 64) :
    forall key, key ∈ [sampleKey digest signature] -> Published key := by
  have hdomain : TagText "sender.example".toList := by decide +kernel
  have hselector : TagText "s1".toList := by decide +kernel
  have hkey : decide (sampleVerifyingKey = sampleVerifyingKey) = true := decide_eq_true rfl
  intro key h
  rw [List.mem_singleton.mp h]
  refine ⟨hdomain, hselector, hkey, ?_⟩
  intro b
  have hsign : decide (sampleSign digest signature b = sampleSign digest signature b) = true :=
    decide_eq_true rfl
  exact Bool.and_eq_true_iff.mpr ⟨hkey, hsign⟩

def dottedSigned : Bytes :=
  (sampleSigned dottedDigest dottedSignature "hello\r\n.dot\r\n").toOption.getD []

def newlineSigned : Bytes :=
  (sampleSigned newlineDigest newlineSignature "hello\nworld").toOption.getD []

theorem eq_ok_of_isOk {ε : Type} {x : Except ε Bytes} (h : x.isOk = true) :
    x = .ok (x.toOption.getD []) := by
  cases x with
  | error e => cases h
  | ok b => rfl

theorem dottedSigned_eq : sampleSigned dottedDigest dottedSignature "hello\r\n.dot\r\n" =
    .ok dottedSigned :=
  eq_ok_of_isOk (by decide +kernel)

theorem newlineSigned_eq : sampleSigned newlineDigest newlineSignature "hello\nworld" =
    .ok newlineSigned :=
  eq_ok_of_isOk (by decide +kernel)

theorem dotted_body_verifies : exists signed message key,
    sampleSigned dottedDigest dottedSignature "hello\r\n.dot\r\n" = .ok signed ∧
      openedSession.receive spfGateway (dataBytes signed ++ utf8 "QUIT\r\n".toList) =
        some message ∧
      delegatedKey sampleLibraries [sampleKey dottedDigest dottedSignature]
        "alice@sender.example".toList = some key ∧
      Dkim.verify (sampleSuite dottedDigest dottedSignature) message sampleVerifyingKey.toBytes =
        .ok () := by
  have hsame : canonicalizeBody (arrivedBody (bytesOf "hello\r\n.dot\r\n")) =
      canonicalizeBody (finishBody (bytesOf "hello\r\n.dot\r\n")) := by
    decide +kernel
  have hfits : LinesFit dottedSigned ∧
      (reassembled (sentLines dottedSigned)).length <= spfGateway.maxMessageBytes := by
    decide +kernel
  have hreturns : LineFeedsFollowReturns (bytesOf "hello\r\n.dot\r\n") := by decide +kernel
  rcases arrives_verifiable_iff sampleLibraries sampleLibraries_folds
    (sampleSuite dottedDigest dottedSignature) [sampleKey dottedDigest dottedSignature]
    (published_sampleKey dottedDigest dottedSignature) (samplePayload "hello\r\n.dot\r\n")
    "alice@sender.example".toList "bob@example.com".toList 1752600000000 dottedSigned
    dottedSigned_eq (fun _ => hsame) spfGateway openedSession opened_openedSession
    (utf8 "QUIT\r\n".toList) with ⟨hreceived, key, hkey, hverifies⟩
  rcases Option.isSome_iff_exists.mp (hreceived.mpr hfits) with ⟨message, hmessage⟩
  refine ⟨dottedSigned, message, key, dottedSigned_eq, hmessage, hkey, ?_⟩
  exact (hverifies message hmessage).mpr hreturns

/-- The body `hello`, a line feed and `world`: the signature does not survive. -/
theorem lone_line_feed_breaks_signature :
    ¬ forall payload fromAddr toAddr now signed message key,
      translateAndSign sampleLibraries [sampleKey newlineDigest newlineSignature] payload fromAddr
        toAddr now = .ok signed ->
      openedSession.receive spfGateway (dataBytes signed) = some message ->
      delegatedKey sampleLibraries [sampleKey newlineDigest newlineSignature] fromAddr =
        some key ->
      Dkim.verify (sampleSuite newlineDigest newlineSignature) message
        ((sampleSuite newlineDigest newlineSignature).verifyingKey key.signing).toBytes =
          .ok () := by
  have hdigests : (sampleSuite newlineDigest newlineSignature).sha256
        (canonicalizeBody (arrivedBody (bytesOf "hello\nworld"))) ≠
      (sampleSuite newlineDigest newlineSignature).sha256
        (canonicalizeBody (finishBody (bytesOf "hello\nworld"))) := by
    decide +kernel
  have hfits : LinesFit newlineSigned ∧
      (reassembled (sentLines newlineSigned)).length <= spfGateway.maxMessageBytes := by
    decide +kernel
  have hreturns : ¬ LineFeedsFollowReturns (bytesOf "hello\nworld") := by decide +kernel
  have hreceived := MxSession.receive_dataBytes opened_openedSession newlineSigned []
  rw [List.append_nil, if_pos hfits] at hreceived
  rcases reassembled_verifies_iff sampleLibraries_folds
    (published_sampleKey newlineDigest newlineSignature) newlineSigned_eq
    (fun hsame => absurd hsame hdigests) with ⟨key, hkey, hverifies⟩
  intro h
  exact hreturns (hverifies.mp (h _ _ _ _ _ _ key newlineSigned_eq hreceived hkey))

end Outbound

end Gateway
end Ephor
