import Ephor.Gateway.DkimSoundness

/-!
# Signed messages verify

Headers that are written one after the other are read back, and the signature in front of
them is found.  Its tags are those that were written, and with the value of `b` taken out it
is the header that was signed.  So a message with its signature verifies exactly when the body
has the hash that was signed.
-/

namespace Ephor
namespace Gateway
namespace Dkim

open Foundation
open Foundation.Text

/-!
## The end of the head
-/

variable {rest line : Bytes} {lines : List Bytes} {name text : Str} {header : Header}
    {tags : List (Str × Str)}

theorem not_blank {b : UInt8} (h : b = cr -> rest.head? ≠ some lf) :
    ¬ (crlf ++ crlf).isPrefixOf (b :: rest) = true := by
  intro hstart
  rcases List.isPrefixOf_iff_prefix.mp hstart with ⟨more, hmore⟩
  injection hmore with hb hrest
  apply h hb.symm
  rw [<- hrest]
  rfl

theorem findBlankLine_cons {b : UInt8} (h : b = cr -> rest.head? ≠ some lf) :
    findBlankLine (b :: rest) = (findBlankLine rest).map (· + 1) := by
  rw [findBlankLine, if_neg (not_blank h)]

theorem findBlankLine_line (h : PairFree line) (hrest : ¬ crlf <+: rest) :
    findBlankLine (line ++ crlf ++ rest) = (findBlankLine rest).map (· + (line.length + 2)) := by
  induction line with
  | nil =>
      have hfirst : ¬ (crlf ++ crlf).isPrefixOf (cr :: lf :: rest) = true := by
        intro hstart
        rcases List.isPrefixOf_iff_prefix.mp hstart with ⟨more, hmore⟩
        injection hmore with _ hmore
        injection hmore with _ hmore
        exact hrest ⟨more, hmore⟩
      have hlf : lf = cr -> rest.head? ≠ some lf := fun heq => nomatch heq
      show findBlankLine (cr :: lf :: rest) = _
      rw [findBlankLine, if_neg hfirst, findBlankLine_cons hlf, Option.map_map]
      rfl
  | cons b line ih =>
      rcases pairFree_of_cons h with ⟨hline, hb⟩
      rw [List.cons_append, List.cons_append, findBlankLine_cons (head?_line hb rest), ih hline,
        Option.map_map]
      apply congrArg (fun f => Option.map f (findBlankLine rest))
      funext n
      show n + (line.length + 2) + 1 = n + (line.length + 1 + 2)
      omega

theorem findBlankLine_last (h : PairFree line) (rest : Bytes) :
    findBlankLine (line ++ crlf ++ (crlf ++ rest)) = some line.length := by
  induction line with
  | nil =>
      have hfirst : (crlf ++ crlf).isPrefixOf (cr :: lf :: crlf ++ rest) = true :=
        List.isPrefixOf_iff_prefix.mpr ⟨rest, rfl⟩
      show findBlankLine (cr :: (lf :: crlf ++ rest)) = _
      rw [findBlankLine]
      exact if_pos hfirst
  | cons b line ih =>
      rcases pairFree_of_cons h with ⟨hline, hb⟩
      rw [List.cons_append, List.cons_append, findBlankLine_cons (head?_line hb (crlf ++ rest)),
        ih hline]
      rfl

theorem not_crlf_of_line (h : PairFree line) (hne : line ≠ []) (rest : Bytes) :
    ¬ crlf <+: line ++ crlf ++ rest := by
  intro hstart
  rcases hstart with ⟨more, hmore⟩
  cases line with
  | nil => exact hne rfl
  | cons b line =>
      injection hmore with hb hrest
      apply head?_line (pairFree_of_cons h).2 rest hb.symm
      show ((line.append crlf).append rest).head? = some lf
      rw [<- hrest]
      rfl

/-- The bytes of header lines and the empty line after them. -/
def headOf (lines : List Bytes) : Bytes :=
  lines.flatMap (· ++ crlf) ++ crlf

structure HeadLine (line : Bytes) : Prop where
  free : PairFree line
  nonempty : line ≠ []

theorem findBlankLine_headOf {last : Bytes}
    (hlines : forall line, line ∈ lines -> HeadLine line) (hlast : HeadLine last) (body : Bytes) :
    findBlankLine (lines.flatMap (· ++ crlf) ++ (last ++ crlf ++ (crlf ++ body))) =
      some (lines.flatMap (· ++ crlf) ++ last).length := by
  induction lines with
  | nil => exact findBlankLine_last hlast.free body
  | cons line lines ih =>
      have hline := hlines line List.mem_cons_self
      have hrest := ih (List.forall_mem_cons.mp hlines).2
      have hnext : ¬ crlf <+: lines.flatMap (· ++ crlf) ++ (last ++ crlf ++ (crlf ++ body)) := by
        cases lines with
        | nil => exact not_crlf_of_line hlast.free hlast.nonempty (crlf ++ body)
        | cons second lines =>
            have hsecond := hlines second (List.mem_cons_of_mem line List.mem_cons_self)
            rw [List.flatMap_cons, List.append_assoc]
            exact not_crlf_of_line hsecond.free hsecond.nonempty _
      have hlength : (line ++ crlf ++ (lines.flatMap (· ++ crlf) ++ last)).length =
          (lines.flatMap (· ++ crlf) ++ last).length + (line.length + 2) := by
        rw [List.length_append, Nat.add_comm]
        apply congrArg (_ + ·)
        exact List.length_append
      rw [List.flatMap_cons, List.append_assoc, findBlankLine_line hline.free hnext, hrest,
        List.append_assoc, hlength]
      rfl

theorem findBlankLine_head (hne : lines ≠ [])
    (hlines : forall line, line ∈ lines -> HeadLine line) :
    exists head, headOf lines = head ++ (crlf ++ crlf) ∧ splitCrlf head = lines ∧
      forall body, findBlankLine (headOf lines ++ body) = some head.length := by
  rcases List.eq_nil_or_concat lines with rfl | ⟨front, last, rfl⟩
  · exact absurd rfl hne
  · rw [List.concat_eq_append] at hlines ⊢
    have hfront : forall line, line ∈ front -> HeadLine line :=
      fun line hline => hlines line (List.mem_append_left _ hline)
    have hlast := hlines last (List.mem_append_right _ List.mem_cons_self)
    have hfree : splitCrlf last = [last] := hlast.free
    have hhead : headOf (front ++ [last]) =
        front.flatMap (· ++ crlf) ++ last ++ (crlf ++ crlf) := by
      rw [headOf, List.flatMap_append, List.flatMap_singleton]
      simp only [List.append_assoc]
    refine ⟨front.flatMap (· ++ crlf) ++ last, hhead, ?_, ?_⟩
    · rw [splitCrlf_lines (fun line hline => (hfront line hline).free), hfree]
    · intro body
      rw [hhead, List.append_assoc, List.append_assoc, List.append_assoc, <- List.append_assoc last]
      exact findBlankLine_headOf hfront hlast body

theorem splitHeadersBody_headOf (hne : lines ≠ [])
    (hlines : forall line, line ∈ lines -> HeadLine line) (body : Bytes) :
    splitHeadersBody (headOf lines ++ body) = (lines.foldl parseLine [], body) := by
  rcases findBlankLine_head hne hlines with ⟨head, hhead, hpieces, hblank⟩
  rw [splitHeadersBody, hblank]
  dsimp only
  rw [hhead, List.append_assoc, List.append_assoc, List.take_left, parseHeaders, hpieces,
    List.drop_length_add_append]
  rfl

/-!
## Written headers
-/

def writtenHeader (header : Header) : Bytes :=
  utf8 header.1 ++ 0x3A :: header.2

/-- A name that can be read back, and a value whose CRLFs are all folds. -/
structure PlainHeader (header : Header) : Prop where
  start : exists b rest, utf8 header.1 = b :: rest ∧ isWsp b = false
  noColon : (0x3A : UInt8) ∉ utf8 header.1
  noReturn : cr ∉ utf8 header.1
  folds : Folds header.2

theorem rejoin_splitCrlf (value : Bytes) :
    exists first rest, splitCrlf value = first :: rest ∧
      value = first ++ rest.flatMap (crlf ++ ·) := by
  induction value using splitCrlf.induct with
  | case1 => exact ⟨[], [], rfl, rfl⟩
  | case2 b => exact ⟨[b], [], rfl, rfl⟩
  | case3 b c value hpair ih =>
      rcases hpair with ⟨rfl, rfl⟩
      rcases ih with ⟨first, rest, hsplit, hvalue⟩
      refine ⟨[], first :: rest, ?_, ?_⟩
      · rw [splitCrlf_cons_cons, if_pos ⟨rfl, rfl⟩, hsplit]
      · rw [List.flatMap_cons, List.nil_append, List.append_assoc, <- hvalue]
        rfl
  | case4 b c value hpair ih =>
      rcases ih with ⟨first, rest, hsplit, hvalue⟩
      refine ⟨b :: first, rest, ?_, ?_⟩
      · rw [splitCrlf_cons_cons, if_neg hpair, hsplit]
        rfl
      · rw [List.cons_append, <- hvalue]

theorem flatMap_splitCrlf (value : Bytes) :
    (splitCrlf value).flatMap (· ++ crlf) = value ++ crlf := by
  rcases rejoin_splitCrlf value with ⟨first, rest, hsplit, hvalue⟩
  have hrest : forall first : Bytes, (first :: rest).flatMap (· ++ crlf) =
      first ++ rest.flatMap (crlf ++ ·) ++ crlf := by
    clear hsplit hvalue
    induction rest with
    | nil =>
        intro first
        simp
    | cons second rest ih =>
        intro first
        rw [List.flatMap_cons, ih second, List.flatMap_cons]
        simp only [List.append_assoc]
  rw [hsplit, hrest, <- hvalue]

theorem wsp_of_folds {value : Bytes} (h : Folds value) {first : Bytes} {rest : List Bytes}
    (hsplit : splitCrlf value = first :: rest) :
    forall piece, piece ∈ rest -> exists w tail, piece = w :: tail ∧ isWsp w = true := by
  induction value using Folds.induct generalizing first rest with
  | case1 | case2 b =>
      cases hsplit
      exact fun _ hpiece => absurd hpiece List.not_mem_nil
  | case3 b c value hpair ih =>
      rcases hpair with ⟨rfl, rfl⟩
      rcases folds_pair.mp h with ⟨⟨w, tail, hvalue, hw⟩, hfolds⟩
      rw [splitCrlf_cons_cons, if_pos ⟨rfl, rfl⟩] at hsplit
      injection hsplit with _ hrest
      rcases rejoin_splitCrlf tail with ⟨next, others, hnext, _⟩
      have hw' : w = cr -> tail.head? ≠ some lf := by
        intro heq
        rw [heq] at hw
        cases hw
      have hpieces : splitCrlf value = (w :: next) :: others := by
        rw [hvalue, splitCrlf_cons hw', hnext]
        rfl
      intro piece hpiece
      rw [<- hrest, hpieces] at hpiece
      rcases List.mem_cons.mp hpiece with rfl | hpiece
      · exact ⟨w, next, rfl, hw⟩
      · exact ih hfolds hpieces piece hpiece
  | case4 b c value hpair ih =>
      rcases rejoin_splitCrlf (c :: value) with ⟨next, others, hnext, _⟩
      rw [splitCrlf_cons_cons, if_neg hpair, hnext] at hsplit
      cases hsplit
      exact ih ((folds_cons_cons hpair).mp h) hnext

theorem parseLine_continuation {out : List Header} {value piece : Bytes}
    (h : exists w tail, piece = w :: tail ∧ isWsp w = true) :
    parseLine (out ++ [(name, value)]) piece = out ++ [(name, value ++ crlf ++ piece)] := by
  rcases h with ⟨w, tail, rfl, hw⟩
  rw [parseLine, if_pos hw]
  induction out with
  | nil => rfl
  | cons header out ih =>
      cases out with
      | nil => rfl
      | cons second out => exact congrArg (List.cons header) ih

theorem parse_continuations {out : List Header} {pieces : List Bytes}
    (h : forall piece, piece ∈ pieces -> exists w tail, piece = w :: tail ∧ isWsp w = true)
    (value : Bytes) :
    pieces.foldl parseLine (out ++ [(name, value)]) =
      out ++ [(name, value ++ pieces.flatMap (crlf ++ ·))] := by
  induction pieces generalizing value with
  | nil =>
      rw [List.flatMap_nil, List.append_nil]
      rfl
  | cons piece pieces ih =>
      rw [List.foldl_cons, parseLine_continuation (h piece List.mem_cons_self),
        ih (List.forall_mem_cons.mp h).2, List.flatMap_cons]
      simp only [List.append_assoc]

theorem parseLine_first (hstart : exists b rest, utf8 name = b :: rest ∧ isWsp b = false)
    (hcolon : (0x3A : UInt8) ∉ utf8 name) (out : List Header) (value : Bytes) :
    parseLine out (utf8 name ++ 0x3A :: value) = out ++ [(name, value)] := by
  rcases hstart with ⟨b, rest, hname, hb⟩
  have hbytes : utf8 name ++ 0x3A :: value = b :: (rest ++ 0x3A :: value) := by
    rw [hname]
    rfl
  rw [hbytes, parseLine, hb, if_neg Bool.false_ne_true, <- hbytes, idxOf?_piece hcolon]
  dsimp only
  rw [List.take_left, fromUtf8Lossy_utf8, List.drop_length_add_append]
  rfl

theorem splitCrlf_writtenHeader (h : PlainHeader header) :
    exists first rest, splitCrlf header.2 = first :: rest ∧
      header.2 = first ++ rest.flatMap (crlf ++ ·) ∧
      splitCrlf (writtenHeader header) = (utf8 header.1 ++ 0x3A :: first) :: rest := by
  have hfront : cr ∉ utf8 header.1 ++ [0x3A] := by
    intro hmem
    rcases List.mem_append.mp hmem with hmem | hmem
    · exact h.noReturn hmem
    · exact absurd hmem (by decide)
  rcases rejoin_splitCrlf header.2 with ⟨first, rest, hsplit, hvalue⟩
  refine ⟨first, rest, hsplit, hvalue, ?_⟩
  rw [writtenHeader, <- List.singleton_append, <- List.append_assoc, splitCrlf_append hfront,
    hsplit]
  show ((utf8 header.1 ++ [0x3A]) ++ first) :: rest = _
  rw [List.append_assoc]
  rfl

theorem parse_writtenHeader (h : PlainHeader header) (out : List Header) :
    (splitCrlf (writtenHeader header)).foldl parseLine out = out ++ [header] := by
  rcases splitCrlf_writtenHeader h with ⟨first, rest, hsplit, hvalue, hpieces⟩
  rw [hpieces, List.foldl_cons, parseLine_first h.start h.noColon,
    parse_continuations (wsp_of_folds h.folds hsplit), <- hvalue]

theorem headLine_of_written (h : PlainHeader header) :
    forall line, line ∈ splitCrlf (writtenHeader header) -> HeadLine line := by
  rcases splitCrlf_writtenHeader h with ⟨first, rest, hsplit, _, hpieces⟩
  intro line hline
  refine ⟨pairFree_of_mem_splitCrlf hline, ?_⟩
  rw [hpieces] at hline
  rcases List.mem_cons.mp hline with rfl | hline
  · exact List.append_ne_nil_of_right_ne_nil _ (List.cons_ne_nil _ _)
  · rcases wsp_of_folds h.folds hsplit line hline with ⟨w, tail, rfl, _⟩
    exact List.cons_ne_nil w tail

/-- Headers one after the other, and the empty line after them. -/
def writtenHead (headers : List Header) : Bytes :=
  headers.flatMap (fun header => writtenHeader header ++ crlf) ++ crlf

theorem writtenHead_eq (headers : List Header) :
    writtenHead headers =
      headOf (headers.flatMap fun header => splitCrlf (writtenHeader header)) := by
  rw [writtenHead, headOf, List.flatMap_assoc]
  apply congrArg (· ++ crlf)
  apply congrArg (fun f => List.flatMap f headers)
  funext header
  exact (flatMap_splitCrlf (writtenHeader header)).symm

theorem parse_writtenHeaders {headers : List Header}
    (h : forall header, header ∈ headers -> PlainHeader header) (out : List Header) :
    (headers.flatMap fun header => splitCrlf (writtenHeader header)).foldl parseLine out =
      out ++ headers := by
  induction headers generalizing out with
  | nil =>
      rw [List.append_nil]
      rfl
  | cons header headers ih =>
      rw [List.flatMap_cons, List.foldl_append, parse_writtenHeader (h header List.mem_cons_self),
        ih (List.forall_mem_cons.mp h).2, List.append_assoc]
      rfl

theorem splitHeadersBody_written {headers : List Header} (hne : headers ≠ [])
    (h : forall header, header ∈ headers -> PlainHeader header) (body : Bytes) :
    splitHeadersBody (writtenHead headers ++ body) = (headers, body) := by
  rw [writtenHead_eq, splitHeadersBody_headOf, parse_writtenHeaders h, List.nil_append]
  · cases headers with
    | nil => exact absurd rfl hne
    | cons header headers =>
        rcases splitCrlf_writtenHeader (h header List.mem_cons_self) with
          ⟨first, rest, _, _, hpieces⟩
        rw [List.flatMap_cons, hpieces]
        exact List.cons_ne_nil _ _
  · intro line hline
    rcases List.mem_flatMap.mp hline with ⟨header, hheader, hline⟩
    exact headLine_of_written (h header hheader) line hline

def OneLine (text : Str) : Prop :=
  '\r' ∉ text ∧ '\n' ∉ text

instance (text : Str) : Decidable (OneLine text) :=
  inferInstanceAs (Decidable ('\r' ∉ text ∧ '\n' ∉ text))

theorem OneLine.bytes (h : OneLine text) : cr ∉ utf8 text ∧ lf ∉ utf8 text :=
  ⟨fun hmem => h.1 (mem_of_mem_utf8 (by decide) hmem),
    fun hmem => h.2 (mem_of_mem_utf8 (by decide) hmem)⟩

theorem OneLine.append {a b : Str} (ha : OneLine a) (hb : OneLine b) : OneLine (a ++ b) :=
  ⟨fun hmem => (List.mem_append.mp hmem).elim ha.1 hb.1,
    fun hmem => (List.mem_append.mp hmem).elim ha.2 hb.2⟩

theorem OneLine.subset {a b : Str} (ha : OneLine a) (h : b ⊆ a) : OneLine b :=
  ⟨fun hmem => ha.1 (h hmem), fun hmem => ha.2 (h hmem)⟩

theorem oneLine_of_solid (h : SolidText text) : OneLine text :=
  ⟨fun hmem => absurd (h _ hmem).2 (by decide), fun hmem => absurd (h _ hmem).2 (by decide)⟩

theorem oneLine_of_le (h : forall c, c ∈ text -> 0x20 <= c.toNat) : OneLine text :=
  ⟨fun hmem => absurd (h _ hmem) (by decide), fun hmem => absurd (h _ hmem) (by decide)⟩

/-!
## Written tags
-/

theorem intercalate_concat (sep : Str) (texts : List Str) (last more : Str) :
    sep.intercalate (texts ++ [last]) ++ more = sep.intercalate (texts ++ [last ++ more]) := by
  induction texts with
  | nil => rw [List.nil_append, List.nil_append, List.intercalate_singleton,
      List.intercalate_singleton]
  | cons text texts ih =>
      have hne : forall final : Str, texts ++ [final] ≠ [] :=
        fun _ => List.append_ne_nil_of_right_ne_nil _ (List.cons_ne_nil _ _)
      rw [List.cons_append, List.cons_append, List.intercalate_cons_of_ne_nil (hne last),
        List.intercalate_cons_of_ne_nil (hne (last ++ more)), List.append_assoc, ih]

theorem splitOn_joined {texts : List Str} (hne : texts ≠ [])
    (h : forall text, text ∈ texts -> ';' ∉ text) :
    (' ' :: "; ".toList.intercalate texts).splitOn ';' = texts.map (' ' :: ·) := by
  have hfree : forall text, text ∈ texts -> ';' ∉ ' ' :: text := by
    intro text htext
    exact List.not_mem_cons_of_ne_of_not_mem (by decide) (h text htext)
  induction texts with
  | nil => exact absurd rfl hne
  | cons text texts ih =>
      have htext := hfree text List.mem_cons_self
      cases texts with
      | nil =>
          rw [List.intercalate_singleton, List.splitOn_eq_singleton htext]
          rfl
      | cons second texts =>
          have hrest := ih (List.cons_ne_nil second texts)
            (List.forall_mem_cons.mp h).2
            (List.forall_mem_cons.mp hfree).2
          have hjoined : ' ' :: "; ".toList.intercalate (text :: second :: texts) =
              (' ' :: text) ++ ';' :: ' ' :: "; ".toList.intercalate (second :: texts) := by
            rw [List.intercalate_cons_cons, List.append_assoc]
            rfl
          rw [hjoined, List.splitOn_append_cons_self_of_not_mem htext, hrest]
          rfl

theorem trim_of_solid (h : SolidText text) : trim text = text :=
  trim_of_ends (fun c hc => (h c (List.mem_of_mem_head? hc)).2)
    fun c hc => (h c (List.mem_of_getLast? hc)).2

theorem trim_space (text : Str) : trim (' ' :: text) = trim text := by
  have hspace : isWhiteSpace ' ' = true := rfl
  rw [trim, trim, List.dropWhile_cons, if_pos hspace]

theorem parseTag_written {tag : Str × Str} (htext : SolidText (tagText tag))
    (hname : '=' ∉ tag.1) : parseTag (' ' :: tagText tag) = some tag := by
  have hk : SolidText tag.1 := fun c hc => htext c (List.mem_append_left _ hc)
  have hv : SolidText tag.2 :=
    fun c hc => htext c (List.mem_append_right _ (List.mem_cons_of_mem '=' hc))
  have hbare : (tag.2.filter fun c => !isWhiteSpace c) = tag.2 := bareText_of_solid hv
  rw [parseTag, trim_space, trim_of_solid htext, tagText, splitOnce_piece hname]
  show some (trim tag.1, tag.2.filter fun c => !isWhiteSpace c) = some tag
  rw [trim_of_solid hk, hbare]

theorem parseTags_written (hne : tags ≠ [])
    (htext : forall tag, tag ∈ tags -> SolidText (tagText tag))
    (hname : forall tag, tag ∈ tags -> '=' ∉ tag.1) :
    parseTags (' ' :: "; ".toList.intercalate (tags.map tagText)) = tags := by
  have hfree : forall text, text ∈ tags.map tagText -> ';' ∉ text := by
    intro text hmem hsemicolon
    rcases List.mem_map.mp hmem with ⟨tag, htag, rfl⟩
    exact (htext tag htag ';' hsemicolon).1 rfl
  have hparsed : forall tag, tag ∈ tags ->
      (parseTag ∘ fun tag => ' ' :: tagText tag) tag = some tag :=
    fun tag htag => parseTag_written (htext tag htag) (hname tag htag)
  rw [parseTags, splitOn_joined (fun hnil => hne (List.map_eq_nil_iff.mp hnil)) hfree,
    List.map_map, List.filterMap_map]
  exact (List.filterMap_congr hparsed).trans List.filterMap_some

theorem getTag_of_mem (hnodup : (tags.map Prod.fst).Nodup) {k v : Str} (h : (k, v) ∈ tags) :
    getTag tags k = some v := by
  cases hfind : tags.find? fun tag => tag.1 == k with
  | none =>
      have hnone := List.find?_eq_none.mp hfind (k, v) h
      exact absurd (beq_self_eq_true k) hnone
  | some tag =>
      have hk := List.find?_some hfind
      have htag := List.inj_on_of_nodup_map hnodup (List.mem_of_find?_eq_some hfind) h
        (eq_of_beq hk)
      rw [getTag, hfind, htag]
      rfl

/-!
## Taking the signature out
-/

/-- A tag other than `b` of any text that can stand in a tag. -/
structure SolidTag (tag : Str × Str) : Prop where
  text : SolidText (tagText tag)
  name : '=' ∉ tag.1
  other : tag.1 ≠ bName

theorem solid_baseTags {domain selector hTag bh : Str} (hdomain : SolidText domain)
    (hselector : SolidText selector) (t : UInt64) (hh : TagText hTag) (hbh : TagText bh) :
    forall tag, tag ∈ baseTags domain selector t hTag bh -> SolidTag tag := by
  intro tag htag
  rcases forall_baseTags (fun _ h => h.solid) hdomain hselector t hh hbh tag htag with
    ⟨hname, hequals, hother, hvalue⟩
  refine ⟨?_, hequals, hother⟩
  rw [tagText_eq]
  exact hname.solid.append hvalue

theorem semicolon_not_mem_written {tag : Str × Str} (h : SolidTag tag) :
    semicolon ∉ 0x20 :: utf8 (tagText tag) := by
  apply List.not_mem_cons_of_ne_of_not_mem (by decide)
  exact fun hmem => (solid_of_mem_utf8 h.text hmem).2.2.2 rfl

theorem emptyFrom_written {tag : Str × Str} (h : SolidTag tag) (first semi : Bool) :
    emptyFrom false first semi (0x20 :: utf8 (tagText tag)) = 0x20 :: utf8 (tagText tag) := by
  have hfree := semicolon_not_mem_written h
  have hbare : bare (0x20 :: utf8 (tagText tag)) = utf8 (tagText tag) := by
    have hspace : bare (0x20 :: utf8 (tagText tag)) = bare (utf8 (tagText tag)) :=
      bare_cons (fun heq => nomatch heq)
    rw [hspace, bare_utf8 h.text]
  rcases emptyFrom_part hfree first semi with hsame | ⟨space, rest, hspace, hpart, hhead, _⟩
  · exact hsame
  · -- The part would be a tag `b`.
    rcases gap_of_head hhead with ⟨gap, more, hgap, rfl⟩
    have hletter : bare (0x62 :: (gap ++ 0x3D :: more)) = 0x62 :: bare (gap ++ 0x3D :: more) :=
      bare_cons (fun heq => nomatch heq)
    have hequals : bare (0x3D :: more) = 0x3D :: bare more := bare_cons (fun heq => nomatch heq)
    rw [hpart, bare_space hspace, hletter, bare_space hgap, hequals] at hbare
    have htext : utf8 (tagText (bName, [])) ++ bare more = utf8 (tagText tag) := by
      rw [utf8_bName]
      exact hbare
    have hdecoded := congrArg fromUtf8Lossy htext
    rw [fromUtf8Lossy_append, fromUtf8Lossy_utf8] at hdecoded
    exact absurd (piece_inj (by decide) h.name hdecoded).1 (Ne.symm h.other)

theorem emptyFrom_b (sig : Str) (hsig : TagText sig) :
    emptyFrom false false true (0x20 :: utf8 (tagText (bName, sig))) =
      0x20 :: utf8 (tagText (bName, [])) := by
  have hbytes : utf8 (tagText (bName, sig)) = emptiedTag ++ utf8 sig := by
    have hsplit : tagText (bName, sig) = tagText (bName, []) ++ sig := rfl
    rw [hsplit, utf8_append, utf8_bName]
  have hfree : semicolon ∉ 0x3D :: utf8 sig := by
    apply List.not_mem_cons_of_ne_of_not_mem (by decide)
    exact fun hmem => (solid_of_mem_utf8 hsig.solid hmem).2.2.2 rfl
  rw [hbytes, utf8_bName]
  show 0x20 :: 0x62 :: 0x3D :: emptyFrom true false false (0x3D :: utf8 sig) = _
  rw [emptyFrom_skips hfree]
  rfl

/-- The tags in front of `b`, and `b` with its value. -/
def joinedTags (tags : List (Str × Str)) (sig : Str) : Str :=
  "; ".toList.intercalate (tags.map tagText ++ [tagText (bName, sig)])

theorem joinedTags_nil (sig : Str) : joinedTags [] sig = tagText (bName, sig) :=
  List.intercalate_singleton

theorem joinedTags_append (tags : List (Str × Str)) (sig : Str) :
    joinedTags tags [] ++ sig = joinedTags tags sig :=
  intercalate_concat _ _ _ _

theorem joinedTags_cons (tag : Str × Str) (tags : List (Str × Str)) (sig : Str) :
    0x20 :: utf8 (joinedTags (tag :: tags) sig) =
      (0x20 :: utf8 (tagText tag)) ++ semicolon :: 0x20 :: utf8 (joinedTags tags sig) := by
  have hne : tags.map tagText ++ [tagText (bName, sig)] ≠ [] :=
    List.append_ne_nil_of_right_ne_nil _ (List.cons_ne_nil _ _)
  have hsep : utf8 "; ".toList = [semicolon, 0x20] := by decide +kernel
  rw [joinedTags, List.map_cons, List.cons_append, List.intercalate_cons_of_ne_nil hne,
    List.append_assoc, utf8_append, utf8_append, hsep]
  rfl

theorem oneLine_joinedTags {tags : List (Str × Str)}
    (htags : forall tag, tag ∈ tags -> SolidTag tag) {sig : Str} (hsig : TagText sig) :
    OneLine (joinedTags tags sig) := by
  have hb : TagText (bName ++ ['=']) := by decide
  have hsep : OneLine "; ".toList := by decide
  have htext : forall text, text ∈ tags.map tagText ++ [tagText (bName, sig)] ->
      OneLine text := by
    intro text hmem
    apply oneLine_of_solid
    rcases List.mem_append.mp hmem with hmem | hmem
    · rcases List.mem_map.mp hmem with ⟨tag, htag, rfl⟩
      exact (htags tag htag).text
    · rw [List.mem_singleton.mp hmem, tagText_eq]
      exact (hb.append hsig).solid
  have hall : forall c, c ∈ joinedTags tags sig -> c ≠ '\r' ∧ c ≠ '\n' := by
    apply forall_mem_intercalate
    · intro c hc
      exact ⟨fun heq => hsep.1 (heq ▸ hc), fun heq => hsep.2 (heq ▸ hc)⟩
    · intro text hmem c hc
      exact ⟨fun heq => (htext text hmem).1 (heq ▸ hc), fun heq => (htext text hmem).2 (heq ▸ hc)⟩
  exact ⟨fun hmem => (hall _ hmem).1 rfl, fun hmem => (hall _ hmem).2 rfl⟩

theorem emptyFrom_joinedTags (htags : forall tag, tag ∈ tags -> SolidTag tag) {sig : Str}
    (hsig : TagText sig) :
    emptyFrom false false true (0x20 :: utf8 (joinedTags tags sig)) =
      0x20 :: utf8 (joinedTags tags []) := by
  induction tags with
  | nil =>
      rw [joinedTags_nil, joinedTags_nil]
      exact emptyFrom_b sig hsig
  | cons tag tags ih =>
      have htag := htags tag List.mem_cons_self
      have hfree := semicolon_not_mem_written htag
      rw [joinedTags_cons, emptyFrom_append hfree, emptyFrom_written htag,
        ih (List.forall_mem_cons.mp htags).2, joinedTags_cons]

theorem emptyBValue_joinedTags (hne : tags ≠ [])
    (htags : forall tag, tag ∈ tags -> SolidTag tag) {sig : Str} (hsig : TagText sig) :
    emptyBValue (0x20 :: utf8 (joinedTags tags sig)) = 0x20 :: utf8 (joinedTags tags []) := by
  cases tags with
  | nil => exact absurd rfl hne
  | cons tag tags =>
      have htag := htags tag List.mem_cons_self
      have hrest := (List.forall_mem_cons.mp htags).2
      rw [emptyBValue, joinedTags_cons, emptyFrom_append (semicolon_not_mem_written htag),
        emptyFrom_written htag, emptyFrom_joinedTags hrest hsig, joinedTags_cons]

theorem relax_unstarted (wsp : Bool) (value : Bytes) :
    relax wsp false value = relax false false value := by
  induction value using splitCrlf.induct with
  | case1 => rfl
  | case2 b => rw [relax, relax, Bool.and_false, Bool.and_false]
  | case3 b c value hpair ih =>
      rcases hpair with ⟨rfl, rfl⟩
      rw [relax_pair, relax_pair]
      exact ih
  | case4 b c value hpair ih => rw [relax, relax, if_neg hpair, if_neg hpair, Bool.and_false,
      Bool.and_false]

/-!
## Line feeds inside lines

A line feed without a carriage return before it stays inside a line, and the canonical body
keeps it there.
-/

/-- Every line feed ends a CRLF. -/
def Straight (b : Bytes) : Prop :=
  forall piece, piece ∈ splitCrlf b -> lf ∉ piece

theorem pairFree_of_no_lf (h : lf ∉ line) : PairFree line := by
  induction line with
  | nil => rfl
  | cons b line ih =>
      rcases List.ne_and_not_mem_of_not_mem_cons h with ⟨_, hline⟩
      apply pairFree_cons (ih hline)
      intro _ hhead
      exact hline (List.mem_of_mem_head? hhead)

theorem straight_lines (h : forall line, line ∈ lines -> lf ∉ line) {tail : Bytes}
    (htail : lf ∉ tail) : Straight (lines.flatMap (· ++ crlf) ++ tail) := by
  have hfree : splitCrlf tail = [tail] := pairFree_of_no_lf htail
  intro piece hpiece
  rw [splitCrlf_lines (fun line hline => pairFree_of_no_lf (h line hline)), hfree] at hpiece
  rcases List.mem_append.mp hpiece with hpiece | hpiece
  · exact h piece hpiece
  · rw [List.mem_singleton.mp hpiece]
    exact htail

theorem straight_of_no_lf {b : Bytes} (h : lf ∉ b) : Straight b :=
  straight_lines (fun _ hline => absurd hline List.not_mem_nil) h

theorem straight_append {front : Bytes} (hcr : cr ∉ front) (hlf : lf ∉ front)
    (hrest : Straight rest) : Straight (front ++ rest) := by
  rcases rejoin_splitCrlf rest with ⟨first, others, hsplit, _⟩
  rw [Straight, hsplit] at hrest
  intro piece hpiece
  rw [splitCrlf_append hcr, hsplit] at hpiece
  rcases List.mem_cons.mp hpiece with rfl | hpiece
  · intro hmem
    rcases List.mem_append.mp hmem with hmem | hmem
    · exact hlf hmem
    · exact hrest first List.mem_cons_self hmem
  · exact hrest piece (List.mem_cons_of_mem first hpiece)

theorem straight_crlf (hrest : Straight rest) : Straight (crlf ++ rest) := by
  intro piece hpiece
  have hfree : PairFree [] := rfl
  have hsplit : splitCrlf (crlf ++ rest) = [] :: splitCrlf rest := splitCrlf_line hfree rest
  rw [hsplit] at hpiece
  rcases List.mem_cons.mp hpiece with rfl | hpiece
  · exact List.not_mem_nil
  · exact hrest piece hpiece

theorem lines_of_straight {b : Bytes} (h : Straight b) :
    exists (lines : List Bytes) (tail : Bytes), (forall line, line ∈ lines -> lf ∉ line) ∧
      lf ∉ tail ∧ b = lines.flatMap (· ++ crlf) ++ tail := by
  rcases List.eq_nil_or_concat (splitCrlf b) with hnil | ⟨lines, tail, hsplit⟩
  · exact absurd hnil (splitCrlf_ne_nil b)
  · rw [List.concat_eq_append] at hsplit
    refine ⟨lines, tail, ?_, ?_, ?_⟩
    · intro line hline
      apply h
      rw [hsplit]
      exact List.mem_append_left _ hline
    · apply h
      rw [hsplit]
      exact List.mem_append_right _ List.mem_cons_self
    · have hjoined := flatMap_splitCrlf b
      rw [hsplit, List.flatMap_append, List.flatMap_singleton, <- List.append_assoc] at hjoined
      exact (List.append_cancel_right hjoined).symm

theorem head?_collapse_true (line : Bytes) : (collapse true line).head? ≠ some lf := by
  induction line with
  | nil =>
      intro hhead
      cases hhead
  | cons b line ih =>
      rw [collapse]
      split
      · exact ih
      · intro hhead
        cases hhead

theorem head?_collapse (h : (collapse false line).head? = some lf) : line.head? = some lf := by
  cases line with
  | nil => exact h
  | cons b line =>
      rw [collapse] at h
      split at h
      · exact absurd h (head?_collapse_true line)
      · exact h

theorem collapse_pairFree (h : PairFree line) (wsp : Bool) : PairFree (collapse wsp line) := by
  induction line generalizing wsp with
  | nil => rfl
  | cons b line ih =>
      rcases pairFree_of_cons h with ⟨hline, hb⟩
      rw [collapse]
      split
      · exact ih hline true
      · have hrest : PairFree (b :: collapse false line) :=
          pairFree_cons (ih hline false) (fun heq hhead => hb heq (head?_collapse hhead))
        cases wsp with
        | false => exact hrest
        | true => exact pairFree_cons hrest (fun heq => nomatch heq)

theorem mem_collapse {x : UInt8} (h : x ∈ line) (hx : isWsp x = false) (wsp : Bool) :
    x ∈ collapse wsp line := by
  induction line generalizing wsp with
  | nil => exact h
  | cons b line ih =>
      rw [collapse]
      split
      · rename_i hb
        rcases List.mem_cons.mp h with rfl | h
        · rw [hx] at hb
          cases hb
        · exact ih h true
      · rcases List.mem_cons.mp h with rfl | h
        · exact List.mem_append_right _ List.mem_cons_self
        · exact List.mem_append_right _ (List.mem_cons_of_mem b (ih h false))

theorem mem_of_mem_collapse {x : UInt8} (hx : isWsp x = false) {wsp : Bool}
    (h : x ∈ collapse wsp line) : x ∈ line := by
  induction line generalizing wsp with
  | nil => exact h
  | cons b line ih =>
      rw [collapse] at h
      split at h
      · exact List.mem_cons_of_mem b (ih h)
      · rcases List.mem_append.mp h with h | h
        · cases wsp with
          | false => cases h
          | true =>
              rw [List.mem_singleton.mp h] at hx
              cases hx
        · rcases List.mem_cons.mp h with rfl | h
          · exact List.mem_cons_self
          · exact List.mem_cons_of_mem b (ih h)

def bodyLines (body : Bytes) : List Bytes :=
  ((splitCrlf body).map (collapse false)).rdropWhile (·.isEmpty)

theorem splitCrlf_canonicalizeBody (body : Bytes) :
    splitCrlf (canonicalizeBody body) = bodyLines body ++ [[]] := by
  have hfree : forall line, line ∈ bodyLines body -> PairFree line := by
    intro line hline
    rcases List.mem_map.mp ((List.rdropWhile_prefix _ _).mem hline) with ⟨piece, hpiece, rfl⟩
    exact collapse_pairFree (pairFree_of_mem_splitCrlf hpiece) false
  have hlines := splitCrlf_lines hfree []
  rw [List.append_nil] at hlines
  exact hlines

theorem mem_rdropWhile {α : Type} {p : α -> Bool} {xs : List α} {x : α} (h : x ∈ xs)
    (hx : p x = false) : x ∈ xs.rdropWhile p := by
  have hall : xs.rdropWhile p ++ xs.rtakeWhile p = xs := List.rdropWhile_append_rtakeWhile
  rw [<- hall] at h
  rcases List.mem_append.mp h with h | h
  · exact h
  · rw [List.mem_rtakeWhile_imp h] at hx
    cases hx

theorem straight_of_canonicalizeBody {body other : Bytes} (hother : Straight other)
    (h : canonicalizeBody body = canonicalizeBody other) : Straight body := by
  have hpieces : bodyLines body ++ [[]] = bodyLines other ++ [[]] := by
    rw [<- splitCrlf_canonicalizeBody, <- splitCrlf_canonicalizeBody, h]
  have hlines : bodyLines body = bodyLines other := List.append_cancel_right hpieces
  intro piece hpiece hmem
  have hkept : lf ∈ collapse false piece := mem_collapse hmem rfl false
  have hline : collapse false piece ∈ bodyLines body := by
    apply mem_rdropWhile (List.mem_map_of_mem hpiece)
    rw [List.isEmpty_eq_false_iff]
    exact List.ne_nil_of_mem hkept
  rw [hlines] at hline
  rcases List.mem_map.mp ((List.rdropWhile_prefix _ _).mem hline) with ⟨piece', hpiece', heq⟩
  rw [<- heq] at hkept
  exact hother piece' hpiece' (mem_of_mem_collapse rfl hkept)

/-!
## Verifying what was signed
-/

variable {S : Suite}

theorem canonicalLine_space (value : Bytes) :
    canonicalLine (dkimName, 0x20 :: value) = canonicalLine (dkimName, value) := by
  rw [canonicalLine_dkim, canonicalLine_dkim, relax_wsp rfl, relax_unstarted]

theorem signedLines_cons {names : List Str}
    (h : forall name, name ∈ names -> named (trim name) header = false) (headers : List Header)
    (earlier : List Str) :
    signedLines (header :: headers) earlier names = signedLines headers earlier names := by
  induction names generalizing earlier with
  | nil => rfl
  | cons name names ih =>
      have hinstance : signedInstance (header :: headers) earlier name =
          signedInstance headers earlier name := by
        rw [signedInstance, signedInstance, List.reverse_cons, List.filter_append, List.filter_cons,
          h name List.mem_cons_self, if_neg Bool.false_ne_true, List.filter_nil, List.append_nil]
      rw [signedLines, signedLines, hinstance,
        ih (List.forall_mem_cons.mp h).2]

theorem findHeader_cons {headers : List Header} (hnone : findHeader headers name = none)
    (hnamed : named name header = true) : findHeader (header :: headers) name = some header := by
  rw [findHeader] at hnone
  rw [findHeader, List.reverse_cons, List.find?_append, hnone, List.find?_cons, hnamed]
  rfl

structure Unsigned (headers : List Header) : Prop where
  nonempty : headers ≠ []
  plain : forall header, header ∈ headers -> PlainHeader header
  unsigned : findHeader headers "dkim-signature".toList = none

theorem Unsigned.split {headers : List Header} (h : Unsigned headers) (body : Bytes) :
    splitHeadersBody (writtenHead headers ++ body) = (headers, body) :=
  splitHeadersBody_written h.nonempty h.plain body

/-- The names in `h=` of a message with the headers. -/
def nameTag (headers : List Header) : Str :=
  ":".toList.intercalate (signedNames headers)

section

variable (key : DkimKey S) (headers : List Header) (body : Bytes) (t : UInt64)

def signedTags : List (Str × Str) :=
  baseTags key.domain key.selector t (nameTag headers) (bodyHash S body)

/-- What `sign` puts into `b=`. -/
def signatureOf : FixedBytes 64 :=
  S.sign key.signing
    (S.sha256 (signingInput S key.domain key.selector (writtenHead headers ++ body) t)).toBytes

def signatureText : Str :=
  b64Encode (signatureOf key headers body t).toBytes

def signatureHeader : Header :=
  (dkimName, 0x20 :: utf8 (joinedTags (signedTags key headers body t)
    (signatureText key headers body t)))

end

variable {key : DkimKey S} {headers : List Header}

theorem baseFor_written (h : Unsigned headers) (body : Bytes) (t : UInt64) :
    baseFor S key.domain key.selector (writtenHead headers ++ body) t =
      joinedTags (signedTags key headers body t) [] := by
  rw [baseFor, h.split]
  exact headerBase_eq key.domain key.selector t (nameTag headers) (bodyHash S body)

theorem utf8_sign (h : Unsigned headers) (body : Bytes) (t : UInt64) :
    utf8 (sign S key (writtenHead headers ++ body) t) =
      writtenHeader (signatureHeader key headers body t) ++ crlf := by
  have hcolon : utf8 ": ".toList = [0x3A, 0x20] := by decide +kernel
  have hend : utf8 "\r\n".toList = crlf := by decide +kernel
  show utf8 (dkimName ++ ": ".toList ++
    baseFor S key.domain key.selector (writtenHead headers ++ body) t ++
    signatureText key headers body t ++ "\r\n".toList) = _
  rw [baseFor_written h, List.append_assoc (dkimName ++ ": ".toList), joinedTags_append,
    utf8_append, utf8_append, utf8_append, hcolon, hend, writtenHeader, signatureHeader]
  simp only [List.append_assoc, List.cons_append, List.nil_append]

theorem solid_signedTags (hdomain : SolidText key.domain) (hselector : SolidText key.selector)
    (body : Bytes) (t : UInt64) : forall tag, tag ∈ signedTags key headers body t -> SolidTag tag :=
  solid_baseTags hdomain hselector t (tagText_names headers) (tagText_b64Encode _)

theorem parseTags_signatureHeader (hdomain : SolidText key.domain) (hselector : SolidText key.selector)
    (body : Bytes) (t : UInt64) :
    parseTags (fromUtf8Lossy (signatureHeader key headers body t).2) =
      signedTags key headers body t ++ [(bName, signatureText key headers body t)] := by
  have hwritten := @solid_signedTags S key headers hdomain hselector body t
  have hname : TagText bName := by decide
  have hb : SolidText (tagText (bName, signatureText key headers body t)) :=
    (hname.append (TagText.cons (by decide) (tagText_b64Encode _))).solid
  have hspace : forall text : Str, 0x20 :: utf8 text = utf8 (' ' :: text) := fun _ => rfl
  have hjoined : joinedTags (signedTags key headers body t) (signatureText key headers body t) =
      "; ".toList.intercalate ((signedTags key headers body t ++
        [(bName, signatureText key headers body t)]).map tagText) := by
    rw [List.map_append, List.map_singleton]
    rfl
  rw [signatureHeader, hspace, fromUtf8Lossy_utf8, hjoined]
  apply parseTags_written (List.append_ne_nil_of_right_ne_nil _ (List.cons_ne_nil _ _))
  · intro tag htag
    rcases List.mem_append.mp htag with htag | htag
    · exact (hwritten tag htag).text
    · rw [List.mem_singleton.mp htag]
      exact hb
  · intro tag htag
    rcases List.mem_append.mp htag with htag | htag
    · exact (hwritten tag htag).name
    · rw [List.mem_singleton.mp htag]
      show '=' ∉ bName
      decide

theorem getTag_signatureHeader (hdomain : SolidText key.domain) (hselector : SolidText key.selector)
    {body : Bytes} {t : UInt64} {k v : Str}
    (h : (k, v) ∈ signedTags key headers body t ++ [(bName, signatureText key headers body t)]) :
    getTag (parseTags (fromUtf8Lossy (signatureHeader key headers body t).2)) k = some v := by
  have hnames : (signedTags key headers body t ++
      [(bName, signatureText key headers body t)]).map Prod.fst = ["v".toList, "a".toList,
      "c".toList, "d".toList, "s".toList, "t".toList, "h".toList, "bh".toList, "b".toList] := rfl
  rw [parseTags_signatureHeader hdomain hselector]
  apply getTag_of_mem _ h
  rw [hnames]
  decide +kernel

theorem plain_signatureHeader (hdomain : SolidText key.domain) (hselector : SolidText key.selector)
    (body : Bytes) (t : UInt64) : PlainHeader (signatureHeader key headers body t) where
  start := by
    have hname : utf8 dkimName = 0x44 :: utf8 "KIM-Signature".toList := by decide +kernel
    exact ⟨_, _, hname, rfl⟩
  noColon := by
    show (0x3A : UInt8) ∉ utf8 dkimName
    decide +kernel
  noReturn := by
    show cr ∉ utf8 dkimName
    decide +kernel
  folds := by
    have hline := @oneLine_joinedTags (signedTags key headers body t)
      (solid_signedTags hdomain hselector body t) (signatureText key headers body t)
      (tagText_b64Encode _)
    apply folds_of_pairFree
    apply pairFree_of_no_cr
    exact List.not_mem_cons_of_ne_of_not_mem (by decide) hline.bytes.1

theorem straight_signatureHeader (hdomain : SolidText key.domain) (hselector : SolidText key.selector)
    (body : Bytes) (t : UInt64) :
    Straight (writtenHeader (signatureHeader key headers body t)) := by
  have hname : cr ∉ utf8 dkimName ∧ lf ∉ utf8 dkimName := by decide +kernel
  have hline := @oneLine_joinedTags (signedTags key headers body t)
    (solid_signedTags hdomain hselector body t) (signatureText key headers body t)
    (tagText_b64Encode _)
  apply straight_append hname.1 hname.2
  apply straight_of_no_lf
  apply List.not_mem_cons_of_ne_of_not_mem (by decide)
  exact List.not_mem_cons_of_ne_of_not_mem (by decide) hline.bytes.2

theorem verifyInput_signatureHeader (h : Unsigned headers) (hdomain : SolidText key.domain)
    (hselector : SolidText key.selector) (body : Bytes) (t : UInt64) :
    verifyInput (signatureHeader key headers body t :: headers)
        (signatureHeader key headers body t).2 (signedNames headers) =
      signingInput S key.domain key.selector (writtenHead headers ++ body) t := by
  have hother : forall name, name ∈ signedHeaders ->
      eqIgnoreCase (trim dkimName) (trim name) = false := by decide +kernel
  have hnamed : forall name, name ∈ signedNames headers ->
      named (trim name) (signatureHeader key headers body t) = false :=
    fun name hname => hother name (mem_signedHeaders_of_mem hname)
  have hlines : signedLines (signatureHeader key headers body t :: headers) []
      (signedNames headers) = signedLines headers [] (signedNames headers) :=
    signedLines_cons hnamed headers []
  have hempty : emptyBValue (signatureHeader key headers body t).2 =
      0x20 :: utf8 (joinedTags (signedTags key headers body t) []) :=
    emptyBValue_joinedTags (List.cons_ne_nil _ _)
      (solid_signedTags hdomain hselector body t) (tagText_b64Encode _)
  rw [verifyInput, assembleSignedHeaders, hlines, hempty, canonicalLine_space, signingInput,
    baseFor_written h, h.split]
  rfl

structure SignsFor (S : Suite) (key : DkimKey S) : Prop where
  validKey : S.validKey (S.verifyingKey key.signing) = true
  verifies : forall digest, S.verifies (S.verifyingKey key.signing) digest
    (S.sign key.signing digest) = true

theorem signed_written (h : Unsigned headers) (body arrived : Bytes) (t : UInt64) :
    utf8 (sign S key (writtenHead headers ++ body) t) ++ (writtenHead headers ++ arrived) =
      writtenHead (signatureHeader key headers body t :: headers) ++ arrived := by
  rw [utf8_sign h, writtenHead, writtenHead, List.flatMap_cons]
  simp only [List.append_assoc]

theorem splitHeadersBody_signed (h : Unsigned headers) (hdomain : SolidText key.domain)
    (hselector : SolidText key.selector) (body arrived : Bytes) (t : UInt64) :
    splitHeadersBody (writtenHead (signatureHeader key headers body t :: headers) ++ arrived) =
      (signatureHeader key headers body t :: headers, arrived) := by
  apply splitHeadersBody_written (List.cons_ne_nil _ _)
  intro header hheader
  rcases List.mem_cons.mp hheader with rfl | hheader
  · exact plain_signatureHeader hdomain hselector body t
  · exact h.plain header hheader

theorem findHeader_signed (h : Unsigned headers) (body : Bytes) (t : UInt64) :
    findHeader (signatureHeader key headers body t :: headers) "dkim-signature".toList =
      some (signatureHeader key headers body t) := by
  apply findHeader_cons h.unsigned
  show eqIgnoreCase (trim dkimName) "dkim-signature".toList = true
  decide +kernel

theorem accepted_signed (hsigns : SignsFor S key) (hdomain : SolidText key.domain)
    (hselector : SolidText key.selector) (h : Unsigned headers) {body arrived : Bytes} {t : UInt64}
    (hbody : bodyHash S arrived = bodyHash S body) :
    Accepted S (writtenHead (signatureHeader key headers body t :: headers) ++ arrived)
      (S.verifyingKey key.signing).toBytes (signatureHeader key headers body t).2
      (nameTag headers) (signatureText key headers body t) (S.verifyingKey key.signing)
      (signatureOf key headers body t) := by
  have htag {k v : Str} := @getTag_signatureHeader S key headers hdomain hselector body t k v
  constructor
  · rw [splitHeadersBody_signed h hdomain hselector]
    exact ⟨dkimName, findHeader_signed h body t⟩
  · exact htag (List.mem_append_left _ (List.mem_of_getElem? (i := 1) rfl))
  · exact Or.inl (htag (List.mem_append_left _ (List.mem_of_getElem? (i := 2) rfl)))
  · rw [splitHeadersBody_signed h hdomain hselector, hbody]
    exact htag (List.mem_append_left _ (List.mem_of_getElem? (i := 7) rfl))
  · exact htag (List.mem_append_left _ (List.mem_of_getElem? (i := 6) rfl))
  · exact htag (List.mem_append_right _ (List.mem_of_getElem? (i := 0) rfl))
  · rw [nameTag, namesOf_signedNames, signedNames, List.any_append]
    exact Bool.or_eq_true_iff.mpr (Or.inr (by decide +kernel))
  · exact dif_pos (S.verifyingKey key.signing).length_eq
  · exact hsigns.validKey
  · exact ⟨_, b64Decode_b64Encode _, dif_pos (signatureOf key headers body t).length_eq⟩
  · rw [splitHeadersBody_signed h hdomain hselector, nameTag, namesOf_signedNames]
    dsimp only
    rw [verifyInput_signatureHeader h hdomain hselector]
    exact hsigns.verifies _

theorem verify_signed_iff (hsigns : SignsFor S key) (hdomain : SolidText key.domain)
    (hselector : SolidText key.selector) (h : Unsigned headers) (body arrived : Bytes)
    (t : UInt64) :
    verify S (utf8 (sign S key (writtenHead headers ++ body) t) ++ (writtenHead headers ++ arrived))
        (S.verifyingKey key.signing).toBytes = .ok () <->
      bodyHash S arrived = bodyHash S body := by
  rw [signed_written h, verify_eq_ok_iff]
  constructor
  · intro haccepted
    rcases haccepted with ⟨value, hTag, bTag, vk, sig, haccepted⟩
    rcases haccepted.header with ⟨name, hfound⟩
    have hbody := haccepted.body
    rw [splitHeadersBody_signed h hdomain hselector] at hfound hbody
    dsimp only at hfound hbody
    rw [findHeader_signed h] at hfound
    have hvalue : (signatureHeader key headers body t).2 = value :=
      congrArg Prod.snd (Option.some.inj hfound)
    have hsigned := @getTag_signatureHeader S key headers hdomain hselector body t _ _
      (List.mem_append_left _ (List.mem_of_getElem? (i := 7) rfl))
    rw [<- hvalue, hsigned] at hbody
    exact (Option.some.inj hbody).symm
  · intro hbody
    exact ⟨_, _, _, _, _, accepted_signed hsigns hdomain hselector h hbody⟩

end Dkim
end Gateway
end Ephor
