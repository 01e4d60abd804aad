import Mathlib.Data.List.Nodup
import Mathlib.Data.Set.Function
import Ephor.Gateway.DkimTags

/-!
# What a verified signature stands for

A signature that verifies is for a message that was signed, and the message at hand has the
signed body and the signed headers.  The verifier reads the entries of `h=` and the body's
hash out of the header that it checks, so the proof goes from the canonical form of that
header back to its tags, and from the lines of the signing input back to the headers.
-/

namespace Ephor
namespace Gateway
namespace Dkim

open Foundation
open Foundation.Text

/-!
## The lines of the signed headers
-/

/-- A name in the form in which `h=` has it. -/
structure CanonicalName (name : Str) : Prop where
  trimmed : trim name = name
  lowered : lower name = name
  noColon : (0x3A : UInt8) ∉ utf8 name
  noReturn : cr ∉ utf8 name

variable {name : Str} {header : Header} {earlier names : List Str}

theorem canonicalName_of_mem (h : name ∈ signedHeaders) : CanonicalName name := by
  have htrim : forall name, name ∈ signedHeaders -> trim name = name := by decide +kernel
  have hlower : forall name, name ∈ signedHeaders -> lower name = name := by decide +kernel
  have hcolon : forall name, name ∈ signedHeaders -> (0x3A : UInt8) ∉ utf8 name := by
    decide +kernel
  have hreturn : forall name, name ∈ signedHeaders -> cr ∉ utf8 name := by decide +kernel
  exact ⟨htrim name h, hlower name h, hcolon name h, hreturn name h⟩

theorem from_mem_signedHeaders : "from".toList ∈ signedHeaders := by decide +kernel

theorem canonicalLine_of_named (hname : CanonicalName name) (h : named name header = true) :
    canonicalLine header = utf8 name ++ 0x3A :: relax false false header.2 := by
  have hlower := lower_eq_of_eqIgnoreCase h
  rw [canonicalLine, hlower, hname.lowered]

theorem eq_of_eqIgnoreCase {a b : Str} (ha : CanonicalName a) (hb : CanonicalName b)
    (h : eqIgnoreCase a b = true) : a = b := by
  have hlower := lower_eq_of_eqIgnoreCase h
  rw [ha.lowered, hb.lowered] at hlower
  exact hlower

def lineName (line : Bytes) : Bytes :=
  line.takeWhile (· != 0x3A)

theorem lineName_of_named (hname : CanonicalName name) (h : named name header = true) :
    lineName (canonicalLine header) = utf8 name := by
  rw [canonicalLine_of_named hname h, lineName, List.takeWhile_append_of_pos]
  · rw [List.takeWhile_cons_of_neg (by decide), List.append_nil]
  · intro b hb
    apply bne_iff_ne.mpr
    intro heq
    exact hname.noColon (heq ▸ hb)

theorem lineName_append {front : Bytes} (h : 0x3A ∈ front) (rest : Bytes) :
    lineName (front ++ rest) = lineName front := by
  induction front with
  | nil => cases h
  | cons b front ih =>
      rw [lineName, lineName, List.cons_append, List.takeWhile_cons, List.takeWhile_cons]
      split
      · rename_i hb
        have hmem := (List.mem_cons.mp h).resolve_left (Ne.symm (bne_iff_ne.mp hb))
        exact congrArg (List.cons b) (ih hmem)
      · rfl

/-- The headers of a name, the bottom one first. -/
def instances (headers : List Header) (name : Str) : List Header :=
  headers.reverse.filter (named name)

theorem findHeader_eq_head? (headers : List Header) (name : Str) :
    findHeader headers name = (instances headers name).head? := by
  rw [findHeader, instances, List.head?_filter]

theorem signedLines_append (headers : List Header) (earlier names more : List Str) :
    signedLines headers earlier (names ++ more) =
      signedLines headers earlier names ++ signedLines headers (earlier ++ names) more := by
  induction names generalizing earlier with
  | nil => rw [List.append_nil]; rfl
  | cons name names ih =>
      rw [List.cons_append, signedLines, signedLines, ih, List.append_assoc, List.append_assoc]
      rfl

def bottomLines (headers : List Header) (names : List Str) : List Bytes :=
  names.filterMap fun name => (findHeader headers name).map canonicalLine

theorem taken_eq_count (hname : CanonicalName name)
    (hearlier : forall m, m ∈ earlier -> CanonicalName m) :
    (earlier.filter fun m => eqIgnoreCase (trim m) (trim name)).length = earlier.count name := by
  rw [List.count_eq_length_filter]
  apply congrArg List.length
  apply List.filter_congr
  intro m hm
  have hm' := hearlier m hm
  rw [hm'.trimmed, hname.trimmed]
  rw [Bool.eq_iff_iff, beq_iff_eq]
  constructor
  · exact eq_of_eqIgnoreCase hm' hname
  · intro heq
    rw [heq, eqIgnoreCase]
    exact beq_self_eq_true _

theorem signedInstance_eq (hname : CanonicalName name)
    (hearlier : forall m, m ∈ earlier -> CanonicalName m) (headers : List Header) :
    signedInstance headers earlier name = (instances headers name)[earlier.count name]? := by
  rw [signedInstance, taken_eq_count hname hearlier, hname.trimmed]
  rfl

theorem signedLines_nodup (headers : List Header) (hnodup : names.Nodup)
    (hearlier : forall m, m ∈ earlier -> CanonicalName m)
    (hnames : forall m, m ∈ names -> CanonicalName m)
    (hapart : forall m, m ∈ names -> m ∉ earlier) :
    signedLines headers earlier names = bottomLines headers names := by
  induction names generalizing earlier with
  | nil => rfl
  | cons name names ih =>
      have hname := hnames name List.mem_cons_self
      rcases List.nodup_cons.mp hnodup with ⟨hnotmem, hrest⟩
      have hcount : earlier.count name = 0 :=
        List.count_eq_zero_of_not_mem (hapart name List.mem_cons_self)
      rw [signedLines, signedInstance_eq hname hearlier, hcount, <- List.head?_eq_getElem?,
        <- findHeader_eq_head?, ih hrest]
      · rw [bottomLines, bottomLines, List.filterMap_cons]
        cases findHeader headers name with
        | none | some header => rfl
      · intro m hm
        rcases List.mem_append.mp hm with hm | hm
        · exact hearlier m hm
        · rw [List.mem_singleton.mp hm]
          exact hname
      · exact (List.forall_mem_cons.mp hnames).2
      · intro m hm hmem
        rcases List.mem_append.mp hmem with hmem | hmem
        · exact hapart m (List.mem_cons_of_mem name hm) hmem
        · rw [List.mem_singleton.mp hmem] at hm
          exact hnotmem hm

/-!
## Matching lines

The names of the signed lines are a list without repetition, and the entry that signs
`from` once more has no line.  A message with the same lines has a header for every name,
and no second `From`: its line would stand at the end, where the signed lines have none.
-/

def present (headers : List Header) (name : Str) : Bool :=
  (findHeader headers name).isSome

def fromName : Str := "from".toList

/-- The line of the entry that signs `from` once more. -/
def extraLine (headers : List Header) (names : List Str) : List Bytes :=
  ((instances headers fromName)[names.count fromName]?).toList.map canonicalLine

theorem canonicalName_from : CanonicalName fromName :=
  canonicalName_of_mem from_mem_signedHeaders

theorem signedLines_eq (headers : List Header) (hnodup : names.Nodup)
    (hnames : forall m, m ∈ names -> CanonicalName m) :
    signedLines headers [] (names ++ [fromName]) =
      bottomLines headers names ++ extraLine headers names := by
  rw [signedLines_append, signedLines_nodup headers hnodup (fun _ hm => absurd hm List.not_mem_nil)
    hnames (fun _ _ => List.not_mem_nil), List.nil_append, signedLines,
    signedInstance_eq canonicalName_from hnames, signedLines, List.append_nil]
  rfl

theorem named_of_findHeader {headers : List Header} (h : findHeader headers name = some header) :
    named name header = true :=
  List.find?_some h

theorem named_of_mem_instances {headers : List Header} (h : header ∈ instances headers name) :
    named name header = true :=
  (List.mem_filter.mp h).2

theorem lineName_bottomLines (headers : List Header)
    (hnames : forall m, m ∈ names -> CanonicalName m) :
    (bottomLines headers names).map lineName = (names.filter (present headers)).map utf8 := by
  induction names with
  | nil => rfl
  | cons name names ih =>
      have htail := ih (List.forall_mem_cons.mp hnames).2
      rw [bottomLines] at htail
      rw [bottomLines, List.filterMap_cons, List.filter_cons, present]
      cases hfind : findHeader headers name with
      | none => exact htail
      | some header =>
          have hname := lineName_of_named (hnames name List.mem_cons_self)
            (named_of_findHeader hfind)
          rw [Option.isSome_some, if_pos rfl, List.map_cons, <- htail, <- hname]
          rfl

theorem lineName_extraLine (headers : List Header) (names : List Str) :
    extraLine headers names = [] ∨
      (extraLine headers names).map lineName = [utf8 fromName] ∧
        names.count fromName < (instances headers fromName).length := by
  rw [extraLine]
  cases hget : (instances headers fromName)[names.count fromName]? with
  | none => exact Or.inl rfl
  | some header =>
      rcases List.getElem?_eq_some_iff.mp hget with ⟨hlt, _⟩
      have hnamed := named_of_mem_instances (List.mem_of_getElem? hget)
      apply Or.inr
      refine ⟨?_, hlt⟩
      show [lineName (canonicalLine header)] = [utf8 fromName]
      rw [lineName_of_named canonicalName_from hnamed]

theorem present_iff_instances {headers : List Header} :
    present headers name = true <-> 0 < (instances headers name).length := by
  rw [present, findHeader_eq_head?, List.isSome_head?, List.length_pos_iff]

theorem extraLine_of_single {headers : List Header}
    (hfrom : present headers fromName = true -> fromName ∈ names)
    (hsingle : (instances headers fromName).length <= 1) : extraLine headers names = [] := by
  rcases lineName_extraLine headers names with hnil | ⟨_, hlt⟩
  · exact hnil
  · have hmem := hfrom (present_iff_instances.mpr (by omega))
    have hcount := List.count_pos_iff.mpr hmem
    omega

theorem present_of_lines {headers headers' : List Header} (hnodup : names.Nodup)
    (hnames : forall m, m ∈ names -> CanonicalName m)
    (hall : forall m, m ∈ names -> present headers m = true)
    (h : bottomLines headers' names ++ extraLine headers' names = bottomLines headers names) :
    (forall m, m ∈ names -> present headers' m = true) ∧ extraLine headers' names = [] := by
  have hlineNames := congrArg (List.map lineName) h
  rw [List.map_append, lineName_bottomLines headers' hnames, lineName_bottomLines headers hnames,
    List.filter_eq_self.mpr hall] at hlineNames
  rcases lineName_extraLine headers' names with hnil | ⟨hextra, hlt⟩
  · rw [hnil, List.map_nil, List.append_nil] at hlineNames
    have hfilter := List.map_injective_iff.mpr (fun _ _ => utf8_injective) hlineNames
    exact ⟨List.filter_eq_self.mp hfilter, hnil⟩
  · -- The extra line would be a second entry `from` among the names.
    have hmap : ((names.filter (present headers')) ++ [fromName]).map utf8 = names.map utf8 := by
      rw [List.map_append, <- hlineNames, hextra]
      rfl
    have hlist := List.map_injective_iff.mpr (fun _ _ => utf8_injective) hmap
    have hpresent : present headers' fromName = true :=
      present_iff_instances.mpr (Nat.lt_of_le_of_lt (Nat.zero_le _) hlt)
    have hmem : fromName ∈ names := by
      rw [<- hlist]
      exact List.mem_append_right _ List.mem_cons_self
    have htwice : fromName ∈ names.filter (present headers') :=
      List.mem_filter.mpr ⟨hmem, hpresent⟩
    rw [<- hlist] at hnodup
    have hapart := (List.nodup_append.mp hnodup).2.2
    exact absurd rfl (hapart fromName htwice fromName List.mem_cons_self)

theorem eq_of_filterMap_eq {α β : Type} {f g : α -> Option β} {xs : List α}
    (hf : forall x, x ∈ xs -> (f x).isSome = true) (hg : forall x, x ∈ xs -> (g x).isSome = true)
    (h : xs.filterMap f = xs.filterMap g) : forall x, x ∈ xs -> f x = g x := by
  induction xs with
  | nil => exact fun _ hx => absurd hx List.not_mem_nil
  | cons x xs ih =>
      rcases Option.isSome_iff_exists.mp (hf x List.mem_cons_self) with ⟨a, ha⟩
      rcases Option.isSome_iff_exists.mp (hg x List.mem_cons_self) with ⟨b, hb⟩
      rw [List.filterMap_cons_some ha, List.filterMap_cons_some hb] at h
      injection h with hhead htail
      intro y hy
      rcases List.mem_cons.mp hy with rfl | hy
      · rw [ha, hb, hhead]
      · exact ih (List.forall_mem_cons.mp hf).2
          (List.forall_mem_cons.mp hg).2 htail y hy

theorem instances_of_single {headers : List Header} (h : (instances headers name).length <= 1) :
    instances headers name = (findHeader headers name).toList := by
  rw [findHeader_eq_head?]
  cases hinst : instances headers name with
  | nil => rfl
  | cons header rest =>
      rw [hinst, List.length_cons] at h
      have hrest : rest = [] := List.eq_nil_of_length_eq_zero (by omega)
      rw [hrest]
      rfl

theorem isSome_canonical {headers : List Header} (h : present headers name = true) :
    ((findHeader headers name).map canonicalLine).isSome = true := by
  rw [Option.isSome_map]
  exact h

theorem headers_match {headers headers' : List Header} (hnodup : names.Nodup)
    (hnames : forall m, m ∈ names -> CanonicalName m)
    (hall : forall m, m ∈ names -> present headers m = true)
    (hfrom : present headers fromName = true -> fromName ∈ names)
    (hsingle : (instances headers fromName).length <= 1)
    (h : signedLines headers' [] (names ++ [fromName]) =
      signedLines headers [] (names ++ [fromName])) :
    (instances headers' fromName).map canonicalLine =
        (instances headers fromName).map canonicalLine ∧
      (instances headers' fromName).length <= 1 ∧
      forall m, m ∈ names ->
        (findHeader headers' m).map canonicalLine = (findHeader headers m).map canonicalLine := by
  rw [signedLines_eq headers' hnodup hnames, signedLines_eq headers hnodup hnames,
    extraLine_of_single hfrom hsingle, List.append_nil] at h
  rcases present_of_lines hnodup hnames hall h with ⟨hall', hextra⟩
  rw [hextra, List.append_nil] at h
  have hlines := eq_of_filterMap_eq (fun m hm => isSome_canonical (hall' m hm))
    (fun m hm => isSome_canonical (hall m hm)) h
  -- No line of the extra entry: the other message has no `From` beyond the signed one.
  have hbound : (instances headers' fromName).length <= names.count fromName := by
    rw [extraLine, List.map_eq_nil_iff, Option.toList_eq_nil_iff, List.getElem?_eq_none_iff]
      at hextra
    exact hextra
  have hcount : names.count fromName <= 1 := List.nodup_iff_count_le_one.mp hnodup fromName
  have hsingle' := Nat.le_trans hbound hcount
  refine ⟨?_, hsingle', hlines⟩
  by_cases hmem : fromName ∈ names
  · rw [instances_of_single hsingle', instances_of_single hsingle, <- Option.toList_map,
      <- Option.toList_map, hlines fromName hmem]
  · rw [List.count_eq_zero_of_not_mem hmem] at hbound
    have hnone : ¬ 0 < (instances headers fromName).length :=
      fun hpos => hmem (hfrom (present_iff_instances.mpr hpos))
    rw [List.eq_nil_of_length_eq_zero (Nat.le_zero.mp hbound),
      List.eq_nil_of_length_eq_zero (Nat.eq_zero_of_not_pos hnone)]

/-!
## The signing input
-/

theorem mem_signedLines {headers : List Header} {line : Bytes}
    (h : line ∈ signedLines headers earlier names) :
    exists name header, name ∈ names ∧ header ∈ headers ∧ named (trim name) header = true ∧
      line = canonicalLine header := by
  induction names generalizing earlier with
  | nil => cases h
  | cons name names ih =>
      rw [signedLines] at h
      rcases List.mem_append.mp h with h | h
      · rcases List.mem_map.mp h with ⟨header, hheader, rfl⟩
        have hmem := List.mem_of_getElem? (Option.mem_toList.mp hheader)
        rcases List.mem_filter.mp hmem with ⟨hmem, hnamed⟩
        exact ⟨name, header, List.mem_cons_self, List.mem_reverse.mp hmem, hnamed, rfl⟩
      · rcases ih h with ⟨other, header, hother, hrest⟩
        exact ⟨other, header, List.mem_cons_of_mem name hother, hrest⟩

theorem mem_of_mem_trim {text : Str} {c : Char} (h : c ∈ trim text) : c ∈ text := by
  have hsuffix := (List.dropWhile_suffix isWhiteSpace).mem
    ((List.rdropWhile_prefix isWhiteSpace _).mem h)
  exact hsuffix

theorem cr_not_mem_lower {text : Str} (h : '\r' ∉ text) : cr ∉ utf8 (lower text) := by
  intro hmem
  have hchar := mem_of_mem_utf8 (by decide) hmem
  rcases List.mem_map.mp hchar with ⟨c, hc, heq⟩
  have hnat := congrArg Char.toNat heq
  have hreturn : (asciiChar cr).toNat = 13 := rfl
  rw [toNat_toLower, hreturn] at hnat
  have hc13 : c.toNat = 13 := by
    split at hnat <;> omega
  have hcr : c = '\r' := by
    rw [<- Char.ofNat_toNat c, hc13]
  exact h (hcr ▸ hc)

theorem pairFree_signedLines {headers : List Header}
    (hheaders : forall header, header ∈ headers -> Folds header.2)
    (hnames : forall name, name ∈ names -> '\r' ∉ name) :
    forall line, line ∈ signedLines headers earlier names -> PairFree line := by
  intro line hline
  rcases mem_signedLines hline with ⟨name, header, hname, hheader, hnamed, rfl⟩
  have hlower := lower_eq_of_eqIgnoreCase hnamed
  have hfront : cr ∉ utf8 (lower (trim name)) ++ [0x3A] := by
    intro hmem
    rcases List.mem_append.mp hmem with hmem | hmem
    · exact cr_not_mem_lower (fun hcr => hnames name hname (mem_of_mem_trim hcr)) hmem
    · exact absurd hmem (by decide)
  have hrelax := relax_pairFree (hheaders header hheader) false false
  have hline : canonicalLine header =
      (utf8 (lower (trim name)) ++ [0x3A]) ++ relax false false header.2 := by
    rw [canonicalLine, hlower, List.append_assoc]
    rfl
  rw [hline]
  exact pairFree_append hfront hrelax

/-- What the signature's own header starts with. -/
def dkimFront : Bytes :=
  utf8 "dkim-signature:".toList

theorem canonicalLine_dkim (value : Bytes) :
    canonicalLine (dkimName, value) = dkimFront ++ relax false false value := by
  have hfront : utf8 (lower (trim dkimName)) ++ [0x3A] = dkimFront := by decide +kernel
  rw [canonicalLine, <- hfront, List.append_assoc]
  rfl

theorem not_starts_dkimFront {headers : List Header}
    (hnames : forall name, name ∈ names -> name ∈ signedHeaders) :
    forall line, line ∈ signedLines headers [] names -> ¬ dkimFront <+: line := by
  have hother : forall name, name ∈ signedHeaders -> lineName dkimFront ≠ utf8 name := by
    decide +kernel
  intro line hline hprefix
  rcases mem_signedLines hline with ⟨name, header, hname, _, hnamed, rfl⟩
  have hmem := hnames name hname
  have hcanonical := canonicalName_of_mem hmem
  rw [hcanonical.trimmed] at hnamed
  apply hother name hmem
  rw [<- lineName_of_named hcanonical hnamed]
  rcases hprefix with ⟨rest, hrest⟩
  rw [<- hrest, lineName_append (by decide +kernel)]

/-!
## The entries of `h=` and the body's hash
-/

theorem namesOf_join (hne : names ≠ []) (hcolon : forall name, name ∈ names -> ':' ∉ name)
    (htrim : forall name, name ∈ names -> trim name = name)
    (hempty : forall name, name ∈ names -> name ≠ []) :
    namesOf (":".toList.intercalate names) = names := by
  have hsep : ":".toList = [':'] := by decide
  rw [namesOf, hsep, List.splitOn_intercalate ':' hcolon hne, List.map_congr_left htrim,
    List.map_id', List.filter_eq_self]
  intro name hname
  rw [Bool.not_eq_true', List.isEmpty_eq_false_iff]
  exact hempty name hname

theorem mem_signedHeaders_of_mem {headers : List Header} (h : name ∈ signedNames headers) :
    name ∈ signedHeaders := by
  rcases List.mem_append.mp h with h | h
  · exact List.mem_of_mem_filter h
  · rw [List.mem_singleton.mp h]
    exact from_mem_signedHeaders

theorem namesOf_signedNames (headers : List Header) :
    namesOf (":".toList.intercalate (signedNames headers)) = signedNames headers := by
  have hcolon : forall name, name ∈ signedHeaders -> ':' ∉ name := by decide +kernel
  have hempty : forall name, name ∈ signedHeaders -> name ≠ [] := by decide +kernel
  apply namesOf_join
  · exact List.append_ne_nil_of_right_ne_nil _ (List.cons_ne_nil _ _)
  · exact fun name hname => hcolon name (mem_signedHeaders_of_mem hname)
  · exact fun name hname => (canonicalName_of_mem (mem_signedHeaders_of_mem hname)).trimmed
  · exact fun name hname => hempty name (mem_signedHeaders_of_mem hname)

theorem tagText_names (headers : List Header) :
    TagText (":".toList.intercalate (signedNames headers)) := by
  have htext : forall name, name ∈ signedHeaders -> TagText name := by decide +kernel
  exact tagText_intercalate (by decide)
    (fun name hname => htext name (mem_signedHeaders_of_mem hname))

theorem no_return_of_getTag {text k v : Str} (h : getTag (parseTags text) k = some v) :
    '\r' ∉ v := by
  rcases mem_parseTags_of_getTag h with ⟨part, _, hparse⟩
  rcases Option.map_eq_some_iff.mp hparse with ⟨⟨k', v'⟩, _, hpair⟩
  cases hpair
  intro hmem
  have hwhite := (List.mem_filter.mp hmem).2
  exact absurd hwhite (by decide)

theorem no_return_of_mem_namesOf {hTag : Str} (h : '\r' ∉ hTag) (hname : name ∈ namesOf hTag) :
    '\r' ∉ name := by
  rcases List.mem_map.mp (List.mem_of_mem_filter hname) with ⟨piece, hpiece, rfl⟩
  intro hmem
  exact h (mem_of_mem_splitOn hpiece (mem_of_mem_trim hmem))

/-!
## Verified messages
-/

variable {S : Suite}

structure SignCall (S : Suite) where
  key : DkimKey S
  message : Bytes
  t : UInt64

namespace SignCall

def headers (call : SignCall S) : List Header :=
  (splitHeadersBody call.message).1

def body (call : SignCall S) : Bytes :=
  (splitHeadersBody call.message).2

def input (call : SignCall S) : Bytes :=
  signingInput S call.key.domain call.key.selector call.message call.t

/-- The signed header value up to the value of `b`, and its tags. -/
def base (call : SignCall S) : Str :=
  baseFor S call.key.domain call.key.selector call.message call.t

def tags (call : SignCall S) : List (Str × Str) :=
  baseTags call.key.domain call.key.selector call.t
    (":".toList.intercalate (signedNames call.headers)) (bodyHash S call.body)

def digest (call : SignCall S) : FixedBytes 32 :=
  S.sha256 call.input

def hashed (call : SignCall S) : Set Bytes :=
  {canonicalizeBody call.body, call.input}

/-- The domain and the selector are plain, and one `From` header is there at most. -/
structure Plain (call : SignCall S) : Prop where
  domain : PlainName call.key.domain
  selector : PlainName call.key.selector
  singleFrom : (instances call.headers fromName).length <= 1

end SignCall

/-- What `verify` hashes. -/
def hashedInVerify (message : Bytes) : Set Bytes :=
  {b | b = canonicalizeBody (splitHeadersBody message).2 ∨
    exists header hTag,
      findHeader (splitHeadersBody message).1 "dkim-signature".toList = some header ∧
        getTag (parseTags (fromUtf8Lossy header.2)) "h".toList = some hTag ∧
        b = verifyInput (splitHeadersBody message).1 header.2 (namesOf hTag)}

/-- The message has the signed body and the signed headers, and no other `From`. -/
structure Carries (call : SignCall S) (message : Bytes) : Prop where
  body : canonicalizeBody (splitHeadersBody message).2 = canonicalizeBody call.body
  fromLine : (instances (splitHeadersBody message).1 fromName).map canonicalLine =
    (instances call.headers fromName).map canonicalLine
  singleFrom : (instances (splitHeadersBody message).1 fromName).length <= 1
  others : forall name, name ∈ signedHeaders -> present call.headers name = true ->
    (findHeader (splitHeadersBody message).1 name).map canonicalLine =
      (findHeader call.headers name).map canonicalLine

theorem signedNames_eq (headers : List Header) :
    signedNames headers = signedHeaders.filter (present headers) ++ [fromName] :=
  rfl

theorem base_eq (call : SignCall S) :
    call.base = headerBase call.key.domain call.key.selector call.t
      (":".toList.intercalate (signedNames call.headers)) (bodyHash S call.body) :=
  rfl

theorem input_inj {call : SignCall S} (hplain : call.Plain) {headers : List Header}
    (hfolds : forall header, header ∈ headers -> Folds header.2) {value : Bytes}
    (hnames : forall name, name ∈ names -> '\r' ∉ name)
    (h : verifyInput headers value names = call.input) :
    signedLines headers [] names = signedLines call.headers [] (signedNames call.headers) ∧
      relax false false (emptyBValue value) = relax false false (utf8 call.base) := by
  have hreturn : forall name, name ∈ signedHeaders -> '\r' ∉ name := by decide +kernel
  have hmem : forall name, name ∈ signedNames call.headers -> name ∈ signedHeaders :=
    fun name hname => mem_signedHeaders_of_mem hname
  have hcallFolds : forall header, header ∈ call.headers -> Folds header.2 :=
    fun header => folds_of_mem_headers
  have hbase : cr ∉ utf8 call.base :=
    cr_not_mem_base hplain.domain.tagText hplain.selector.tagText call.t
      (tagText_names call.headers) (tagText_b64Encode _)
  have hfront : cr ∉ dkimFront := by decide +kernel
  have hlast := pairFree_append hfront (relax_pairFree_of_no_cr hbase)
  have hinput : verifyInput headers value names =
      assembleSignedHeaders call.headers (signedNames call.headers) ++
        canonicalLine (dkimName, utf8 call.base) := h
  rw [verifyInput, canonicalLine_dkim, canonicalLine_dkim] at hinput
  rcases lines_inj
    (pairFree_signedLines hcallFolds (fun name hname => hreturn name (hmem name hname)))
    (pairFree_signedLines hfolds hnames) hlast hfront (not_starts_dkimFront hmem) hinput
    with ⟨hlines, hends⟩
  exact ⟨hlines, List.append_cancel_left hends⟩

theorem tags_of_relax {call : SignCall S} (hplain : call.Plain) {value : Bytes}
    (h : relax false false (emptyBValue value) = relax false false (utf8 call.base))
    {k v : Str} (hk : bareText k = k) (hother : k ≠ bName)
    (hget : getTag (parseTags (fromUtf8Lossy value)) k = some v) : (k, v) ∈ call.tags := by
  have hdomain := hplain.domain.tagText
  have hselector := hplain.selector.tagText
  have hhTag := tagText_names call.headers
  have hbh : TagText (bodyHash S call.body) := tagText_b64Encode _
  have hbare : bare (emptyBValue value) = bare (utf8 call.base) := by
    rw [<- filter_relax false false, <- filter_relax false false, h]
  have hparts := base_parts hdomain hselector call.t hhTag hbh
  rw [<- base_eq, <- hbare] at hparts
  exact mem_tags_of_getTag (written_baseTags hdomain hselector call.t hhTag hbh) hparts hk hother
    hget

theorem tag_unique {call : SignCall S} {k v v' : Str} (h : (k, v) ∈ call.tags)
    (h' : (k, v') ∈ call.tags) : v = v' := by
  have hnames : call.tags.map Prod.fst = ["v".toList, "a".toList, "c".toList, "d".toList,
    "s".toList, "t".toList, "h".toList, "bh".toList] := rfl
  have hnodup : (call.tags.map Prod.fst).Nodup := by
    rw [hnames]
    decide +kernel
  have htags := List.inj_on_of_nodup_map hnodup h h' rfl
  injection htags

theorem names_mem_tags (call : SignCall S) :
    ("h".toList, ":".toList.intercalate (signedNames call.headers)) ∈ call.tags :=
  List.mem_of_getElem? (i := 6) rfl

theorem body_mem_tags (call : SignCall S) : ("bh".toList, bodyHash S call.body) ∈ call.tags :=
  List.mem_of_getElem? (i := 7) rfl

theorem fixed?_toBytes {n : Nat} {a b : FixedBytes n} (h : fixed? n a.toBytes = some b) :
    b = a := by
  rw [fixed?, dif_pos a.length_eq] at h
  exact (Option.some.inj h).symm

theorem nodup_names (headers : List Header) : (signedHeaders.filter (present headers)).Nodup := by
  have hnodup : signedHeaders.Nodup := by decide +kernel
  exact hnodup.filter _

theorem verify_sound (S : Suite) (vk : FixedBytes 32) (calls : Set (SignCall S))
    (hplain : forall call, call ∈ calls -> call.Plain)
    (hsignatures : forall digest sig, S.verifies vk digest sig = true ->
      exists call, call ∈ calls ∧ call.digest.toBytes = digest)
    (message : Bytes)
    (hcollisions : Set.InjOn S.sha256
      (hashedInVerify message ∪ {b | exists call, call ∈ calls ∧ b ∈ call.hashed}))
    (h : verify S message vk.toBytes = .ok ()) :
    exists call, call ∈ calls ∧ Carries call message := by
  rcases (verify_eq_ok_iff S).mp h with ⟨value, hTag, bTag, vk', sig, haccepted⟩
  rcases haccepted.header with ⟨name, hheader⟩
  have hkey : vk' = vk := fixed?_toBytes haccepted.key
  have hverifies := haccepted.verifies
  rw [hkey] at hverifies
  rcases hsignatures _ _ hverifies with ⟨call, hcall, hdigest⟩
  have hcallPlain := hplain call hcall
  have hinput : verifyInput (splitHeadersBody message).1 value (namesOf hTag) = call.input := by
    apply hcollisions
    · exact Or.inl (Or.inr ⟨(name, value), hTag, hheader, haccepted.names, rfl⟩)
    · exact Or.inr ⟨call, hcall, Or.inr rfl⟩
    · exact FixedBytes.ext_toBytes hdigest.symm
  have hreturn := no_return_of_getTag haccepted.names
  rcases input_inj hcallPlain (fun header => folds_of_mem_headers)
    (fun name hname => no_return_of_mem_namesOf hreturn hname) hinput with ⟨hlines, hvalue⟩
  have hnames : hTag = _ :=
    tag_unique (tags_of_relax hcallPlain hvalue (by decide) (by decide) haccepted.names)
      (names_mem_tags call)
  have hbody : bodyHash S (splitHeadersBody message).2 = bodyHash S call.body :=
    tag_unique (tags_of_relax hcallPlain hvalue (by decide) (by decide) haccepted.body)
      (body_mem_tags call)
  rw [hnames, namesOf_signedNames, signedNames_eq] at hlines
  have hcanonical : forall m, m ∈ signedHeaders.filter (present call.headers) -> CanonicalName m :=
    fun m hm => canonicalName_of_mem (List.mem_of_mem_filter hm)
  rcases headers_match (nodup_names call.headers) hcanonical
    (fun m hm => (List.mem_filter.mp hm).2)
    (fun hfrom => List.mem_filter.mpr ⟨from_mem_signedHeaders, hfrom⟩) hcallPlain.singleFrom hlines
    with ⟨hfromLine, hsingle, hothers⟩
  refine ⟨call, hcall, ?_, hfromLine, hsingle, ?_⟩
  · apply hcollisions
    · exact Or.inl (Or.inl rfl)
    · exact Or.inr ⟨call, hcall, Or.inl rfl⟩
    · exact FixedBytes.ext_toBytes (b64Encode_injective hbody)
  · exact fun m hm hpresent => hothers m (List.mem_filter.mpr ⟨hm, hpresent⟩)

/-!
A signed message whose headers were folded and whose white space was changed on the way; the
digests, the key and the signature are those of SHA-256 and Ed25519.
-/

def greeting : Bytes :=
  bytesOf "From: alice@sender.example\r\nTo: bob@host.net\r\nSubject: hi\r\n\r\n" ++
    bytesOf "hello over the bridge\r\n"

def greetingBody : Bytes :=
  bytesOf "hello over the bridge\r\n"

def greetingBodyDigest : FixedBytes 32 :=
  FixedBytes.ofNat 0x9a7c97f7ddc2b8f6a6874d2bb28d08d98cd6f5bc14744fc3e06da1b800c88f0c

def greetingDigest : FixedBytes 32 :=
  FixedBytes.ofNat 0x374839bf892d7c071f312b828aceb8750b9235dd53d73500dd37d253f86bcad0

def greetingSignature : FixedBytes 64 :=
  FixedBytes.ofNat (0x3e8df6820c6d0cbe72ab91f70867a2f2c098b4b0eec4fafdca4844c14021df10 <<< 256 +
    0x66f3e78f1bc835b293aed2404f000711c3ca6ea284b0246c1fcfadf407d5d205)

def greetingSuite : Suite where
  SigningKey := Unit
  sha256 b := if b = greetingBody then greetingBodyDigest else greetingDigest
  sign _ _ := greetingSignature
  verifyingKey _ := greetingKey
  validKey vk := vk == greetingKey
  verifies vk digest sig := vk == greetingKey && digest == greetingDigest.toBytes &&
    sig == greetingSignature

def greetingCall : SignCall greetingSuite where
  key := ⟨"sender.example".toList, "s1".toList, ()⟩
  message := greeting
  t := 1752600000

def carried : Bytes :=
  bytesOf "DKIM-Signature: v=1; a=ed25519-sha256; c=relaxed/relaxed; d=sender.example; s=s1;" ++
    bytesOf "\r\n\tt=1752600000; h=from:to:subject:from;\r\n  " ++
    bytesOf "bh=mnyX993CuPamh00rso0I2YzW9bwUdE/D4G2huADIjww=; " ++
    bytesOf "b=Po32ggxtDL5yq5H3CGei8sCYtLDuxPr9ykhEwUAh\r\n " ++
    bytesOf "3xBm8+ePG8g1spOu0kBPAAcRw8puooSwJGwfz630B9XSBQ==\r\n" ++
    bytesOf "Received: by host.net\r\nFROM:   alice@sender.example\r\nto: bob@host.net\r\n" ++
    bytesOf "Subject: hi \r\n\r\nhello  over\tthe bridge \r\n\r\n"


theorem greetingCall_plain : greetingCall.Plain := by
  have hdomain : greetingCall.key.domain.all plainChar = true := by decide +kernel
  have hselector : greetingCall.key.selector.all plainChar = true := by decide +kernel
  exact ⟨List.all_eq_true.mp hdomain, List.all_eq_true.mp hselector, by decide +kernel⟩

def carriedHeader : Header :=
  (findHeader (splitHeadersBody carried).1 "dkim-signature".toList).getD ([], [])

theorem carried_evaluated :
    verify greetingSuite carried greetingKey.toBytes = .ok () ∧
      findHeader (splitHeadersBody carried).1 "dkim-signature".toList = some carriedHeader ∧
      getTag (parseTags (fromUtf8Lossy carriedHeader.2)) "h".toList =
        some "from:to:subject:from".toList ∧
      verifyInput (splitHeadersBody carried).1 carriedHeader.2
        (namesOf "from:to:subject:from".toList) = greetingCall.input ∧
      canonicalizeBody (splitHeadersBody carried).2 = greetingBody ∧
      canonicalizeBody greetingCall.body = greetingBody ∧
      greetingSuite.sha256 greetingBody = greetingBodyDigest ∧
      greetingCall.digest = greetingDigest := by
  decide +kernel

theorem hashed_carried {b : Bytes} (h : b ∈ hashedInVerify carried ∪
    {b | exists call, call ∈ ({greetingCall} : Set (SignCall greetingSuite)) ∧ b ∈ call.hashed}) :
    b = greetingBody ∨ b = greetingCall.input := by
  rcases carried_evaluated with ⟨_, hfound, htag, hinput, hbody', hcallBody, _⟩
  rcases h with (hbody | ⟨header, hTag, hheader, hnames, hb⟩) | ⟨call, hcall, hb⟩
  · exact Or.inl (hbody.trans hbody')
  · rw [hfound] at hheader
    rw [<- Option.some.inj hheader, htag] at hnames
    rw [<- Option.some.inj hheader, <- Option.some.inj hnames] at hb
    exact Or.inr (hb.trans hinput)
  · cases hcall
    rcases hb with hb | hb
    · exact Or.inl (hb.trans hcallBody)
    · exact Or.inr hb

theorem greetingSuite_injOn : Set.InjOn greetingSuite.sha256 (hashedInVerify carried ∪
    {b | exists call, call ∈ ({greetingCall} : Set (SignCall greetingSuite)) ∧
      b ∈ call.hashed}) := by
  rcases carried_evaluated with ⟨_, _, _, _, _, _, hbody, hinput⟩
  have hne : greetingBodyDigest ≠ greetingDigest := by decide +kernel
  intro a ha b hb hdigest
  rcases hashed_carried ha with rfl | rfl
  · rcases hashed_carried hb with rfl | rfl
    · rfl
    · exact absurd (hbody.symm.trans (hdigest.trans hinput)) hne
  · rcases hashed_carried hb with rfl | rfl
    · exact absurd (hbody.symm.trans (hdigest.symm.trans hinput)) hne
    · rfl

theorem carried_sound : verify greetingSuite carried greetingKey.toBytes = .ok () ∧
    exists call, call ∈ ({greetingCall} : Set (SignCall greetingSuite)) ∧
      Carries call carried := by
  rcases carried_evaluated with ⟨hverifies, _, _, _, _, _, _, hdigest⟩
  have hplain : forall call, call ∈ ({greetingCall} : Set (SignCall greetingSuite)) ->
      call.Plain := by
    intro call hcall
    rw [Set.mem_singleton_iff.mp hcall]
    exact greetingCall_plain
  have hsignatures : forall digest sig, greetingSuite.verifies greetingKey digest sig = true ->
      exists call, call ∈ ({greetingCall} : Set (SignCall greetingSuite)) ∧
        call.digest.toBytes = digest := by
    intro digest sig hsignature
    rcases Bool.and_eq_true_iff.mp hsignature with ⟨hboth, _⟩
    rcases Bool.and_eq_true_iff.mp hboth with ⟨_, hsame⟩
    refine ⟨greetingCall, Set.mem_singleton greetingCall, ?_⟩
    rw [hdigest]
    exact (eq_of_beq hsame).symm
  exact ⟨hverifies, verify_sound greetingSuite greetingKey {greetingCall} hplain hsignatures
    carried greetingSuite_injOn hverifies⟩

end Dkim
end Gateway
end Ephor
