import Ephor.Gateway.DkimCompleteness

/-!
# Signing, then verifying

A message of header fields, with an empty line and a body or without, verifies with the
signature in front of it, and the domain and selector read back are those of the key, unless
they hold a semicolon or white space.
-/

namespace Ephor
namespace Gateway
namespace Dkim

open Foundation
open Foundation.Text

/-!
## Messages
-/

def fieldLines (headers : List Header) : Bytes :=
  headers.flatMap fun header => writtenHeader header ++ crlf

/-- A message of the headers: an empty line and the body follow, or nothing does, and then the
last field need not be ended. -/
inductive MessageOf (headers : List Header) : Bytes -> Bytes -> Prop where
  | withBody (body : Bytes) : MessageOf headers (writtenHead headers ++ body) body
  | ended : MessageOf headers (fieldLines headers) []
  | unended {message : Bytes} : message ++ crlf = fieldLines headers ->
      MessageOf headers message []

theorem not_crlf_of_pairFree {b : Bytes} (h : PairFree b) : ¬ crlf <+: b := by
  intro hstart
  rcases hstart with ⟨rest, hrest⟩
  rw [<- hrest] at h
  exact (pairFree_of_cons h).2 rfl rfl

theorem findBlankLine_pairFree {b : Bytes} (h : PairFree b) : findBlankLine b = none := by
  induction b with
  | nil => rfl
  | cons x b ih =>
      rcases pairFree_of_cons h with ⟨hb, hx⟩
      rw [findBlankLine_cons hx, ih hb]
      rfl

theorem findBlankLine_lines {lines : List Bytes} {tail : Bytes}
    (hlines : forall line, line ∈ lines -> HeadLine line) (htail : PairFree tail) :
    findBlankLine (lines.flatMap (· ++ crlf) ++ tail) = none := by
  induction lines with
  | nil => exact findBlankLine_pairFree htail
  | cons line lines ih =>
      have hline := hlines line List.mem_cons_self
      have hrest := ih (List.forall_mem_cons.mp hlines).2
      have hnext : ¬ crlf <+: lines.flatMap (· ++ crlf) ++ tail := by
        cases lines with
        | nil => exact not_crlf_of_pairFree htail
        | cons second lines =>
            have hsecond := hlines second (List.mem_cons_of_mem line List.mem_cons_self)
            rw [List.flatMap_cons, List.append_assoc]
            exact not_crlf_of_line hsecond.free hsecond.nonempty _
      rw [List.flatMap_cons, List.append_assoc, findBlankLine_line hline.free hnext, hrest]
      rfl

theorem splitHeadersBody_lines {lines : List Bytes} {tail : Bytes}
    (hlines : forall line, line ∈ lines -> HeadLine line) (htail : PairFree tail) :
    splitHeadersBody (lines.flatMap (· ++ crlf) ++ tail) =
      ((lines ++ [tail]).foldl parseLine [], []) := by
  have hfree : splitCrlf tail = [tail] := htail
  rw [splitHeadersBody, findBlankLine_lines hlines htail, parseHeaders,
    splitCrlf_lines (fun line hline => (hlines line hline).free), hfree]

theorem fieldLines_eq (headers : List Header) :
    fieldLines headers =
      (headers.flatMap fun header => splitCrlf (writtenHeader header)).flatMap (· ++ crlf) := by
  have hhead := writtenHead_eq headers
  exact List.append_cancel_right hhead

theorem headLines {headers : List Header} (h : forall header, header ∈ headers -> PlainHeader header) :
    forall line, line ∈ (headers.flatMap fun header => splitCrlf (writtenHeader header)) ->
      HeadLine line := by
  intro line hline
  rcases List.mem_flatMap.mp hline with ⟨header, hheader, hpiece⟩
  exact headLine_of_written (h header hheader) line hpiece

variable {message body : Bytes}

theorem MessageOf.split {headers : List Header} (hmessage : MessageOf headers message body)
    (hne : headers ≠ []) (h : forall header, header ∈ headers -> PlainHeader header) :
    splitHeadersBody message = (headers, body) := by
  have hparse := parse_writtenHeaders h []
  rw [List.nil_append] at hparse
  cases hmessage with
  | withBody => exact splitHeadersBody_written hne h body
  | ended =>
      have hlines := splitHeadersBody_lines (headLines h) (rfl : PairFree [])
      rw [List.append_nil, <- fieldLines_eq, List.foldl_append, hparse] at hlines
      exact hlines
  | unended hend =>
      have hlines := headLines h
      rw [fieldLines_eq] at hend
      generalize (headers.flatMap fun header => splitCrlf (writtenHeader header)) = lines
        at hend hlines hparse
      rcases List.eq_nil_or_concat lines with hnil | ⟨front, last, hlast⟩
      · rw [hnil] at hend
        exact absurd hend (List.append_ne_nil_of_right_ne_nil _ (List.cons_ne_nil _ _))
      · rw [List.concat_eq_append] at hlast
        rw [hlast, List.flatMap_append, List.flatMap_singleton, <- List.append_assoc] at hend
        rw [List.append_cancel_right hend, splitHeadersBody_lines, <- hlast, hparse]
        · intro line hline
          exact hlines line (hlast ▸ List.mem_append_left _ hline)
        · exact (hlines last (hlast ▸ List.mem_append_right _ List.mem_cons_self)).free

/-!
## Signing
-/

def signingDomainSelector (message : Bytes) : Option (Str × Str) := do
  let (_, value) <- findHeader (splitHeadersBody message).1 "dkim-signature".toList
  let tags := parseTags (fromUtf8Lossy value)
  let domain <- getTag tags "d".toList
  let selector <- getTag tags "s".toList
  return (domain, selector)

theorem solid_of_getTag {text k v : Str} (h : getTag (parseTags text) k = some v) :
    SolidText v := by
  rcases mem_parseTags_of_getTag h with ⟨part, hpart, htag⟩
  rcases Option.map_eq_some_iff.mp htag with ⟨⟨k', v'⟩, hsplit, hpair⟩
  cases hpair
  intro c hc
  rcases List.mem_filter.mp hc with ⟨hmem, hwhite⟩
  have htrim : c ∈ trim part := by
    rw [(splitOnce_eq_some hsplit).1]
    exact List.mem_append_right _ (List.mem_cons_of_mem _ hmem)
  refine ⟨?_, Bool.not_eq_true' _ |>.mp hwhite⟩
  intro hsemicolon
  rw [hsemicolon] at htrim
  exact sep_not_mem_of_mem_splitOn hpart (mem_of_mem_trim htrim)

variable {S : Suite}

theorem sign_congr {other : Bytes} (h : splitHeadersBody message = splitHeadersBody other)
    (key : DkimKey S) (t : UInt64) : sign S key message t = sign S key other t := by
  rw [sign, sign, signingInput, signingInput, baseFor, baseFor, h]

theorem verify_congr {other : Bytes} (h : splitHeadersBody message = splitHeadersBody other)
    (publicKey : Bytes) : verify S message publicKey = verify S other publicKey := by
  rw [verify, verify, h]

variable {key : DkimKey S} {headers : List Header}

theorem MessageOf.unsigned (hmessage : MessageOf headers message body) (h : Unsigned headers) :
    splitHeadersBody message = (headers, body) :=
  hmessage.split h.nonempty h.plain

theorem utf8_sign_message (h : Unsigned headers) (hmessage : MessageOf headers message body)
    (t : UInt64) :
    utf8 (sign S key message t) = writtenHeader (signatureHeader key headers body t) ++ crlf := by
  have hsplit := (hmessage.unsigned h).trans (h.split body).symm
  rw [sign_congr hsplit, utf8_sign h]

theorem MessageOf.cons {message body : Bytes} (hmessage : MessageOf headers message body)
    (header : Header) :
    MessageOf (header :: headers) (writtenHeader header ++ crlf ++ message) body := by
  have hfields : fieldLines (header :: headers) =
      writtenHeader header ++ crlf ++ fieldLines headers := List.flatMap_cons
  cases hmessage with
  | withBody =>
      have hhead : writtenHead (header :: headers) =
          writtenHeader header ++ crlf ++ writtenHead headers := by
        rw [writtenHead, writtenHead, List.flatMap_cons, List.append_assoc]
      rw [<- List.append_assoc, <- hhead]
      exact MessageOf.withBody body
  | ended =>
      rw [<- hfields]
      exact MessageOf.ended
  | unended hend =>
      apply MessageOf.unended
      rw [List.append_assoc, hend, hfields]

theorem splitHeadersBody_signed_message (h : Unsigned headers) (hdomain : SolidText key.domain)
    (hselector : SolidText key.selector) (hmessage : MessageOf headers message body) (t : UInt64) :
    splitHeadersBody (utf8 (sign S key message t) ++ message) =
      (signatureHeader key headers body t :: headers, body) := by
  rw [utf8_sign_message h hmessage]
  apply (hmessage.cons (signatureHeader key headers body t)).split (List.cons_ne_nil _ _)
  intro header hheader
  rcases List.mem_cons.mp hheader with rfl | hheader
  · exact plain_signatureHeader hdomain hselector body t
  · exact h.plain header hheader

theorem signingDomainSelector_signed (h : Unsigned headers) (hdomain : SolidText key.domain)
    (hselector : SolidText key.selector) (hmessage : MessageOf headers message body) (t : UInt64) :
    signingDomainSelector (utf8 (sign S key message t) ++ message) =
      some (key.domain, key.selector) := by
  have htag {k v : Str} := @getTag_signatureHeader S key headers hdomain hselector body t k v
  rw [signingDomainSelector, splitHeadersBody_signed_message h hdomain hselector hmessage,
    findHeader_signed h]
  dsimp only [Option.bind_eq_bind, Option.bind_some]
  rw [htag (List.mem_append_left _ (List.mem_of_getElem? (i := 3) rfl)),
    htag (List.mem_append_left _ (List.mem_of_getElem? (i := 4) rfl))]
  rfl

theorem solid_of_signingDomainSelector {domain selector : Str}
    (h : signingDomainSelector message = some (domain, selector)) :
    SolidText domain ∧ SolidText selector := by
  rcases Option.bind_eq_some_iff.mp h with ⟨header, _, h⟩
  rcases Option.bind_eq_some_iff.mp h with ⟨d, hd, h⟩
  rcases Option.bind_eq_some_iff.mp h with ⟨s, hs, h⟩
  cases h
  exact ⟨solid_of_getTag hd, solid_of_getTag hs⟩

/-- A signed message verifies, and its domain and selector are those of the key, exactly when
these can stand in a tag. -/
theorem verify_sign_iff (hsigns : SignsFor S key) (h : Unsigned headers) {message body : Bytes}
    (hmessage : MessageOf headers message body) (t : UInt64) :
    verify S (utf8 (sign S key message t) ++ message) (S.verifyingKey key.signing).toBytes =
          .ok () ∧
        signingDomainSelector (utf8 (sign S key message t) ++ message) =
          some (key.domain, key.selector) <->
      SolidText key.domain ∧ SolidText key.selector := by
  constructor
  · intro hboth
    exact solid_of_signingDomainSelector hboth.2
  · intro hsolid
    rcases hsolid with ⟨hdomain, hselector⟩
    have hsign := (hmessage.unsigned h).trans (h.split body).symm
    have hsplit : splitHeadersBody (utf8 (sign S key message t) ++ message) =
        splitHeadersBody (utf8 (sign S key (writtenHead headers ++ body) t) ++
          (writtenHead headers ++ body)) := by
      rw [splitHeadersBody_signed_message h hdomain hselector hmessage,
        splitHeadersBody_signed_message h hdomain hselector (MessageOf.withBody body)]
    constructor
    · rw [verify_congr hsplit]
      exact (verify_signed_iff hsigns hdomain hselector h body body t).mpr rfl
    · exact signingDomainSelector_signed h hdomain hselector hmessage t

/-!
The greeting and its signature, then the greeting under a domain with a semicolon.
-/

/-- The suite on the greeting; other digests are signed with zeros. -/
def signingSuite : Suite where
  SigningKey := Unit
  sha256 b := if b = greetingBody then greetingBodyDigest else greetingDigest
  sign _ b := if b = greetingDigest.toBytes then greetingSignature else FixedBytes.zero 64
  verifyingKey _ := greetingKey
  validKey vk := vk == greetingKey
  verifies vk b sig := vk == greetingKey &&
    sig == if b = greetingDigest.toBytes then greetingSignature else FixedBytes.zero 64

def signingKey (domain : String) : DkimKey signingSuite :=
  ⟨domain.toList, "s1".toList, ()⟩

theorem signsFor_signingKey (domain : String) : SignsFor signingSuite (signingKey domain) where
  validKey := beq_self_eq_true greetingKey
  verifies _ := Bool.and_eq_true_iff.mpr ⟨beq_self_eq_true greetingKey, beq_self_eq_true _⟩

def greetingHeaders : List Header :=
  [("From".toList, bytesOf " alice@sender.example"), ("To".toList, bytesOf " bob@host.net"),
    ("Subject".toList, bytesOf " hi")]

theorem greeting_unsigned : Unsigned greetingHeaders where
  nonempty := List.cons_ne_nil _ _
  plain := by
    have hplain : forall header, header ∈ greetingHeaders ->
        (utf8 header.1).head?.any (fun b => !isWsp b) = true ∧ (0x3A : UInt8) ∉ utf8 header.1 ∧
          cr ∉ utf8 header.1 ∧ cr ∉ header.2 := by
      decide +kernel
    intro header hheader
    rcases hplain header hheader with ⟨hstart, hcolon, hreturn, hvalue⟩
    rcases Option.any_eq_true _ _ |>.mp hstart with ⟨b, hhead, hb⟩
    rcases List.head?_eq_some_iff.mp hhead with ⟨rest, hname⟩
    exact ⟨⟨b, rest, hname, (Bool.not_eq_true' _).mp hb⟩, hcolon, hreturn,
      folds_of_pairFree (pairFree_of_no_cr hvalue)⟩
  unsigned := by decide +kernel

theorem greeting_messageOf : MessageOf greetingHeaders greeting greetingBody := by
  have hmessage : writtenHead greetingHeaders ++ greetingBody = greeting := by decide +kernel
  have hwritten : MessageOf greetingHeaders (writtenHead greetingHeaders ++ greetingBody)
      greetingBody := MessageOf.withBody greetingBody
  rw [hmessage] at hwritten
  exact hwritten

theorem greeting_verifies :
    verify signingSuite
          (utf8 (sign signingSuite (signingKey "sender.example") greeting 1752600000) ++ greeting)
          greetingKey.toBytes = .ok () ∧
        signingDomainSelector
            (utf8 (sign signingSuite (signingKey "sender.example") greeting 1752600000) ++
              greeting) =
          some ("sender.example".toList, "s1".toList) := by
  have hdomain : SolidText "sender.example".toList := by decide +kernel
  have hselector : SolidText "s1".toList := by decide +kernel
  exact (verify_sign_iff (signsFor_signingKey "sender.example") greeting_unsigned
    greeting_messageOf 1752600000).mpr ⟨hdomain, hselector⟩

theorem domain_cut_off : SignsFor signingSuite (signingKey "sender;example") ∧
    Unsigned greetingHeaders ∧ MessageOf greetingHeaders greeting greetingBody ∧
    signingDomainSelector
        (utf8 (sign signingSuite (signingKey "sender;example") greeting 1752600000) ++
          greeting) =
      some ("sender".toList, "s1".toList) := by
  refine ⟨signsFor_signingKey "sender;example", greeting_unsigned, greeting_messageOf, ?_⟩
  decide +kernel

end Dkim
end Gateway
end Ephor
