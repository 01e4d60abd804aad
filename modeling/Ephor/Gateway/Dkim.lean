import Ephor.Foundation.Base64
import Ephor.Gateway.Inbound

/-!
# DKIM

`pier-gateway/src/dkim.rs` with `b64.rs`: ed25519-sha256 signatures with relaxed/relaxed
canonicalization.  SHA-256 and Ed25519 are functions of other crates and stand as the
parameters of `Suite`.  Header names are text, and header values and bodies are bytes.
-/

namespace Ephor
namespace Gateway
namespace Dkim

open Foundation
open Foundation.Text

/-- `sha2` and `ed25519_dalek`. -/
structure Suite where
  SigningKey : Type
  sha256 : Bytes -> FixedBytes 32
  sign : SigningKey -> Bytes -> FixedBytes 64
  verifyingKey : SigningKey -> FixedBytes 32
  /-- Whether `VerifyingKey::from_bytes` takes the bytes. -/
  validKey : FixedBytes 32 -> Bool
  verifies : FixedBytes 32 -> Bytes -> FixedBytes 64 -> Bool

def greetingKey : FixedBytes 32 :=
  FixedBytes.ofNat 0xed4928c628d1c2c6eae90338905995612959273a5c63f93636c14614ac8737d1

structure DkimKey (S : Suite) where
  domain : Str
  selector : Str
  signing : S.SigningKey

inductive DkimError where
  | noSignature
  | unsupportedAlgorithm
  | unsupportedCanonicalization
  | malformedSignature
  | fromFieldNotSigned
  | bodyHashMismatch
  | badPublicKey
  | signatureInvalid
deriving DecidableEq

/-!
## Base64
-/

def alphabet : List Char :=
  "ABCDEFGHIJKLMNOPQRSTUVWXYZabcdefghijklmnopqrstuvwxyz0123456789+/".toList

def letter (v : Nat) : Char :=
  alphabet.getD v 'A'

/-- How many padding characters fill up the last group. -/
def padding (b : Bytes) : Nat :=
  (3 - b.length % 3) % 3

def b64Encode (b : Bytes) : Str :=
  (Base64.toSextets b).map letter ++ List.replicate (padding b) '='

/-- What one character does to the buffered bits, their number and the output; the buffer
is a `u32`. -/
def pushSextet (v : Nat) : Nat × Nat × Bytes -> Nat × Nat × Bytes
  | (bits, nbits, out) =>
      let bits := (bits * 64 + v) % 2 ^ 32
      if 8 <= nbits + 6 then
        (bits, nbits - 2, out ++ [UInt8.ofNat (bits / 2 ^ (nbits - 2))])
      else
        (bits, nbits + 6, out)

def decodeFrom : Str -> Nat × Nat × Bytes -> Option Bytes
  | [], state => some state.2.2
  | c :: rest, state =>
      if c = '=' then some state.2.2
      else if c = ' ' || c = '\t' || c = '\r' || c = '\n' then decodeFrom rest state
      else
        match alphabet.idxOf? c with
        | some v => decodeFrom rest (pushSextet v state)
        | none => none

def b64Decode (text : Str) : Option Bytes :=
  decodeFrom text (0, 0, [])

/-!
## Headers
-/

def cr : UInt8 := 0x0D

def lf : UInt8 := 0x0A

def crlf : Bytes := [cr, lf]

def isWsp (b : UInt8) : Bool :=
  b == 0x20 || b == 0x09

/-- `split_crlf`: the pieces between CRLF pairs; lone returns and line feeds stay. -/
def splitCrlf : Bytes -> List Bytes
  | [] => [[]]
  | [b] => [[b]]
  | b :: c :: rest =>
      if b = cr ∧ c = lf then [] :: splitCrlf rest
      else (splitCrlf (c :: rest)).modifyHead (b :: ·)

def findBlankLine : Bytes -> Option Nat
  | [] => none
  | b :: rest =>
      if (crlf ++ crlf).isPrefixOf (b :: rest) then some 0
      else (findBlankLine rest).map (· + 1)

/-- A header's name and its value, folds included. -/
abbrev Header := Str × Bytes

/-- The last header with one more line, its CRLF kept. -/
def continueLast (raw : Bytes) : List Header -> List Header
  | [] => []
  | [last] => [(last.1, last.2 ++ crlf ++ raw)]
  | first :: second :: rest => first :: continueLast raw (second :: rest)

def parseLine (out : List Header) (raw : Bytes) : List Header :=
  match raw with
  | [] => out
  | b :: _ =>
      if isWsp b then continueLast raw out
      else
        match raw.idxOf? 0x3A with
        | some colon => out ++ [(fromUtf8Lossy (raw.take colon), raw.drop (colon + 1))]
        | none => out

def parseHeaders (head : Bytes) : List Header :=
  (splitCrlf head).foldl parseLine []

def splitHeadersBody (message : Bytes) : List Header × Bytes :=
  match findBlankLine message with
  | some idx => (parseHeaders (message.take idx), message.drop (idx + 4))
  | none => (parseHeaders message, [])

def named (name : Str) (header : Header) : Bool :=
  eqIgnoreCase (trim header.1) name

def findHeader (headers : List Header) (name : Str) : Option Header :=
  headers.reverse.find? (named name)

/-- The value of `canonicalize_header`: unfolded, with each run of white space one space
and none at either end.  `wsp` is set after white space, `started` once a byte is out. -/
def relax (wsp started : Bool) : Bytes -> Bytes
  | [] => []
  | [b] => if isWsp b then [] else (if wsp && started then [0x20] else []) ++ [b]
  | b :: c :: rest =>
      if b = cr ∧ c = lf then relax wsp started rest
      else if isWsp b then relax true started (c :: rest)
      else (if wsp && started then [0x20] else []) ++ b :: relax false true (c :: rest)

/-- `canonicalize_header` without the CRLF at its end. -/
def canonicalLine (header : Header) : Bytes :=
  utf8 (lower (trim header.1)) ++ 0x3A :: relax false false header.2

def canonicalizeHeader (header : Header) : Bytes :=
  canonicalLine header ++ crlf

/-- The instance that an entry of `h=` stands for: the names are taken from the bottom of
the message upward. -/
def signedInstance (headers : List Header) (earlier : List Str) (name : Str) :
    Option Header :=
  (headers.reverse.filter (named (trim name)))[
    (earlier.filter fun m => eqIgnoreCase (trim m) (trim name)).length]?

/-- The lines that the entries of `h=` stand for. -/
def signedLines (headers : List Header) (earlier : List Str) : List Str -> List Bytes
  | [] => []
  | name :: rest =>
      (signedInstance headers earlier name).toList.map canonicalLine ++
        signedLines headers (earlier ++ [name]) rest

def assembleSignedHeaders (headers : List Header) (hNames : List Str) : Bytes :=
  (signedLines headers [] hNames).flatMap (· ++ crlf)

/-!
## Bodies
-/

/-- One line of the body: each run of white space one space, and none at the end. -/
def collapse (wsp : Bool) : Bytes -> Bytes
  | [] => []
  | b :: rest =>
      if isWsp b then collapse true rest
      else (if wsp then [0x20] else []) ++ b :: collapse false rest

def canonicalizeBody (body : Bytes) : Bytes :=
  (((splitCrlf body).map (collapse false)).rdropWhile (·.isEmpty)).flatMap (· ++ crlf)

/-!
## Tags
-/

def parseTag (part : Str) : Option (Str × Str) :=
  (splitOnce '=' (trim part)).map fun (k, v) => (trim k, v.filter fun c => !isWhiteSpace c)

def parseTags (value : Str) : List (Str × Str) :=
  (value.splitOn ';').filterMap parseTag

def getTag (tags : List (Str × Str)) (k : Str) : Option Str :=
  (tags.find? fun tag => tag.1 == k).map Prod.snd

/-- The rest of `empty_b_value`.  `skips` is set inside the value of `b`; `first` at the
start of the value, `semi` after a semicolon and white space. -/
def emptyFrom (skips first semi : Bool) : Bytes -> Bytes
  | [] => []
  | b :: rest =>
      if skips then
        if b = 0x3B then b :: emptyFrom false false true rest
        else emptyFrom true false false rest
      else if (first || semi) && b == 0x62 && (rest.dropWhile isWsp).head? == some 0x3D then
        0x62 :: 0x3D :: emptyFrom true false false rest
      else
        b :: emptyFrom false false (b == 0x3B || (isWsp b && semi)) rest

def emptyBValue (value : Bytes) : Bytes :=
  emptyFrom false true false value

/-!
## Signing and verifying
-/

def signedHeaders : List Str :=
  ["from".toList, "to".toList, "subject".toList, "date".toList, "message-id".toList]

variable (S : Suite)

def bodyHash (body : Bytes) : Str :=
  b64Encode (S.sha256 (canonicalizeBody body)).toBytes

/-- The entries of `h=`: what is there of the headers to sign, and `from` once more. -/
def signedNames (headers : List Header) : List Str :=
  (signedHeaders.filter fun name => (findHeader headers name).isSome) ++ ["from".toList]

/-- The value of the signature's header up to the value of `b`. -/
def headerBase (domain selector : Str) (t : UInt64) (hTag bh : Str) : Str :=
  "v=1; a=ed25519-sha256; c=relaxed/relaxed; d=".toList ++ domain ++ "; s=".toList ++ selector ++
    "; t=".toList ++ (toString t.toNat).toList ++ "; h=".toList ++ hTag ++ "; bh=".toList ++ bh ++
    "; b=".toList

def dkimName : Str := "DKIM-Signature".toList

/-- What `sign` signs of a message, for the given domain, selector and time. -/
def baseFor (domain selector : Str) (message : Bytes) (t : UInt64) : Str :=
  let (headers, body) := splitHeadersBody message
  headerBase domain selector t (":".toList.intercalate (signedNames headers)) (bodyHash S body)

def signingInput (domain selector : Str) (message : Bytes) (t : UInt64) : Bytes :=
  let headers := (splitHeadersBody message).1
  assembleSignedHeaders headers (signedNames headers) ++
    canonicalLine (dkimName, utf8 (baseFor S domain selector message t))

def sign (key : DkimKey S) (message : Bytes) (t : UInt64) : Str :=
  let digest := S.sha256 (signingInput S key.domain key.selector message t)
  let b := b64Encode (S.sign key.signing digest.toBytes).toBytes
  dkimName ++ ": ".toList ++ baseFor S key.domain key.selector message t ++ b ++ "\r\n".toList

/-- `try_into` of an array of `n` bytes. -/
def fixed? (n : Nat) (b : Bytes) : Option (FixedBytes n) :=
  if h : b.length = n then some ⟨b, h⟩ else none

def orError {α : Type} (found : Option α) (e : DkimError) : Except DkimError α :=
  match found with
  | some a => .ok a
  | none => .error e

def refuseUnless (passes : Bool) (e : DkimError) : Except DkimError Unit :=
  if passes then .ok () else .error e

/-- The names in the value of `h=`. -/
def namesOf (hTag : Str) : List Str :=
  ((hTag.splitOn ':').map trim).filter fun name => !name.isEmpty

def verifyInput (headers : List Header) (dkimValue : Bytes) (hNames : List Str) : Bytes :=
  assembleSignedHeaders headers hNames ++ canonicalLine (dkimName, emptyBValue dkimValue)

def verify (message publicKey : Bytes) : Except DkimError Unit := do
  let (headers, body) := splitHeadersBody message
  let (_, dkimValue) <- orError (findHeader headers "dkim-signature".toList) .noSignature
  let tags := parseTags (fromUtf8Lossy dkimValue)
  let get (k : String) := getTag tags k.toList
  refuseUnless (get "a" == some "ed25519-sha256".toList) .unsupportedAlgorithm
  refuseUnless (get "c" == some "relaxed/relaxed".toList || get "c" == none)
    .unsupportedCanonicalization
  let bhExpected <- orError (get "bh") .malformedSignature
  refuseUnless (bhExpected == bodyHash S body) .bodyHashMismatch
  let hTag <- orError (get "h") .malformedSignature
  let bTag <- orError (get "b") .malformedSignature
  let hNames := namesOf hTag
  refuseUnless (hNames.any fun n => eqIgnoreCase n "from".toList) .fromFieldNotSigned
  let vkBytes <- orError (fixed? 32 publicKey) .badPublicKey
  refuseUnless (S.validKey vkBytes) .badPublicKey
  let sigBytes <- orError (b64Decode bTag) .malformedSignature
  let sig <- orError (fixed? 64 sigBytes) .malformedSignature
  let digest := S.sha256 (verifyInput headers dkimValue hNames)
  refuseUnless (S.verifies vkBytes digest.toBytes sig) .signatureInvalid

/-!
## What a verified message has
-/

theorem orError_eq_ok {α : Type} {found : Option α} {e : DkimError} {a : α} :
    orError found e = .ok a <-> found = some a := by
  cases found with
  | none =>
      constructor
      · intro h
        cases h
      · intro h
        cases h
  | some b =>
      constructor
      · intro h
        cases h
        rfl
      · intro h
        cases h
        rfl

theorem refuseUnless_eq_ok {passes : Bool} {e : DkimError} :
    refuseUnless passes e = .ok () <-> passes = true := by
  cases passes with
  | false =>
      constructor
      · intro h
        cases h
      · intro h
        cases h
  | true => exact ⟨fun _ => rfl, fun _ => rfl⟩

/-- What `verify` finds on the way to accepting a message. -/
structure Accepted (message publicKey dkimValue : Bytes) (hTag bTag : Str) (vk : FixedBytes 32)
    (sig : FixedBytes 64) : Prop where
  header : exists name, findHeader (splitHeadersBody message).1 "dkim-signature".toList =
    some (name, dkimValue)
  algorithm : getTag (parseTags (fromUtf8Lossy dkimValue)) "a".toList =
    some "ed25519-sha256".toList
  canonicalization : getTag (parseTags (fromUtf8Lossy dkimValue)) "c".toList =
      some "relaxed/relaxed".toList ∨
    getTag (parseTags (fromUtf8Lossy dkimValue)) "c".toList = none
  body : getTag (parseTags (fromUtf8Lossy dkimValue)) "bh".toList =
    some (bodyHash S (splitHeadersBody message).2)
  names : getTag (parseTags (fromUtf8Lossy dkimValue)) "h".toList = some hTag
  signature : getTag (parseTags (fromUtf8Lossy dkimValue)) "b".toList = some bTag
  fromSigned : (namesOf hTag).any (fun n => eqIgnoreCase n "from".toList) = true
  key : fixed? 32 publicKey = some vk
  validKey : S.validKey vk = true
  decoded : exists sigBytes, b64Decode bTag = some sigBytes ∧ fixed? 64 sigBytes = some sig
  verifies : S.verifies vk
    (S.sha256 (verifyInput (splitHeadersBody message).1 dkimValue (namesOf hTag))).toBytes sig =
      true

theorem verify_eq_ok_iff {message publicKey : Bytes} :
    verify S message publicKey = .ok () <->
      exists dkimValue hTag bTag vk sig,
        Accepted S message publicKey dkimValue hTag bTag vk sig := by
  constructor
  · intro h
    rcases bind_eq_ok.mp h with ⟨⟨name, dkimValue⟩, hheader, h⟩
    rcases bind_eq_ok.mp h with ⟨_, halgorithm, h⟩
    rcases bind_eq_ok.mp h with ⟨_, hcanonicalization, h⟩
    rcases bind_eq_ok.mp h with ⟨bhExpected, hbh, h⟩
    rcases bind_eq_ok.mp h with ⟨_, hbody, h⟩
    rcases bind_eq_ok.mp h with ⟨hTag, hh, h⟩
    rcases bind_eq_ok.mp h with ⟨bTag, hb, h⟩
    rcases bind_eq_ok.mp h with ⟨_, hfrom, h⟩
    rcases bind_eq_ok.mp h with ⟨vk, hvk, h⟩
    rcases bind_eq_ok.mp h with ⟨_, hvalid, h⟩
    rcases bind_eq_ok.mp h with ⟨sigBytes, hdecode, h⟩
    rcases bind_eq_ok.mp h with ⟨sig, hsig, h⟩
    have hbody' : bhExpected = bodyHash S (splitHeadersBody message).2 :=
      eq_of_beq (refuseUnless_eq_ok.mp hbody)
    have hor := Bool.or_eq_true_iff.mp (refuseUnless_eq_ok.mp hcanonicalization)
    refine ⟨dkimValue, hTag, bTag, vk, sig, ⟨name, orError_eq_ok.mp hheader⟩,
      eq_of_beq (refuseUnless_eq_ok.mp halgorithm), hor.imp eq_of_beq eq_of_beq, ?_,
      orError_eq_ok.mp hh, orError_eq_ok.mp hb, refuseUnless_eq_ok.mp hfrom,
      orError_eq_ok.mp hvk, refuseUnless_eq_ok.mp hvalid,
      ⟨sigBytes, orError_eq_ok.mp hdecode, orError_eq_ok.mp hsig⟩, refuseUnless_eq_ok.mp h⟩
    rw [<- hbody']
    exact orError_eq_ok.mp hbh
  · intro h
    rcases h with ⟨dkimValue, hTag, bTag, vk, sig, h⟩
    rcases h.header with ⟨name, hheader⟩
    rcases h.decoded with ⟨sigBytes, hdecode, hsig⟩
    apply bind_eq_ok.mpr
    refine ⟨(name, dkimValue), orError_eq_ok.mpr hheader, ?_⟩
    apply bind_eq_ok.mpr
    refine ⟨(), refuseUnless_eq_ok.mpr (beq_iff_eq.mpr h.algorithm), ?_⟩
    apply bind_eq_ok.mpr
    refine ⟨(), refuseUnless_eq_ok.mpr (Bool.or_eq_true_iff.mpr
      (h.canonicalization.imp beq_iff_eq.mpr beq_iff_eq.mpr)), ?_⟩
    apply bind_eq_ok.mpr
    refine ⟨_, orError_eq_ok.mpr h.body, ?_⟩
    apply bind_eq_ok.mpr
    refine ⟨(), refuseUnless_eq_ok.mpr (beq_self_eq_true _), ?_⟩
    apply bind_eq_ok.mpr
    refine ⟨hTag, orError_eq_ok.mpr h.names, ?_⟩
    apply bind_eq_ok.mpr
    refine ⟨bTag, orError_eq_ok.mpr h.signature, ?_⟩
    apply bind_eq_ok.mpr
    refine ⟨(), refuseUnless_eq_ok.mpr h.fromSigned, ?_⟩
    apply bind_eq_ok.mpr
    refine ⟨vk, orError_eq_ok.mpr h.key, ?_⟩
    apply bind_eq_ok.mpr
    refine ⟨(), refuseUnless_eq_ok.mpr h.validKey, ?_⟩
    apply bind_eq_ok.mpr
    refine ⟨sigBytes, orError_eq_ok.mpr hdecode, ?_⟩
    apply bind_eq_ok.mpr
    refine ⟨sig, orError_eq_ok.mpr hsig, ?_⟩
    exact refuseUnless_eq_ok.mpr h.verifies

end Dkim
end Gateway
end Ephor
