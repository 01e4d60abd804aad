import Ephor.Foundation.CompressedName
import Ephor.Gateway.Inbound

/-!
# DNS messages

The wire codec of `pier-gateway/src/dns.rs`.  A read behind the end of the packet is an error,
so a packet needs no assumption.  One pass through the loop of `read_name` is `readNameTurn`.
-/

namespace Ephor
namespace Gateway
namespace Dns

open Foundation
open Foundation.CanonicalCbor
open Foundation.CompressedName
open Foundation.Text

def classIn : UInt16 := 1

def typeA : UInt16 := 1

def typeMx : UInt16 := 15

def typeTxt : UInt16 := 16

def typeAaaa : UInt16 := 28

inductive DnsError where
  | truncated
  | badPointer
  | rcode (code : UInt8)
deriving DecidableEq

structure ResourceRecord where
  name : Str
  rtype : UInt16
  rdata : Bytes
  rdataOffset : Nat
deriving DecidableEq

structure DnsMessage where
  id : UInt16
  rcode : UInt8
  answers : List ResourceRecord
deriving DecidableEq

def toBeBytes (v : UInt16) : Bytes :=
  bigEndian 2 v.toNat

/-!
# Questions
-/

def encodeName (name : Str) : Bytes :=
  ((name.rdropWhile (· == '.')).splitOn '.').flatMap (fun label =>
    if label.isEmpty then []
    else
      let len := min (utf8 label).length 63
      UInt8.ofNat len :: (utf8 label).take len) ++ [0]

def encodeQuery (id : UInt16) (qname : Str) (qtype : UInt16) : Bytes :=
  toBeBytes id ++ toBeBytes 0x0100 ++ toBeBytes 1 ++ toBeBytes 0 ++ toBeBytes 0 ++ toBeBytes 0 ++
    encodeName qname ++ toBeBytes qtype ++ toBeBytes classIn

/-!
# Names
-/

/-- `packet.get(pos)`. -/
def getByte (packet : Bytes) (pos : Nat) : Except DnsError UInt8 :=
  match packet[pos]? with
  | some b => Except.ok b
  | none => Except.error DnsError.truncated

/-- `packet.get(pos..pos + len)`. -/
def getSlice (packet : Bytes) (pos len : Nat) : Except DnsError Bytes :=
  if pos + len <= packet.length then
    Except.ok ((packet.drop pos).take len)
  else
    Except.error DnsError.truncated

/-- The variables of the loop of `read_name`. -/
structure NameCursor where
  labels : List Str
  pos : Nat
  resumeAt : Option Nat
  jumps : Nat

def NameCursor.start (pos : Nat) : NameCursor :=
  ⟨[], pos, none, 0⟩

/-- What a pass through the loop leads to: the name with the offset behind it, or the next pass. -/
inductive Turn where
  | done (name : Str) (next : Nat)
  | again (c : NameCursor)

def readNameTurn (packet : Bytes) (c : NameCursor) : Except DnsError Turn := do
  if c.jumps > 32 then
    Except.error DnsError.badPointer
  else
    let len ← getByte packet c.pos
    if len = 0 then
      Except.ok (Turn.done (['.'].intercalate c.labels) (c.resumeAt.getD (c.pos + 1)))
    else if len &&& 0xC0 = 0xC0 then
      let b2 ← getByte packet (c.pos + 1)
      let ptr := ((len &&& 0x3F).toNat <<< 8) ||| b2.toNat
      if ptr >= packet.length || ptr >= c.pos then
        Except.error DnsError.badPointer
      else
        Except.ok (Turn.again
          ⟨c.labels, ptr, some (c.resumeAt.getD (c.pos + 2)), c.jumps + 1⟩)
    else if len &&& 0xC0 ≠ 0 then
      Except.error DnsError.badPointer
    else
      let bytes ← getSlice packet (c.pos + 1) len.toNat
      Except.ok (Turn.again
        ⟨c.labels ++ [fromUtf8Lossy bytes], c.pos + 1 + len.toNat, c.resumeAt, c.jumps⟩)

def passesLeft (packet : Bytes) (c : NameCursor) : Nat :=
  (33 - c.jumps) * (packet.length + 1) + (packet.length - c.pos)

theorem readNameTurn_again {packet : Bytes} {c d : NameCursor}
    (h : readNameTurn packet c = Except.ok (Turn.again d)) :
    (c.jumps <= 32 ∧ d.jumps = c.jumps + 1) ∨
      (d.jumps = c.jumps ∧ c.pos < d.pos ∧ d.pos <= packet.length) := by
  rw [readNameTurn] at h
  split at h
  · cases h
  · rename_i hjumps
    rcases bind_eq_ok.mp h with ⟨len, -, h⟩
    split at h
    · cases h
    · split at h
      · rcases bind_eq_ok.mp h with ⟨b2, -, h⟩
        dsimp only at h
        split at h
        · cases h
        · cases h
          exact Or.inl ⟨Nat.le_of_not_lt hjumps, rfl⟩
      · split at h
        · cases h
        · rcases bind_eq_ok.mp h with ⟨bytes, hbytes, h⟩
          cases h
          rw [getSlice] at hbytes
          split at hbytes
          · rename_i hle
            exact Or.inr ⟨rfl, by dsimp only; omega, hle⟩
          · cases hbytes

theorem passesLeft_lt {packet : Bytes} {c d : NameCursor}
    (h : readNameTurn packet c = Except.ok (Turn.again d)) :
    passesLeft packet d < passesLeft packet c := by
  rw [passesLeft, passesLeft]
  rcases readNameTurn_again h with ⟨hle, hjumps⟩ | ⟨hjumps, hlt, hle⟩
  · have hsub : 33 - c.jumps = (33 - d.jumps) + 1 := by omega
    rw [hsub, Nat.succ_mul]
    omega
  · rw [hjumps]
    omega

def readNameLoop (packet : Bytes) (c : NameCursor) : Except DnsError (Str × Nat) :=
  match _h : readNameTurn packet c with
  | Except.error e => Except.error e
  | Except.ok (Turn.done name next) => Except.ok (name, next)
  | Except.ok (Turn.again d) => readNameLoop packet d
termination_by passesLeft packet c
decreasing_by exact passesLeft_lt ‹_›

def readName (packet : Bytes) (start : Nat) : Except DnsError (Str × Nat) :=
  readNameLoop packet (NameCursor.start start)

/-!
# Responses
-/

def readU16 (packet : Bytes) (pos : Nat) : Except DnsError UInt16 := do
  let b ← getSlice packet pos 2
  Except.ok (UInt16.ofNat (ofBigEndian b))

/-- The loop of `parse_response` over the questions. -/
def skipQuestions (packet : Bytes) : Nat -> Nat -> Except DnsError Nat
  | 0, pos => Except.ok pos
  | count + 1, pos => do
      let (_, next) ← readName packet pos
      if next + 4 > packet.length then
        Except.error DnsError.truncated
      else
        skipQuestions packet count (next + 4)

def readRecord (packet : Bytes) (pos : Nat) : Except DnsError (ResourceRecord × Nat) := do
  let (name, pos) ← readName packet pos
  let rtype ← readU16 packet pos
  let _ ← readU16 packet (pos + 2)
  let _ ← getSlice packet (pos + 4) 4
  let rdlength ← readU16 packet (pos + 8)
  let rdata ← getSlice packet (pos + 10) rdlength.toNat
  Except.ok (⟨name, rtype, rdata, pos + 10⟩, pos + 10 + rdlength.toNat)

/-- The loop of `parse_response` over the answers. -/
def readAnswers (packet : Bytes) : Nat -> Nat -> Except DnsError (List ResourceRecord)
  | 0, _ => Except.ok []
  | count + 1, pos => do
      let (record, next) ← readRecord packet pos
      let rest ← readAnswers packet count next
      Except.ok (record :: rest)

def parseResponse (packet : Bytes) : Except DnsError DnsMessage := do
  if packet.length < 12 then
    Except.error DnsError.truncated
  else
    let id ← readU16 packet 0
    let flags ← readU16 packet 2
    let rcode := (flags &&& 0x000F).toUInt8
    let qdcount ← readU16 packet 4
    let ancount ← readU16 packet 6
    let pos ← skipQuestions packet qdcount.toNat 12
    -- Every failure of the server is an empty message.
    if rcode ≠ 0 then
      Except.ok ⟨id, rcode, []⟩
    else
      let answers ← readAnswers packet ancount.toNat pos
      Except.ok ⟨id, rcode, answers⟩

/-!
# Rdata
-/

def parseMxRdata (packet : Bytes) (rr : ResourceRecord) : Except DnsError (UInt16 × Str) := do
  if rr.rdata.length < 3 then
    Except.error DnsError.truncated
  else
    let (exchange, _) ← readName packet (rr.rdataOffset + 2)
    Except.ok (UInt16.ofNat (ofBigEndian (rr.rdata.take 2)), exchange)

def parseARdata (rr : ResourceRecord) : Option (BitVec 32) :=
  if rr.rdata.length = 4 then
    some (BitVec.ofNat 32 (ofBigEndian rr.rdata))
  else
    none

def parseAaaaRdata (rr : ResourceRecord) : Option (BitVec 128) :=
  if rr.rdata.length = 16 then
    some (BitVec.ofNat 128 (ofBigEndian rr.rdata))
  else
    none

/-- The loop of `parse_txt_rdata` over the character strings. -/
def txtStrings : Nat -> Bytes -> Str
  | 0, _ => []
  | _ + 1, [] => []
  | fuel + 1, len :: rest =>
      if rest.length < len.toNat then
        []
      else
        fromUtf8Lossy (rest.take len.toNat) ++ txtStrings fuel (rest.drop len.toNat)

def parseTxtRdata (rr : ResourceRecord) : Str :=
  txtStrings rr.rdata.length rr.rdata

end Dns
end Gateway
end Ephor
