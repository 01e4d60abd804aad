import Ephor.Pubcache.Addr

/-!
# The CBOR scanner

`pubcache/cbor.go`: just enough of CBOR to verify a manifest.  A scanner works on
the bytes that are left, where the source keeps an offset into one slice.
-/

namespace Ephor
namespace Pubcache

open Foundation

def cborMajorUint : UInt8 := 0

def cborMajorByteStr : UInt8 := 2

def cborMajorArray : UInt8 := 4

def cborMajorMap : UInt8 := 5

def maxCBORDepth : Nat := 16

def maxCBORItems : UInt64 := 1048576

def malformed (detail : String) : Error :=
  ⟨Sentinel.malformedObject, detail⟩

/-!
# Heads
-/

/-- A decoded head: the major type, the argument, and the bytes it takes. -/
structure Head where
  major : UInt8
  arg : UInt64
  size : Nat
deriving DecidableEq

def bigEndian (b : Bytes) : UInt64 :=
  b.foldl (fun v x => v * 256 + x.toUInt64) 0

/-- A head whose argument is in the `width` bytes after the first one. -/
def wideHead (b : Bytes) (major : UInt8) (width : Nat) (least : UInt64) :
    Except Error Head :=
  if b.length < width + 1 then
    Except.error (malformed "truncated cbor head")
  else
    let v := bigEndian ((b.drop 1).take width)
    if v < least then
      Except.error (malformed "non-minimal cbor integer")
    else
      Except.ok ⟨major, v, width + 1⟩

def readHead (b : Bytes) : Except Error Head :=
  match b with
  | [] => Except.error (malformed "truncated cbor")
  | b0 :: _ =>
      let major := b0 >>> 5
      let ai := b0 &&& 0x1f
      if ai < 24 then
        Except.ok ⟨major, ai.toUInt64, 1⟩
      else if ai = 24 then
        wideHead b major 1 24
      else if ai = 25 then
        wideHead b major 2 0x100
      else if ai = 26 then
        wideHead b major 4 0x10000
      else if ai = 27 then
        wideHead b major 8 0x100000000
      else
        Except.error (malformed "reserved or indefinite-length cbor item")

/-!
# Skipping a value
-/

def skipItems (skip : Bytes -> Except Error Nat) :
    Nat -> Bytes -> Except Error Nat
  | 0, _ => Except.ok 0
  | items + 1, b => do
      let m <- skip b
      let off <- skipItems skip items (b.drop m)
      return m + off

/-- The length of a simple value or a float, from its first byte. -/
def simpleSize (b0 : UInt8) : Except Error Nat :=
  let arg := b0 &&& 0x1f
  if arg < 24 then
    Except.ok 1
  else if arg = 24 then
    Except.ok 2
  else if arg = 25 then
    Except.ok 3
  else if arg = 26 then
    Except.ok 5
  else if arg = 27 then
    Except.ok 9
  else
    Except.error (malformed "bad cbor simple value")

/-- `skipValue` with the nesting that is still allowed in place of the depth. -/
def skipNested : Nat -> Bytes -> Except Error Nat
  | 0, _ => Except.error (malformed "cbor nesting too deep")
  | levels + 1, b => do
      let head <- readHead b
      if head.major = cborMajorUint ∨ head.major = 1 then
        return head.size
      else if head.major = cborMajorByteStr ∨ head.major = 3 then
        if b.length - head.size < head.arg.toNat then
          Except.error (malformed "cbor string overruns buffer")
        else
          return head.size + head.arg.toNat
      else if head.major = cborMajorArray ∨ head.major = cborMajorMap then
        -- `items *= 2` wraps around on a uint64
        let items := if head.major = cborMajorMap then head.arg * 2 else head.arg
        if maxCBORItems < items then
          Except.error (malformed "cbor container too large")
        else
          let off <- skipItems (skipNested levels) items.toNat (b.drop head.size)
          return head.size + off
      else if head.major = 6 then
        let m <- skipNested levels (b.drop head.size)
        return head.size + m
      else
        simpleSize (b.headD 0)

/-- `skipValue`: the length of the one data item that `b` starts with. -/
def skipValue (b : Bytes) (depth : Int) : Except Error Nat :=
  skipNested (maxCBORDepth + 1 - depth).toNat b

/-!
# Maps and arrays
-/

structure CborEntry where
  key : UInt64
  val : Bytes
deriving DecidableEq

/-- The loop of `parseUintKeyedMap`: the entries, and the bytes after them. -/
def readEntries : Nat -> Option UInt64 -> Bytes ->
    Except Error (List CborEntry × Bytes)
  | 0, _, b => Except.ok ([], b)
  | count + 1, prev, b => do
      let head <- readHead b
      if head.major ≠ cborMajorUint then
        Except.error (malformed "non-integer cbor map key")
      else if prev.any fun p => decide (head.arg <= p) then
        Except.error (malformed "cbor map keys not in deterministic order")
      else
        let value := b.drop head.size
        let vn <- skipValue value 1
        let (entries, rest) <- readEntries count (some head.arg) (value.drop vn)
        return (⟨head.arg, value.take vn⟩ :: entries, rest)

def parseUintKeyedMap (b : Bytes) : Except Error (List CborEntry) := do
  let head <- readHead b
  if head.major ≠ cborMajorMap then
    Except.error
      (malformed s!"expected a cbor map, got major type {head.major.toNat}")
  else if maxCBORItems < head.arg then
    Except.error (malformed "cbor map too large")
  else
    let (entries, rest) <-
      readEntries head.arg.toNat none (b.drop head.size)
    if rest.length ≠ 0 then
      Except.error
        (malformed s!"{rest.length} trailing bytes after cbor map")
    else
      return entries

/-- One element of a chunk list, with the bytes after it. -/
def readAddr (b : Bytes) : Except Error (Addr × Bytes) := do
  let head <- readHead b
  if head.major ≠ cborMajorByteStr then
    Except.error (malformed "non-bytestring in chunk-hash array")
  else
    let body := b.drop head.size
    if hlen : head.arg.toNat = addrLen ∧ addrLen <= body.length then
      let a : Addr := ⟨body.take addrLen, by
        rw [List.length_take]
        exact Nat.min_eq_left hlen.2⟩
      if a.toBytes.head? = some hashTag then
        return (a, body.drop addrLen)
      else
        Except.error
          ⟨Sentinel.badAddr,
            "unsupported hash prefix 0x" ++ hexByte (a.toBytes.headD 0) ++
              " in chunk list"⟩
    else
      Except.error (malformed s!"chunk hash is not a {addrLen}-byte address")

def readAddrs : Nat -> Bytes -> Except Error (List Addr × Bytes)
  | 0, b => Except.ok ([], b)
  | count + 1, b => do
      let (a, rest) <- readAddr b
      let (addrs, rest) <- readAddrs count rest
      return (a :: addrs, rest)

def parseAddrArray (b : Bytes) : Except Error (List Addr) := do
  let head <- readHead b
  if head.major ≠ cborMajorArray then
    Except.error (malformed "expected a cbor array of hashes")
  else if head.arg = 0 then
    Except.error (malformed "PubManifest.chunks must hold at least one hash")
  else if maxCBORItems < head.arg then
    Except.error (malformed "cbor array too large")
  else
    let (addrs, rest) <- readAddrs head.arg.toNat (b.drop head.size)
    if rest.length ≠ 0 then
      Except.error (malformed "trailing bytes after chunk-hash array")
    else
      return addrs

/-!
# What the chunk list is made of
-/

theorem readAddr_tagged {b rest : Bytes} {a : Addr}
    (h : readAddr b = Except.ok (a, rest)) : a.Tagged := by
  rcases bind_eq_ok.mp h with ⟨head, _, hhead⟩
  dsimp only at hhead
  split at hhead
  · cases hhead
  · split at hhead
    · split at hhead
      · rename_i htag
        injection hhead with hpair
        injection hpair with ha _
        rw [<- ha]
        exact htag
      · cases hhead
    · cases hhead

theorem readAddrs_spec {count : Nat} {b rest : Bytes} {addrs : List Addr}
    (h : readAddrs count b = Except.ok (addrs, rest)) :
    addrs.length = count ∧ forall a, a ∈ addrs -> a.Tagged := by
  induction count generalizing b rest addrs with
  | zero =>
      injection h with hpair
      injection hpair with haddrs _
      subst haddrs
      exact ⟨rfl, fun a ha => by cases ha⟩
  | succ count ih =>
      rcases bind_eq_ok.mp h with ⟨⟨a, b'⟩, ha, htail⟩
      rcases bind_eq_ok.mp htail with ⟨⟨tail, b''⟩, hread, hret⟩
      injection hret with hpair
      injection hpair with haddrs _
      rcases ih hread with ⟨hlen, htagged⟩
      subst haddrs
      constructor
      · rw [List.length_cons, hlen]
      · intro c hc
        cases hc with
        | head => exact readAddr_tagged ha
        | tail _ hmem => exact htagged c hmem

theorem parseAddrArray_spec {b : Bytes} {addrs : List Addr}
    (h : parseAddrArray b = Except.ok addrs) : addrs ≠ [] ∧ forall a, a ∈ addrs -> a.Tagged := by
  rcases bind_eq_ok.mp h with ⟨head, _, hhead⟩
  split at hhead
  · cases hhead
  · split at hhead
    · cases hhead
    · rename_i hzero
      split at hhead
      · cases hhead
      · rcases bind_eq_ok.mp hhead with ⟨⟨tail, rest⟩, hread, hret⟩
        dsimp only at hret
        split at hret
        · cases hret
        · injection hret with haddrs
          rcases readAddrs_spec hread with ⟨hlen, htagged⟩
          subst haddrs
          refine ⟨?_, htagged⟩
          intro hnil
          rw [hnil] at hlen
          apply hzero
          exact UInt64.toNat_inj.mp hlen.symm

end Pubcache
end Ephor
