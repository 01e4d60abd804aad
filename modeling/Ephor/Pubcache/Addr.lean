import Ephor.Foundation.Base64

/-!
# Content addresses

The addressing layer of the public-object cache (`pubcache/addr.go`).  A v0
address is the 33-byte value `0x1e` followed by a BLAKE3-256 digest, and travels
as unpadded base64url.  BLAKE3 itself is a third-party package and enters the
model as a parameter, a function from byte strings to digests.
-/

namespace Ephor
namespace Pubcache

open Foundation

/-!
# Errors

Every error of the package wraps one of its sentinel values and adds a detail.
-/

inductive Sentinel where
  | badAddr
  | addrMismatch
  | malformedObject
  | manifestKeyPresent
  | proofRange
  | proofInvalid
  | pinBudget
  | pinNotFound
  | pinForbidden
  | notServed
  | storage
deriving DecidableEq

structure Error where
  sentinel : Sentinel
  detail : String
deriving DecidableEq

/-!
# Addresses
-/

def digestLen : Nat := 32

def addrLen : Nat := 33

def maxAddrB64Len : Nat := 64

abbrev Digest := FixedBytes digestLen

abbrev Addr := FixedBytes addrLen

/-- `HashPrefixBLAKE3_256`, the only hash suite accepted. -/
def hashTag : UInt8 := 0x1e

def addrOfDigest (d : Digest) : Addr where
  toBytes := hashTag :: d.toBytes
  length_eq := by
    rw [List.length_cons, d.length_eq]
    rfl

theorem addrOfDigest_inj {d e : Digest} (h : addrOfDigest d = addrOfDigest e) : d = e := by
  have hbytes : hashTag :: d.toBytes = hashTag :: e.toBytes :=
    congrArg FixedBytes.toBytes h
  injection hbytes with _ htail
  exact FixedBytes.ext_toBytes htail

def Addr.Tagged (a : Addr) : Prop :=
  a.toBytes.head? = some hashTag

theorem tagged_addrOfDigest (d : Digest) : (addrOfDigest d).Tagged :=
  rfl

def hashBytes (blake3 : Bytes -> Digest) (b : Bytes) : Addr :=
  addrOfDigest (blake3 b)

/-- `Addr.String`: the canonical unpadded base64url spelling. -/
def Addr.string (a : Addr) : String :=
  String.ofList (Base64.encode a.toBytes)

/-- Two lower-case hexadecimal digits, as `%02x` prints a byte. -/
def hexByte (b : UInt8) : String :=
  let digits := "0123456789abcdef".toList
  String.ofList [digits.getD (b.toNat / 16) '0', digits.getD (b.toNat % 16) '0']

/-- The checks of `ParseAddr` on the decoded bytes of the path component `s`. -/
def addrOfRaw (s : String) (raw : Bytes) : Except Error Addr :=
  if hlen : raw.length = addrLen then
    if raw.head? = some hashTag then
      if Addr.string ⟨raw, hlen⟩ = s then
        Except.ok ⟨raw, hlen⟩
      else
        Except.error ⟨Sentinel.badAddr, "non-canonical encoding"⟩
    else
      Except.error
        ⟨Sentinel.badAddr,
          "unsupported hash prefix 0x" ++ hexByte (raw.headD 0)⟩
  else
    Except.error
      ⟨Sentinel.badAddr, s!"got {raw.length} bytes, want {addrLen}"⟩

def parseAddr (s : String) : Except Error Addr :=
  if s = "" ∨ maxAddrB64Len < s.utf8ByteSize then
    Except.error ⟨Sentinel.badAddr, ""⟩
  else
    match Base64.decode s.toList with
    | none => Except.error ⟨Sentinel.badAddr, "illegal base64 data"⟩
    | some raw => addrOfRaw s raw

theorem Addr.string_ne_empty (a : Addr) : a.string ≠ "" := by
  intro h
  have hnil : Base64.encode a.toBytes = [] := by
    rw [<- String.toList_ofList (l := Base64.encode a.toBytes)]
    exact congrArg String.toList h
  exact Base64.encode_ne_nil (FixedBytes.toBytes_ne_nil a) hnil

theorem parseAddr_string {a : Addr} (h : a.Tagged) : parseAddr a.string = Except.ok a := by
  have hsize : a.string.utf8ByteSize = 44 := by
    rw [Addr.string, Base64.utf8ByteSize_encode, a.length_eq]
    rfl
  have hshort : Not (a.string = "" ∨ maxAddrB64Len < a.string.utf8ByteSize) := by
    intro hor
    cases hor with
    | inl hempty => exact a.string_ne_empty hempty
    | inr hlong =>
        rw [hsize] at hlong
        exact absurd hlong (by decide)
  have hdecode : Base64.decode a.string.toList = some a.toBytes := by
    rw [Addr.string, String.toList_ofList, Base64.decode_encode]
  rw [parseAddr, if_neg hshort, hdecode]
  change addrOfRaw a.string a.toBytes = Except.ok a
  rw [addrOfRaw, dif_pos a.length_eq]
  exact (if_pos h).trans (if_pos rfl)

theorem parseAddr_eq_ok {s : String} {a : Addr} (h : parseAddr s = Except.ok a) :
    a.string = s ∧ a.Tagged := by
  unfold parseAddr at h
  split at h
  · cases h
  · split at h
    · cases h
    · unfold addrOfRaw at h
      split at h
      · split at h
        · rename_i htag
          split at h
          · rename_i hcanonical
            cases h
            exact ⟨hcanonical, htag⟩
          · cases h
        · cases h
      · cases h

end Pubcache
end Ephor
