import Ephor.Pubcache.Cbor
import Ephor.Pubcache.Merkle

/-!
# The verification gate

`pubcache/verify.go`.  Announces and chunks are addressed by a hash of their
bytes, manifests by the Merkle root over the chunk list they carry.
-/

namespace Ephor
namespace Pubcache

open Foundation

inductive Kind where
  | announce
  | manifest
  | chunk
deriving DecidableEq

def Kind.string : Kind -> String
  | announce => "announce"
  | manifest => "manifest"
  | chunk => "chunk"

/-!
# Manifests
-/

def manifestKeyID : UInt64 := 1

def manifestKeySize : UInt64 := 2

def manifestKeyChunkSz : UInt64 := 3

def manifestKeyChunks : UInt64 := 4

def manifestKeyForbidden : UInt64 := 5

def manifestKeySuite : UInt64 := 6

def manifestKeyExtensionFloor : UInt64 := 64

/-- `requireUintField`: a field typed as an unsigned integer of `bits` bits. -/
def requireUintField (val : Bytes) (what : String) (bits : Nat) :
    Except Error UInt64 := do
  let head <- readHead val
  if head.major ≠ cborMajorUint then
    Except.error
      (malformed ("PubManifest." ++ what ++
        s!" must be an unsigned integer, got cbor major type {head.major.toNat}"))
  else if head.size ≠ val.length then
    Except.error (malformed ("PubManifest." ++ what ++ " has trailing bytes"))
  else if bits < 64 ∧ 2 ^ bits <= head.arg.toNat then
    Except.error
      (malformed ("PubManifest." ++ what ++
        s!" exceeds u{bits} range: {head.arg.toNat}"))
  else
    return head.arg

/-- The value of the `id` field. -/
def readManifestID (val : Bytes) : Except Error Addr := do
  let head <- readHead val
  if hlen : head.major = cborMajorByteStr ∧ head.arg.toNat = addrLen ∧
      val.length = head.size + addrLen then
    return ⟨val.drop head.size, by
      rw [List.length_drop, hlen.2.2, Nat.add_sub_cancel_left]⟩
  else
    Except.error (malformed s!"PubManifest.id is not a {addrLen}-byte address")

/-- What the loop over the entries of a manifest has seen so far. -/
structure ManifestFields where
  selfID : Option Addr
  chunks : Option (List Addr)
  haveSize : Bool
  haveCsz : Bool
  haveSuite : Bool

def ManifestFields.none : ManifestFields :=
  ⟨Option.none, Option.none, false, false, false⟩

def readManifestEntry (f : ManifestFields) (e : CborEntry) :
    Except Error ManifestFields :=
  if e.key = manifestKeyForbidden then
    Except.error ⟨Sentinel.manifestKeyPresent, ""⟩
  else if e.key = manifestKeyID then do
    let selfID <- readManifestID e.val
    return { f with selfID := some selfID }
  else if e.key = manifestKeyChunks then do
    let chunks <- parseAddrArray e.val
    return { f with chunks := some chunks }
  else if e.key = manifestKeySize then do
    let _ <- requireUintField e.val "size" 64
    return { f with haveSize := true }
  else if e.key = manifestKeyChunkSz then do
    let _ <- requireUintField e.val "chunk_sz" 32
    return { f with haveCsz := true }
  else if e.key = manifestKeySuite then
    Except.ok { f with haveSuite := true }
  else if e.key < manifestKeyExtensionFloor then
    Except.error (malformed s!"unknown PubManifest key {e.key.toNat}")
  else
    Except.ok f

section Gate

variable (blake3 : Bytes -> Digest)

/-- The checks of `verifiedManifestChunks` after its loop. -/
def checkManifest (want : Addr) (f : ManifestFields) : Except Error (List Addr) :=
  match f.selfID, f.chunks with
  | some selfID, some chunks =>
      if f.haveSize && f.haveCsz && f.haveSuite then
        match manifestRoot blake3 chunks with
        | some root =>
            if root = want then
              if selfID = want then
                Except.ok chunks
              else
                Except.error
                  ⟨Sentinel.addrMismatch,
                    "PubManifest.id " ++ selfID.string ++
                      " disagrees with fetch address " ++ want.string⟩
            else
              Except.error
                ⟨Sentinel.addrMismatch,
                  "manifest chunk list roots to " ++ root.string ++
                    ", requested as " ++ want.string⟩
        -- not reached: `parseAddrArray` refuses the empty list
        | none => Except.error ⟨Sentinel.addrMismatch, ""⟩
      else
        Except.error (malformed "PubManifest missing a required field")
  | _, _ => Except.error (malformed "PubManifest missing a required field")

def verifiedManifestChunks (want : Addr) (body : Bytes) :
    Except Error (List Addr) := do
  let entries <- parseUintKeyedMap body
  let fields <- entries.foldlM readManifestEntry ManifestFields.none
  checkManifest blake3 want fields

def verify (kind : Kind) (want : Addr) (body : Bytes) : Except Error Unit :=
  match kind with
  | Kind.manifest => do
      let _ <- verifiedManifestChunks blake3 want body
      return ()
  | _ =>
      if hashBytes blake3 body = want then
        Except.ok ()
      else
        Except.error
          ⟨Sentinel.addrMismatch,
            kind.string ++ " hashes to " ++ (hashBytes blake3 body).string ++
              ", requested as " ++ want.string⟩

/-!
# Verified addresses are tagged
-/

variable {blake3}

theorem checkManifest_spec {want : Addr} {f : ManifestFields}
    {chunks : List Addr} (h : checkManifest blake3 want f = Except.ok chunks) :
    f.chunks = some chunks ∧ manifestRoot blake3 chunks = some want := by
  unfold checkManifest at h
  split at h
  · rename_i selfID listed hid hlisted
    split at h
    · split at h
      · rename_i root hroot
        split at h
        · rename_i hwant
          split at h
          · injection h with hchunks
            subst hchunks
            rw [hwant] at hroot
            exact ⟨hlisted, hroot⟩
          · cases h
        · cases h
      · cases h
    · cases h
  · cases h

/-- The chunk list kept by the loop came out of `parseAddrArray`. -/
def ChunksParsed (f : ManifestFields) : Prop :=
  forall chunks, f.chunks = some chunks ->
    exists val, parseAddrArray val = Except.ok chunks

theorem chunksParsed_readManifestEntry {f f' : ManifestFields} {e : CborEntry}
    (hf : ChunksParsed f) (h : readManifestEntry f e = Except.ok f') : ChunksParsed f' := by
  unfold readManifestEntry at h
  split at h
  · cases h
  · split at h
    · rcases bind_eq_ok.mp h with ⟨_, _, hret⟩
      cases hret
      exact hf
    · split at h
      · rcases bind_eq_ok.mp h with ⟨parsed, hparsed, hret⟩
        cases hret
        intro chunks hchunks
        injection hchunks with hsame
        exact ⟨e.val, hsame ▸ hparsed⟩
      · split at h
        · rcases bind_eq_ok.mp h with ⟨_, _, hret⟩
          cases hret
          exact hf
        · split at h
          · rcases bind_eq_ok.mp h with ⟨_, _, hret⟩
            cases hret
            exact hf
          · split at h
            · injection h with heq
              subst heq
              exact hf
            · split at h
              · cases h
              · injection h with heq
                subst heq
                exact hf

theorem chunksParsed_foldlM {entries : List CborEntry} {f f' : ManifestFields}
    (hf : ChunksParsed f)
    (h : entries.foldlM readManifestEntry f = Except.ok f') : ChunksParsed f' := by
  induction entries generalizing f with
  | nil =>
      cases h
      exact hf
  | cons e rest ih =>
      rw [List.foldlM_cons] at h
      rcases bind_eq_ok.mp h with ⟨next, hnext, hrest⟩
      exact ih (chunksParsed_readManifestEntry hf hnext) hrest

theorem verifiedManifestChunks_spec {want : Addr} {body : Bytes} {chunks : List Addr}
    (h : verifiedManifestChunks blake3 want body = Except.ok chunks) :
    manifestRoot blake3 chunks = some want ∧ chunks ≠ [] ∧ forall a, a ∈ chunks -> a.Tagged := by
  rcases bind_eq_ok.mp h with ⟨entries, _, hentries⟩
  rcases bind_eq_ok.mp hentries with ⟨fields, hfields, hcheck⟩
  have hempty : ChunksParsed ManifestFields.none := by
    intro chunks hnone
    cases hnone
  rcases checkManifest_spec hcheck with ⟨hlisted, hroot⟩
  rcases chunksParsed_foldlM hempty hfields chunks hlisted with ⟨val, hval⟩
  exact ⟨hroot, parseAddrArray_spec hval⟩

theorem tagged_of_manifestRoot {want : Addr} {chunks : List Addr}
    (h : manifestRoot blake3 chunks = some want) : want.Tagged := by
  rcases Option.map_eq_some_iff.mp h with ⟨d, _, hd⟩
  rw [<- hd]
  exact tagged_addrOfDigest d

theorem tagged_of_verify {kind : Kind} {want : Addr} {body : Bytes}
    (h : verify blake3 kind want body = Except.ok ()) : want.Tagged := by
  have hhash : forall k : Kind,
      (if hashBytes blake3 body = want then Except.ok () else
        Except.error (⟨Sentinel.addrMismatch,
          k.string ++ " hashes to " ++ (hashBytes blake3 body).string ++
            ", requested as " ++ want.string⟩ : Error)) = Except.ok () ->
        want.Tagged := by
    intro k hk
    split at hk
    · rename_i heq
      rw [<- heq]
      exact tagged_addrOfDigest _
    · cases hk
  cases kind with
  | announce => exact hhash Kind.announce h
  | chunk => exact hhash Kind.chunk h
  | manifest =>
      rcases bind_eq_ok.mp h with ⟨chunks, hchunks, _⟩
      exact tagged_of_manifestRoot (verifiedManifestChunks_spec hchunks).1

end Gate

/-!
# A small manifest
-/

/-- The manifest of up to 23 chunks, with the given bytes for its suite. -/
def sampleManifest (id : Addr) (chunks : List Addr) (suite : Bytes) : Bytes :=
  [0xa5, 0x01, 0x58, 0x21] ++ id.toBytes ++
    [0x02, 0x01, 0x03, 0x01, 0x04, 0x80 + UInt8.ofNat chunks.length] ++
    (chunks.flatMap fun c => [0x58, 0x21] ++ c.toBytes) ++ [0x06] ++ suite

end Pubcache
end Ephor
