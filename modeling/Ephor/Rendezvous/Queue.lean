import Ephor.Foundation.Base64
import Ephor.Foundation.FiniteMap
import Ephor.Foundation.GoTime
import Ephor.Foundation.Transition

/-!
# The keyed blob queue

`queue` of the `rendezvous` package: opaque blobs addressed to a recipient key.  A
deposit appends a blob to its recipient's list, a pickup shows the list without
what has expired, an ack deletes the named blobs, and a deposit or a pickup now and
then sweeps the expired blobs of every key.  Each operation is one critical section.
-/

namespace Ephor
namespace Rendezvous

open Foundation
open Foundation.GoTime

structure QueueCaps where
  maxBlobBytes : Int
  maxPerKeyBlobs : Int
  maxPerKeyBytes : Int64
  maxKeys : Int
  sweepEvery : Duration
deriving DecidableEq

structure Blob where
  id : String
  source : String
  target : String
  payload : Bytes
  depositedAt : Int
  expiresAt : Int
deriving DecidableEq

structure BlobView where
  id : String
  source : String
  payload : String
  depositedAt : Int64
  expiresAt : Int64
deriving DecidableEq

def encodeToString (b : Bytes) : String :=
  String.ofList (Base64.encode b)

def Blob.view (b : Blob) : BlobView where
  id := b.id
  source := b.source
  payload := encodeToString b.payload
  depositedAt := unixSeconds b.depositedAt
  expiresAt := unixSeconds b.expiresAt

def Blob.live (now : Int) (b : Blob) : Bool :=
  decide (now < b.expiresAt)

structure Queue where
  caps : QueueCaps
  byKey : FiniteMap String (List Blob)
  bytes : FiniteMap String Int64
  swep : Int

inductive DepositResult where
  | ok (id : String)
  | tooLarge
  | quotaFull
  | capacity
deriving DecidableEq

def putUint64 (v : UInt64) : Bytes :=
  [(v >>> 56).toUInt8, (v >>> 48).toUInt8, (v >>> 40).toUInt8, (v >>> 32).toUInt8,
    (v >>> 24).toUInt8, (v >>> 16).toUInt8, (v >>> 8).toUInt8, v.toUInt8]

def newBlobID (now : Int) (random : FixedBytes 10) : String :=
  encodeToString ((putUint64 (unixMilli now).toUInt64).drop 2 ++ random.toBytes)

def newBlob (source target : String) (payload : Bytes) (ttl : Duration) (now : Int)
    (random : FixedBytes 10) : Blob where
  id := newBlobID now random
  source := source
  target := target
  payload := payload
  depositedAt := now
  expiresAt := add now ttl

def payloadBytes (blobs : List Blob) : Int64 :=
  (blobs.map fun b => Int64.ofNat b.payload.length).foldl (fun sum n => sum + n) 0

namespace Queue

def newQueue (caps : QueueCaps) : Queue where
  caps :=
    { caps with
      maxKeys := if caps.maxKeys <= 0 then 100000 else caps.maxKeys
      sweepEvery := if caps.sweepEvery <= 0 then minute else caps.sweepEvery }
  byKey := ∅
  bytes := ∅
  swep := 0

/-- `q.byKey[key]`: nil for an unknown key. -/
def pending (q : Queue) (key : String) : List Blob :=
  (q.byKey.lookup key).getD []

/-- What a sweep keeps of one key's list; an empty rest goes with its key. -/
def sweepKey (now : Int) (pending : List Blob) : Option (List Blob) :=
  match pending.filter (Blob.live now) with
  | [] => none
  | kept => some kept

def sweepLocked (q : Queue) (now : Int) : Queue :=
  if sub now q.swep < q.caps.sweepEvery then
    q
  else
    { q with
      swep := now
      byKey := FiniteMap.filterMap (fun _ pending => sweepKey now pending) q.byKey
      bytes := FiniteMap.filterMap
          (fun _ pending => (sweepKey now pending).map payloadBytes) q.byKey ∪
        FiniteMap.filter (fun key _ => (q.byKey.lookup key).isNone) q.bytes }

def deposit (q : Queue) (source target : String) (payload : Bytes) (ttl : Duration)
    (now : Int) (random : FixedBytes 10) : DepositResult × Queue :=
  if q.caps.maxBlobBytes < payload.length then
    (DepositResult.tooLarge, q)
  else
    let q := q.sweepLocked now
    if (q.byKey.lookup target).isNone ∧ q.caps.maxKeys <= FiniteMap.size q.byKey then
      (DepositResult.capacity, q)
    else if q.caps.maxPerKeyBlobs <= (q.pending target).length then
      (DepositResult.quotaFull, q)
    else if q.caps.maxPerKeyBytes <
        (q.bytes.lookup target).getD 0 + Int64.ofNat payload.length then
      (DepositResult.quotaFull, q)
    else
      let b := newBlob source target payload ttl now random
      (DepositResult.ok b.id,
        { q with
          byKey := q.byKey.insert target (q.pending target ++ [b])
          bytes := q.bytes.insert target
            ((q.bytes.lookup target).getD 0 + Int64.ofNat payload.length) })

def pickup (q : Queue) (key : String) (now : Int) : List BlobView × Queue :=
  let q := q.sweepLocked now
  (((q.pending key).filter (Blob.live now)).map Blob.view, q)

def ack (q : Queue) (key : String) (ids : List String) : Nat × Queue :=
  if ids = [] then
    (0, q)
  else if q.pending key = [] then
    (0, q)
  else
    let kept := (q.pending key).filter fun b => decide (b.id ∉ ids)
    let dropped := (q.pending key).filter fun b => decide (b.id ∈ ids)
    if kept = [] then
      (dropped.length,
        { q with byKey := q.byKey.erase key, bytes := q.bytes.erase key })
    else
      let left := (q.bytes.lookup key).getD 0 - payloadBytes dropped
      (dropped.length,
        { q with
          byKey := q.byKey.insert key kept
          bytes := q.bytes.insert key (if left < 0 then 0 else left) })

/-!
# What the operations do to a key's list
-/

theorem getD_sweepKey (now : Int) (blobs : List Blob) :
    (sweepKey now blobs).getD [] = blobs.filter (Blob.live now) := by
  unfold sweepKey
  cases blobs.filter (Blob.live now) <;> rfl

theorem pending_sweepLocked (q : Queue) (now : Int) (key : String) :
    (q.sweepLocked now).pending key = q.pending key ∨
      (q.sweepLocked now).pending key = (q.pending key).filter (Blob.live now) := by
  unfold sweepLocked
  split
  · exact Or.inl rfl
  · apply Or.inr
    unfold pending
    dsimp only
    rw [FiniteMap.lookup_filterMap]
    cases hb : q.byKey.lookup key with
    | none => rfl
    | some blobs => exact getD_sweepKey now blobs

theorem deposit_cases (q : Queue) (source target : String) (payload : Bytes)
    (ttl : Duration) (now : Int) (random : FixedBytes 10) :
    (exists res, (forall id, res ≠ DepositResult.ok id) ∧
      (q.deposit source target payload ttl now random = (res, q) ∨
        q.deposit source target payload ttl now random = (res, q.sweepLocked now))) ∨
    exists bytes, q.deposit source target payload ttl now random =
      (DepositResult.ok (newBlobID now random),
        { q.sweepLocked now with
          byKey := (q.sweepLocked now).byKey.insert target
            ((q.sweepLocked now).pending target ++
              [newBlob source target payload ttl now random])
          bytes := bytes }) := by
  unfold deposit
  split
  · exact Or.inl ⟨DepositResult.tooLarge, (fun _ h => nomatch h), Or.inl rfl⟩
  · dsimp only
    split
    · exact Or.inl ⟨DepositResult.capacity, (fun _ h => nomatch h), Or.inr rfl⟩
    · split
      · exact Or.inl ⟨DepositResult.quotaFull, (fun _ h => nomatch h), Or.inr rfl⟩
      · split
        · exact Or.inl ⟨DepositResult.quotaFull, (fun _ h => nomatch h), Or.inr rfl⟩
        · exact Or.inr ⟨_, rfl⟩

theorem pending_ack (q : Queue) (key key' : String) (ids : List String) :
    (q.ack key ids).2.pending key' =
      if key = key' then (q.pending key').filter fun b => decide (b.id ∉ ids)
      else q.pending key' := by
  unfold ack
  split
  · rename_i hids
    rw [hids]
    simp
  · split
    · rename_i hempty
      split
      · rename_i heq
        rw [<- heq, hempty]
        rfl
      · rfl
    · dsimp only
      split
      · rename_i hkept
        by_cases heq : key = key'
        · rw [if_pos heq, <- heq, hkept, pending]
          simp
        · rw [if_neg heq, pending]
          dsimp only
          rw [Finmap.lookup_erase_ne (Ne.symm heq)]
          rfl
      · by_cases heq : key = key'
        · rw [if_pos heq, <- heq, pending]
          simp
        · rw [if_neg heq, pending]
          dsimp only
          rw [Finmap.lookup_insert_of_ne _ (Ne.symm heq)]
          rfl

end Queue

end Rendezvous
end Ephor
