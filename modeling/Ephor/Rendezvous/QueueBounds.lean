import Ephor.Rendezvous.Mailbox
import Mathlib.Algebra.GroupWithZero.Nat

/-!
# The bounds of a queue

Over every run of deposits, pickups and acks: the byte counter of a key is the size of its
pending blobs, a key with an entry has a blob, and the three caps hold.  The counters are
64-bit numbers, so the blobs of a key have to fit into an address space; where the caps
alone see to that, nothing is asked of a run.
-/

namespace Ephor
namespace Rendezvous

open Foundation
open Foundation.GoTime
open Foundation.Transition (after StepsMeet)
open FiniteMap

def totalBytes (blobs : List Blob) : Nat :=
  (blobs.map fun b => b.payload.length).sum

theorem totalBytes_append (blobs more : List Blob) :
    totalBytes (blobs ++ more) = totalBytes blobs + totalBytes more := by
  rw [totalBytes, List.map_append, List.sum_append]
  rfl

theorem totalBytes_filter (p : Blob -> Bool) (blobs : List Blob) :
    totalBytes (blobs.filter p) + totalBytes (blobs.filter fun b => !p b) = totalBytes blobs := by
  induction blobs with
  | nil => rfl
  | cons b blobs ih =>
      have hcons : forall rest : List Blob,
          totalBytes (b :: rest) = b.payload.length + totalBytes rest := fun _ => rfl
      cases hb : p b with
      | true =>
          rw [List.filter_cons_of_pos hb, List.filter_cons_of_neg (by rw [hb]; decide), hcons,
            hcons]
          omega
      | false =>
          rw [List.filter_cons_of_neg (by rw [hb]; decide),
            List.filter_cons_of_pos (by rw [hb]; decide), hcons, hcons]
          omega

theorem totalBytes_filter_le (p : Blob -> Bool) (blobs : List Blob) :
    totalBytes (blobs.filter p) <= totalBytes blobs := by
  have hsplit := totalBytes_filter p blobs
  omega

/-!
# 64-bit counters
-/

theorem toInt_add_of_lt {a : Int64} {n : Nat} (ha : 0 <= a.toInt)
    (h : a.toInt + n < 2 ^ 63) : (a + Int64.ofNat n).toInt = a.toInt + n := by
  have hn : (Int64.ofNat n).toInt = n := Int64.toInt_ofNat_of_lt (by omega)
  rw [Int64.toInt_add, hn]
  apply Int.bmod_eq_of_le
  · omega
  · omega

variable {blobs : List Blob} {q : Queue} {key : String}

theorem toInt_foldl {sum : Int64} (hsum : 0 <= sum.toInt)
    (h : sum.toInt + totalBytes blobs < 2 ^ 63) :
    ((blobs.map fun b => Int64.ofNat b.payload.length).foldl (fun sum n => sum + n) sum).toInt =
      sum.toInt + totalBytes blobs := by
  induction blobs generalizing sum with
  | nil => exact (Int.add_zero _).symm
  | cons b blobs ih =>
      have hcons : totalBytes (b :: blobs) = b.payload.length + totalBytes blobs := rfl
      have hadd : (sum + Int64.ofNat b.payload.length).toInt = sum.toInt + b.payload.length :=
        toInt_add_of_lt hsum (by omega)
      rw [List.map_cons, List.foldl_cons, ih (by omega) (by omega), hadd]
      omega

theorem toInt_payloadBytes (h : totalBytes blobs < 2 ^ 63) :
    (payloadBytes blobs).toInt = totalBytes blobs := by
  have hzero : (0 : Int64).toInt = 0 := rfl
  rw [payloadBytes, toInt_foldl (by omega) (by omega), hzero, Int.zero_add]

namespace Queue

/-!
# The invariant
-/

structure KeyBounded (caps : QueueCaps) (blobs : List Blob) : Prop where
  nonempty : blobs ≠ []
  count : (blobs.length : Int) <= caps.maxPerKeyBlobs
  size : (totalBytes blobs : Int) <= caps.maxPerKeyBytes.toInt

/-- The two maps hold the same keys, the counters are exact, and the caps hold. -/
structure Bounded (q : Queue) : Prop where
  counted : forall key, (q.bytes.lookup key).map Int64.toInt =
    (q.byKey.lookup key).map fun blobs => (totalBytes blobs : Int)
  keyBounded : forall key blobs, q.byKey.lookup key = some blobs -> KeyBounded q.caps blobs
  keys : (size q.byKey : Int) <= q.caps.maxKeys

theorem bounded_newQueue (caps : QueueCaps) : (newQueue caps).Bounded where
  counted := fun key => by
    rw [newQueue, Finmap.lookup_empty, Finmap.lookup_empty]
    rfl
  keyBounded := fun key blobs h => by
    cases h
  keys := by
    change (0 : Int) <= if caps.maxKeys <= 0 then 100000 else caps.maxKeys
    split
    · decide
    · omega

theorem totalBytes_lt (h : q.Bounded) (hblobs : q.byKey.lookup key = some blobs) :
    totalBytes blobs < 2 ^ 63 := by
  have hsize := (h.keyBounded key blobs hblobs).size
  have hcap := Int64.toInt_lt q.caps.maxPerKeyBytes
  omega

theorem toInt_counter (h : q.Bounded) (key : String) :
    ((q.bytes.lookup key).getD 0).toInt = totalBytes (q.pending key) := by
  have hcounted := h.counted key
  unfold pending
  cases hblobs : q.byKey.lookup key with
  | none =>
      rw [hblobs, Option.map_none, Option.map_eq_none_iff] at hcounted
      rw [hcounted]
      rfl
  | some blobs =>
      rw [hblobs, Option.map_some, Option.map_eq_some_iff] at hcounted
      rcases hcounted with ⟨n, hn, heq⟩
      rw [hn]
      exact heq

/-!
# A sweep
-/

theorem sweepKey_eq_some {now : Int} {kept : List Blob} (h : sweepKey now blobs = some kept) :
    kept = blobs.filter (Blob.live now) ∧ kept ≠ [] := by
  unfold sweepKey at h
  split at h
  · cases h
  · rename_i hne
    cases h
    exact ⟨rfl, hne⟩

theorem keyBounded_filter {caps : QueueCaps} (h : KeyBounded caps blobs) {p : Blob -> Bool}
    (hne : blobs.filter p ≠ []) : KeyBounded caps (blobs.filter p) := by
  have hlength : (blobs.filter p).length <= blobs.length := List.length_filter_le p blobs
  have htotal := totalBytes_filter_le p blobs
  have hcount := h.count
  have hsize := h.size
  exact ⟨hne, by omega, by omega⟩

theorem lookup_bytes_none (h : q.Bounded) (hnone : q.byKey.lookup key = none) :
    q.bytes.lookup key = none := by
  have hcounted := h.counted key
  rw [hnone, Option.map_none, Option.map_eq_none_iff] at hcounted
  exact hcounted

theorem lookup_bytes_sweep (h : q.Bounded) (now : Int) (key : String) :
    (filterMap (fun _ pending => (sweepKey now pending).map payloadBytes) q.byKey ∪
        filter (fun key _ => (q.byKey.lookup key).isNone) q.bytes).lookup key =
      ((q.byKey.lookup key).bind (sweepKey now)).map payloadBytes := by
  have hleft := lookup_filterMap
    (fun (_ : String) pending => (sweepKey now pending).map payloadBytes) q.byKey key
  have hright : (filter (fun key _ => (q.byKey.lookup key).isNone) q.bytes).lookup key =
      none := by
    rw [lookup_filter_eq_none]
    intro n hn
    cases hblobs : q.byKey.lookup key with
    | none =>
        rw [lookup_bytes_none h hblobs] at hn
        cases hn
    | some blobs => rfl
  have hmap : ((q.byKey.lookup key).bind fun pending => (sweepKey now pending).map payloadBytes) =
      ((q.byKey.lookup key).bind (sweepKey now)).map payloadBytes := by
    cases q.byKey.lookup key with
    | none | some blobs => rfl
  rw [hmap] at hleft
  rw [<- hleft]
  by_cases hmem : key ∈
      filterMap (fun _ pending => (sweepKey now pending).map payloadBytes) q.byKey
  · exact Finmap.lookup_union_left hmem
  · rw [Finmap.lookup_union_right hmem, hright, Finmap.lookup_eq_none.mpr hmem]

theorem bounded_sweepLocked (h : q.Bounded) (now : Int) : (q.sweepLocked now).Bounded := by
  unfold sweepLocked
  split
  · exact h
  · have hlookup := lookup_filterMap (fun (_ : String) => sweepKey now) q.byKey
    constructor
    · intro key
      dsimp only
      rw [lookup_bytes_sweep h, hlookup]
      cases hblobs : q.byKey.lookup key with
      | none => rfl
      | some blobs =>
          rw [Option.bind_some]
          cases hkept : sweepKey now blobs with
          | none => rfl
          | some kept =>
              have hle := totalBytes_filter_le (Blob.live now) blobs
              have hlt := totalBytes_lt h hblobs
              rw [<- (sweepKey_eq_some hkept).1] at hle
              rw [Option.map_some, Option.map_some, Option.map_some,
                toInt_payloadBytes (by omega)]
    · intro key kept hkept
      change (filterMap (fun _ => sweepKey now) q.byKey).lookup key = some kept at hkept
      rw [hlookup, Option.bind_eq_some_iff] at hkept
      rcases hkept with ⟨blobs, hblobs, hsweep⟩
      rcases sweepKey_eq_some hsweep with ⟨hfilter, hne⟩
      rw [hfilter] at hne ⊢
      exact keyBounded_filter (h.keyBounded key blobs hblobs) hne
    · have hle := size_filterMap_le (fun (_ : String) => sweepKey now) q.byKey
      exact Int.le_trans (Int.ofNat_le.mpr hle) h.keys

theorem caps_sweepLocked (q : Queue) (now : Int) : (q.sweepLocked now).caps = q.caps := by
  unfold sweepLocked
  split
  · rfl
  · rfl

/-!
# A deposit
-/

theorem bounded_insert (h : q.Bounded) (hblobs : KeyBounded q.caps blobs) {counter : Int64}
    (hcounter : counter.toInt = totalBytes blobs)
    (hroom : q.byKey.lookup key = none -> (size q.byKey : Int) < q.caps.maxKeys) :
    ({ q with byKey := q.byKey.insert key blobs, bytes := q.bytes.insert key counter } :
      Queue).Bounded := by
  constructor
  · intro key'
    dsimp only
    by_cases heq : key' = key
    · rw [heq, Finmap.lookup_insert, Finmap.lookup_insert, Option.map_some, Option.map_some,
        hcounter]
    · rw [Finmap.lookup_insert_of_ne _ heq, Finmap.lookup_insert_of_ne _ heq]
      exact h.counted key'
  · intro key' blobs' hlookup
    rcases lookup_insert_eq_some.mp hlookup with ⟨_, heq⟩ | ⟨_, hold⟩
    · rw [heq]
      exact hblobs
    · exact h.keyBounded key' blobs' hold
  · have hkeys := h.keys
    dsimp only
    cases hlookup : q.byKey.lookup key with
    | none =>
        have hlt := hroom hlookup
        rw [size_insert_of_none blobs hlookup]
        omega
    | some old =>
        rw [size_insert_of_some blobs hlookup]
        exact hkeys

/-- The payload of a deposit that passes the size cap fits beside what is pending. -/
def Addressable (q : Queue) (op : QueueOp) : Prop :=
  match op with
  | QueueOp.deposit _ target payload _ _ _ => (payload.length : Int) <= q.caps.maxBlobBytes ->
      totalBytes (q.pending target) + payload.length < 2 ^ 63
  | _ => True

theorem totalBytes_pending_sweep (q : Queue) (now : Int) (key : String) :
    totalBytes ((q.sweepLocked now).pending key) <= totalBytes (q.pending key) := by
  rcases pending_sweepLocked q now key with heq | heq
  · rw [heq]
  · rw [heq]
    exact totalBytes_filter_le (Blob.live now) (q.pending key)

theorem bounded_deposit (h : q.Bounded) {source target : String} {payload : Bytes}
    {ttl : Duration} {now : Int} {random : FixedBytes 10}
    (hfits : Addressable q (QueueOp.deposit source target payload ttl now random)) :
    (q.deposit source target payload ttl now random).2.Bounded := by
  have hswept := bounded_sweepLocked h now
  have hshrinks := totalBytes_pending_sweep q now target
  have hcounter := toInt_counter hswept target
  unfold deposit
  split
  · exact h
  · rename_i hblob
    have hlt := hfits (Int.not_lt.mp hblob)
    dsimp only
    split
    · exact hswept
    · rename_i hkeys
      split
      · exact hswept
      · rename_i hcount
        split
        · exact hswept
        · rename_i hbytes
          have hsum : (((q.sweepLocked now).bytes.lookup target).getD 0 +
              Int64.ofNat payload.length).toInt =
                totalBytes ((q.sweepLocked now).pending target) + payload.length := by
            rw [toInt_add_of_lt (by omega) (by omega), hcounter]
          have htotal : totalBytes ((q.sweepLocked now).pending target ++
              [newBlob source target payload ttl now random]) =
                totalBytes ((q.sweepLocked now).pending target) + payload.length :=
            totalBytes_append _ _
          have hsize := Int64.le_iff_toInt_le.mp (Int64.not_lt.mp hbytes)
          rw [hsum] at hsize
          apply bounded_insert hswept
          · constructor
            · exact List.append_ne_nil_of_right_ne_nil _ (List.cons_ne_nil _ _)
            · rw [List.length_append, List.length_singleton]
              omega
            · rw [htotal]
              omega
          · rw [hsum, htotal]
            omega
          · intro hnone
            exact Int.not_le.mp fun hle => hkeys ⟨Option.isNone_iff_eq_none.mpr hnone, hle⟩

/-!
# An ack
-/

theorem bounded_erase (h : q.Bounded) (key : String) :
    ({ q with byKey := q.byKey.erase key, bytes := q.bytes.erase key } : Queue).Bounded := by
  constructor
  · intro key'
    dsimp only
    by_cases heq : key' = key
    · rw [heq, Finmap.lookup_erase, Finmap.lookup_erase]
      rfl
    · rw [Finmap.lookup_erase_ne heq, Finmap.lookup_erase_ne heq]
      exact h.counted key'
  · intro key' blobs hlookup
    exact h.keyBounded key' blobs (lookup_erase_eq_some.mp hlookup).2
  · have hkeys := h.keys
    dsimp only
    cases hlookup : q.byKey.lookup key with
    | none =>
        rw [erase_of_lookup_none hlookup]
        exact hkeys
    | some blobs =>
        have hsize := size_erase hlookup
        omega

theorem lookup_of_pending_ne_nil (h : q.pending key ≠ []) :
    q.byKey.lookup key = some (q.pending key) := by
  unfold pending at h ⊢
  cases hlookup : q.byKey.lookup key with
  | none =>
      rw [hlookup] at h
      exact absurd rfl h
  | some blobs => rfl

theorem toInt_left (h : q.Bounded) (hne : q.pending key ≠ []) (ids : List String) :
    ((q.bytes.lookup key).getD 0 -
        payloadBytes ((q.pending key).filter fun b => decide (b.id ∈ ids))).toInt =
      totalBytes ((q.pending key).filter fun b => decide (b.id ∉ ids)) := by
  have hlt := totalBytes_lt h (lookup_of_pending_ne_nil hne)
  have hcounter := toInt_counter h key
  have hsplit := totalBytes_filter (fun b => decide (b.id ∈ ids)) (q.pending key)
  have hnot : (fun b : Blob => !decide (b.id ∈ ids)) = fun b => decide (b.id ∉ ids) := by
    funext b
    exact (decide_not).symm
  rw [hnot] at hsplit
  have hdropped := toInt_payloadBytes
    (show totalBytes ((q.pending key).filter fun b => decide (b.id ∈ ids)) < 2 ^ 63 by omega)
  rw [Int64.toInt_sub, hcounter, hdropped]
  rw [Int.bmod_eq_of_le (by omega) (by omega)]
  omega

theorem bounded_ack (h : q.Bounded) (key : String) (ids : List String) :
    (q.ack key ids).2.Bounded := by
  unfold ack
  split
  · exact h
  · split
    · exact h
    · rename_i hpending
      dsimp only
      split
      · exact bounded_erase h key
      · rename_i hkept
        have hlookup := lookup_of_pending_ne_nil hpending
        have hleft := toInt_left h hpending ids
        have hclamp : Not ((q.bytes.lookup key).getD 0 -
            payloadBytes ((q.pending key).filter fun b => decide (b.id ∈ ids)) < 0) := by
          rw [Int64.lt_iff_toInt_lt, hleft]
          exact Int.not_lt.mpr (Int.natCast_nonneg _)
        rw [if_neg hclamp]
        apply bounded_insert h (keyBounded_filter (h.keyBounded key _ hlookup) hkept) hleft
        intro hnone
        rw [hlookup] at hnone
        cases hnone

/-!
# Over a run
-/

theorem bounded_step (h : q.Bounded) {op : QueueOp} (hfits : Addressable q op) :
    (q.step op).Bounded := by
  cases op with
  | deposit source target payload ttl now random => exact bounded_deposit h hfits
  | pickup key now => exact bounded_sweepLocked h now
  | ack key ids now => exact bounded_ack h key ids

theorem caps_step (q : Queue) (op : QueueOp) : (q.step op).caps = q.caps := by
  cases op with
  | deposit source target payload ttl now random =>
      change (q.deposit source target payload ttl now random).2.caps = q.caps
      unfold deposit
      split
      · rfl
      · dsimp only
        split
        · exact caps_sweepLocked q now
        · split
          · exact caps_sweepLocked q now
          · split
            · exact caps_sweepLocked q now
            · exact caps_sweepLocked q now
  | pickup key now => exact caps_sweepLocked q now
  | ack key ids now =>
      change (q.ack key ids).2.caps = q.caps
      unfold ack
      split
      · rfl
      · split
        · rfl
        · dsimp only
          split
          · rfl
          · rfl

/-- The caps alone keep a key's blobs in an address space. -/
def CapsFit (caps : QueueCaps) : Prop :=
  caps.maxBlobBytes < 2 ^ 63 ∧ caps.maxBlobBytes + caps.maxPerKeyBytes.toInt < 2 ^ 63

instance (caps : QueueCaps) : Decidable (CapsFit caps) :=
  inferInstanceAs (Decidable (_ ∧ _))

theorem addressable_of_capsFit (h : q.Bounded) (hcaps : CapsFit q.caps) (op : QueueOp) :
    Addressable q op := by
  cases op with
  | deposit source target payload ttl now random =>
      intro hblob
      by_cases hpending : q.pending target = []
      · have hzero : totalBytes (q.pending target) = 0 := by
          rw [hpending]
          rfl
        have hlt := hcaps.1
        omega
      · have hlookup := lookup_of_pending_ne_nil hpending
        have hsize := (h.keyBounded target _ hlookup).size
        have hlt := hcaps.2
        omega
  | pickup key now | ack key ids now => trivial

theorem stepsMeet_addressable (h : q.Bounded) (hcaps : CapsFit q.caps) (ops : List QueueOp) :
    StepsMeet step Addressable q ops := by
  refine Transition.stepsMeet_of_invariant (fun q => q.Bounded ∧ CapsFit q.caps)
    (fun q op _ h => addressable_of_capsFit h.1 h.2 op) ?_ ⟨h, hcaps⟩
  intro q op _ h
  exact ⟨bounded_step h.1 (addressable_of_capsFit h.1 h.2 op), (caps_step q op).symm ▸ h.2⟩

theorem caps_after (q : Queue) (ops : List QueueOp) : (after step q ops).caps = q.caps := by
  induction ops generalizing q with
  | nil => rfl
  | cons op ops ih => exact (ih (q.step op)).trans (caps_step q op)

/--
In every state of a run the counter of a key is the size of its pending blobs, the two maps
hold the same keys, each key with an entry has a blob and is within its two caps, and no
more keys than the cap have entries.  Where the caps could exceed a 64-bit counter, the
payloads of the run have to fit into an address space.
-/
theorem queue_over_runs {caps : QueueCaps} {ops : List QueueOp}
    (h : CapsFit caps ∨ StepsMeet step Addressable (newQueue caps) ops)
    (past rest : List QueueOp) (hops : ops = past ++ rest) :
    (forall key, (((after step (newQueue caps) past).bytes.lookup key).getD 0).toInt =
      totalBytes ((after step (newQueue caps) past).pending key)) ∧
      (forall key, key ∈ (after step (newQueue caps) past).bytes <->
        key ∈ (after step (newQueue caps) past).byKey) ∧
      (forall key blobs, (after step (newQueue caps) past).byKey.lookup key = some blobs ->
        blobs ≠ [] ∧ (blobs.length : Int) <= caps.maxPerKeyBlobs ∧
          (totalBytes blobs : Int) <= caps.maxPerKeyBytes.toInt) ∧
      (size (after step (newQueue caps) past).byKey : Int) <=
        if caps.maxKeys <= 0 then 100000 else caps.maxKeys := by
  have hmeet : StepsMeet step Addressable (newQueue caps) past := by
    rcases h with hcaps | hmeet
    · exact stepsMeet_addressable (bounded_newQueue caps) hcaps past
    · rw [hops] at hmeet
      exact (Transition.stepsMeet_of_append hmeet).1
  have hstep : forall (q : Queue) (op : QueueOp), q.Bounded -> Addressable q op ->
      (q.step op).Bounded := fun q op hq hop => bounded_step hq hop
  have hbounded := Transition.invariant_after hstep (bounded_newQueue caps) hmeet
  have hcaps := caps_after (newQueue caps) past
  constructor
  · exact toInt_counter hbounded
  constructor
  · intro key
    have hcounted := congrArg Option.isSome (hbounded.counted key)
    rw [Option.isSome_map, Option.isSome_map] at hcounted
    rw [<- Finmap.lookup_isSome, <- Finmap.lookup_isSome, hcounted]
  constructor
  · intro key blobs hlookup
    have hkey := hbounded.keyBounded key blobs hlookup
    rw [hcaps] at hkey
    exact ⟨hkey.nonempty, hkey.count, hkey.size⟩
  · have hkeys := hbounded.keys
    rw [hcaps] at hkeys
    exact hkeys

def defaultSignalCaps : QueueCaps where
  maxBlobBytes := 65536
  maxPerKeyBlobs := 64
  maxPerKeyBytes := 1048576
  maxKeys := 0
  sweepEvery := 30000000000

def twoDeposits : List QueueOp :=
  [QueueOp.deposit "a" "k" [1, 2] minute 0 (FixedBytes.zero 10),
    QueueOp.deposit "a" "k" [3] minute 1000000 (FixedBytes.zero 10),
    QueueOp.ack "k" [newBlobID 0 (FixedBytes.zero 10)] 2000000]

theorem queue_over_twoDeposits :
    (((after step (newQueue defaultSignalCaps) twoDeposits).bytes.lookup "k").getD 0).toInt =
        totalBytes ((after step (newQueue defaultSignalCaps) twoDeposits).pending "k") ∧
      ((after step (newQueue defaultSignalCaps) twoDeposits).bytes.lookup "k").getD 0 = 1 :=
  ⟨(queue_over_runs (Or.inl (show CapsFit defaultSignalCaps by decide)) twoDeposits []
    (List.append_nil _).symm).1 "k", by decide +kernel⟩

end Queue

end Rendezvous
end Ephor
