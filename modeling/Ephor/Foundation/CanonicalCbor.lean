import Mathlib.Data.List.Induction
import Ephor.Foundation.Bytes

/-!
# Canonical CBOR

The deterministic encoding of integer-keyed maps: heads are as short as they can be,
and the keys of a map ascend.  A value has one encoding, and a byte string is the
encoding of at most one value.  The shapes that a program carries along without
looking into them are the type parameter `other`.
-/

namespace Ephor
namespace Foundation
namespace CanonicalCbor

/-- CBOR values whose maps have unsigned keys. -/
inductive Cv (other : Type) where
  | u64 (v : UInt64)
  | bytes (b : ByteVec)
  | text (s : String)
  | map (m : List (UInt64 × Cv other))
  | other (x : other)

/-- The keys of a map are written in strictly ascending order. -/
def Ascending {α : Type} (m : List (UInt64 × α)) : Prop :=
  (m.map Prod.fst).Pairwise (· < ·)

/-- The values that have an encoding, given those of the other shapes that do. -/
inductive Canonical {other : Type} (ofOther : other -> Prop) : Cv other -> Prop
  | u64 (v : UInt64) : Canonical ofOther (Cv.u64 v)
  | bytes (b : ByteVec) : Canonical ofOther (Cv.bytes b)
  | text (s : String) (hlen : s.utf8ByteSize < 2 ^ 63) : Canonical ofOther (Cv.text s)
  | map (m : List (UInt64 × Cv other)) (hlen : m.length < 2 ^ 63) (hkeys : Ascending m)
      (hvalues : forall entry, entry ∈ m -> Canonical ofOther entry.2) :
      Canonical ofOther (Cv.map m)
  | other (x : other) (hx : ofOther x) : Canonical ofOther (Cv.other x)

theorem Canonical.ascending {other : Type} {ofOther : other -> Prop}
    {m : List (UInt64 × Cv other)} (h : Canonical ofOther (Cv.map m)) : Ascending m := by
  cases h
  assumption

/-!
# Entries in order
-/

def insertEntry {α : Type} (key : UInt64) (v : α) :
    List (UInt64 × α) -> List (UInt64 × α)
  | [] => [(key, v)]
  | entry :: m =>
      if key < entry.1 then
        (key, v) :: entry :: m
      else
        entry :: insertEntry key v m

variable {ofOther : Empty -> Prop} {α : Type} {key : UInt64} {v : α} {b rest : Bytes}
    {width least arg info : Nat} {major : Fin 8} {prev : Option UInt64} {cv : Cv Empty}
    {m : List (UInt64 × α)}

theorem ascending_tail {entry : UInt64 × α} (h : Ascending (entry :: m)) : Ascending m :=
  (List.pairwise_cons.mp h).2

theorem ascending_lt {entry other : UInt64 × α} (h : Ascending (entry :: m)) (hmem : other ∈ m) :
    entry.1 < other.1 :=
  (List.pairwise_cons.mp h).1 other.1 (List.mem_map_of_mem hmem)

theorem ascending_filter (p : UInt64 × α -> Bool) (h : Ascending m) : Ascending (m.filter p) :=
  List.Pairwise.sublist (List.filter_sublist.map Prod.fst) h

theorem filter_ne_of_forall (h : forall entry, entry ∈ m -> entry.1 ≠ key) :
    (m.filter fun entry => entry.1 != key) = m := by
  apply List.filter_eq_self.mpr
  intro entry hmem
  exact bne_iff_ne.mpr (h entry hmem)

theorem filter_head (h : Ascending ((key, v) :: m)) :
    (((key, v) :: m).filter fun entry => entry.1 != key) = m := by
  rw [List.filter_cons_of_neg (by simp)]
  apply filter_ne_of_forall
  intro entry hmem
  exact (UInt64.ne_of_lt (ascending_lt h hmem)).symm

theorem insertEntry_filter (hasc : Ascending m) (h : m.lookup key = some v) :
    insertEntry key v (m.filter fun entry => entry.1 != key) = m := by
  induction m with
  | nil => cases h
  | cons entry m ih =>
      rcases entry with ⟨k, u⟩
      by_cases hkey : key = k
      · subst hkey
        rw [List.lookup_cons_self] at h
        cases h
        rw [filter_head hasc]
        cases m with
        | nil => rfl
        | cons next m =>
            rw [insertEntry, if_pos (ascending_lt hasc (List.mem_cons_self ..))]
      · have hlookup : m.lookup key = some v := by
          rw [List.lookup_cons, beq_false_of_ne hkey] at h
          exact h
        have hmem : (key, v) ∈ m := by
          rcases List.lookup_eq_some_iff.mp hlookup with ⟨before, after, hm, _⟩
          rw [hm]
          simp
        have hlt : k < key := ascending_lt hasc hmem
        rw [List.filter_cons_of_pos (by simp [Ne.symm hkey]), insertEntry,
          if_neg (UInt64.not_lt.mpr (UInt64.le_of_lt hlt)), ih (ascending_tail hasc) hlookup]

theorem filter_of_lookup_none (h : m.lookup key = none) :
    (m.filter fun entry => entry.1 != key) = m := by
  apply filter_ne_of_forall
  intro entry hmem heq
  have hbeq := List.lookup_eq_none_iff.mp h entry hmem
  rw [heq] at hbeq
  simp at hbeq

theorem ascending_last (h : Ascending (m ++ [(key, v)])) :
    Ascending m ∧ forall entry, entry ∈ m -> entry.1 < key := by
  rw [Ascending, List.map_append] at h
  rcases List.pairwise_append.mp h with ⟨hm, _, hbelow⟩
  refine ⟨hm, ?_⟩
  intro entry hmem
  exact hbelow entry.1 (List.mem_map_of_mem hmem) key (List.mem_cons_self ..)

theorem lookup_last (h : Ascending (m ++ [(key, v)])) : (m ++ [(key, v)]).lookup key = some v := by
  have hnone : m.lookup key = none := by
    apply List.lookup_eq_none_iff.mpr
    intro entry hmem
    have hne := UInt64.ne_of_lt ((ascending_last h).2 entry hmem)
    simp [Ne.symm hne]
  rw [List.lookup_append, hnone, List.lookup_cons_self]
  rfl

theorem filter_last (h : Ascending (m ++ [(key, v)])) :
    ((m ++ [(key, v)]).filter fun entry => entry.1 != key) = m := by
  rw [List.filter_append, filter_ne_of_forall, List.filter_cons_of_neg (by simp)]
  · exact List.append_nil m
  · intro entry hmem
    exact UInt64.ne_of_lt ((ascending_last h).2 entry hmem)

/-!
# Big-endian numbers
-/

def bigEndian : Nat -> Nat -> Bytes
  | 0, _ => []
  | width + 1, v => bigEndian width (v / 256) ++ [UInt8.ofNat v]

def ofBigEndian (b : Bytes) : Nat :=
  b.foldl (fun v x => v * 256 + x.toNat) 0

theorem length_bigEndian (width v : Nat) : (bigEndian width v).length = width := by
  induction width generalizing v with
  | zero => rfl
  | succ width ih => rw [bigEndian, List.length_append, ih, List.length_singleton]

theorem ofBigEndian_append (b : Bytes) (x : UInt8) :
    ofBigEndian (b ++ [x]) = ofBigEndian b * 256 + x.toNat := by
  rw [ofBigEndian, List.foldl_append]
  rfl

theorem ofBigEndian_lt (b : Bytes) : ofBigEndian b < 256 ^ b.length := by
  induction b using List.reverseRecOn with
  | nil => exact Nat.one_pos
  | append_singleton b x ih =>
      have hx := x.toNat_lt
      rw [ofBigEndian_append, List.length_append, List.length_singleton, Nat.pow_succ]
      omega

theorem ofBigEndian_bigEndian {width v : Nat} (h : v < 256 ^ width) :
    ofBigEndian (bigEndian width v) = v := by
  induction width generalizing v with
  | zero =>
      rw [Nat.pow_zero, Nat.lt_one_iff] at h
      rw [h]
      rfl
  | succ width ih =>
      have hdiv : v / 256 < 256 ^ width := by
        rw [Nat.pow_succ] at h
        exact Nat.div_lt_of_lt_mul (Nat.mul_comm _ _ ▸ h)
      rw [bigEndian, ofBigEndian_append, ih hdiv, UInt8.toNat_ofNat']
      exact Nat.div_add_mod' v 256

theorem bigEndian_ofBigEndian (b : Bytes) : bigEndian b.length (ofBigEndian b) = b := by
  induction b using List.reverseRecOn with
  | nil => rfl
  | append_singleton b x ih =>
      have hx := x.toNat_lt
      have hdiv : (ofBigEndian b * 256 + x.toNat) / 256 = ofBigEndian b := by
        omega
      have hlast : UInt8.ofNat (ofBigEndian b * 256 + x.toNat) = x := by
        apply UInt8.toNat_inj.mp
        rw [UInt8.toNat_ofNat']
        omega
      rw [List.length_append, List.length_singleton, bigEndian, ofBigEndian_append, hdiv,
        ih, hlast]

/-!
# Heads

A head is a major type and an argument.  An argument from 24 on stands in the one, two,
four or eight bytes after the first.
-/

/-- There are eight major types. -/
instance majorTypes : @NeZero Nat Zero.ofOfNat0 8 := ⟨by decide⟩

def firstByte (major : Fin 8) (info : Nat) : UInt8 :=
  UInt8.ofNat (major.val * 32 + info)

def encodeHead (major : Fin 8) (arg : Nat) : Bytes :=
  if arg < 24 then
    [firstByte major arg]
  else if arg < 0x100 then
    firstByte major 24 :: bigEndian 1 arg
  else if arg < 0x10000 then
    firstByte major 25 :: bigEndian 2 arg
  else if arg < 0x100000000 then
    firstByte major 26 :: bigEndian 4 arg
  else
    firstByte major 27 :: bigEndian 8 arg

/-- The first `count` bytes, and the bytes after them. -/
def takeBytes (count : Nat) (b : Bytes) : Option (Bytes × Bytes) :=
  if b.length < count then none else some (b.take count, b.drop count)

/-- An argument of `width` bytes; one that a shorter head could hold is refused. -/
def decodeWide (width least : Nat) (b : Bytes) : Option (Nat × Bytes) := do
  let (number, rest) <- takeBytes width b
  if ofBigEndian number < least then none else some (ofBigEndian number, rest)

def decodeArg (info : Nat) (b : Bytes) : Option (Nat × Bytes) :=
  if info < 24 then
    some (info, b)
  else if info = 24 then
    decodeWide 1 24 b
  else if info = 25 then
    decodeWide 2 0x100 b
  else if info = 26 then
    decodeWide 4 0x10000 b
  else if info = 27 then
    decodeWide 8 0x100000000 b
  else
    none

def decodeHead : Bytes -> Option (Fin 8 × Nat × Bytes)
  | [] => none
  | first :: b => do
      let (arg, rest) <- decodeArg (first.toNat % 32) b
      some (Fin.ofNat 8 (first.toNat / 32), arg, rest)

theorem encodeHead_ne_nil (major : Fin 8) (arg : Nat) : encodeHead major arg ≠ [] := by
  unfold encodeHead
  repeat' split
  all_goals exact List.cons_ne_nil _ _

theorem takeBytes_append (b rest : Bytes) : takeBytes b.length (b ++ rest) = some (b, rest) := by
  rw [takeBytes, List.length_append, if_neg (by omega), List.take_left, List.drop_left]

theorem takeBytes_eq_some {count : Nat} {taken : Bytes}
    (h : takeBytes count b = some (taken, rest)) : taken.length = count ∧ b = taken ++ rest := by
  unfold takeBytes at h
  split at h
  · cases h
  · rename_i hlen
    cases h
    exact ⟨List.length_take_of_le (Nat.le_of_not_lt hlen),
      (List.take_append_drop count b).symm⟩

theorem decodeWide_bigEndian (rest : Bytes) (hleast : least <= arg) (harg : arg < 256 ^ width) :
    decodeWide width least (bigEndian width arg ++ rest) = some (arg, rest) := by
  have htake := takeBytes_append (bigEndian width arg) rest
  rw [length_bigEndian] at htake
  rw [decodeWide, htake]
  show (if ofBigEndian (bigEndian width arg) < least then none else _) = _
  rw [ofBigEndian_bigEndian harg, if_neg (Nat.not_lt.mpr hleast)]

theorem decodeWide_eq_some (h : decodeWide width least b = some (arg, rest)) :
    least <= arg ∧ arg < 256 ^ width ∧ b = bigEndian width arg ++ rest := by
  rcases Option.bind_eq_some_iff.mp h with ⟨⟨number, tail⟩, htake, hrest⟩
  rcases takeBytes_eq_some htake with ⟨hlen, hb⟩
  dsimp only at hrest
  split at hrest
  · cases hrest
  · rename_i hleast
    cases hrest
    have hnumber := bigEndian_ofBigEndian number
    have hlt := ofBigEndian_lt number
    rw [hlen] at hnumber hlt
    rw [hnumber]
    exact ⟨Nat.le_of_not_lt hleast, hlt, hb⟩

theorem firstByte_toNat (h : info < 32) : (firstByte major info).toNat = major.val * 32 + info := by
  have hmajor := major.isLt
  rw [firstByte, UInt8.toNat_ofNat', Nat.mod_eq_of_lt (by omega)]

theorem decodeHead_firstByte (b : Bytes) (h : info < 32) :
    decodeHead (firstByte major info :: b) =
      (decodeArg info b).map fun found => (major, found.1, found.2) := by
  have hmod : (major.val * 32 + info) % 32 = info := by
    omega
  have hdiv : (major.val * 32 + info) / 32 = major.val := by
    omega
  have hmajor : Fin.ofNat 8 major.val = major :=
    Fin.ext (Nat.mod_eq_of_lt major.isLt)
  rw [decodeHead, firstByte_toNat h, hmod, hdiv, hmajor]
  cases decodeArg info b <;> rfl

theorem decodeHead_wide (major : Fin 8) (rest : Bytes) (hinfo : info < 32)
    (hwide : decodeArg info = decodeWide width least) (hleast : least <= arg)
    (harg : arg < 256 ^ width) :
    decodeHead ((firstByte major info :: bigEndian width arg) ++ rest) =
      some (major, arg, rest) := by
  rw [List.cons_append, decodeHead_firstByte _ hinfo, hwide,
    decodeWide_bigEndian rest hleast harg]
  rfl

theorem decodeHead_encodeHead (major : Fin 8) (rest : Bytes) (h : arg < 2 ^ 64) :
    decodeHead (encodeHead major arg ++ rest) = some (major, arg, rest) := by
  unfold encodeHead
  split
  · rename_i hsmall
    rw [List.singleton_append, decodeHead_firstByte rest (by omega), decodeArg,
      if_pos hsmall]
    rfl
  · split
    · exact decodeHead_wide major rest (by decide) rfl (by omega) (by omega)
    · split
      · exact decodeHead_wide major rest (by decide) rfl (by omega) (by omega)
      · split
        · exact decodeHead_wide major rest (by decide) rfl (by omega) (by omega)
        · exact decodeHead_wide major rest (by decide) rfl (by omega) (by omega)

theorem encodeHead_of_decodeWide (hwidth : width <= 8)
    (hhead : least <= arg -> arg < 256 ^ width ->
      encodeHead major arg = firstByte major info :: bigEndian width arg)
    (h : decodeWide width least b = some (arg, rest)) :
    arg < 2 ^ 64 ∧ firstByte major info :: b = encodeHead major arg ++ rest := by
  rcases decodeWide_eq_some h with ⟨hleast, hlt, hb⟩
  constructor
  · calc
      arg < 256 ^ width := hlt
      _ <= 256 ^ 8 := Nat.pow_le_pow_right (by decide) hwidth
      _ = 2 ^ 64 := by decide
  · rw [hhead hleast hlt, hb, List.cons_append]

theorem decodeArg_eq_some (major : Fin 8) (h : decodeArg info b = some (arg, rest)) :
    arg < 2 ^ 64 ∧ firstByte major info :: b = encodeHead major arg ++ rest := by
  unfold decodeArg at h
  split at h
  · rename_i hsmall
    cases h
    rw [encodeHead, if_pos hsmall]
    exact ⟨by omega, rfl⟩
  · split at h
    · rename_i _ hinfo
      refine encodeHead_of_decodeWide (by decide) ?_ h
      intro hleast hlt
      rw [encodeHead, if_neg (by omega), if_pos (by omega), hinfo]
    · split at h
      · rename_i _ hinfo
        refine encodeHead_of_decodeWide (by decide) ?_ h
        intro hleast hlt
        rw [encodeHead, if_neg (by omega), if_neg (by omega), if_pos (by omega), hinfo]
      · split at h
        · rename_i _ hinfo
          refine encodeHead_of_decodeWide (by decide) ?_ h
          intro hleast hlt
          rw [encodeHead, if_neg (by omega), if_neg (by omega), if_neg (by omega),
            if_pos (by omega), hinfo]
        · split at h
          · rename_i _ hinfo
            refine encodeHead_of_decodeWide (by decide) ?_ h
            intro hleast hlt
            rw [encodeHead, if_neg (by omega), if_neg (by omega), if_neg (by omega),
              if_neg (by omega), hinfo]
          · cases h

theorem decodeHead_eq_some (h : decodeHead b = some (major, arg, rest)) :
    arg < 2 ^ 64 ∧ b = encodeHead major arg ++ rest := by
  cases b with
  | nil => cases h
  | cons first b =>
      rcases Option.bind_eq_some_iff.mp h with ⟨⟨found, tail⟩, harg, hsome⟩
      cases hsome
      have hfirst : firstByte (Fin.ofNat 8 (first.toNat / 32)) (first.toNat % 32) =
          first := by
        have hlt := first.toNat_lt
        apply UInt8.toNat_inj.mp
        rw [firstByte_toNat (Nat.mod_lt _ (by decide)), Fin.val_ofNat,
          Nat.mod_eq_of_lt (by omega)]
        exact Nat.div_add_mod' _ _
      have hsplit := decodeArg_eq_some (Fin.ofNat 8 (first.toNat / 32)) harg
      rw [hfirst] at hsplit
      exact hsplit

/-!
# Values
-/

def majorUint : Fin 8 := 0

def majorBytes : Fin 8 := 2

def majorText : Fin 8 := 3

def majorMap : Fin 8 := 5

def utf8 (s : String) : Bytes :=
  s.toByteArray.data.toList

def ofUtf8 (b : Bytes) : Option String :=
  String.fromUTF8? ⟨b.toArray⟩

mutual

def encode : Cv Empty -> Bytes
  | Cv.u64 v => encodeHead majorUint v.toNat
  | Cv.bytes b => encodeHead majorBytes b.toBytes.length ++ b.toBytes
  | Cv.text s => encodeHead majorText (utf8 s).length ++ utf8 s
  | Cv.map m => encodeHead majorMap m.length ++ encodePairs m
  | Cv.other x => nomatch x

def encodePairs : List (UInt64 × Cv Empty) -> Bytes
  | [] => []
  | (key, v) :: m => encodeHead majorUint key.toNat ++ (encode v ++ encodePairs m)

end

/-- The entries of a map, after the key `prev`. -/
def decodePairs (item : Bytes -> Option (Cv Empty × Bytes)) :
    Nat -> Option UInt64 -> Bytes -> Option (List (UInt64 × Cv Empty) × Bytes)
  | 0, _, b => some ([], b)
  | count + 1, prev, b => do
      let (major, arg, b) <- decodeHead b
      let key := UInt64.ofNat arg
      if major ≠ majorUint ∨ prev.any fun p => decide (key <= p) then
        none
      else
        let (v, b) <- item b
        let (m, rest) <- decodePairs item count (some key) b
        some ((key, v) :: m, rest)

/-- One value, nested at most as deep as the fuel, and the bytes after it. -/
def decodeItem : Nat -> Bytes -> Option (Cv Empty × Bytes)
  | 0, _ => none
  | fuel + 1, b => do
      let (major, arg, b) <- decodeHead b
      if major = majorUint then
        some (Cv.u64 (UInt64.ofNat arg), b)
      else if major = majorBytes then
        let (taken, rest) <- takeBytes arg b
        if hlen : taken.length < 2 ^ 63 then
          some (Cv.bytes ⟨taken, hlen⟩, rest)
        else
          none
      else if major = majorText then
        let (taken, rest) <- takeBytes arg b
        let s <- ofUtf8 taken
        if taken.length < 2 ^ 63 then some (Cv.text s, rest) else none
      else if major = majorMap then
        if arg < 2 ^ 63 then
          let (m, rest) <- decodePairs (decodeItem fuel) arg none b
          some (Cv.map m, rest)
        else
          none
      else
        none

def decode (b : Bytes) : Option (Cv Empty) :=
  match decodeItem b.length b with
  | some (cv, []) => some cv
  | _ => none

theorem length_utf8 (s : String) : (utf8 s).length = s.utf8ByteSize := rfl

theorem ofUtf8_utf8 (s : String) : ofUtf8 (utf8 s) = some s := by
  have harray : (⟨(utf8 s).toArray⟩ : ByteArray) = s.toByteArray := rfl
  rw [ofUtf8, harray, String.fromUTF8?, dif_pos s.isValidUTF8]
  rfl

theorem ofUtf8_eq_some {s : String} (h : ofUtf8 b = some s) : utf8 s = b := by
  unfold ofUtf8 String.fromUTF8? at h
  split at h
  · cases h
    rfl
  · cases h

/-!
# Reading what was written
-/

theorem encode_ne_nil (cv : Cv Empty) : encode cv ≠ [] := by
  cases cv with
  | u64 v => exact encodeHead_ne_nil _ _
  | other x => exact nomatch x
  | _ =>
      rw [encode]
      exact List.append_ne_nil_of_left_ne_nil (encodeHead_ne_nil _ _) _

theorem length_encode_le {m : List (UInt64 × Cv Empty)} {entry : UInt64 × Cv Empty}
    (h : entry ∈ m) : (encode entry.2).length <= (encodePairs m).length := by
  induction m with
  | nil => cases h
  | cons first m ih =>
      rw [encodePairs, List.length_append, List.length_append]
      cases h with
      | head => omega
      | tail _ hmem =>
          have hle := ih hmem
          omega

/-- The keys ascend, and the first one is above `prev`. -/
def AscendingAfter {α : Type} (prev : Option UInt64) (m : List (UInt64 × α)) : Prop :=
  (prev.toList ++ m.map Prod.fst).Pairwise (· < ·)

theorem AscendingAfter.tail (h : AscendingAfter prev ((key, v) :: m)) :
    AscendingAfter (some key) m :=
  (List.pairwise_append.mp h).2.1

theorem AscendingAfter.head {p : UInt64} (h : AscendingAfter (some p) ((key, v) :: m)) : p < key :=
  (List.pairwise_cons.mp h).1 key (List.mem_cons_self ..)

theorem AscendingAfter.cons {α : Type} {prev : Option UInt64} {key : UInt64} {v : α}
    {m : List (UInt64 × α)} (hhead : forall p, p ∈ prev -> p < key)
    (htail : AscendingAfter (some key) m) : AscendingAfter prev ((key, v) :: m) := by
  cases prev with
  | none => exact htail
  | some p =>
      have hp := hhead p rfl
      refine List.pairwise_cons.mpr ⟨?_, htail⟩
      intro k hk
      cases List.mem_cons.mp hk with
      | inl heq =>
          rw [heq]
          exact hp
      | inr hmem =>
          exact UInt64.lt_trans hp ((List.pairwise_cons.mp htail).1 k hmem)

theorem any_le_eq_false :
    (prev.any fun p => decide (key <= p)) = false <-> forall p, p ∈ prev -> p < key := by
  cases prev with
  | none | some p => simp

theorem decodePairs_encodePairs {item : Bytes -> Option (Cv Empty × Bytes)}
    {m : List (UInt64 × Cv Empty)} (rest : Bytes) (hkeys : AscendingAfter prev m)
    (hitem : forall entry, entry ∈ m ->
      forall rest, item (encode entry.2 ++ rest) = some (entry.2, rest)) :
    decodePairs item m.length prev (encodePairs m ++ rest) = some (m, rest) := by
  induction m generalizing prev with
  | nil => rfl
  | cons entry m ih =>
      rcases entry with ⟨key, v⟩
      have habove : (prev.any fun p => decide (key <= p)) = false := by
        apply any_le_eq_false.mpr
        intro p hp
        rw [hp] at hkeys
        exact hkeys.head
      have hv := hitem (key, v) (List.mem_cons_self ..)
      have hm := ih hkeys.tail (List.forall_mem_cons.mp hitem).2
      rw [encodePairs, List.append_assoc, List.append_assoc, List.length_cons, decodePairs,
        decodeHead_encodeHead majorUint _ key.toNat_lt]
      simp only [Option.bind_eq_bind, Option.bind_some, UInt64.ofNat_toNat, habove, hv, hm]
      rfl

theorem fuel_eq_succ {fuel : Nat} (h : (encode cv).length <= fuel) : exists n, fuel = n + 1 := by
  have hpos := List.length_pos_iff.mpr (encode_ne_nil cv)
  exact Nat.exists_eq_add_of_le' (Nat.le_trans hpos h)

theorem decodeItem_encode (h : Canonical ofOther cv) {fuel : Nat} (rest : Bytes)
    (hfuel : (encode cv).length <= fuel) :
    decodeItem fuel (encode cv ++ rest) = some (cv, rest) := by
  -- the values of a map are read with one unit of fuel less than the map itself
  induction h generalizing fuel rest with
  | u64 v =>
      rcases fuel_eq_succ hfuel with ⟨fuel, rfl⟩
      rw [encode, decodeItem, decodeHead_encodeHead majorUint _ v.toNat_lt]
      simp only [Option.bind_eq_bind, Option.bind_some, UInt64.ofNat_toNat]
      rfl
  | bytes b =>
      rcases fuel_eq_succ hfuel with ⟨fuel, rfl⟩
      have hlen := b.length_lt
      rw [encode, List.append_assoc, decodeItem,
        decodeHead_encodeHead majorBytes _ (by omega)]
      simp only [Option.bind_eq_bind, Option.bind_some, takeBytes_append, hlen]
      rfl
  | text s hlen =>
      rcases fuel_eq_succ hfuel with ⟨fuel, rfl⟩
      rw [<- length_utf8] at hlen
      rw [encode, List.append_assoc, decodeItem,
        decodeHead_encodeHead majorText _ (by omega)]
      simp only [Option.bind_eq_bind, Option.bind_some, takeBytes_append, ofUtf8_utf8, hlen]
      rfl
  | map m hlen hkeys hvalues ih =>
      rcases fuel_eq_succ hfuel with ⟨fuel, rfl⟩
      have hhead := List.length_pos_iff.mpr (encodeHead_ne_nil majorMap m.length)
      have hpairs : decodePairs (decodeItem fuel) m.length none (encodePairs m ++ rest) =
          some (m, rest) := by
        apply decodePairs_encodePairs rest (show AscendingAfter none m from hkeys)
        intro entry hmem rest
        apply ih entry hmem rest
        have hle := length_encode_le hmem
        rw [encode, List.length_append] at hfuel
        omega
      rw [encode, List.append_assoc, decodeItem,
        decodeHead_encodeHead majorMap _ (by omega)]
      simp only [Option.bind_eq_bind, Option.bind_some, hpairs, hlen]
      rfl
  | other x _ => exact nomatch x

theorem decode_encode (h : Canonical ofOther cv) : decode (encode cv) = some cv := by
  have hitem := decodeItem_encode h [] (Nat.le_refl _)
  rw [List.append_nil] at hitem
  rw [decode, hitem]

/-!
# Reading nothing else
-/

theorem decodePairs_eq_some {item : Bytes -> Option (Cv Empty × Bytes)}
    (hitem : forall {b cv rest}, item b = some (cv, rest) ->
      Canonical ofOther cv ∧ b = encode cv ++ rest) {count : Nat} {m : List (UInt64 × Cv Empty)}
    (h : decodePairs item count prev b = some (m, rest)) :
    m.length = count ∧ AscendingAfter prev m ∧
      (forall entry, entry ∈ m -> Canonical ofOther entry.2) ∧
      b = encodePairs m ++ rest := by
  induction count generalizing prev b m with
  | zero =>
      cases h
      refine ⟨rfl, ?_, (fun _ hmem => nomatch hmem), rfl⟩
      cases prev with
      | none => exact List.Pairwise.nil
      | some p => exact List.pairwise_singleton _ _
  | succ count ih =>
      rcases Option.bind_eq_some_iff.mp h with ⟨⟨major, arg, b₁⟩, hhead, h⟩
      rcases decodeHead_eq_some hhead with ⟨harg, hb⟩
      dsimp only at h
      split at h
      · cases h
      · rename_i hkey
        rcases Option.bind_eq_some_iff.mp h with ⟨⟨v, b₂⟩, hv, h⟩
        rcases Option.bind_eq_some_iff.mp h with ⟨⟨tail, b₃⟩, htail, h⟩
        cases h
        rcases hitem hv with ⟨hcv, hb₁⟩
        rcases ih htail with ⟨hlen, hkeys, hvalues, hb₂⟩
        have hmajor : major = majorUint := by
          by_contra hne
          exact hkey (Or.inl hne)
        have habove := any_le_eq_false.mp (Bool.eq_false_iff.mpr fun hany => hkey (Or.inr hany))
        refine ⟨by rw [List.length_cons, hlen], AscendingAfter.cons habove hkeys, ?_, ?_⟩
        · intro entry hmem
          cases hmem with
          | head => exact hcv
          | tail _ hmem => exact hvalues entry hmem
        · dsimp only at hb₂
          dsimp only
          rw [encodePairs, UInt64.toNat_ofNat_of_lt' harg, hb, hmajor, hb₁, hb₂]
          simp only [List.append_assoc]

/-- What is read is canonical, and the bytes read are its encoding. -/
theorem decodeItem_eq_some {fuel : Nat} (h : decodeItem fuel b = some (cv, rest)) :
    Canonical ofOther cv ∧ b = encode cv ++ rest := by
  induction fuel generalizing b rest cv with
  | zero => cases h
  | succ fuel ih =>
      rcases Option.bind_eq_some_iff.mp h with ⟨⟨major, arg, b₁⟩, hhead, h⟩
      rcases decodeHead_eq_some hhead with ⟨harg, hb⟩
      dsimp only at h
      split at h
      · rename_i hmajor
        cases h
        rw [encode, UInt64.toNat_ofNat_of_lt' harg, hb, hmajor]
        exact ⟨Canonical.u64 _, rfl⟩
      split at h
      · rename_i hmajor
        rcases Option.bind_eq_some_iff.mp h with ⟨⟨taken, b₂⟩, htaken, h⟩
        rcases takeBytes_eq_some htaken with ⟨hlen, hb₁⟩
        dsimp only at h
        split at h
        · cases h
          rw [encode, hlen, hb, hmajor, hb₁, List.append_assoc]
          exact ⟨Canonical.bytes _, rfl⟩
        · cases h
      split at h
      · rename_i hmajor
        rcases Option.bind_eq_some_iff.mp h with ⟨⟨taken, b₂⟩, htaken, h⟩
        rcases Option.bind_eq_some_iff.mp h with ⟨s, hs, h⟩
        rcases takeBytes_eq_some htaken with ⟨hlen, hb₁⟩
        have hutf8 := ofUtf8_eq_some hs
        dsimp only at h
        split at h
        · rename_i hsize
          cases h
          rw [encode, hutf8, hlen, hb, hmajor, hb₁, List.append_assoc]
          refine ⟨Canonical.text _ ?_, rfl⟩
          rw [<- length_utf8, hutf8]
          exact hsize
        · cases h
      split at h
      · rename_i hmajor
        split at h
        · rename_i hsize
          rcases Option.bind_eq_some_iff.mp h with ⟨⟨m, b₂⟩, hm, h⟩
          cases h
          rcases decodePairs_eq_some (fun hread => ih hread) hm with
            ⟨hlen, hkeys, hvalues, hb₁⟩
          rw [encode, hlen, hb, hmajor, hb₁, List.append_assoc]
          exact ⟨Canonical.map _ (by rw [hlen]; exact hsize) hkeys hvalues, rfl⟩
        · cases h
      · cases h

theorem decode_eq_some (h : decode b = some cv) : Canonical ofOther cv ∧ encode cv = b := by
  unfold decode at h
  split at h
  · rename_i hitem
    cases h
    rcases decodeItem_eq_some hitem with ⟨hcv, hb⟩
    rw [List.append_nil] at hb
    exact ⟨hcv, hb.symm⟩
  · cases h

end CanonicalCbor
end Foundation
end Ephor
