import Ephor.Pubcache.PinSections
import Mathlib.Data.List.ReduceOption

/-!
# The invariant of the pin store

Between operations the byte count is the sum of the object sizes, the pins name
retained objects that are on disk, every retained object is named by a pin, and
the index on disk lists at least the pins that are held.  The last part carries
the pins over a restart.
-/

namespace Ephor
namespace Pubcache

open Foundation
open PinStore

/-!
# The invariant
-/

/-- The fields that `load` requires of a record before it looks at its objects. -/
def PinRecord.WellFormed (rec : PinRecord) : Prop :=
  rec.kind ≠ "" ∧ rec.addr ≠ "" ∧ rec.objects ≠ []

/-- No two records of the index are held under one key. -/
def DistinctRoots (pins : List (Option PinRecord)) : Prop :=
  (pins.reduceOption.map PinRecord.rootKey).Nodup

/-- The index lists every held pin, and lists no root twice. -/
def IndexCovers (pins : FiniteMap String PinRecord) : IndexFile -> Prop
  | IndexFile.absent => pins = ∅
  | IndexFile.unparsable => False
  | IndexFile.document version listed =>
      version = pinIndexVersion ∧ DistinctRoots listed ∧
        forall root rec, pins.lookup root = some rec -> some rec ∈ listed

/-- The part of the invariant that also holds in the middle of an operation. -/
structure Retained (w : World) : Prop where
  balanced : w.store.Balanced
  named : forall root rec, w.store.pins.lookup root = some rec ->
    forall obj, obj ∈ rec.objects -> obj ∈ w.store.objects
  onDisk : forall obj sz, w.store.objects.lookup obj = some sz ->
    exists body : Bytes, w.disk.file obj = some body ∧ sz = body.length
  valid : forall obj, obj ∈ w.store.objects -> ValidKey obj
  keyed : forall root rec, w.store.pins.lookup root = some rec ->
    root = rec.rootKey ∧ rec.WellFormed

def Referenced (s : PinStore) : Prop :=
  forall obj, obj ∈ s.objects ->
    exists root rec, s.pins.lookup root = some rec ∧ obj ∈ rec.objects

structure Settled (w : World) : Prop extends Retained w where
  referenced : Referenced w.store
  pending : w.store.pending = ∅
  indexed : IndexCovers w.store.pins w.disk.index

/-!
# Index coverage
-/

theorem indexCovers_of_subset {pins pins' : FiniteMap String PinRecord}
    {index : IndexFile} (h : IndexCovers pins index)
    (hsub : forall root rec, pins'.lookup root = some rec -> pins.lookup root = some rec) :
    IndexCovers pins' index := by
  cases index with
  | absent =>
      change pins = ∅ at h
      change pins' = ∅
      apply Finmap.ext_lookup
      intro root
      cases hroot : pins'.lookup root with
      | none => rw [Finmap.lookup_empty]
      | some rec =>
          have hbefore := hsub root rec hroot
          rw [h] at hbefore
          cases hbefore
  | unparsable => exact h
  | document version listed =>
      rcases h with ⟨hversion, hdistinct, hlisted⟩
      exact ⟨hversion, hdistinct, fun root rec hrec =>
        hlisted root rec (hsub root rec hrec)⟩

theorem reduceOption_map_some {α : Type} (l : List α) : (l.map some).reduceOption = l := by
  rw [List.reduceOption, List.filterMap_map]
  exact List.filterMap_some

theorem indexCovers_indexFile {s : PinStore}
    (hkeyed : forall root rec, s.pins.lookup root = some rec -> root = rec.rootKey) :
    IndexCovers s.pins s.indexFile := by
  refine ⟨rfl, ?_, ?_⟩
  · unfold DistinctRoots
    rw [reduceOption_map_some, <- Multiset.coe_nodup, <- Multiset.map_coe]
    unfold indexPins
    rw [Multiset.sort_eq, Multiset.map_map]
    have hkeys : s.pins.entries.map (PinRecord.rootKey ∘ fun e => e.2) =
        s.pins.entries.keys := by
      apply Multiset.map_congr rfl
      intro e he
      exact (hkeyed e.1 e.2 (Finmap.lookup_eq_some_iff.mpr he)).symm
    rw [hkeys]
    exact Multiset.nodup_keys.mpr s.pins.nodupKeys
  · intro root rec hrec
    exact List.mem_map_of_mem (mem_indexPins.mpr ⟨root, hrec⟩)

variable {failure : Option String} {w : World} {io : PinIo} {kind : Kind} {addr : Addr}
    {k : String} {sz : Int}

theorem indexCovers_writeIndexLocked (h : IndexCovers w.store.pins w.disk.index)
    (hkeyed : forall root rec, w.store.pins.lookup root = some rec -> root = rec.rootKey) :
    IndexCovers (writeIndexLocked failure w).2.store.pins
      (writeIndexLocked failure w).2.disk.index := by
  rw [writeIndexLocked_store, writeIndexLocked_index]
  cases failure with
  | some text => exact h
  | none => exact indexCovers_indexFile hkeyed

/-!
# Dropping pins and reclaiming
-/

theorem retained_reclaim (h : Retained w) : Retained (reclaimUnreferencedLocked w) where
  balanced := balanced_reclaim h.balanced
  named := by
    intro root rec hrec obj hobj
    apply mem_objects_reclaim.mpr
    refine ⟨h.named root rec hrec obj hobj, ?_⟩
    exact live_eq_true.mpr (Or.inl ⟨root, rec, hrec, hobj⟩)
  onDisk := by
    intro obj sz hobj
    rcases lookup_objects_reclaim.mp hobj with ⟨hheld, hlive⟩
    rw [file_reclaim_of_live hlive]
    exact h.onDisk obj sz hheld
  valid := fun obj hobj => h.valid obj (mem_objects_reclaim.mp hobj).1
  keyed := h.keyed

theorem referenced_reclaim (hpending : w.store.pending = ∅) :
    Referenced (reclaimUnreferencedLocked w).store := by
  intro obj hobj
  cases live_eq_true.mp (mem_objects_reclaim.mp hobj).2 with
  | inl hnamed => exact hnamed
  | inr hclaimed =>
      rw [hpending] at hclaimed
      exact absurd hclaimed Finmap.notMem_empty

theorem retained_writeIndexLocked (h : Retained w) : Retained (writeIndexLocked failure w).2 := by
  have hstore := writeIndexLocked_store failure w
  constructor
  · rw [hstore]
    exact h.balanced
  · rw [hstore]
    exact h.named
  · rw [hstore]
    intro obj sz hobj
    rw [writeIndexLocked_file]
    exact h.onDisk obj sz hobj
  · rw [hstore]
    exact h.valid
  · rw [hstore]
    exact h.keyed

theorem settled_reclaim_writeIndex (h : Retained w) (hpending : w.store.pending = ∅)
    (hindex : IndexCovers w.store.pins w.disk.index) :
    Settled (writeIndexLocked failure (reclaimUnreferencedLocked w)).2 := by
  have hreclaimed := retained_reclaim h
  constructor
  · exact retained_writeIndexLocked hreclaimed
  · rw [writeIndexLocked_store]
    exact referenced_reclaim hpending
  · rw [writeIndexLocked_store]
    exact hpending
  · exact indexCovers_writeIndexLocked hindex
      (fun root rec hrec => (hreclaimed.keyed root rec hrec).1)

theorem retained_dropPins (badKey : String) (h : Retained w) :
    Retained ⟨(w.store.dropPins badKey).dropObject badKey, w.disk.removeObject badKey⟩ where
  balanced := balanced_dropObject badKey h.balanced
  named := by
    intro root rec hrec obj hobj
    rw [pins_dropObject] at hrec
    rcases lookup_dropPins.mp hrec with ⟨hheld, hbad⟩
    apply mem_objects_dropObject.mpr
    refine ⟨?_, h.named root rec hheld obj hobj⟩
    intro heq
    exact hbad (heq ▸ hobj)
  onDisk := by
    intro obj sz hobj
    change ((w.store.dropPins badKey).dropObject badKey).objects.lookup obj = _ at hobj
    rw [lookup_objects_dropObject] at hobj
    split at hobj
    · cases hobj
    · rename_i hne
      rw [Disk.file_removeObject, if_neg hne]
      exact h.onDisk obj sz hobj
  valid := fun obj hobj =>
    h.valid obj (mem_objects_dropObject.mp hobj).2
  keyed := by
    intro root rec hrec
    rw [pins_dropObject] at hrec
    exact h.keyed root rec (lookup_dropPins.mp hrec).1

theorem settled_quarantine (failure : Option String) (badKey : String) (h : Settled w) :
    Settled (quarantine failure badKey w) := by
  apply settled_reclaim_writeIndex (retained_dropPins badKey h.toRetained)
  · rw [pending_dropObject]
    exact h.pending
  · rw [pins_dropObject, Disk.index_removeObject]
    apply indexCovers_of_subset h.indexed
    intro root rec hrec
    exact (lookup_dropPins.mp hrec).1

theorem quarantine_pins {badKey root : String} {rec : PinRecord} :
    (quarantine failure badKey w).store.pins.lookup root = some rec <->
      w.store.pins.lookup root = some rec ∧ badKey ∉ rec.objects := by
  unfold quarantine
  rw [writeIndexLocked_store]
  change ((w.store.dropPins badKey).dropObject badKey).pins.lookup root = _ <-> _
  rw [pins_dropObject]
  exact lookup_dropPins

theorem settled_removePin (failure : Option String) (rootKey : String) (h : Settled w) :
    Settled (writeIndexLocked failure (reclaimUnreferencedLocked (deletePin rootKey w))).2 := by
  have hsub : forall root rec,
      (w.store.pins.erase rootKey).lookup root = some rec ->
        w.store.pins.lookup root = some rec := by
    intro root rec hrec
    exact (FiniteMap.lookup_erase_eq_some.mp hrec).2
  apply settled_reclaim_writeIndex
  · constructor
    · exact h.balanced
    · intro root rec hrec
      exact h.named root rec (hsub root rec hrec)
    · exact h.onDisk
    · exact h.valid
    · intro root rec hrec
      exact h.keyed root rec (hsub root rec hrec)
  · exact h.pending
  · exact indexCovers_of_subset h.indexed hsub

theorem unpin_cases (failure : Option String) (kind : Kind) (addr : Addr)
    (owner : String) (w : World) :
    (unpin failure kind addr owner w).2 = w ∨
      exists rec, w.store.pins.lookup (objectKey kind addr) = some rec ∧
        (rec.owner = "" ∨ rec.owner = owner) ∧
        (unpin failure kind addr owner w).2 =
          (writeIndexLocked failure
            (reclaimUnreferencedLocked (deletePin (objectKey kind addr) w))).2 := by
  unfold unpin
  dsimp only
  split
  · exact Or.inl rfl
  · rename_i rec hrec
    split
    · exact Or.inl rfl
    · rename_i howner
      refine Or.inr ⟨rec, hrec, ?_, ?_⟩
      · by_cases hempty : rec.owner = ""
        · exact Or.inl hempty
        · apply Or.inr
          by_cases hsame : rec.owner = owner
          · exact hsame
          · exact absurd ⟨hempty, hsame⟩ howner
      · split
        · rename_i text w'' hwrite
          rw [hwrite]
        · rename_i w'' hwrite
          rw [hwrite]

theorem settled_unpin (failure : Option String) (kind : Kind) (addr : Addr) (owner : String)
    (h : Settled w) : Settled (unpin failure kind addr owner w).2 := by
  rcases unpin_cases failure kind addr owner w with hsame | ⟨rec, _, _, hremoved⟩
  · rw [hsame]
    exact h
  · rw [hremoved]
    exact settled_removePin failure _ h

/-!
# Reads
-/

section Gate

variable {blake3 : Bytes -> Digest}

variable (blake3) in
theorem get_cases (io : GetIo) (kind : Kind) (addr : Addr) (w : World) :
    (get blake3 io kind addr w).2 = w ∨
      (objectKey kind addr ∈ w.store.objects ∧
        (get blake3 io kind addr w) =
          (none, quarantine io.writeIndex (objectKey kind addr) w)) ∨
      (get blake3 io kind addr w).2 =
        ⟨{ w.store with
            verified := insert (objectKey kind addr) w.store.verified }, w.disk⟩ := by
  unfold get
  dsimp only
  split
  · rename_i hheld
    split
    · exact Or.inr (Or.inl ⟨hheld, rfl⟩)
    · split
      · exact Or.inl rfl
      · split
        · exact Or.inr (Or.inl ⟨hheld, rfl⟩)
        · exact Or.inr (Or.inr rfl)
  · exact Or.inl rfl

theorem get_of_not_mem {io : GetIo} (h : objectKey kind addr ∉ w.store.objects) :
    get blake3 io kind addr w = (none, w) := by
  unfold get
  exact if_neg h

theorem settled_get (io : GetIo) (kind : Kind) (addr : Addr) (h : Settled w) :
    Settled (get blake3 io kind addr w).2 := by
  rcases get_cases blake3 io kind addr w with hsame | ⟨_, hbad⟩ | hmarked
  · rw [hsame]
    exact h
  · rw [hbad]
    exact settled_quarantine _ _ h
  · rw [hmarked]
    exact ⟨⟨h.balanced, h.named, h.onDisk, h.valid, h.keyed⟩, h.referenced,
      h.pending, h.indexed⟩

variable (blake3) in
theorem callSource_cases (src : Source) (i : Nat) (kind : Kind) (addr : Addr) (w : World) :
    (callSource blake3 src i kind addr w).2 = w ∨
      (src.consults = true ∧
        (callSource blake3 src i kind addr w).2 =
          (get blake3 (src.read i) kind addr w).2) := by
  unfold callSource
  split
  · rename_i hconsults
    apply Or.inr
    refine ⟨hconsults, ?_⟩
    cases hget : get blake3 (src.read i) kind addr w with
    | mk body w' => cases body <;> rfl
  · exact Or.inl rfl

variable (blake3) in
theorem callSource_pins (src : Source) (i : Nat) (kind : Kind) (addr : Addr) (w : World) :
    (callSource blake3 src i kind addr w).2.store.pins = w.store.pins ∨
      (src.consults = true ∧
        (callSource blake3 src i kind addr w).2 =
          quarantine (src.read i).writeIndex (objectKey kind addr) w) := by
  rcases callSource_cases blake3 src i kind addr w with hsame | ⟨hconsults, hget⟩
  · rw [hsame]
    exact Or.inl rfl
  · rw [hget]
    rcases get_cases blake3 (src.read i) kind addr w with hsame | ⟨_, hbad⟩ | hmarked
    · rw [hsame]
      exact Or.inl rfl
    · rw [hbad]
      exact Or.inr ⟨hconsults, rfl⟩
    · rw [hmarked]
      exact Or.inl rfl

variable (blake3) in
theorem callSource_pins_none (src : Source) (i : Nat) (kind : Kind) (addr : Addr)
    {root : String} (h : w.store.pins.lookup root = none) :
    (callSource blake3 src i kind addr w).2.store.pins.lookup root = none := by
  rcases callSource_pins blake3 src i kind addr w with hsame | ⟨_, hbad⟩
  · rw [hsame]
    exact h
  · rw [hbad]
    cases hroot : (quarantine (src.read i).writeIndex (objectKey kind addr)
        w).store.pins.lookup root with
    | none => rfl
    | some rec =>
        have hbefore := (quarantine_pins.mp hroot).1
        rw [h] at hbefore
        cases hbefore

theorem callSource_of_not_mem {src : Source} {i : Nat} (h : objectKey kind addr ∉ w.store.objects) :
    callSource blake3 src i kind addr w = (src.answer i, w) := by
  unfold callSource
  rw [get_of_not_mem h]
  split <;> rfl

variable (blake3) in
theorem settled_callSource (src : Source) (i : Nat) (kind : Kind) (addr : Addr) (h : Settled w) :
    Settled (callSource blake3 src i kind addr w).2 := by
  rcases callSource_cases blake3 src i kind addr w with hsame | ⟨_, hget⟩
  · rw [hsame]
    exact h
  · rw [hget]
    exact settled_get _ _ _ h

/-!
# The loop of a pin

`w0` is the settled world in which the loop starts.  The loop only adds objects
that were not there, writes their files, and claims them as pending.
-/

structure Gathering (w0 : World) (p : PinProgress) : Prop where
  pins_eq : p.world.store.pins = w0.store.pins
  config_eq : p.world.store.config = w0.store.config
  index_eq : p.world.disk.index = w0.disk.index
  balanced : p.world.store.Balanced
  lookup_old : forall k, k ∉ p.wrote ->
    p.world.store.objects.lookup k = w0.store.objects.lookup k
  file_old : forall k, k ∉ p.wrote -> p.world.disk.file k = w0.disk.file k
  wrote_fresh : forall k, k ∈ p.wrote -> k ∉ w0.store.objects
  wrote_file : forall k, k ∈ p.wrote -> exists body : Bytes,
    p.world.disk.file k = some body ∧
      p.world.store.objects.lookup k = some (body.length : Int)
  wrote_valid : forall k, k ∈ p.wrote -> ValidKey k
  wrote_named : forall k, k ∈ p.wrote -> k ∈ p.objects
  objects_held : forall k, k ∈ p.objects -> k ∈ p.world.store.objects
  pending_eq : forall k, p.world.store.pending.lookup k =
    if k ∈ p.wrote then some 1 else none
  within_budget : p.wrote = [] ∧ p.world.store.bytes = w0.store.bytes ∨
    (0 < w0.store.config.maxBytes ->
      p.world.store.bytes <= w0.store.config.maxBytes)

variable {w0 : World} {p : PinProgress}

theorem Gathering.wrote_held (h : Gathering w0 p) (hk : k ∈ p.wrote) :
    k ∈ p.world.store.objects := by
  rcases h.wrote_file k hk with ⟨body, _, hsize⟩
  exact mem_objects_iff.mpr ⟨_, hsize⟩

theorem Gathering.held_old (h : Gathering w0 p) (hk : k ∈ w0.store.objects) :
    k ∈ p.world.store.objects := by
  have hnot : k ∉ p.wrote := fun hmem => h.wrote_fresh k hmem hk
  rcases mem_objects_iff.mp hk with ⟨sz, hsz⟩
  exact mem_objects_iff.mpr ⟨sz, (h.lookup_old k hnot).trans hsz⟩

theorem Gathering.held_cases (h : Gathering w0 p) (hk : k ∈ p.world.store.objects) :
    k ∈ p.wrote ∨ k ∈ w0.store.objects := by
  by_cases hmem : k ∈ p.wrote
  · exact Or.inl hmem
  · rcases mem_objects_iff.mp hk with ⟨sz, hsz⟩
    rw [h.lookup_old k hmem] at hsz
    exact Or.inr (mem_objects_iff.mpr ⟨sz, hsz⟩)

theorem Gathering.onDisk (h : Gathering w0 p) (hsettled : Settled w0)
    (hk : p.world.store.objects.lookup k = some sz) :
    exists body : Bytes, p.world.disk.file k = some body ∧ sz = body.length := by
  by_cases hmem : k ∈ p.wrote
  · rcases h.wrote_file k hmem with ⟨body, hfile, hsize⟩
    rw [hk] at hsize
    injection hsize with hsz
    exact ⟨body, hfile, hsz⟩
  · rw [h.file_old k hmem]
    rw [h.lookup_old k hmem] at hk
    exact hsettled.onDisk k sz hk

theorem gathering_start (h : Settled w0) : Gathering w0 ⟨w0, [], [], 0⟩ where
  pins_eq := rfl
  config_eq := rfl
  index_eq := rfl
  balanced := h.balanced
  lookup_old := fun _ _ => rfl
  file_old := fun _ _ => rfl
  wrote_fresh := fun k hk => by cases hk
  wrote_file := fun k hk => by cases hk
  wrote_valid := fun k hk => by cases hk
  wrote_named := fun k hk => by cases hk
  objects_held := fun k hk => by cases hk
  pending_eq := by
    intro k
    change w0.store.pending.lookup k = none
    rw [h.pending, Finmap.lookup_empty]
  within_budget := Or.inl ⟨rfl, rfl⟩

theorem gathering_found {key : String} (h : Gathering w0 p)
    (hkey : p.world.store.objects.lookup key = some sz) :
    Gathering w0
      { p with objects := p.objects ++ [key], pinBytes := p.pinBytes + sz } :=
  { h with
    wrote_named := fun k hk => List.mem_append_left _ (h.wrote_named k hk)
    objects_held := by
      intro k hk
      rcases List.mem_append.mp hk with hold | hnew
      · exact h.objects_held k hold
      · rw [List.mem_singleton.mp hnew]
        exact mem_objects_iff.mpr ⟨sz, hkey⟩ }

theorem pending_recordObject {s : PinStore} {wrote : List String} {key : String}
    {n : Int} (hnot : key ∉ wrote)
    (h : forall k, s.pending.lookup k = if k ∈ wrote then some 1 else none)
    (k : String) :
    (s.recordObject key n).pending.lookup k =
      if k ∈ wrote ++ [key] then some 1 else none := by
  have hkey := h key
  rw [if_neg hnot] at hkey
  change (s.pending.insert key _).lookup k = _
  rw [hkey]
  by_cases heq : k = key
  · rw [heq, Finmap.lookup_insert,
      if_pos (List.mem_append_right _ (List.mem_singleton.mpr rfl))]
    rfl
  · have hmem : k ∈ wrote ++ [key] <-> k ∈ wrote := by
      rw [List.mem_append, List.mem_singleton]
      exact or_iff_left heq
    rw [Finmap.lookup_insert_of_ne _ heq, h k]
    simp only [hmem]

theorem gathering_write {key : String} {body : Bytes} (h : Gathering w0 p)
    (hkey : p.world.store.objects.lookup key = none) (hvalid : ValidKey key)
    (hbudget : 0 < w0.store.config.maxBytes ->
      p.world.store.bytes + body.length <= w0.store.config.maxBytes) :
    Gathering w0
      { world := ⟨p.world.store.recordObject key body.length,
          p.world.disk.writeObject key body⟩
        wrote := p.wrote ++ [key]
        objects := p.objects ++ [key]
        pinBytes := p.pinBytes + body.length } := by
  have hpath := keyPath_isSome_of_validKey hvalid
  have hnot : key ∉ p.wrote := by
    intro hmem
    exact Finmap.lookup_eq_none.mp hkey (h.wrote_held hmem)
  have hfresh : key ∉ w0.store.objects := by
    apply Finmap.lookup_eq_none.mp
    rw [<- h.lookup_old key hnot, hkey]
  have hsplit : forall {k}, k ∈ p.wrote ++ [key] -> k ∈ p.wrote ∨ k = key := by
    intro k hk
    rcases List.mem_append.mp hk with hold | hnew
    · exact Or.inl hold
    · exact Or.inr (List.mem_singleton.mp hnew)
  have hother : forall {k}, k ∉ p.wrote ++ [key] -> k ≠ key ∧ k ∉ p.wrote := by
    intro k hk
    constructor
    · intro heq
      exact hk (List.mem_append_right _ (List.mem_singleton.mpr heq))
    · intro hmem
      exact hk (List.mem_append_left _ hmem)
  constructor
  · exact h.pins_eq
  · exact h.config_eq
  · rw [Disk.index_writeObject]
    exact h.index_eq
  · exact balanced_recordObject h.balanced hkey
  · intro k hk
    change (p.world.store.objects.insert key _).lookup k = _
    rw [Finmap.lookup_insert_of_ne _ (hother hk).1]
    exact h.lookup_old k (hother hk).2
  · intro k hk
    rw [Disk.file_writeObject _ _ _ hpath, if_neg (hother hk).1]
    exact h.file_old k (hother hk).2
  · intro k hk
    cases hsplit hk with
    | inl hold => exact h.wrote_fresh k hold
    | inr heq =>
        rw [heq]
        exact hfresh
  · intro k hk
    rw [Disk.file_writeObject _ _ _ hpath]
    change exists body' : Bytes, _ ∧
      (p.world.store.objects.insert key (body.length : Int)).lookup k = _
    by_cases heq : k = key
    · rw [if_pos heq, heq, Finmap.lookup_insert]
      exact ⟨body, rfl, rfl⟩
    · rw [if_neg heq, Finmap.lookup_insert_of_ne _ heq]
      exact h.wrote_file k ((hsplit hk).resolve_right heq)
  · intro k hk
    cases hsplit hk with
    | inl hold => exact h.wrote_valid k hold
    | inr heq =>
        rw [heq]
        exact hvalid
  · intro k hk
    cases hsplit hk with
    | inl hold => exact List.mem_append_left _ (h.wrote_named k hold)
    | inr heq => exact List.mem_append_right _ (List.mem_singleton.mpr heq)
  · intro k hk
    rcases List.mem_append.mp hk with hold | hnew
    · exact FiniteMap.mem_insert_iff.mpr (Or.inr (h.objects_held k hold))
    · exact FiniteMap.mem_insert_iff.mpr (Or.inl (List.mem_singleton.mp hnew))
  · exact pending_recordObject hnot h.pending_eq
  · exact Or.inr hbudget

theorem checkBudget_total {config : PinConfig} {pinBytes total n : Int}
    (h : checkBudget config addr pinBytes total n = Except.ok ()) (hmax : 0 < config.maxBytes) :
    total + n <= config.maxBytes := by
  unfold checkBudget at h
  split at h
  · cases h
  · split at h
    · cases h
    · split at h
      · cases h
      · rename_i hwithin
        by_cases hover : config.maxBytes < total + n
        · exact absurd ⟨hmax, hover⟩ hwithin
        · exact Int.not_lt.mp hover

theorem gathering_storeObject {want : Want} {body : Bytes} (h : Gathering w0 p)
    (hkey : p.world.store.objects.lookup want.key = none) :
    Gathering w0 (storeObject blake3 io want body p).2 := by
  unfold storeObject
  split
  · exact h
  · rename_i hverify
    dsimp only
    split
    · exact h
    · rename_i hbudget
      split
      · exact h
      · apply gathering_write h hkey
        · exact ⟨want.kind, want.addr, tagged_of_verify hverify, rfl⟩
        · rw [h.config_eq] at hbudget
          exact checkBudget_total hbudget

theorem gatherObject_keeps {invariant : PinProgress -> Prop} {want : Want}
    (hfound : forall sz, p.world.store.objects.lookup want.key = some sz -> invariant
      { p with objects := p.objects ++ [want.key], pinBytes := p.pinBytes + sz })
    (hstored : forall body, p.world.store.objects.lookup want.key = none ->
      invariant (storeObject blake3 io want body p).2) (src : Source) (root : Addr) (i : Nat)
    (h : invariant p) : invariant (gatherObject blake3 src io root i want p).2 := by
  unfold gatherObject
  split
  · rename_i sz hheld
    exact hfound sz hheld
  · rename_i hfree
    split
    · exact hstored _ hfree
    · have hnot : objectKey want.kind want.addr ∉ p.world.store.objects :=
        Finmap.lookup_eq_none.mp hfree
      rw [callSource_of_not_mem hnot]
      split
      · rename_i heq
        injection heq with _ hw
        subst hw
        exact h
      · rename_i heq
        injection heq with _ hw
        subst hw
        exact hstored _ hfree

theorem gather_keeps {invariant : PinProgress -> Prop} {src : Source} {root : Addr}
    (hstep : forall p i want, invariant p ->
      invariant (gatherObject blake3 src io root i want p).2) (i : Nat) (set : List Want)
    (h : invariant p) : invariant (gather blake3 src io root i set p).2 := by
  induction set generalizing i p with
  | nil => exact h
  | cons want rest ih =>
      have hwant := hstep p i want h
      unfold gather
      split
      · rename_i heq
        rw [heq] at hwant
        exact hwant
      · rename_i heq
        rw [heq] at hwant
        exact ih (i + 1) hwant

variable (blake3) in
theorem gathering_gatherObject (src : Source) (io : PinIo) (root : Addr) (i : Nat) (want : Want)
    (h : Gathering w0 p) : Gathering w0 (gatherObject blake3 src io root i want p).2 :=
  gatherObject_keeps (fun _ => gathering_found h) (fun _ => gathering_storeObject h) src root i h

variable (blake3) in
theorem gathering_gather (src : Source) (io : PinIo) (root : Addr) (i : Nat) (set : List Want)
    (h : Gathering w0 p) : Gathering w0 (gather blake3 src io root i set p).2 :=
  gather_keeps (fun _ i want => gathering_gatherObject blake3 src io root i want) i set h

theorem storeObject_objects {want : Want} {body : Bytes} {p' : PinProgress}
    (h : storeObject blake3 io want body p = (Except.ok (), p')) :
    p'.objects = p.objects ++ [want.key] := by
  unfold storeObject at h
  split at h
  · cases h
  · dsimp only at h
    split at h
    · cases h
    · split at h
      · cases h
      · injection h with _ hp
        rw [<- hp]

theorem gatherObject_objects {src : Source} {root : Addr} {i : Nat} {want : Want}
    {p' : PinProgress} (h : gatherObject blake3 src io root i want p = (Except.ok (), p')) :
    p'.objects = p.objects ++ [want.key] := by
  unfold gatherObject at h
  split at h
  · injection h with _ hp
    rw [<- hp]
  · split at h
    · exact storeObject_objects h
    · split at h
      · cases h
      · have hstored := storeObject_objects h
        exact hstored

theorem gather_objects {src : Source} {root : Addr} {i : Nat} {set : List Want}
    {p' : PinProgress} (h : gather blake3 src io root i set p = (Except.ok (), p')) :
    p'.objects = p.objects ++ set.map Want.key := by
  induction set generalizing i p with
  | nil =>
      injection h with _ hp
      rw [<- hp, List.map_nil, List.append_nil]
  | cons want rest ih =>
      unfold gather at h
      split at h
      · cases h
      · rename_i q heq
        rw [ih h, gatherObject_objects heq, List.append_assoc, List.map_cons]
        rfl

theorem distinctChunks_spec (seen : Finset Addr) (chunks : List Addr) :
    (distinctChunks seen chunks).Nodup ∧ forall c, c ∈ distinctChunks seen chunks -> c ∉ seen := by
  induction chunks generalizing seen with
  | nil =>
      refine ⟨List.nodup_nil, ?_⟩
      intro c hc
      cases hc
  | cons c rest ih =>
      unfold distinctChunks
      split
      · exact ih seen
      · rename_i hfresh
        rcases ih (insert c seen) with ⟨hnodup, hunseen⟩
        constructor
        · refine List.nodup_cons.mpr ⟨?_, hnodup⟩
          intro hmem
          exact hunseen c hmem (Finset.mem_insert_self c seen)
        · intro x hx
          cases List.mem_cons.mp hx with
          | inl hxc => exact hxc ▸ hfresh
          | inr hxrest =>
              intro hseen
              exact hunseen x hxrest (Finset.mem_insert_of_mem hseen)

theorem wantSet_nodup {rootBody : Option Bytes} {set : List Want}
    (h : wantSet blake3 kind addr rootBody = Except.ok set) : (set.map Want.key).Nodup := by
  unfold wantSet at h
  split at h
  · rcases bind_eq_ok.mp h with ⟨chunks, _, hset⟩
    cases hset
    rw [List.map_cons, List.map_map]
    refine List.nodup_cons.mpr ⟨?_, ?_⟩
    · intro hmem
      rcases List.mem_map.mp hmem with ⟨c, _, hkey⟩
      cases (objectKey_inj hkey).1
    · apply (distinctChunks_spec ∅ chunks).1.map
      intro c c' hkey
      exact (objectKey_inj hkey).2
  · injection h with hset
    subst hset
    exact List.nodup_singleton _

theorem wantSet_ne_nil {rootBody : Option Bytes} {set : List Want}
    (h : wantSet blake3 kind addr rootBody = Except.ok set) : set ≠ [] := by
  cases kind with
  | manifest =>
      rcases bind_eq_ok.mp h with ⟨chunks, _, hset⟩
      cases hset
      exact List.cons_ne_nil _ _
  | announce | chunk =>
      cases h
      exact List.cons_ne_nil _ _

end Gate

/-!
# Rolling back and releasing
-/

theorem rollback_cons (key : String) (wrote : List String) (w : World) :
    rollback (key :: wrote) w = rollback wrote ⟨w.store.dropObject key, w.disk.removeObject key⟩ :=
  rfl

theorem rollback_pins (wrote : List String) (w : World) :
    (rollback wrote w).store.pins = w.store.pins := by
  induction wrote generalizing w with
  | nil => rfl
  | cons key wrote ih => rw [rollback_cons, ih, pins_dropObject]

theorem rollback_pending (wrote : List String) (w : World) :
    (rollback wrote w).store.pending = w.store.pending := by
  induction wrote generalizing w with
  | nil => rfl
  | cons key wrote ih => rw [rollback_cons, ih, pending_dropObject]

theorem rollback_config (wrote : List String) (w : World) :
    (rollback wrote w).store.config = w.store.config := by
  induction wrote generalizing w with
  | nil => rfl
  | cons key wrote ih => rw [rollback_cons, ih, config_dropObject]

theorem rollback_index (wrote : List String) (w : World) :
    (rollback wrote w).disk.index = w.disk.index := by
  induction wrote generalizing w with
  | nil => rfl
  | cons key wrote ih => rw [rollback_cons, ih, Disk.index_removeObject]

theorem rollback_balanced (wrote : List String) (h : w.store.Balanced) :
    (rollback wrote w).store.Balanced := by
  induction wrote generalizing w with
  | nil => exact h
  | cons key wrote ih =>
      rw [rollback_cons]
      exact ih (balanced_dropObject key h)

theorem rollback_lookup (wrote : List String) (w : World) (k : String) :
    (rollback wrote w).store.objects.lookup k =
      if k ∈ wrote then none else w.store.objects.lookup k := by
  induction wrote generalizing w with
  | nil => rfl
  | cons key wrote ih =>
      rw [rollback_cons, ih, lookup_objects_dropObject]
      by_cases hmem : k ∈ wrote
      · rw [if_pos hmem, if_pos (List.mem_cons_of_mem _ hmem)]
      · rw [if_neg hmem]
        simp only [List.mem_cons, hmem, or_false]

theorem rollback_file (wrote : List String) (w : World) (k : String) :
    (rollback wrote w).disk.file k =
      if k ∈ wrote then none else w.disk.file k := by
  induction wrote generalizing w with
  | nil => rfl
  | cons key wrote ih =>
      rw [rollback_cons, ih, Disk.file_removeObject]
      by_cases hmem : k ∈ wrote
      · rw [if_pos hmem, if_pos (List.mem_cons_of_mem _ hmem)]
      · rw [if_neg hmem]
        simp only [List.mem_cons, hmem, or_false]

theorem releasePending_fields (wrote : List String) (w : World) :
    exists pending, (releasePending wrote w).store =
      { w.store with pending := pending } := by
  change exists pending, wrote.foldl releaseKey w.store = _
  suffices h : forall s : PinStore, exists pending,
      wrote.foldl releaseKey s = { s with pending := pending } from
    h w.store
  induction wrote with
  | nil => exact fun s => ⟨s.pending, rfl⟩
  | cons key wrote ih =>
      intro s
      rw [List.foldl_cons]
      rcases ih (s.releaseKey key) with ⟨pending, hpending⟩
      refine ⟨pending, ?_⟩
      rw [hpending]
      unfold releaseKey
      split <;> rfl

theorem foldl_releaseKey_pending (wrote : List String) (s : PinStore)
    (hone : forall k n, s.pending.lookup k = some n -> n <= 1) (k : String) :
    (wrote.foldl releaseKey s).pending.lookup k =
      if k ∈ wrote then none else s.pending.lookup k := by
  induction wrote generalizing s with
  | nil => rfl
  | cons key wrote ih =>
      have hle : (s.pending.lookup key).getD 0 <= 1 := by
        cases hkey : s.pending.lookup key with
        | none => decide
        | some n => exact hone key n hkey
      have hrelease : s.releaseKey key =
          { s with pending := s.pending.erase key } := if_pos hle
      rw [List.foldl_cons, hrelease, ih]
      · change (if k ∈ wrote then none else (s.pending.erase key).lookup k) = _
        by_cases hmem : k ∈ wrote
        · rw [if_pos hmem, if_pos (List.mem_cons_of_mem _ hmem)]
        · rw [if_neg hmem]
          by_cases hk : k = key
          · rw [hk, Finmap.lookup_erase, if_pos List.mem_cons_self]
          · rw [Finmap.lookup_erase_ne hk, if_neg]
            intro hcons
            cases hcons with
            | head => exact hk rfl
            | tail _ htail => exact hmem htail
      · intro j n hj
        exact hone j n (FiniteMap.lookup_erase_eq_some.mp hj).2

theorem releasePending_pending {wrote : List String}
    (h : forall k, w.store.pending.lookup k =
      if k ∈ wrote then some 1 else none) :
    (releasePending wrote w).store.pending = ∅ := by
  apply Finmap.ext_lookup
  intro k
  change (wrote.foldl releaseKey w.store).pending.lookup k = _
  rw [foldl_releaseKey_pending wrote w.store, h k, Finmap.lookup_empty]
  · by_cases hmem : k ∈ wrote
    · rw [if_pos hmem]
    · rw [if_neg hmem, if_neg hmem]
  · intro j n hj
    rw [h j] at hj
    split at hj
    · injection hj with hn
      rw [<- hn]
    · cases hj

/-!
# The end of a pin
-/

def givenUp (p : PinProgress) : World :=
  releasePending p.wrote (rollback p.wrote p.world)

section GivenUp

variable {w0 : World} {p : PinProgress}

theorem givenUp_pins (h : Gathering w0 p) : (givenUp p).store.pins = w0.store.pins := by
  rcases releasePending_fields p.wrote (rollback p.wrote p.world) with ⟨_, hfields⟩
  change (releasePending _ _).store.pins = _
  rw [hfields]
  exact (rollback_pins _ _).trans h.pins_eq

theorem givenUp_objects (h : Gathering w0 p) : (givenUp p).store.objects = w0.store.objects := by
  rcases releasePending_fields p.wrote (rollback p.wrote p.world) with ⟨_, hfields⟩
  change (releasePending _ _).store.objects = _
  rw [hfields]
  apply Finmap.ext_lookup
  intro k
  change (rollback p.wrote p.world).store.objects.lookup k = _
  rw [rollback_lookup]
  by_cases hmem : k ∈ p.wrote
  · rw [if_pos hmem]
    exact (Finmap.lookup_eq_none.mpr (h.wrote_fresh k hmem)).symm
  · rw [if_neg hmem]
    exact h.lookup_old k hmem

theorem givenUp_config (h : Gathering w0 p) : (givenUp p).store.config = w0.store.config := by
  rcases releasePending_fields p.wrote (rollback p.wrote p.world) with ⟨_, hfields⟩
  change (releasePending _ _).store.config = _
  rw [hfields]
  exact (rollback_config _ _).trans h.config_eq

theorem givenUp_balanced (h : Gathering w0 p) : (givenUp p).store.Balanced := by
  rcases releasePending_fields p.wrote (rollback p.wrote p.world) with ⟨_, hfields⟩
  change PinStore.Balanced (releasePending _ _).store
  rw [hfields]
  exact rollback_balanced p.wrote h.balanced

theorem givenUp_pending (h : Gathering w0 p) : (givenUp p).store.pending = ∅ := by
  apply releasePending_pending
  rw [rollback_pending]
  exact h.pending_eq

theorem givenUp_index (h : Gathering w0 p) : (givenUp p).disk.index = w0.disk.index :=
  (rollback_index p.wrote p.world).trans h.index_eq

theorem givenUp_file (h : Gathering w0 p) (hk : k ∈ w0.store.objects) :
    (givenUp p).disk.file k = w0.disk.file k := by
  have hnot : k ∉ p.wrote := fun hmem => h.wrote_fresh k hmem hk
  change (rollback p.wrote p.world).disk.file k = _
  rw [rollback_file, if_neg hnot]
  exact h.file_old k hnot

theorem settled_givenUp (hsettled : Settled w0) (h : Gathering w0 p) : Settled (givenUp p) := by
  have hpins := givenUp_pins h
  have hobjects := givenUp_objects h
  constructor
  · constructor
    · exact givenUp_balanced h
    · rw [hpins, hobjects]
      exact hsettled.named
    · intro obj sz hobj
      rw [hobjects] at hobj
      rw [givenUp_file h (mem_objects_iff.mpr ⟨sz, hobj⟩)]
      exact hsettled.onDisk obj sz hobj
    · rw [hobjects]
      exact hsettled.valid
    · rw [hpins]
      exact hsettled.keyed
  · unfold Referenced
    rw [hpins, hobjects]
    exact hsettled.referenced
  · exact givenUp_pending h
  · rw [hpins, givenUp_index h]
    exact hsettled.indexed

def committed (record : PinRecord) (p : PinProgress) : World :=
  releasePending p.wrote (commitPin none record p.world).2

theorem committed_store (record : PinRecord) (p : PinProgress) :
    exists pending, (committed record p).store =
      { p.world.store with
        pins := p.world.store.pins.insert record.rootKey record
        pending := pending } := by
  rcases releasePending_fields p.wrote (commitPin none record p.world).2 with
    ⟨pending, hfields⟩
  exact ⟨pending, hfields⟩

theorem settled_committed {record : PinRecord} (hsettled : Settled w0)
    (h : Gathering w0 p) (hobjects : record.objects = p.objects) (hwell : record.WellFormed)
    (hnew : w0.store.pins.lookup record.rootKey = none) : Settled (committed record p) := by
  rcases committed_store record p with ⟨pending, hstore⟩
  have hlookup : forall root rec,
      (p.world.store.pins.insert record.rootKey record).lookup root = some rec ->
        (root = record.rootKey ∧ rec = record) ∨
          w0.store.pins.lookup root = some rec := by
    intro root rec hrec
    rcases FiniteMap.lookup_insert_eq_some.mp hrec with hself | ⟨_, hold⟩
    · exact Or.inl hself
    · rw [h.pins_eq] at hold
      exact Or.inr hold
  have hkeyed : forall root rec,
      (p.world.store.pins.insert record.rootKey record).lookup root = some rec ->
        root = rec.rootKey ∧ rec.WellFormed := by
    intro root rec hrec
    rcases hlookup root rec hrec with ⟨hroot, hself⟩ | hold
    · rw [hself]
      exact ⟨hroot, hwell⟩
    · exact hsettled.keyed root rec hold
  constructor
  · constructor
    · rw [hstore]
      exact h.balanced
    · rw [hstore]
      intro root rec hrec obj hobj
      rcases hlookup root rec hrec with ⟨_, hself⟩ | hold
      · rw [hself, hobjects] at hobj
        exact h.objects_held obj hobj
      · exact h.held_old (hsettled.named root rec hold obj hobj)
    · rw [hstore]
      intro obj sz hobj
      exact h.onDisk hsettled hobj
    · rw [hstore]
      intro obj hobj
      cases h.held_cases hobj with
      | inl hmem => exact h.wrote_valid obj hmem
      | inr hold => exact hsettled.valid obj hold
    · rw [hstore]
      exact hkeyed
  · rw [hstore]
    intro obj hobj
    cases h.held_cases hobj with
    | inl hmem =>
        refine ⟨record.rootKey, record, Finmap.lookup_insert _, ?_⟩
        rw [hobjects]
        exact h.wrote_named obj hmem
    | inr hold =>
        rcases hsettled.referenced obj hold with ⟨root, rec, hrec, hobj'⟩
        refine ⟨root, rec, ?_, hobj'⟩
        apply FiniteMap.lookup_insert_eq_some.mpr
        apply Or.inr
        rw [h.pins_eq]
        refine ⟨?_, hrec⟩
        intro heq
        rw [heq, hnew] at hrec
        cases hrec
  · apply releasePending_pending
    exact h.pending_eq
  · rw [hstore]
    change IndexCovers _ (indexFile _)
    exact indexCovers_indexFile (fun root rec hrec => (hkeyed root rec hrec).1)

end GivenUp

structure CommitRecord (kind : Kind) (addr : Addr) (owner : String)
    (p : PinProgress) (record : PinRecord) : Prop where
  rootKey_eq : record.rootKey = objectKey kind addr
  owner_eq : record.owner = owner
  objects_eq : record.objects = p.objects
  wellFormed : record.WellFormed

theorem commitRecord_pinRecord (kind : Kind) (addr : Addr) (owner : String)
    (now : Int) {p : PinProgress} (h : p.objects ≠ []) :
    CommitRecord kind addr owner p (pinRecord kind addr owner now p) where
  rootKey_eq := rfl
  owner_eq := rfl
  objects_eq := rfl
  wellFormed := ⟨kind_string_ne_empty kind, addr.string_ne_empty, h⟩

theorem finishPin_cases (io : PinIo) (owner : String) {outcome : Except PinError Unit}
    {p : PinProgress} (hnew : p.world.store.pins.lookup (objectKey kind addr) = none)
    (hobjects : outcome = Except.ok () -> p.objects ≠ []) :
    (finishPin io kind addr owner (outcome, p)).2 = givenUp p ∨
      exists record, CommitRecord kind addr owner p record ∧
        finishPin io kind addr owner (outcome, p) =
          (Except.ok record, committed record p) := by
  cases outcome with
  | error e => exact Or.inl rfl
  | ok u =>
      have hrecord := commitRecord_pinRecord kind addr owner io.now
        (hobjects rfl)
      cases hfail : io.writeIndex with
      | some text =>
          apply Or.inl
          have hundo : deletePin (objectKey kind addr)
              (commitPin (some text) (pinRecord kind addr owner io.now p)
                p.world).2 = p.world := by
            change World.mk { p.world.store with
              pins := (p.world.store.pins.insert (objectKey kind addr)
                (pinRecord kind addr owner io.now p)).erase (objectKey kind addr) }
              p.world.disk = p.world
            rw [FiniteMap.erase_insert_of_lookup_none hnew]
          simp only [finishPin, hfail]
          change releasePending p.wrote (rollback p.wrote
            (deletePin (objectKey kind addr)
              (commitPin (some text) (pinRecord kind addr owner io.now p)
                p.world).2)) = givenUp p
          rw [hundo]
          rfl
      | none =>
          apply Or.inr
          refine ⟨_, hrecord, ?_⟩
          simp only [finishPin, hfail]
          rfl

section Gate

variable (blake3 : Bytes -> Digest)

/--
What `pin` does: nothing; what the read of its root did; or, from there on, a
loop that gives up or commits.  The loop must leave the pins alone.
-/
theorem pin_cases_gather (src : Source) (io : PinIo) (kind : Kind) (addr : Addr) (owner : String)
    (hpins : forall set, (gather blake3 src io addr 1 set
      ⟨(callSource blake3 src 0 kind addr w).2, [], [], 0⟩).2.world.store.pins =
        (callSource blake3 src 0 kind addr w).2.store.pins) :
    (pin blake3 src io kind addr owner w).2 = w ∨
      (pin blake3 src io kind addr owner w).2 =
        (callSource blake3 src 0 kind addr w).2 ∨
      exists set p, (gather blake3 src io addr 1 set
          ⟨(callSource blake3 src 0 kind addr w).2, [], [], 0⟩).2 = p ∧
        ((pin blake3 src io kind addr owner w).2 = givenUp p ∨
          exists record, CommitRecord kind addr owner p record ∧
            pin blake3 src io kind addr owner w =
              (Except.ok record, committed record p) ∧
            w.store.pins.lookup (objectKey kind addr) = none) := by
  unfold pin
  split
  · exact Or.inl rfl
  · rename_i hnew
    split
    · exact Or.inl rfl
    · split
      · rename_i text w' hcall
        rw [hcall]
        exact Or.inr (Or.inl rfl)
      · rename_i rootBody w' hcall
        rw [hcall] at hpins
        rw [hcall]
        split
        · exact Or.inr (Or.inl rfl)
        · rename_i set hset
          apply Or.inr
          apply Or.inr
          cases hgather : gather blake3 src io addr 1 set ⟨w', [], [], 0⟩ with
          | mk outcome p =>
              have hkept := hpins set
              rw [hgather] at hkept
              refine ⟨set, p, congrArg Prod.snd hgather, ?_⟩
              have hfree : p.world.store.pins.lookup (objectKey kind addr) = none := by
                have hread := callSource_pins_none blake3 src 0 kind addr hnew
                rw [hcall] at hread
                rw [hkept]
                exact hread
              have hnonempty : outcome = Except.ok () -> p.objects ≠ [] := by
                intro hok
                subst hok
                rw [gather_objects hgather, List.nil_append]
                intro hnil
                exact wantSet_ne_nil hset (List.map_eq_nil_iff.mp hnil)
              rcases finishPin_cases io owner hfree hnonempty with
                hup | ⟨record, hrecord, hok⟩
              · exact Or.inl hup
              · exact Or.inr ⟨record, hrecord, hok, hnew⟩

theorem pin_cases (src : Source) (io : PinIo) (kind : Kind) (addr : Addr) (owner : String)
    (h : Settled w) :
    (pin blake3 src io kind addr owner w).2 = w ∨
      (pin blake3 src io kind addr owner w).2 =
        (callSource blake3 src 0 kind addr w).2 ∨
      exists p, Gathering (callSource blake3 src 0 kind addr w).2 p ∧
        ((pin blake3 src io kind addr owner w).2 = givenUp p ∨
          exists record, CommitRecord kind addr owner p record ∧
            pin blake3 src io kind addr owner w =
              (Except.ok record, committed record p) ∧
            w.store.pins.lookup (objectKey kind addr) = none) := by
  have hgathering := fun set => gathering_gather blake3 src io addr 1 set
    (gathering_start (settled_callSource blake3 src 0 kind addr h))
  rcases pin_cases_gather blake3 src io kind addr owner
    (fun set => (hgathering set).pins_eq) with hsame | hread | ⟨set, p, hp, hend⟩
  · exact Or.inl hsame
  · exact Or.inr (Or.inl hread)
  · exact Or.inr (Or.inr ⟨p, hp ▸ hgathering set, hend⟩)

theorem settled_pin (src : Source) (io : PinIo) (kind : Kind) (addr : Addr) (owner : String)
    (h : Settled w) : Settled (pin blake3 src io kind addr owner w).2 := by
  have hsource := settled_callSource blake3 src 0 kind addr h
  rcases pin_cases blake3 src io kind addr owner h with
    hsame | hread | ⟨p, hp, hup | ⟨record, hrecord, hok, hnew⟩⟩
  · rw [hsame]
    exact h
  · rw [hread]
    exact hsource
  · rw [hup]
    exact settled_givenUp hsource hp
  · rw [hok]
    apply settled_committed hsource hp hrecord.objects_eq hrecord.wellFormed
    rw [hrecord.rootKey_eq]
    exact callSource_pins_none blake3 src 0 kind addr hnew

/-!
# The budget and the pins over one pin
-/

theorem Retained.size_nonneg (h : Retained w) {obj : String}
    (hobj : w.store.objects.lookup obj = some sz) : 0 <= sz := by
  rcases h.onDisk obj sz hobj with ⟨body, _, hsz⟩
  rw [hsz]
  exact Int.natCast_nonneg _

theorem quarantine_objects {badKey : String}
    (h : (quarantine failure badKey w).store.objects.lookup k = some sz) :
    w.store.objects.lookup k = some sz := by
  unfold quarantine at h
  rw [writeIndexLocked_store] at h
  have hheld := (lookup_objects_reclaim.mp h).1
  change ((w.store.dropPins badKey).dropObject badKey).objects.lookup k = _ at hheld
  rw [lookup_objects_dropObject] at hheld
  split at hheld
  · cases hheld
  · exact hheld

theorem quarantine_config (failure : Option String) (badKey : String) (w : World) :
    (quarantine failure badKey w).store.config = w.store.config := by
  unfold quarantine
  rw [writeIndexLocked_store]
  exact config_dropObject badKey

theorem quarantine_bytes_le (failure : Option String) (badKey : String) (h : Settled w) :
    (quarantine failure badKey w).store.bytes <= w.store.bytes := by
  have hafter := (settled_quarantine failure badKey h).balanced
  have hbefore := h.balanced
  unfold PinStore.Balanced at hafter hbefore
  rw [hafter, hbefore]
  exact FiniteMap.total_le (fun _ _ => quarantine_objects)
    (fun _ _ hobj => h.size_nonneg hobj)

theorem callSource_bytes_le (src : Source) (i : Nat) (kind : Kind) (addr : Addr) (h : Settled w) :
    (callSource blake3 src i kind addr w).2.store.bytes <= w.store.bytes ∧
      (callSource blake3 src i kind addr w).2.store.config = w.store.config := by
  rcases callSource_cases blake3 src i kind addr w with hsame | ⟨_, hget⟩
  · rw [hsame]
    exact ⟨Int.le_refl _, rfl⟩
  · rw [hget]
    rcases get_cases blake3 (src.read i) kind addr w with hsame | ⟨_, hbad⟩ | hmarked
    · rw [hsame]
      exact ⟨Int.le_refl _, rfl⟩
    · rw [hbad]
      exact ⟨quarantine_bytes_le _ _ h, quarantine_config _ _ _⟩
    · rw [hmarked]
      exact ⟨Int.le_refl _, rfl⟩

theorem pin_bytes_le (src : Source) (io : PinIo) (kind : Kind) (addr : Addr) (owner : String)
    (h : Settled w) (hmax : 0 < w.store.config.maxBytes) :
    (pin blake3 src io kind addr owner w).2.store.bytes <= w.store.bytes ∨
      (pin blake3 src io kind addr owner w).2.store.bytes <=
        w.store.config.maxBytes := by
  have hsource := settled_callSource blake3 src 0 kind addr h
  rcases callSource_bytes_le blake3 src 0 kind addr h with ⟨hread, hconfig⟩
  rcases pin_cases blake3 src io kind addr owner h with
    hsame | hroot | ⟨p, hp, hup | ⟨record, _, hok, _⟩⟩
  · rw [hsame]
    exact Or.inl (Int.le_refl _)
  · rw [hroot]
    exact Or.inl hread
  · rw [hup]
    apply Or.inl
    have hafter := givenUp_balanced hp
    have hbefore := hsource.balanced
    unfold PinStore.Balanced at hafter hbefore
    rw [hafter, givenUp_objects hp, <- hbefore]
    exact hread
  · rw [hok]
    rcases committed_store record p with ⟨pending, hstore⟩
    have hbytes : (committed record p).store.bytes = p.world.store.bytes := by
      rw [hstore]
    rw [hbytes]
    cases hp.within_budget with
    | inl hnone =>
        rw [hnone.2]
        exact Or.inl hread
    | inr hwithin =>
        rw [hconfig] at hwithin
        exact Or.inr (hwithin hmax)

theorem pin_config (src : Source) (io : PinIo) (kind : Kind) (addr : Addr) (owner : String)
    (h : Settled w) : (pin blake3 src io kind addr owner w).2.store.config = w.store.config := by
  have hread : (callSource blake3 src 0 kind addr w).2.store.config = w.store.config :=
    (callSource_bytes_le blake3 src 0 kind addr h).2
  rcases pin_cases blake3 src io kind addr owner h with
    hsame | hroot | ⟨p, hp, hup | ⟨record, _, hok, _⟩⟩
  · rw [hsame]
  · rw [hroot]
    exact hread
  · rw [hup, givenUp_config hp]
    exact hread
  · rw [hok]
    rcases committed_store record p with ⟨pending, hstore⟩
    change (committed record p).store.config = _
    rw [hstore]
    exact hp.config_eq.trans hread

theorem pin_keeps_pins (src : Source) (io : PinIo) (kind : Kind) (addr : Addr) (owner : String)
    (h : Settled w) {root : String} {rec : PinRecord} (hrec : w.store.pins.lookup root = some rec) :
    (pin blake3 src io kind addr owner w).2.store.pins.lookup root = some rec ∨
      (src.consults = true ∧ objectKey kind addr ∈ rec.objects ∧
        (callSource blake3 src 0 kind addr w).2 =
          quarantine (src.read 0).writeIndex (objectKey kind addr) w) := by
  have hread : (callSource blake3 src 0 kind addr w).2.store.pins.lookup root =
      some rec ∨ (src.consults = true ∧ objectKey kind addr ∈ rec.objects ∧
        (callSource blake3 src 0 kind addr w).2 =
          quarantine (src.read 0).writeIndex (objectKey kind addr) w) := by
    rcases callSource_pins blake3 src 0 kind addr w with hsame | ⟨hconsults, hbad⟩
    · rw [hsame]
      exact Or.inl hrec
    · by_cases hnames : objectKey kind addr ∈ rec.objects
      · exact Or.inr ⟨hconsults, hnames, hbad⟩
      · apply Or.inl
        rw [hbad]
        exact quarantine_pins.mpr ⟨hrec, hnames⟩
  cases hread with
  | inr hbad => exact Or.inr hbad
  | inl hkept =>
      apply Or.inl
      rcases pin_cases blake3 src io kind addr owner h with
        hsame | hroot | ⟨p, hp, hup | ⟨record, hrecord, hok, hnew⟩⟩
      · rw [hsame]
        exact hrec
      · rw [hroot]
        exact hkept
      · rw [hup, givenUp_pins hp]
        exact hkept
      · rw [hok]
        rcases committed_store record p with ⟨pending, hstore⟩
        change (committed record p).store.pins.lookup root = some rec
        rw [hstore]
        apply FiniteMap.lookup_insert_eq_some.mpr
        apply Or.inr
        rw [hp.pins_eq]
        refine ⟨?_, hkept⟩
        intro heq
        rw [heq, hrecord.rootKey_eq, hnew] at hrec
        cases hrec

end Gate

end Pubcache
end Ephor
