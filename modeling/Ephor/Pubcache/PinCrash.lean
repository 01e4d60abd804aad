import Ephor.Pubcache.PinLoad

/-!
# Crashes

An operation changes the directory in steps: the rename that puts an object in
place, the removal of an object, the rename of the index.  Each of them is atomic,
and the process may stop between any two.  This module lists the effects of every
operation and proves what the next `load` makes of a prefix of them.
-/

namespace Ephor
namespace Pubcache

open Foundation

/-!
# Disk effects
-/

inductive DiskEffect where
  | renameObject (key : String) (body : Bytes)
  | removeObject (key : String)
  | renameIndex (index : IndexFile)

def DiskEffect.apply (d : Disk) : DiskEffect -> Disk
  | renameObject key body => d.writeObject key body
  | removeObject key => d.removeObject key
  | renameIndex index => { d with index := index }

def Disk.after (d : Disk) (effects : List DiskEffect) : Disk :=
  effects.foldl DiskEffect.apply d

theorem Disk.after_append (d : Disk) (effects more : List DiskEffect) :
    d.after (effects ++ more) = (d.after effects).after more :=
  List.foldl_append

def removals (keys : List String) : List DiskEffect :=
  keys.map DiskEffect.removeObject

/-- The effect of `writeIndexLocked`. -/
def indexEffects (failure : Option String) (s : PinStore) : List DiskEffect :=
  match failure with
  | some _ => []
  | none => [DiskEffect.renameIndex s.indexFile]

/--
An order in which `reclaimUnreferencedLocked` meets the objects it removes; the
iteration over the map fixes none.
-/
def ReclaimOrder (s : PinStore) (order : List String) : Prop :=
  order.Nodup ∧
    forall key, key ∈ order <-> key ∈ s.objects ∧ s.live key = false

def quarantined (badKey : String) (w : World) : World :=
  ⟨(w.store.dropPins badKey).dropObject badKey, w.disk.removeObject badKey⟩

def quarantineEffects (failure : Option String) (badKey : String)
    (order : List String) (w : World) : List DiskEffect :=
  removals (badKey :: order) ++
    indexEffects failure (reclaimUnreferencedLocked (quarantined badKey w)).store

def unpinEffects (failure : Option String) (kind : Kind) (addr : Addr)
    (owner : String) (order : List String) (w : World) : List DiskEffect :=
  let rootKey := objectKey kind addr
  match w.store.pins.lookup rootKey with
  | none => []
  | some rec =>
      if rec.owner ≠ "" ∧ rec.owner ≠ owner then
        []
      else
        removals order ++
          indexEffects failure
            (reclaimUnreferencedLocked (deletePin rootKey w)).store

section Gate

variable (blake3 : Bytes -> Digest)

/-- The effect of storing an object: one rename, when it gets that far. -/
def storeObjectEffects (io : PinIo) (want : Want) (body : Bytes)
    (p : PinProgress) : List DiskEffect :=
  match storeObject blake3 io want body p with
  | (Except.error _, _) => []
  | (Except.ok (), _) => [DiskEffect.renameObject want.key body]

def gatherObjectEffects (src : Source) (io : PinIo) (i : Nat) (want : Want)
    (p : PinProgress) : List DiskEffect :=
  match p.world.store.objects.lookup want.key with
  | some _ => []
  | none =>
      match want.body with
      | some body => storeObjectEffects blake3 io want body p
      | none =>
          match callSource blake3 src i want.kind want.addr p.world with
          | (Except.error _, _) => []
          | (Except.ok body, w) =>
              storeObjectEffects blake3 io want (body.getD []) { p with world := w }

def gatherEffects (src : Source) (io : PinIo) (root : Addr) :
    Nat -> List Want -> PinProgress -> List DiskEffect
  | _, [], _ => []
  | i, want :: rest, p =>
      gatherObjectEffects blake3 src io i want p ++
        match gatherObject blake3 src io root i want p with
        | (Except.error _, _) => []
        | (Except.ok (), p') => gatherEffects src io root (i + 1) rest p'

/-- The effects of a pin after its loop: a rollback, or the new index. -/
def finishEffects (io : PinIo) (kind : Kind) (addr : Addr) (owner : String) :
    Except PinError Unit × PinProgress -> List DiskEffect
  | (Except.error _, p) => removals p.wrote
  | (Except.ok (), p) =>
      match io.writeIndex with
      | some _ => removals p.wrote
      | none =>
          [DiskEffect.renameIndex
            (commitPin none (pinRecord kind addr owner io.now p)
              p.world).2.store.indexFile]

/-- The effects of a pin itself; those of a read of its source are not among them. -/
def pinEffects (src : Source) (io : PinIo) (kind : Kind) (addr : Addr)
    (owner : String) (w : World) : List DiskEffect :=
  match w.store.pins.lookup (objectKey kind addr) with
  | some _ => []
  | none =>
      if 0 < w.store.config.maxPins ∧
          w.store.config.maxPins <= w.store.pins.size then
        []
      else
        match callSource blake3 src 0 kind addr w with
        | (Except.error _, _) => []
        | (Except.ok rootBody, w') =>
            match wantSet blake3 kind addr rootBody with
            | Except.error _ => []
            | Except.ok set =>
                gatherEffects blake3 src io addr 1 set ⟨w', [], [], 0⟩ ++
                  finishEffects io kind addr owner
                    (gather blake3 src io addr 1 set ⟨w', [], [], 0⟩)

def ReadsRoot (kind : Kind) (addr : Addr) (w : World) : Prop :=
  w.store.pins.lookup (objectKey kind addr) = none ∧
    Not (0 < w.store.config.maxPins ∧ w.store.config.maxPins <= w.store.pins.size)

/-- The pin reads its root, and the read finds the held object bad. -/
def RootReadQuarantines (src : Source) (kind : Kind) (addr : Addr) (w : World) :
    Prop :=
  ReadsRoot kind addr w ∧ src.consults = true ∧
    objectKey kind addr ∈ w.store.objects ∧
    (get blake3 (src.read 0) kind addr w).1 = none

inductive PinOp.Performs (w : World) : PinOp -> List DiskEffect -> Prop where
  | pin {src : Source} {io : PinIo} {kind : Kind} {addr : Addr} {owner : String} :
      Not (RootReadQuarantines blake3 src kind addr w) ->
      Performs w (PinOp.pin src io kind addr owner)
        (pinEffects blake3 src io kind addr owner w)
  | pinAfterQuarantine {src : Source} {io : PinIo} {kind : Kind} {addr : Addr}
      {owner : String} {order : List String} :
      RootReadQuarantines blake3 src kind addr w ->
      ReclaimOrder (quarantined (objectKey kind addr) w).store order ->
      Performs w (PinOp.pin src io kind addr owner)
        (quarantineEffects (src.read 0).writeIndex (objectKey kind addr) order w ++
          pinEffects blake3 src io kind addr owner w)
  | unpin {failure : Option String} {kind : Kind} {addr : Addr} {owner : String}
      {order : List String} :
      ReclaimOrder (deletePin (objectKey kind addr) w).store order ->
      Performs w (PinOp.unpin failure kind addr owner)
        (unpinEffects failure kind addr owner order w)
  | quarantine {failure : Option String} {badKey : String} {order : List String} :
      ReclaimOrder (quarantined badKey w).store order ->
      Performs w (PinOp.quarantine failure badKey)
        (quarantineEffects failure badKey order w)

end Gate

/-!
# The effects make up the operation
-/

variable {d : Disk} {w : World} {order : List String} {failure : Option String} {kind : Kind}
    {addr : Addr} {owner : String} {src : Source} {s : PinStore} {io : PinIo} {rec : PinRecord}
    {p : PinProgress}

namespace Disk

theorem file_removals (d : Disk) (keys : List String) (k : String) :
    (d.after (removals keys)).file k = if k ∈ keys then none else d.file k := by
  induction keys generalizing d with
  | nil => rfl
  | cons key rest ih =>
      change ((d.removeObject key).after (removals rest)).file k = _
      rw [ih, file_removeObject]
      by_cases hrest : k ∈ rest
      · rw [if_pos hrest, if_pos (List.mem_cons_of_mem _ hrest)]
      · rw [if_neg hrest]
        simp only [List.mem_cons, hrest, or_false]

theorem index_removals (d : Disk) (keys : List String) :
    (d.after (removals keys)).index = d.index := by
  induction keys generalizing d with
  | nil => rfl
  | cons key rest ih =>
      change ((d.removeObject key).after (removals rest)).index = _
      rw [ih, index_removeObject]

theorem lookup_removeObject {key : String} {path : ObjectPath} {body : Bytes} :
    (d.removeObject key).files.lookup path = some body <->
      keyPath key ≠ some path ∧ d.files.lookup path = some body := by
  unfold removeObject
  cases hkey : keyPath key with
  | none => simp
  | some removed =>
      change (d.files.erase removed).lookup path = some body <-> _
      rw [FiniteMap.lookup_erase_eq_some]
      simp only [ne_eq, Option.some.injEq, eq_comm]

theorem lookup_removals {keys : List String} {path : ObjectPath} {body : Bytes} :
    (d.after (removals keys)).files.lookup path = some body <->
      (forall key, key ∈ keys -> keyPath key ≠ some path) ∧
        d.files.lookup path = some body := by
  induction keys generalizing d with
  | nil =>
      change d.files.lookup path = some body <-> _
      simp
  | cons key rest ih =>
      change ((d.removeObject key).after (removals rest)).files.lookup path =
        some body <-> _
      rw [ih, lookup_removeObject]
      simp only [List.mem_cons, forall_eq_or_imp]
      constructor
      · intro h
        exact ⟨⟨h.2.1, h.1⟩, h.2.2⟩
      · intro h
        exact ⟨h.1.2, h.1.1, h.2⟩

end Disk

theorem after_removals_reclaim (h : ReclaimOrder w.store order) :
    w.disk.after (removals order) = (reclaimUnreferencedLocked w).disk := by
  have hfiles : (w.disk.after (removals order)).files =
      (reclaimUnreferencedLocked w).disk.files := by
    apply FiniteMap.ext_some
    intro path body
    unfold reclaimUnreferencedLocked Disk.removeObjects
    rw [Disk.lookup_removals, FiniteMap.lookup_filter_eq_some, and_comm]
    apply and_congr_right
    intro _
    simp only [Bool.not_eq_true', Bool.and_eq_false_iff, decide_eq_false_iff_not,
      Bool.not_eq_false']
    constructor
    · intro hspared
      by_cases hpath : keyPath path.key = some path
      · apply Or.inl
        by_contra hdead
        simp only [not_or, not_not, Bool.not_eq_true] at hdead
        exact hspared path.key ((h.2 path.key).mpr hdead) hpath
      · exact Or.inr hpath
    · intro hkept key hkey hpath
      have hname := key_of_keyPath hpath
      rcases (h.2 key).mp hkey with ⟨hheld, hdead⟩
      rcases hkept with (hgone | hlive) | hother
      · exact hgone (hname ▸ hheld)
      · rw [hname, hdead] at hlive
        cases hlive
      · exact hother (hname ▸ hpath)
  have hindex : (w.disk.after (removals order)).index =
      (reclaimUnreferencedLocked w).disk.index := Disk.index_removals _ _
  calc
    w.disk.after (removals order) =
        ⟨(w.disk.after (removals order)).files,
          (w.disk.after (removals order)).index⟩ := rfl
    _ = (reclaimUnreferencedLocked w).disk := by rw [hfiles, hindex]

theorem after_indexEffects (failure : Option String) (w : World) :
    w.disk.after (indexEffects failure w.store) = (writeIndexLocked failure w).2.disk := by
  cases failure <;> rfl

theorem after_removals_rollback (wrote : List String) (w : World) :
    w.disk.after (removals wrote) = (rollback wrote w).disk := by
  induction wrote generalizing w with
  | nil => rfl
  | cons key rest ih =>
      rw [rollback_cons, <- ih]
      rfl

theorem after_quarantineEffects {badKey : String}
    (h : ReclaimOrder (quarantined badKey w).store order) :
    w.disk.after (quarantineEffects failure badKey order w) =
      (quarantine failure badKey w).disk := by
  unfold quarantineEffects
  rw [Disk.after_append]
  change ((quarantined badKey w).disk.after (removals order)).after _ = _
  rw [after_removals_reclaim h, after_indexEffects]
  rfl

theorem after_unpinEffects (h : ReclaimOrder (deletePin (objectKey kind addr) w).store order) :
    w.disk.after (unpinEffects failure kind addr owner order w) =
      (unpin failure kind addr owner w).2.disk := by
  unfold unpinEffects unpin
  dsimp only
  cases w.store.pins.lookup (objectKey kind addr) with
  | none => rfl
  | some rec =>
      dsimp only
      by_cases howner : rec.owner ≠ "" ∧ rec.owner ≠ owner
      · rw [if_pos howner, if_pos howner]
        rfl
      · have hreclaim := after_removals_reclaim h
        change w.disk.after (removals order) = _ at hreclaim
        rw [if_neg howner, if_neg howner, Disk.after_append, hreclaim,
          after_indexEffects]
        split
        · rename_i text w'' hwrite
          rw [hwrite]
        · rename_i w'' hwrite
          rw [hwrite]

section Pin

variable {blake3 : Bytes -> Digest}

theorem after_storeObjectEffects (io : PinIo) (want : Want) (body : Bytes) (p : PinProgress) :
    p.world.disk.after (storeObjectEffects blake3 io want body p) =
      (storeObject blake3 io want body p).2.world.disk := by
  unfold storeObjectEffects storeObject
  cases verify blake3 want.kind want.addr body with
  | error e => rfl
  | ok u =>
      dsimp only
      cases checkBudget p.world.store.config want.addr p.pinBytes
          p.world.store.bytes body.length with
      | error e => rfl
      | ok u =>
          dsimp only
          cases io.writeObject want.key <;> rfl

theorem after_gatherObjectEffects (src : Source) (io : PinIo) (root : Addr)
    (i : Nat) (want : Want) (p : PinProgress) :
    p.world.disk.after (gatherObjectEffects blake3 src io i want p) =
      (gatherObject blake3 src io root i want p).2.world.disk := by
  unfold gatherObjectEffects gatherObject
  cases hheld : p.world.store.objects.lookup want.key with
  | some sz => rfl
  | none =>
      cases want.body with
      | some body => exact after_storeObjectEffects io want body p
      | none =>
          have hnot : objectKey want.kind want.addr ∉ p.world.store.objects :=
            Finmap.lookup_eq_none.mp hheld
          dsimp only
          rw [callSource_of_not_mem hnot]
          cases src.answer i with
          | error text => rfl
          | ok body => exact after_storeObjectEffects io want (body.getD []) p

variable (blake3) in
theorem after_gatherEffects (src : Source) (io : PinIo) (root : Addr) (i : Nat)
    (set : List Want) (p : PinProgress) :
    p.world.disk.after (gatherEffects blake3 src io root i set p) =
      (gather blake3 src io root i set p).2.world.disk := by
  induction set generalizing i p with
  | nil => rfl
  | cons want rest ih =>
      unfold gatherEffects gather
      rw [Disk.after_append, after_gatherObjectEffects src io root]
      cases gatherObject blake3 src io root i want p with
      | mk result p' =>
          cases result with
          | error e => rfl
          | ok u => exact ih (i + 1) p'

theorem after_finishEffects (io : PinIo) (kind : Kind) (addr : Addr)
    (owner : String) (loop : Except PinError Unit × PinProgress) :
    loop.2.world.disk.after (finishEffects io kind addr owner loop) =
      (finishPin io kind addr owner loop).2.disk := by
  rcases loop with ⟨result, p⟩
  cases result with
  | error e => exact after_removals_rollback p.wrote p.world
  | ok u =>
      unfold finishEffects finishPin
      cases io.writeIndex with
      | none => rfl
      | some text =>
          exact after_removals_rollback p.wrote
            (deletePin (objectKey kind addr)
              (commitPin (some text) (pinRecord kind addr owner io.now p)
                p.world).2)

variable (blake3) in
theorem after_pinEffects (src : Source) (io : PinIo) (kind : Kind) (addr : Addr)
    (owner : String) (w : World)
    (hread : ReadsRoot kind addr w -> (callSource blake3 src 0 kind addr w).2.disk = d)
    (hrefused : Not (ReadsRoot kind addr w) -> w.disk = d) :
    d.after (pinEffects blake3 src io kind addr owner w) =
      (pin blake3 src io kind addr owner w).2.disk := by
  unfold pinEffects pin
  cases hheld : w.store.pins.lookup (objectKey kind addr) with
  | some existing =>
      symm
      apply hrefused
      intro h
      rw [h.1] at hheld
      cases hheld
  | none =>
      dsimp only
      split
      · rename_i hfull
        symm
        apply hrefused
        intro h
        exact h.2 hfull
      · rename_i hroom
        have hd := hread ⟨hheld, hroom⟩
        cases hcall : callSource blake3 src 0 kind addr w with
        | mk answer w' =>
            rw [hcall] at hd
            change w'.disk = d at hd
            cases answer with
            | error text => exact hd.symm
            | ok rootBody =>
                dsimp only
                cases wantSet blake3 kind addr rootBody with
                | error e => exact hd.symm
                | ok set =>
                    have hloop := after_gatherEffects blake3 src io addr 1 set
                      ⟨w', [], [], 0⟩
                    change w'.disk.after _ = _ at hloop
                    rw [hd] at hloop
                    dsimp only
                    rw [Disk.after_append, hloop, after_finishEffects]

variable (blake3) in
theorem callSource_disk
    (h : Not (src.consults = true ∧ objectKey kind addr ∈ w.store.objects ∧
      (get blake3 (src.read 0) kind addr w).1 = none)) :
    (callSource blake3 src 0 kind addr w).2.disk = w.disk ∧
      (callSource blake3 src 0 kind addr w).2.store.pins = w.store.pins ∧
      (callSource blake3 src 0 kind addr w).2.store.objects = w.store.objects := by
  rcases callSource_cases blake3 src 0 kind addr w with hsame | ⟨hconsults, hget⟩
  · rw [hsame]
    exact ⟨rfl, rfl, rfl⟩
  · rw [hget]
    rcases get_cases blake3 (src.read 0) kind addr w with hsame | ⟨hheld, hbad⟩ | hmarked
    · rw [hsame]
      exact ⟨rfl, rfl, rfl⟩
    · exfalso
      apply h
      refine ⟨hconsults, hheld, ?_⟩
      rw [hbad]
    · rw [hmarked]
      exact ⟨rfl, rfl, rfl⟩

theorem callSource_of_quarantines (hconsults : src.consults = true)
    (hheld : objectKey kind addr ∈ w.store.objects)
    (hbad : (get blake3 (src.read 0) kind addr w).1 = none) :
    (callSource blake3 src 0 kind addr w).2 =
      quarantine (src.read 0).writeIndex (objectKey kind addr) w := by
  have hget : get blake3 (src.read 0) kind addr w =
      (none, quarantine (src.read 0).writeIndex (objectKey kind addr) w) := by
    unfold get at hbad ⊢
    dsimp only at hbad ⊢
    rw [if_pos hheld] at hbad ⊢
    split at hbad
    · rfl
    · split at hbad
      · cases hbad
      · rename_i hunseen
        split at hbad
        · exact if_neg hunseen
        · cases hbad
  unfold callSource
  rw [if_pos hconsults, hget]

theorem after_performs {w' : World} {op : PinOp} {effects : List DiskEffect}
    (h : op.Performs blake3 w effects) (hrun : op.run blake3 w = some w') :
    w.disk.after effects = w'.disk := by
  cases h with
  | pin hclean =>
      rename_i src io kind addr owner
      cases hrun
      apply after_pinEffects
      · intro hreads
        apply (callSource_disk blake3 _).1
        intro hbad
        exact hclean ⟨hreads, hbad⟩
      · intro _
        rfl
  | pinAfterQuarantine hbad horder =>
      rename_i src io kind addr owner order
      rcases hbad with ⟨hreads, hconsults, hheld, hnone⟩
      injection hrun with hw
      rw [<- hw, Disk.after_append, after_quarantineEffects horder]
      apply after_pinEffects
      · intro _
        rw [callSource_of_quarantines hconsults hheld hnone]
      · intro hrefused
        exact absurd hreads hrefused
  | unpin horder =>
      cases hrun
      exact after_unpinEffects horder
  | quarantine horder =>
      cases hrun
      exact after_quarantineEffects horder

end Pin

/-!
# What the next load recovers
-/

def IndexExact (pins : FiniteMap String PinRecord) : IndexFile -> Prop
  | IndexFile.absent => pins = ∅
  | IndexFile.unparsable => False
  | IndexFile.document version listed =>
      version = pinIndexVersion ∧ DistinctRoots listed ∧
        forall rec, some rec ∈ listed <->
          exists root, pins.lookup root = some rec

/-- Every pin has its objects on disk, and every object file belongs to a pin. -/
structure Whole (w : World) : Prop where
  onDisk : forall root rec, w.store.pins.lookup root = some rec ->
    forall obj, obj ∈ rec.objects -> exists body, w.disk.file obj = some body
  noOrphan : forall path body, w.disk.files.lookup path = some body ->
    exists root rec, w.store.pins.lookup root = some rec ∧ path.key ∈ rec.objects

theorem whole_sweepOrphans (config : PinConfig) (d : Disk)
    {listed : List (Option PinRecord)} (hdistinct : DistinctRoots listed) :
    Whole (sweepOrphans ⟨loadedStore config d listed, d⟩) := by
  rcases settled_sweepOrphans config d hdistinct with ⟨hretained, hreferenced⟩
  constructor
  · intro root rec hrec obj hobj
    rcases mem_objects_iff.mp (hretained.named root rec hrec obj hobj) with ⟨sz, hsz⟩
    rcases hretained.onDisk obj sz hsz with ⟨body, hfile, _⟩
    exact ⟨body, hfile⟩
  · intro path body hbody
    rcases FiniteMap.lookup_filter_eq_some.mp hbody with ⟨_, hkept⟩
    exact hreferenced path.key (of_decide_eq_true hkept)

theorem loadedStore_pins (config : PinConfig) {pins recovered : FiniteMap String PinRecord}
    {listed : List (Option PinRecord)} (hdistinct : DistinctRoots listed)
    (hlisted : forall rec, some rec ∈ listed <-> exists root, pins.lookup root = some rec)
    (hkeyed : forall root rec, pins.lookup root = some rec -> root = rec.rootKey)
    (hcomplete : forall root rec, recovered.lookup root = some rec <->
      pins.lookup root = some rec ∧ Complete d rec) :
    (loadedStore config d listed).pins = recovered := by
  have hload := loading_loadedStore config d listed
  apply FiniteMap.ext_some
  intro root rec
  rw [hcomplete]
  constructor
  · intro hrec
    rcases hload.held root rec hrec with ⟨hroot, hmem, hcomp⟩
    rcases (hlisted rec).mp hmem with ⟨root', hrec'⟩
    rw [hkeyed root' rec hrec', <- hroot] at hrec'
    exact ⟨hrec', hcomp⟩
  · intro h
    rw [hkeyed root rec h.1]
    exact hload.kept hdistinct rec ((hlisted rec).mpr ⟨root, h.1⟩) h.2

theorem load_recovers (config : PinConfig) {pins recovered : FiniteMap String PinRecord}
    (hindex : IndexExact pins d.index)
    (hkeyed : forall root rec, pins.lookup root = some rec -> root = rec.rootKey)
    (hcomplete : forall root rec, recovered.lookup root = some rec <->
      pins.lookup root = some rec ∧ Complete d rec) :
    exists w, load config ⟨none, none⟩ d = (Except.ok (), w) ∧
      w.store.pins = recovered ∧ Whole w := by
  unfold load
  dsimp only
  cases hd : d.index with
  | absent =>
      rw [hd] at hindex
      change pins = ∅ at hindex
      have hnone : DistinctRoots [] := List.nodup_nil
      refine ⟨_, rfl, ?_, whole_sweepOrphans config d hnone⟩
      apply FiniteMap.ext_some
      intro root rec
      rw [hcomplete, hindex, Finmap.lookup_empty]
      constructor
      · intro h
        cases h
      · intro h
        cases h.1
  | unparsable =>
      rw [hd] at hindex
      exact hindex.elim
  | document version listed =>
      rw [hd] at hindex
      rcases hindex with ⟨hversion, hdistinct, hlisted⟩
      dsimp only
      rw [if_neg (not_not_intro hversion)]
      have hwhole := whole_sweepOrphans config d hdistinct
      refine ⟨_, rfl, ?_, ?_⟩
      · exact loadedStore_pins config hdistinct hlisted hkeyed hcomplete
      · exact ⟨hwhole.onDisk, hwhole.noOrphan⟩

/-!
# Stores whose index is up to date
-/

/-- A settled store whose pins are exactly those the index on disk lists. -/
structure Synced (w : World) : Prop extends Settled w where
  indexExact : IndexExact w.store.pins w.disk.index

theorem indexExact_indexFile
    (hkeyed : forall root rec, s.pins.lookup root = some rec -> root = rec.rootKey) :
    IndexExact s.pins s.indexFile := by
  refine ⟨rfl, (indexCovers_indexFile hkeyed).2.1, ?_⟩
  intro rec
  rw [List.mem_map]
  constructor
  · intro h
    rcases h with ⟨listed, hlisted, heq⟩
    cases heq
    exact mem_indexPins.mp hlisted
  · intro h
    exact ⟨rec, mem_indexPins.mpr h, rfl⟩

theorem synced_writeIndexLocked (h : Settled (writeIndexLocked none w).2) :
    Synced (writeIndexLocked none w).2 := by
  refine ⟨h, ?_⟩
  change IndexExact w.store.pins w.store.indexFile
  apply indexExact_indexFile
  intro root rec hrec
  exact (h.keyed root rec hrec).1

theorem synced_quarantine (badKey : String) (h : Settled w) : Synced (quarantine none badKey w) :=
  synced_writeIndexLocked (settled_quarantine none badKey h)

theorem synced_unpin (kind : Kind) (addr : Addr) (owner : String) (h : Synced w) :
    Synced (unpin none kind addr owner w).2 := by
  rcases unpin_cases none kind addr owner w with hsame | ⟨rec, _, _, hremoved⟩
  · rw [hsame]
    exact h
  · rw [hremoved]
    exact synced_writeIndexLocked (settled_removePin none _ h.toSettled)

theorem synced_load {config : PinConfig} {io : LoadIo} (hdistinct : DistinctIndex d.index)
    (h : load config io d = (Except.ok (), w)) : Synced w := by
  have hsettled := settled_load hdistinct h
  refine ⟨hsettled, ?_⟩
  rcases load_eq_ok h with ⟨habsent, hw⟩ | ⟨pins, hindex, hw⟩
  · rw [hw]
    change IndexExact _ d.index
    rw [habsent]
    rfl
  · rw [hw] at hsettled ⊢
    exact (synced_writeIndexLocked hsettled).indexExact

section Runs

variable {blake3 : Bytes -> Digest}

theorem synced_get {io : GetIo} (kind : Kind) (addr : Addr) (hio : io.writeIndex = none)
    (h : Synced w) : Synced (get blake3 io kind addr w).2 := by
  have hsettled : Settled (get blake3 io kind addr w).2 :=
    settled_get io kind addr h.toSettled
  rcases get_cases blake3 io kind addr w with hsame | ⟨_, hbad⟩ | hmarked
  · rw [hsame]
    exact h
  · rw [hbad, hio]
    exact synced_quarantine _ h.toSettled
  · rw [hmarked] at hsettled ⊢
    exact ⟨hsettled, h.indexExact⟩

variable (blake3) in
theorem synced_callSource (i : Nat) (kind : Kind) (addr : Addr)
    (hio : src.consults = true -> (src.read i).writeIndex = none) (h : Synced w) :
    Synced (callSource blake3 src i kind addr w).2 := by
  rcases callSource_cases blake3 src i kind addr w with hsame | ⟨hconsults, hget⟩
  · rw [hsame]
    exact h
  · rw [hget]
    exact synced_get kind addr (hio hconsults) h

variable (blake3) in
theorem synced_pin (src : Source) (io : PinIo) (kind : Kind) (addr : Addr) (owner : String)
    (h : Synced w) (hread : Synced (callSource blake3 src 0 kind addr w).2) :
    Synced (pin blake3 src io kind addr owner w).2 := by
  have hsettled := settled_pin blake3 src io kind addr owner h.toSettled
  rcases pin_cases blake3 src io kind addr owner h.toSettled with
    hsame | hroot | ⟨p, hp, hup | ⟨record, _, hok, _⟩⟩
  · rw [hsame]
    exact h
  · rw [hroot]
    exact hread
  · rw [hup] at hsettled ⊢
    refine ⟨hsettled, ?_⟩
    rw [givenUp_pins hp, givenUp_index hp]
    exact hread.indexExact
  · rw [hok] at hsettled ⊢
    refine ⟨hsettled, ?_⟩
    rcases committed_store record p with ⟨pending, hstore⟩
    have hkeyed : forall root rec, (committed record p).store.pins.lookup root =
        some rec -> root = rec.rootKey :=
      fun root rec hrec => (hsettled.keyed root rec hrec).1
    change IndexExact (committed record p).store.pins
      (commitPin none record p.world).2.disk.index
    rw [hstore] at hkeyed ⊢
    exact indexExact_indexFile hkeyed

/-- No removal of a pin in this operation fails to reach the index. -/
def PinOp.WritesIndex : PinOp -> Prop
  | restart _ _ => True
  | pin src _ _ _ _ => src.consults = true -> (src.read 0).writeIndex = none
  | unpin failure _ _ _ => failure = none
  | get io _ _ => io.writeIndex = none
  | quarantine failure _ => failure = none

variable (blake3) in
/-- The states of runs in which every removal of a pin has reached the index. -/
inductive ReachableIndexed : World -> Prop where
  | loaded {config : PinConfig} {io : LoadIo} {d : Disk} {w : World} :
      DistinctIndex d.index -> load config io d = (Except.ok (), w) ->
      ReachableIndexed w
  | step {w w' : World} (op : PinOp) :
      ReachableIndexed w -> op.WritesIndex -> op.run blake3 w = some w' ->
      ReachableIndexed w'

theorem synced_run {w' : World} {op : PinOp} (h : Synced w) (hwrites : op.WritesIndex)
    (hrun : op.run blake3 w = some w') : Synced w' := by
  cases op with
  | restart config io =>
      exact synced_load (distinctIndex_of_settled h.toSettled) (restart_eq_some hrun)
  | pin src io kind addr owner =>
      cases hrun
      exact synced_pin blake3 src io kind addr owner h
        (synced_callSource blake3 0 kind addr hwrites h)
  | unpin failure kind addr owner =>
      injection hrun with hw
      change failure = none at hwrites
      rw [<- hw, hwrites]
      exact synced_unpin kind addr owner h
  | get io kind addr =>
      cases hrun
      exact synced_get kind addr hwrites h
  | quarantine failure badKey =>
      injection hrun with hw
      change failure = none at hwrites
      rw [<- hw, hwrites]
      exact synced_quarantine badKey h.toSettled

theorem synced_of_reachableIndexed (h : ReachableIndexed blake3 w) : Synced w := by
  induction h with
  | loaded hdistinct hload => exact synced_load hdistinct hload
  | step op _ hwrites hrun ih => exact synced_run ih hwrites hrun

end Runs

/-!
# Crashes of one operation
-/

theorem complete_of_held (h : Retained w) {root : String}
    (hrec : w.store.pins.lookup root = some rec)
    (hfiles : forall obj, obj ∈ rec.objects -> d.file obj = w.disk.file obj) : Complete d rec := by
  refine ⟨(h.keyed root rec hrec).2, ?_⟩
  intro obj hobj
  have hheld := h.named root rec hrec obj hobj
  rcases mem_objects_iff.mp hheld with ⟨sz, hsz⟩
  rcases h.onDisk obj sz hsz with ⟨body, hfile, _⟩
  refine ⟨h.valid obj hheld, body, ?_⟩
  rw [hfiles obj hobj]
  exact hfile

theorem load_recovers_all (config : PinConfig) (h : Synced w) (hindex : d.index = w.disk.index)
    (hfiles : forall obj, obj ∈ w.store.objects -> d.file obj = w.disk.file obj) :
    exists w', load config ⟨none, none⟩ d = (Except.ok (), w') ∧
      w'.store.pins = w.store.pins ∧ Whole w' := by
  have hexact := h.indexExact
  rw [<- hindex] at hexact
  apply load_recovers config hexact
  · intro root rec hrec
    exact (h.keyed root rec hrec).1
  · intro root rec
    constructor
    · intro hrec
      refine ⟨hrec, complete_of_held h.toRetained hrec ?_⟩
      intro obj hobj
      exact hfiles obj (h.named root rec hrec obj hobj)
    · intro hrec
      exact hrec.1

theorem load_recovers_removed (config : PinConfig) (removed : List String)
    {kept : FiniteMap String PinRecord} (h : Synced w)
    (hsub : forall root rec, kept.lookup root = some rec -> w.store.pins.lookup root = some rec)
    (hspared : forall root rec, kept.lookup root = some rec ->
      forall obj, obj ∈ rec.objects -> obj ∉ removed)
    (hhit : forall root rec, w.store.pins.lookup root = some rec ->
      kept.lookup root ≠ some rec ->
      exists obj, obj ∈ rec.objects ∧ obj ∈ removed) :
    exists w', load config ⟨none, none⟩ (w.disk.after (removals removed)) =
        (Except.ok (), w') ∧
      w'.store.pins = kept ∧ Whole w' := by
  have hexact := h.indexExact
  rw [<- Disk.index_removals w.disk removed] at hexact
  apply load_recovers config hexact
  · intro root rec hrec
    exact (h.keyed root rec hrec).1
  · intro root rec
    constructor
    · intro hrec
      refine ⟨hsub root rec hrec, ?_⟩
      apply complete_of_held h.toRetained (hsub root rec hrec)
      intro obj hobj
      rw [Disk.file_removals, if_neg (hspared root rec hrec obj hobj)]
    · intro hrec
      by_contra hgone
      rcases hhit root rec hrec.1 hgone with ⟨obj, hobj, hremoved⟩
      rcases (hrec.2.2 obj hobj).2 with ⟨body, hbody⟩
      rw [Disk.file_removals, if_pos hremoved] at hbody
      cases hbody

def Recovers (config : PinConfig) (d : Disk)
    (before after : FiniteMap String PinRecord) : Prop :=
  exists w, load config ⟨none, none⟩ d = (Except.ok (), w) ∧
    (w.store.pins = before ∨ w.store.pins = after) ∧ Whole w

theorem recovers_before (config : PinConfig) {after : FiniteMap String PinRecord} (h : Synced w)
    (hindex : d.index = w.disk.index)
    (hfiles : forall obj, obj ∈ w.store.objects -> d.file obj = w.disk.file obj) :
    Recovers config d w.store.pins after := by
  rcases load_recovers_all config h hindex hfiles with ⟨w', hload, hpins, hwhole⟩
  exact ⟨w', hload, Or.inl hpins, hwhole⟩

theorem recovers_after (config : PinConfig) (h : Synced w) (before : FiniteMap String PinRecord) :
    Recovers config w.disk before w.store.pins := by
  rcases load_recovers_all config h rfl (fun _ _ => rfl) with
    ⟨w', hload, hpins, hwhole⟩
  exact ⟨w', hload, Or.inr hpins, hwhole⟩

theorem take_removals (removed : List String) (failure : Option String) (s : PinStore) (n : Nat) :
    (exists m, (removals removed ++ indexEffects failure s).take n =
        removals (removed.take m)) ∨
      (failure = none ∧ (removals removed ++ indexEffects failure s).take n =
        removals removed ++ indexEffects failure s) := by
  cases failure with
  | some text =>
      apply Or.inl
      refine ⟨n, ?_⟩
      rw [indexEffects, List.append_nil]
      exact (List.map_take).symm
  | none =>
      by_cases hn : n <= removed.length
      · apply Or.inl
        refine ⟨n, ?_⟩
        rw [List.take_append_of_le_length]
        · exact (List.map_take).symm
        · rw [removals, List.length_map]
          exact hn
      · apply Or.inr
        refine ⟨rfl, List.take_of_length_le ?_⟩
        rw [removals, List.length_append, List.length_map]
        change removed.length + 1 <= n
        exact Nat.lt_of_not_le hn

theorem not_mem_reclaimOrder (h : ReclaimOrder s order) {root : String}
    (hrec : s.pins.lookup root = some rec) {obj : String} (hobj : obj ∈ rec.objects) :
    obj ∉ order := by
  intro hmem
  have hdead := ((h.2 obj).mp hmem).2
  rw [PinStore.live_eq_true.mpr (Or.inl ⟨root, rec, hrec, hobj⟩)] at hdead
  cases hdead

theorem recovers_quarantine (config : PinConfig) {badKey : String} (h : Synced w)
    (horder : ReclaimOrder (quarantined badKey w).store order) (n : Nat) :
    Recovers config
      (w.disk.after ((quarantineEffects failure badKey order w).take n))
      w.store.pins (quarantine failure badKey w).store.pins := by
  rcases take_removals (badKey :: order) failure
    (reclaimUnreferencedLocked (quarantined badKey w)).store n with
    ⟨m, htaken⟩ | ⟨hwritten, hall⟩
  · unfold quarantineEffects
    rw [htaken]
    cases m with
    | zero =>
        exact recovers_before config h rfl (fun _ _ => rfl)
    | succ m =>
        rw [List.take_succ_cons]
        have hpins : forall root rec,
            (quarantine failure badKey w).store.pins.lookup root = some rec ->
              (quarantined badKey w).store.pins.lookup root = some rec := by
          intro root rec hrec
          unfold quarantine at hrec
          rw [writeIndexLocked_store] at hrec
          exact hrec
        have hspared : forall root rec,
            (quarantine failure badKey w).store.pins.lookup root = some rec ->
            forall obj, obj ∈ rec.objects -> obj ∉ badKey :: order.take m := by
          intro root rec hrec obj hobj hmem
          rcases List.mem_cons.mp hmem with hbad | hdead
          · exact (quarantine_pins.mp hrec).2 (hbad ▸ hobj)
          · exact not_mem_reclaimOrder horder (hpins root rec hrec) hobj
              (List.mem_of_mem_take hdead)
        have hhit : forall root rec, w.store.pins.lookup root = some rec ->
            (quarantine failure badKey w).store.pins.lookup root ≠ some rec ->
            exists obj, obj ∈ rec.objects ∧ obj ∈ badKey :: order.take m := by
          intro root rec hrec hgone
          refine ⟨badKey, ?_, List.mem_cons_self⟩
          by_contra hnot
          exact hgone (quarantine_pins.mpr ⟨hrec, hnot⟩)
        rcases load_recovers_removed config (badKey :: order.take m) h
          (fun root rec hrec => (quarantine_pins.mp hrec).1) hspared hhit with
          ⟨w', hload, hkept, hwhole⟩
        exact ⟨w', hload, Or.inr hkept, hwhole⟩
  · unfold quarantineEffects
    rw [hall]
    change Recovers config
      (w.disk.after (quarantineEffects failure badKey order w)) _ _
    rw [after_quarantineEffects horder, hwritten]
    exact recovers_after config (synced_quarantine badKey h.toSettled) _

theorem hit_of_reclaimOrder {rootKey : String} (h : Settled w)
    (horder : ReclaimOrder (deletePin rootKey w).store order) {dead root : String}
    (hdead : dead ∈ order) (hrec : w.store.pins.lookup root = some rec)
    (hgone : (w.store.pins.erase rootKey).lookup root ≠ some rec) : dead ∈ rec.objects := by
  have hroot : root = rootKey := by
    by_contra hother
    exact hgone (FiniteMap.lookup_erase_eq_some.mpr ⟨hother, hrec⟩)
  rcases h.referenced dead ((horder.2 dead).mp hdead).1 with
    ⟨root', rec', hrec', hnames⟩
  have hroot' : root' = rootKey := by
    by_contra hother
    exact not_mem_reclaimOrder horder
      (FiniteMap.lookup_erase_eq_some.mpr ⟨hother, hrec'⟩) hnames hdead
  rw [hroot', <- hroot, hrec] at hrec'
  injection hrec' with heq
  rw [heq]
  exact hnames

theorem recovers_removePin (config : PinConfig) {rootKey : String} (h : Synced w)
    (horder : ReclaimOrder (deletePin rootKey w).store order) (n : Nat) :
    Recovers config
      (w.disk.after ((removals order ++ indexEffects failure
        (reclaimUnreferencedLocked (deletePin rootKey w)).store).take n))
      w.store.pins (w.store.pins.erase rootKey) := by
  rcases take_removals order failure
    (reclaimUnreferencedLocked (deletePin rootKey w)).store n with
    ⟨m, htaken⟩ | ⟨hwritten, hall⟩
  · rw [htaken]
    cases hm : order.take m with
    | nil => exact recovers_before config h rfl (fun _ _ => rfl)
    | cons dead rest =>
        have hmem : forall obj, obj ∈ dead :: rest -> obj ∈ order := by
          intro obj hobj
          rw [<- hm] at hobj
          exact List.mem_of_mem_take hobj
        have hspared : forall root rec,
            (w.store.pins.erase rootKey).lookup root = some rec ->
            forall obj, obj ∈ rec.objects -> obj ∉ dead :: rest := by
          intro root rec hrec obj hobj hdead
          exact not_mem_reclaimOrder horder hrec hobj (hmem obj hdead)
        have hhit : forall root rec, w.store.pins.lookup root = some rec ->
            (w.store.pins.erase rootKey).lookup root ≠ some rec ->
            exists obj, obj ∈ rec.objects ∧ obj ∈ dead :: rest := by
          intro root rec hrec hgone
          refine ⟨dead, ?_, List.mem_cons_self⟩
          exact hit_of_reclaimOrder h.toSettled horder
            (hmem dead List.mem_cons_self) hrec hgone
        rcases load_recovers_removed config (dead :: rest) h
          (fun root rec hrec => (FiniteMap.lookup_erase_eq_some.mp hrec).2)
          hspared hhit with ⟨w', hload, hkept, hwhole⟩
        exact ⟨w', hload, Or.inr hkept, hwhole⟩
  · rw [hall, Disk.after_append]
    have hreclaim := after_removals_reclaim horder
    change w.disk.after (removals order) = _ at hreclaim
    rw [hreclaim, after_indexEffects, hwritten]
    have hsynced := synced_writeIndexLocked
      (settled_removePin none rootKey h.toSettled)
    exact recovers_after config hsynced _

theorem unpin_eq_removePin (hrec : w.store.pins.lookup (objectKey kind addr) = some rec)
    (howner : Not (rec.owner ≠ "" ∧ rec.owner ≠ owner)) :
    (unpin failure kind addr owner w).2 =
      (writeIndexLocked failure
        (reclaimUnreferencedLocked (deletePin (objectKey kind addr) w))).2 := by
  unfold unpin
  dsimp only
  rw [hrec]
  dsimp only
  rw [if_neg howner]
  split
  · rename_i text w'' hwrite
    rw [hwrite]
  · rename_i w'' hwrite
    rw [hwrite]

theorem recovers_unpin (config : PinConfig) (h : Synced w)
    (horder : ReclaimOrder (deletePin (objectKey kind addr) w).store order) (n : Nat) :
    Recovers config
      (w.disk.after ((unpinEffects failure kind addr owner order w).take n))
      w.store.pins (unpin failure kind addr owner w).2.store.pins := by
  unfold unpinEffects
  dsimp only
  cases hrec : w.store.pins.lookup (objectKey kind addr) with
  | none =>
      rw [List.take_nil]
      exact recovers_before config h rfl (fun _ _ => rfl)
  | some rec =>
      dsimp only
      by_cases howner : rec.owner ≠ "" ∧ rec.owner ≠ owner
      · rw [if_pos howner, List.take_nil]
        exact recovers_before config h rfl (fun _ _ => rfl)
      · rw [if_neg howner, unpin_eq_removePin hrec howner, writeIndexLocked_store]
        exact recovers_removePin config h horder n

/-!
# Crashes of a pin
-/

/-- The effect leaves the index and the objects that the store holds alone. -/
def DiskEffect.Spares (s : PinStore) : DiskEffect -> Prop
  | renameObject key _ => key ∉ s.objects
  | removeObject key => key ∉ s.objects
  | renameIndex _ => False

theorem Disk.apply_of_spares {e : DiskEffect} (d : Disk) (h : e.Spares s) :
    (e.apply d).index = d.index ∧
      forall obj, obj ∈ s.objects -> (e.apply d).file obj = d.file obj := by
  cases e with
  | renameIndex index => exact h.elim
  | removeObject key =>
      refine ⟨Disk.index_removeObject d key, ?_⟩
      intro obj hobj
      change (d.removeObject key).file obj = d.file obj
      rw [Disk.file_removeObject, if_neg]
      intro heq
      exact h (heq ▸ hobj)
  | renameObject key body =>
      refine ⟨Disk.index_writeObject d key body, ?_⟩
      intro obj hobj
      change (d.writeObject key body).file obj = d.file obj
      cases hpath : keyPath key with
      | none =>
          unfold Disk.writeObject
          rw [hpath]
      | some path =>
          rw [Disk.file_writeObject d body obj ⟨path, hpath⟩, if_neg]
          intro heq
          exact h (heq ▸ hobj)

theorem Disk.after_of_spares {effects : List DiskEffect} (d : Disk)
    (h : forall e, e ∈ effects -> e.Spares s) :
    (d.after effects).index = d.index ∧
      forall obj, obj ∈ s.objects -> (d.after effects).file obj = d.file obj := by
  induction effects generalizing d with
  | nil => exact ⟨rfl, fun _ _ => rfl⟩
  | cons e rest ih =>
      have hhead := Disk.apply_of_spares d (h e List.mem_cons_self)
      have hrest := ih (e.apply d) (fun e' he => h e' (List.mem_cons_of_mem _ he))
      refine ⟨hrest.1.trans hhead.1, ?_⟩
      intro obj hobj
      exact (hrest.2 obj hobj).trans (hhead.2 obj hobj)

theorem recovers_of_spares (config : PinConfig) {effects : List DiskEffect}
    {after : FiniteMap String PinRecord} (h : Synced w)
    (hspares : forall e, e ∈ effects -> e.Spares w.store) (n : Nat) :
    Recovers config (w.disk.after (effects.take n)) w.store.pins after := by
  have htaken : forall e, e ∈ effects.take n -> e.Spares w.store :=
    fun e he => hspares e (List.mem_of_mem_take he)
  rcases Disk.after_of_spares w.disk htaken with ⟨hindex, hfiles⟩
  exact recovers_before config h hindex hfiles

theorem spares_removals {keys : List String} (h : forall key, key ∈ keys -> key ∉ s.objects) :
    forall e, e ∈ removals keys -> e.Spares s := by
  intro e he
  rcases List.mem_map.mp he with ⟨key, hkey, heq⟩
  rw [<- heq]
  exact h key hkey

section Pin

variable {blake3 : Bytes -> Digest}

theorem spares_storeObjectEffects {want : Want} {body : Bytes} (hfree : want.key ∉ s.objects) :
    forall e, e ∈ storeObjectEffects blake3 io want body p -> e.Spares s := by
  intro e he
  unfold storeObjectEffects at he
  split at he
  · cases he
  · rw [List.mem_singleton.mp he]
    exact hfree

theorem spares_gatherObjectEffects {w0 : World} {i : Nat} {want : Want} (h : Gathering w0 p) :
    forall e, e ∈ gatherObjectEffects blake3 src io i want p -> e.Spares w0.store := by
  intro e he
  unfold gatherObjectEffects at he
  split at he
  · cases he
  · rename_i hnone
    have hfree : want.key ∉ w0.store.objects := by
      intro hmem
      have hnot : want.key ∉ p.wrote := fun hwrote => h.wrote_fresh _ hwrote hmem
      rw [h.lookup_old _ hnot] at hnone
      exact Finmap.lookup_eq_none.mp hnone hmem
    split at he
    · exact spares_storeObjectEffects hfree e he
    · split at he
      · cases he
      · exact spares_storeObjectEffects hfree e he

variable (blake3) in
theorem spares_gatherEffects {w0 : World} (src : Source) (io : PinIo) (root : Addr) (i : Nat)
    (set : List Want) (h : Gathering w0 p) :
    forall e, e ∈ gatherEffects blake3 src io root i set p -> e.Spares w0.store := by
  induction set generalizing i p with
  | nil =>
      intro e he
      cases he
  | cons want rest ih =>
      have hstep := gathering_gatherObject blake3 src io root i want h
      intro e he
      unfold gatherEffects at he
      rcases List.mem_append.mp he with hhead | hrest
      · exact spares_gatherObjectEffects h e hhead
      · split at hrest
        · cases hrest
        · rename_i p' heq
          rw [heq] at hstep
          exact ih (i + 1) hstep e hrest

theorem finishEffects_cases {w0 : World} (io : PinIo) (kind : Kind) (addr : Addr)
    (owner : String) {outcome : Except PinError Unit} (h : Gathering w0 p) :
    (forall e, e ∈ finishEffects io kind addr owner (outcome, p) ->
        e.Spares w0.store) ∨
      exists index, finishEffects io kind addr owner (outcome, p) =
        [DiskEffect.renameIndex index] := by
  cases outcome with
  | error e => exact Or.inl (spares_removals h.wrote_fresh)
  | ok u =>
      unfold finishEffects
      cases io.writeIndex with
      | some text => exact Or.inl (spares_removals h.wrote_fresh)
      | none => exact Or.inr ⟨_, rfl⟩

variable (blake3) in
theorem pinEffects_cases (src : Source) (io : PinIo) (kind : Kind) (addr : Addr)
    (owner : String) (h : Settled w) (hclean : Not (RootReadQuarantines blake3 src kind addr w)) :
    (forall e, e ∈ pinEffects blake3 src io kind addr owner w ->
        e.Spares w.store) ∨
      exists front index, pinEffects blake3 src io kind addr owner w =
          front ++ [DiskEffect.renameIndex index] ∧
        forall e, e ∈ front -> e.Spares w.store := by
  have hnone : forall e : DiskEffect, e ∈ [] -> e.Spares w.store := by
    intro e he
    cases he
  unfold pinEffects
  split
  · exact Or.inl hnone
  · rename_i hfree
    split
    · exact Or.inl hnone
    · rename_i hroom
      have hsource := settled_callSource blake3 src 0 kind addr h
      have hquiet := callSource_disk blake3
        (fun hbad => hclean ⟨⟨hfree, hroom⟩, hbad⟩)
      cases hcall : callSource blake3 src 0 kind addr w with
      | mk answer w' =>
          rw [hcall] at hsource hquiet
          cases answer with
          | error text => exact Or.inl hnone
          | ok rootBody =>
              dsimp only
              split
              · exact Or.inl hnone
              · rename_i set hset
                have hstart := gathering_start hsource
                have hfront := spares_gatherEffects blake3 src io addr 1 set hstart
                have hloop := gathering_gather blake3 src io addr 1 set hstart
                have hobjects : forall e : DiskEffect, e.Spares w'.store ->
                    e.Spares w.store := by
                  intro e he
                  have hsame : w'.store.objects = w.store.objects := hquiet.2.2
                  cases e with
                  | renameIndex index => exact he
                  | removeObject key | renameObject key body =>
                      change key ∉ w.store.objects
                      rw [<- hsame]
                      exact he
                cases hgather : gather blake3 src io addr 1 set ⟨w', [], [], 0⟩ with
                | mk outcome p =>
                    rw [hgather] at hloop
                    rcases finishEffects_cases io kind addr owner hloop with
                      hback | ⟨index, hindex⟩
                    · apply Or.inl
                      intro e he
                      apply hobjects
                      rcases List.mem_append.mp he with hmem | hmem
                      · exact hfront e hmem
                      · exact hback e hmem
                    · apply Or.inr
                      refine ⟨_, index, congrArg _ hindex, ?_⟩
                      intro e he
                      exact hobjects e (hfront e he)

theorem synced_callSource_of_quiet (h : Synced w)
    (hquiet : Not (src.consults = true ∧ objectKey kind addr ∈ w.store.objects ∧
      (get blake3 (src.read 0) kind addr w).1 = none)) :
    Synced (callSource blake3 src 0 kind addr w).2 := by
  refine ⟨settled_callSource blake3 src 0 kind addr h.toSettled, ?_⟩
  rcases callSource_disk blake3 hquiet with ⟨hdisk, hpins, _⟩
  rw [hdisk, hpins]
  exact h.indexExact

theorem pinEffects_of_not_readsRoot (h : Not (ReadsRoot kind addr w)) :
    pinEffects blake3 src io kind addr owner w = [] := by
  unfold pinEffects
  split
  · rfl
  · rename_i hfree
    rw [if_pos]
    by_contra hroom
    exact h ⟨hfree, hroom⟩

theorem recovers_pin (config : PinConfig) {w' : World} (h : Synced w)
    (hclean : Not (RootReadQuarantines blake3 src kind addr w))
    (hrun : (PinOp.pin src io kind addr owner).run blake3 w = some w') (n : Nat) :
    Recovers config
      (w.disk.after ((pinEffects blake3 src io kind addr owner w).take n))
      w.store.pins w'.store.pins := by
  by_cases hreads : ReadsRoot kind addr w
  · rcases pinEffects_cases blake3 src io kind addr owner h.toSettled hclean with
      hspares | ⟨front, index, heffects, hspares⟩
    · exact recovers_of_spares config h hspares n
    · by_cases hn : n <= front.length
      · rw [heffects, List.take_append_of_le_length hn]
        exact recovers_of_spares config h hspares n
      · have hall : (pinEffects blake3 src io kind addr owner w).take n =
            pinEffects blake3 src io kind addr owner w := by
          apply List.take_of_length_le
          rw [heffects, List.length_append]
          exact Nat.lt_of_not_le hn
        rw [hall, after_performs (PinOp.Performs.pin hclean) hrun]
        cases hrun
        have hread := synced_callSource_of_quiet h
          (fun hbad => hclean ⟨hreads, hbad⟩)
        exact recovers_after config
          (synced_pin blake3 src io kind addr owner h hread) _
  · rw [pinEffects_of_not_readsRoot hreads, List.take_nil]
    exact recovers_before config h rfl (fun _ _ => rfl)

/-- The operation is not a pin whose own read drops pins on the way. -/
def PinOp.ReadsCleanly (blake3 : Bytes -> Digest) (w : World) : PinOp -> Prop
  | PinOp.pin src _ kind addr _ => Not (RootReadQuarantines blake3 src kind addr w)
  | _ => True

/--
In every run whose removals of pins have reached the index: stop any operation
after any number of its effects on the directory, and the next load recovers the
pins of before or those of after, each with all its objects, and nothing else.
-/
theorem crash_recovers_before_or_after (blake3 : Bytes -> Digest) (w w1 : World)
    (op : PinOp) (effects : List DiskEffect) (n : Nat) (config : PinConfig)
    (hreachable : ReachableIndexed blake3 w)
    (hclean : op.ReadsCleanly blake3 w)
    (heffects : op.Performs blake3 w effects)
    (hrun : op.run blake3 w = some w1) :
    exists w', load config ⟨none, none⟩ (w.disk.after (effects.take n)) =
        (Except.ok (), w') ∧
      (w'.store.pins = w.store.pins ∨ w'.store.pins = w1.store.pins) ∧
      (forall root rec, w'.store.pins.lookup root = some rec ->
        forall obj, obj ∈ rec.objects ->
          exists body, w'.disk.file obj = some body) ∧
      (forall path body, w'.disk.files.lookup path = some body ->
        exists root rec, w'.store.pins.lookup root = some rec ∧
          path.key ∈ rec.objects) := by
  have hsynced := synced_of_reachableIndexed hreachable
  have hrecovers : Recovers config (w.disk.after (effects.take n))
      w.store.pins w1.store.pins := by
    cases heffects with
    | pin hquiet => exact recovers_pin config hsynced hquiet hrun n
    | pinAfterQuarantine hbad _ => exact absurd hbad hclean
    | unpin horder =>
        cases hrun
        exact recovers_unpin config hsynced horder n
    | quarantine horder =>
        cases hrun
        exact recovers_quarantine config hsynced horder n
  rcases hrecovers with ⟨w', hload, hpins, hwhole⟩
  exact ⟨w', hload, hpins, hwhole.onDisk, hwhole.noOrphan⟩

/-- The pin of the chunk `a` in an empty store, by an owner `alice`. -/
def pinA : PinOp :=
  PinOp.pin (constantSource (asciiBytes "a")) ⟨fun _ => none, none, 0⟩ Kind.chunk
    chunkA "alice"

theorem pinA_crash_before_index :
    exists w', load ⟨1048576, 0, 0, 0⟩ ⟨none, none⟩
        (freshWorld.disk.after ((pinEffects blake3OfAB
          (constantSource (asciiBytes "a")) ⟨fun _ => none, none, 0⟩ Kind.chunk
          chunkA "alice" freshWorld).take 1)) = (Except.ok (), w') ∧
      (w'.store.pins = freshWorld.store.pins ∨
        w'.store.pins = (pinnedA "alice").store.pins) ∧
      (forall root rec, w'.store.pins.lookup root = some rec ->
        forall obj, obj ∈ rec.objects ->
          exists body, w'.disk.file obj = some body) ∧
      (forall path body, w'.disk.files.lookup path = some body ->
        exists root rec, w'.store.pins.lookup root = some rec ∧
          path.key ∈ rec.objects) := by
  have hfresh : ReachableIndexed blake3OfAB freshWorld :=
    @ReachableIndexed.loaded blake3OfAB ⟨1048576, 0, 0, 0⟩ ⟨none, none⟩
      ⟨∅, IndexFile.absent⟩ freshWorld trivial rfl
  have hclean : Not (RootReadQuarantines blake3OfAB
      (constantSource (asciiBytes "a")) Kind.chunk chunkA freshWorld) := by
    intro h
    cases h.2.1
  exact crash_recovers_before_or_after blake3OfAB freshWorld (pinnedA "alice") pinA
    _ 1 ⟨1048576, 0, 0, 0⟩ hfresh hclean (PinOp.Performs.pin hclean) rfl

/-!
# The condition is needed

An `unpin` that cannot write the index forgets the pin and leaves it in the index.
Where other pins name its objects too, the next load brings it back.
-/

theorem unpin_unwritten_index (text : String) (kind : Kind) (addr : Addr)
    (owner : String) (w : World) :
    (unpin (some text) kind addr owner w).2.disk.index = w.disk.index := by
  rcases unpin_cases (some text) kind addr owner w with hsame | ⟨_, _, _, hremoved⟩
  · rw [hsame]
  · rw [hremoved]
    rfl

theorem unpin_file_of_live (failure : Option String) (owner : String) {obj : String}
    (hlive : (deletePin (objectKey kind addr) w).store.live obj = true) :
    (unpin failure kind addr owner w).2.disk.file obj = w.disk.file obj := by
  rcases unpin_cases failure kind addr owner w with hsame | ⟨_, _, _, hremoved⟩
  · rw [hsame]
  · rw [hremoved, writeIndexLocked_file, file_reclaim_of_live hlive]
    rfl

theorem load_revives_unpinned (config : PinConfig) (text owner : String) (h : Synced w)
    (hrec : w.store.pins.lookup (objectKey kind addr) = some rec)
    (hshared : forall obj, obj ∈ rec.objects ->
      exists root other, root ≠ objectKey kind addr ∧
        w.store.pins.lookup root = some other ∧ obj ∈ other.objects) :
    exists w', load config ⟨none, none⟩
        (unpin (some text) kind addr owner w).2.disk = (Except.ok (), w') ∧
      w'.store.pins = w.store.pins ∧ Whole w' := by
  apply load_recovers_all config h (unpin_unwritten_index text kind addr owner w)
  intro obj hobj
  apply unpin_file_of_live
  apply PinStore.live_eq_true.mpr
  apply Or.inl
  rcases h.referenced obj hobj with ⟨root, named, hnamed, hmem⟩
  by_cases hroot : root = objectKey kind addr
  · rw [hroot, hrec] at hnamed
    injection hnamed with heq
    rw [<- heq] at hmem
    rcases hshared obj hmem with ⟨root', other, hne, hother, hmem'⟩
    exact ⟨root', other, FiniteMap.lookup_erase_eq_some.mpr ⟨hne, hother⟩, hmem'⟩
  · exact ⟨root, named, FiniteMap.lookup_erase_eq_some.mpr ⟨hroot, hnamed⟩, hmem⟩

/-- The record of a pin of the chunk `a`, which the manifest shares. -/
def sharedRecord : PinRecord :=
  ⟨"chunk", chunkA.string, "alice", [objectKey Kind.chunk chunkA], 1, 0⟩

def sharedDirectory : Disk :=
  { rottedDirectory with
    index := IndexFile.document pinIndexVersion
      [some sharedRecord, some rottedRecord] }

def sharedWorld : World :=
  (load ⟨1048576, 0, 0, 0⟩ ⟨none, none⟩ sharedDirectory).2

/-- An `unpin` of the chunk that cannot write the index. -/
def failedUnpin (w : World) : World :=
  (unpin (some "no space left on device") Kind.chunk chunkA "alice" w).2

theorem load_sharedDirectory :
    load ⟨1048576, 0, 0, 0⟩ ⟨none, none⟩ sharedDirectory = (Except.ok (), sharedWorld) :=
  rfl

theorem distinctIndex_sharedDirectory : DistinctIndex sharedDirectory.index := by
  change List.Nodup [sharedRecord.rootKey, rottedRecord.rootKey]
  decide +kernel

theorem reachable_failedUnpin (h : Reachable blake3 w) : Reachable blake3 (failedUnpin w) :=
  Reachable.step
    (PinOp.unpin (some "no space left on device") Kind.chunk chunkA "alice") h rfl

theorem sharedWorld_pins :
    sharedWorld.store.pins.lookup (objectKey Kind.chunk chunkA) =
      some sharedRecord ∧
    sharedWorld.store.pins.lookup (objectKey Kind.manifest rottedRoot) =
      some rottedRecord ∧
    (failedUnpin sharedWorld).store.pins.lookup (objectKey Kind.chunk chunkA) =
      none ∧
    (quarantine none (objectKey Kind.manifest rottedRoot)
      (failedUnpin sharedWorld)).store.pins.lookup (objectKey Kind.chunk chunkA) =
      none := by
  decide +kernel

theorem load_revives_chunk (h : Synced w)
    (hchunk : w.store.pins.lookup (objectKey Kind.chunk chunkA) = some sharedRecord)
    (hmanifest : w.store.pins.lookup (objectKey Kind.manifest rottedRoot) =
      some rottedRecord) (config : PinConfig) (badKey : String) (order : List String) :
    exists w', load config ⟨none, none⟩
        ((failedUnpin w).disk.after
          ((quarantineEffects none badKey order (failedUnpin w)).take 0)) =
        (Except.ok (), w') ∧
      w'.store.pins = w.store.pins := by
  have hnames : forall obj, obj ∈ sharedRecord.objects ->
      exists root other, root ≠ objectKey Kind.chunk chunkA ∧
        w.store.pins.lookup root = some other ∧ obj ∈ other.objects := by
    intro obj hobj
    refine ⟨_, rottedRecord, ?_, hmanifest, List.mem_cons_of_mem _ hobj⟩
    intro heq
    cases (objectKey_inj heq).1
  rcases load_revives_unpinned config "no space left on device" "alice" h hchunk
    hnames with ⟨w', hload, hpins, _⟩
  exact ⟨w', hload, hpins⟩

/--
Two pins share a chunk, the index write of an `unpin` fails, and a later
quarantine stops before its first effect.  The load brings the unpinned chunk
back, which neither side of the quarantine holds.
-/
theorem sharedWorld_crash_revives_pin :
    Reachable blake3OfAB (failedUnpin sharedWorld) ∧
    forall order, exists w', load ⟨1048576, 0, 0, 0⟩ ⟨none, none⟩
        ((failedUnpin sharedWorld).disk.after ((quarantineEffects none
          (objectKey Kind.manifest rottedRoot) order
            (failedUnpin sharedWorld)).take 0)) = (Except.ok (), w') ∧
      w'.store.pins ≠ (failedUnpin sharedWorld).store.pins ∧
      w'.store.pins ≠ (quarantine none (objectKey Kind.manifest rottedRoot)
        (failedUnpin sharedWorld)).store.pins := by
  constructor
  · exact reachable_failedUnpin
      (Reachable.loaded distinctIndex_sharedDirectory load_sharedDirectory)
  · intro order
    rcases sharedWorld_pins with ⟨hchunk, hmanifest, hfailed, hafter⟩
    rcases load_revives_chunk
      (synced_load distinctIndex_sharedDirectory load_sharedDirectory) hchunk
      hmanifest ⟨1048576, 0, 0, 0⟩ (objectKey Kind.manifest rottedRoot) order with
      ⟨w', hload, hpins⟩
    refine ⟨w', hload, ?_, ?_⟩
    · intro heq
      rw [<- heq, hpins, hchunk] at hfailed
      cases hfailed
    · intro heq
      rw [<- heq, hpins, hchunk] at hafter
      cases hafter

end Pin

end Pubcache
end Ephor
