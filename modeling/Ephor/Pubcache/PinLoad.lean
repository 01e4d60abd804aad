import Ephor.Pubcache.PinInvariant
import Ephor.Pubcache.ProofSoundness

/-!
# Startup and whole runs

`load` rebuilds the store from the index and the files: it holds exactly the
complete records of the index and keeps exactly their objects.  With that, the
invariant of the pin store holds in every state that a run of its operations
reaches, restarts included.
-/

namespace Ephor
namespace Pubcache

open Foundation

/-!
# Complete records
-/

/-- Every object of the record is on disk under a valid key. -/
def Complete (d : Disk) (rec : PinRecord) : Prop :=
  rec.WellFormed ∧
    forall obj, obj ∈ rec.objects ->
      ValidKey obj ∧ exists body, d.file obj = some body

variable {d : Disk} {sizes : List (String × Int)} {rec : PinRecord} {s : PinStore}
    {done : List (Option PinRecord)} {config : PinConfig} {io : LoadIo} {w w' : World}

theorem recordSizes_spec {objs : List String} (h : recordSizes d objs = some sizes) :
    sizes.map Prod.fst = objs ∧
      forall obj sz, (obj, sz) ∈ sizes -> ValidKey obj ∧
        exists body : Bytes, d.file obj = some body ∧ sz = body.length := by
  induction objs generalizing sizes with
  | nil =>
      cases h
      refine ⟨rfl, ?_⟩
      intro obj sz hmem
      cases hmem
  | cons obj rest ih =>
      simp only [recordSizes, Option.bind_eq_bind, Option.bind_eq_some_iff,
        Option.pure_def, Option.some.injEq, Prod.exists] at h
      rcases h with
        ⟨kind, addr, hsplit, k, hkind, a, haddr, body, hfile, tail, htail, hsizes⟩
      rcases ih htail with ⟨hnames, hrest⟩
      have hparsed : parseAddr addr = Except.ok a := by
        cases hparse : parseAddr addr with
        | error e =>
            rw [hparse] at haddr
            cases haddr
        | ok b =>
            rw [hparse] at haddr
            injection haddr with hab
            rw [hab]
      rcases parseAddr_eq_ok hparsed with ⟨hspelled, htagged⟩
      have hkey : obj = objectKey k a := by
        rw [objectKey, string_of_parseObjectKind hkind, hspelled]
        exact (storeKeyStr_of_splitStoreKey hsplit).symm
      have hpath : d.file obj = some body := by
        unfold Disk.file keyPath
        rw [hsplit]
        exact hfile
      subst hsizes
      constructor
      · rw [List.map_cons, hnames]
      · intro obj' sz hmem
        cases hmem with
        | head => exact ⟨⟨k, a, htagged, hkey⟩, body, hpath, rfl⟩
        | tail _ htail' => exact hrest obj' sz htail'

theorem recordSizes_of_complete {objs : List String}
    (h : forall obj, obj ∈ objs -> ValidKey obj ∧ exists body, d.file obj = some body) :
    exists sizes, recordSizes d objs = some sizes := by
  induction objs with
  | nil => exact ⟨[], rfl⟩
  | cons obj rest ih =>
      rcases ih (List.forall_mem_cons.mp h).2 with ⟨tail, htail⟩
      rcases h obj List.mem_cons_self with ⟨⟨kind, addr, htagged, hkey⟩, body, hfile⟩
      have hlookup : d.files.lookup ⟨kind.string, addr.string⟩ = some body := by
        unfold Disk.file at hfile
        rw [hkey, keyPath_objectKey] at hfile
        exact hfile
      refine ⟨(obj, (body.length : Int)) :: tail, ?_⟩
      rw [recordSizes, hkey, splitStoreKey_objectKey]
      simp only [Option.bind_eq_bind, Option.bind_some, parseObjectKind_string,
        parseAddr_string htagged, Except.toOption, hlookup, htail]
      rfl

theorem complete_iff :
    Complete d rec <-> rec.WellFormed ∧ exists sizes, recordSizes d rec.objects = some sizes := by
  constructor
  · intro h
    exact ⟨h.1, recordSizes_of_complete h.2⟩
  · intro h
    rcases h with ⟨hwell, sizes, hsizes⟩
    rcases recordSizes_spec hsizes with ⟨hnames, hspec⟩
    refine ⟨hwell, ?_⟩
    intro obj hobj
    rw [<- hnames] at hobj
    rcases List.mem_map.mp hobj with ⟨⟨name, sz⟩, hmem, heq⟩
    rcases hspec name sz hmem with ⟨hvalid, body, hfile, _⟩
    change name = obj at heq
    rw [<- heq]
    exact ⟨hvalid, body, hfile⟩

/-!
# The loop over the index
-/

theorem foldl_addObject_pins (sizes : List (String × Int)) (s : PinStore) :
    (sizes.foldl PinStore.addObject s).pins = s.pins ∧
      (sizes.foldl PinStore.addObject s).pending = s.pending ∧
      (sizes.foldl PinStore.addObject s).config = s.config ∧
      (sizes.foldl PinStore.addObject s).verified = s.verified := by
  induction sizes generalizing s with
  | nil => exact ⟨rfl, rfl, rfl, rfl⟩
  | cons obj rest ih =>
      rw [List.foldl_cons]
      rcases ih (s.addObject obj) with ⟨hpins, hpending, hconfig, hverified⟩
      rw [hpins, hpending, hconfig, hverified]
      simp

theorem foldl_addObject_balanced (sizes : List (String × Int)) (h : s.Balanced) :
    (sizes.foldl PinStore.addObject s).Balanced := by
  induction sizes generalizing s with
  | nil => exact h
  | cons obj rest ih => exact ih (PinStore.balanced_addObject obj h)

theorem foldl_addObject_mem {k : String} :
    k ∈ (sizes.foldl PinStore.addObject s).objects <-> k ∈ sizes.map Prod.fst ∨ k ∈ s.objects := by
  induction sizes generalizing s with
  | nil => simp
  | cons obj rest ih =>
      rw [List.foldl_cons, ih, PinStore.mem_objects_addObject, List.map_cons,
        List.mem_cons]
      constructor
      · intro h
        rcases h with hrest | hself | hold
        · exact Or.inl (Or.inr hrest)
        · exact Or.inl (Or.inl hself)
        · exact Or.inr hold
      · intro h
        rcases h with (hself | hrest) | hold
        · exact Or.inr (Or.inl hself)
        · exact Or.inl hrest
        · exact Or.inr (Or.inr hold)

theorem foldl_addObject_lookup {k : String} {sz : Int}
    (h : (sizes.foldl PinStore.addObject s).objects.lookup k = some sz) :
    s.objects.lookup k = some sz ∨ (k, sz) ∈ sizes := by
  induction sizes generalizing s with
  | nil => exact Or.inl h
  | cons obj rest ih =>
      rw [List.foldl_cons] at h
      cases ih h with
      | inr hmem => exact Or.inr (List.mem_cons_of_mem _ hmem)
      | inl hheld =>
          unfold PinStore.addObject at hheld
          split at hheld
          · exact Or.inl hheld
          · rcases FiniteMap.lookup_insert_eq_some.mp hheld with
              ⟨hk, hsz⟩ | ⟨_, hold⟩
            · rw [hk, hsz]
              exact Or.inr List.mem_cons_self
            · exact Or.inl hold

structure Loading (d : Disk) (config : PinConfig)
    (done : List (Option PinRecord)) (s : PinStore) : Prop where
  balanced : s.Balanced
  held : forall root rec, s.pins.lookup root = some rec ->
    root = rec.rootKey ∧ some rec ∈ done ∧ Complete d rec
  kept : DistinctRoots done -> forall rec, some rec ∈ done -> Complete d rec ->
    s.pins.lookup rec.rootKey = some rec
  objects_iff : forall obj, obj ∈ s.objects <->
    exists rec, some rec ∈ done ∧ Complete d rec ∧ obj ∈ rec.objects
  sized : forall obj sz, s.objects.lookup obj = some sz ->
    ValidKey obj ∧ exists body : Bytes, d.file obj = some body ∧ sz = body.length
  pending_eq : s.pending = ∅
  verified_eq : s.verified = ∅
  config_eq : s.config = config

theorem loading_empty (d : Disk) (config : PinConfig) :
    Loading d config [] (PinStore.empty config) where
  balanced := rfl
  held := by
    intro root rec hrec
    cases hrec
  kept := by
    intro _ rec hrec
    cases hrec
  objects_iff := by
    intro obj
    constructor
    · intro h
      exact absurd h Finmap.notMem_empty
    · intro h
      rcases h with ⟨rec, hrec, _⟩
      cases hrec
  sized := by
    intro obj sz hobj
    cases hobj
  pending_eq := rfl
  verified_eq := rfl
  config_eq := rfl

theorem mem_snoc {entry : Option PinRecord} :
    some rec ∈ done ++ [entry] <-> some rec ∈ done ∨ entry = some rec := by
  rw [List.mem_append, List.mem_singleton, eq_comm (a := some rec)]

theorem distinctRoots_of_snoc {entry : Option PinRecord} (h : DistinctRoots (done ++ [entry])) :
    DistinctRoots done := by
  unfold DistinctRoots at h
  rw [List.reduceOption_append, List.map_append] at h
  exact (List.nodup_append.mp h).1

theorem rootKey_ne_of_snoc {other : PinRecord} (h : DistinctRoots (done ++ [some rec]))
    (hother : some other ∈ done) : other.rootKey ≠ rec.rootKey := by
  unfold DistinctRoots at h
  rw [List.reduceOption_append, List.map_append] at h
  apply (List.nodup_append.mp h).2.2
  · exact List.mem_map_of_mem (List.reduceOption_mem_iff.mpr hother)
  · exact List.mem_map_of_mem (List.reduceOption_mem_iff.mpr List.mem_cons_self)

theorem loading_skip {entry : Option PinRecord} (h : Loading d config done s)
    (hentry : forall rec, entry = some rec -> Not (Complete d rec)) :
    Loading d config (done ++ [entry]) s :=
  { h with
    held := by
      intro root rec hrec
      rcases h.held root rec hrec with ⟨hroot, hmem, hcomplete⟩
      exact ⟨hroot, mem_snoc.mpr (Or.inl hmem), hcomplete⟩
    kept := by
      intro hdistinct rec hrec hcomplete
      cases mem_snoc.mp hrec with
      | inl hmem =>
          exact h.kept (distinctRoots_of_snoc hdistinct) rec hmem hcomplete
      | inr hself => exact absurd hcomplete (hentry rec hself)
    objects_iff := by
      intro obj
      rw [h.objects_iff]
      constructor
      · intro hex
        rcases hex with ⟨rec, hmem, hrest⟩
        exact ⟨rec, mem_snoc.mpr (Or.inl hmem), hrest⟩
      · intro hex
        rcases hex with ⟨rec, hmem, hcomplete, hobj⟩
        cases mem_snoc.mp hmem with
        | inl hold => exact ⟨rec, hold, hcomplete, hobj⟩
        | inr hself => exact absurd hcomplete (hentry rec hself) }

theorem loading_hold (h : Loading d config done s) (hcomplete : Complete d rec)
    (hsizes : recordSizes d rec.objects = some sizes) :
    Loading d config (done ++ [some rec])
      (sizes.foldl PinStore.addObject
        { s with pins := s.pins.insert rec.rootKey rec }) := by
  rcases recordSizes_spec hsizes with ⟨hnames, hspec⟩
  rcases foldl_addObject_pins sizes
    { s with pins := s.pins.insert rec.rootKey rec } with
    ⟨hpins, hpending, hconfig, hverified⟩
  constructor
  · exact foldl_addObject_balanced sizes h.balanced
  · rw [hpins]
    intro root other hother
    rcases FiniteMap.lookup_insert_eq_some.mp hother with ⟨hroot, hself⟩ | ⟨_, hold⟩
    · rw [hself]
      exact ⟨hroot, mem_snoc.mpr (Or.inr rfl), hcomplete⟩
    · rcases h.held root other hold with ⟨hroot, hmem, hcomp⟩
      exact ⟨hroot, mem_snoc.mpr (Or.inl hmem), hcomp⟩
  · rw [hpins]
    intro hdistinct other hother hcomp
    apply FiniteMap.lookup_insert_eq_some.mpr
    cases mem_snoc.mp hother with
    | inl hmem =>
        exact Or.inr ⟨rootKey_ne_of_snoc hdistinct hmem,
          h.kept (distinctRoots_of_snoc hdistinct) other hmem hcomp⟩
    | inr hself =>
        injection hself with heq
        rw [heq]
        exact Or.inl ⟨rfl, rfl⟩
  · intro obj
    rw [foldl_addObject_mem, hnames]
    change obj ∈ rec.objects ∨ obj ∈ s.objects <-> _
    rw [h.objects_iff]
    constructor
    · intro hor
      rcases hor with hself | ⟨other, hmem, hrest⟩
      · exact ⟨rec, mem_snoc.mpr (Or.inr rfl), hcomplete, hself⟩
      · exact ⟨other, mem_snoc.mpr (Or.inl hmem), hrest⟩
    · intro hex
      rcases hex with ⟨other, hmem, hcomp, hobj⟩
      cases mem_snoc.mp hmem with
      | inl hold => exact Or.inr ⟨other, hold, hcomp, hobj⟩
      | inr hself =>
          injection hself with heq
          rw [heq]
          exact Or.inl hobj
  · intro obj sz hobj
    cases foldl_addObject_lookup hobj with
    | inl hold => exact h.sized obj sz hold
    | inr hmem => exact hspec obj sz hmem
  · rw [hpending]
    exact h.pending_eq
  · rw [hverified]
    exact h.verified_eq
  · rw [hconfig]
    exact h.config_eq

theorem loading_loadRecord (entry : Option PinRecord) (h : Loading d config done s) :
    Loading d config (done ++ [entry]) (loadRecord d s entry) := by
  unfold loadRecord
  split
  · apply loading_skip h
    intro rec hrec
    cases hrec
  · rename_i rec
    split
    · rename_i hmissing
      apply loading_skip h
      intro other hother hcomplete
      cases hother
      rcases hcomplete.1 with ⟨hkind, haddr, hobjects⟩
      rcases hmissing with hempty | hempty | hempty
      · exact hkind hempty
      · exact haddr hempty
      · exact hobjects hempty
    · rename_i hpresent
      split
      · rename_i hnone
        apply loading_skip h
        intro other hother hcomplete
        cases hother
        rcases (complete_iff.mp hcomplete).2 with ⟨sizes, hsizes⟩
        rw [hnone] at hsizes
        cases hsizes
      · rename_i sizes hsizes
        apply loading_hold h _ hsizes
        apply complete_iff.mpr
        refine ⟨?_, sizes, hsizes⟩
        simp only [not_or] at hpresent
        exact hpresent

theorem loading_foldl {todo : List (Option PinRecord)} (h : Loading d config done s) :
    Loading d config (done ++ todo) (todo.foldl (loadRecord d) s) := by
  induction todo generalizing done s with
  | nil =>
      rw [List.append_nil]
      exact h
  | cons entry rest ih =>
      rw [List.foldl_cons, <- List.singleton_append, <- List.append_assoc]
      exact ih (loading_loadRecord entry h)

/-!
# Sweeping
-/

theorem file_sweepOrphans (w : World) (k : String) :
    (sweepOrphans w).disk.file k =
      if k ∈ w.store.objects then w.disk.file k else none := by
  unfold sweepOrphans Disk.file
  cases hpath : keyPath k with
  | none => simp
  | some path =>
      have hkey := key_of_keyPath hpath
      simp only [Option.bind_some]
      by_cases hmem : k ∈ w.store.objects
      · rw [if_pos hmem]
        cases hfile : w.disk.files.lookup path with
        | none =>
            apply FiniteMap.lookup_filter_eq_none.mpr
            intro body hbody
            rw [hfile] at hbody
            cases hbody
        | some body =>
            apply FiniteMap.lookup_filter_eq_some.mpr
            exact ⟨hfile, by simp [hkey, hmem]⟩
      · rw [if_neg hmem]
        apply FiniteMap.lookup_filter_eq_none.mpr
        intro body _
        simp [hkey, hmem]

def loadedStore (config : PinConfig) (d : Disk) (pins : List (Option PinRecord)) :
    PinStore :=
  pins.foldl (loadRecord d) (PinStore.empty config)

theorem loading_loadedStore (config : PinConfig) (d : Disk) (pins : List (Option PinRecord)) :
    Loading d config pins (loadedStore config d pins) :=
  loading_foldl (loading_empty d config)

theorem load_eq_ok (h : load config io d = (Except.ok (), w)) :
    (d.index = IndexFile.absent ∧
        w = sweepOrphans ⟨PinStore.empty config, d⟩) ∨
      exists pins, d.index = IndexFile.document pinIndexVersion pins ∧
        w = (writeIndexLocked none
          (sweepOrphans ⟨loadedStore config d pins, d⟩)).2 := by
  unfold load at h
  dsimp only at h
  split at h
  · rename_i habsent
    injection h with _ hw
    exact Or.inl ⟨habsent, hw.symm⟩
  · cases h
  · cases h
  · rename_i version pins hindex _
    split at h
    · cases h
    · rename_i hversion
      apply Or.inr
      refine ⟨pins, ?_, ?_⟩
      · rw [hindex, Decidable.not_not.mp hversion]
      · cases hwrite : io.writeIndex with
        | none =>
            rw [hwrite] at h
            exact (congrArg Prod.snd h).symm
        | some text =>
            rw [hwrite] at h
            cases congrArg Prod.fst h

/-- The document of the directory, if it has one, lists no root twice. -/
def DistinctIndex : IndexFile -> Prop
  | IndexFile.document _ pins => DistinctRoots pins
  | _ => True

theorem settled_sweepOrphans (config : PinConfig) (d : Disk)
    {pins : List (Option PinRecord)} (hdistinct : DistinctRoots pins) :
    Retained (sweepOrphans ⟨loadedStore config d pins, d⟩) ∧
      Referenced (sweepOrphans ⟨loadedStore config d pins, d⟩).store := by
  have hload := loading_loadedStore config d pins
  constructor
  · constructor
    · exact hload.balanced
    · intro root rec hrec obj hobj
      rcases hload.held root rec hrec with ⟨_, hmem, hcomplete⟩
      exact (hload.objects_iff obj).mpr ⟨rec, hmem, hcomplete, hobj⟩
    · intro obj sz hobj
      rcases hload.sized obj sz hobj with ⟨_, body, hfile, hsz⟩
      have hmem : obj ∈ (loadedStore config d pins).objects :=
        mem_objects_iff.mpr ⟨sz, hobj⟩
      rw [file_sweepOrphans, if_pos hmem]
      exact ⟨body, hfile, hsz⟩
    · intro obj hobj
      rcases mem_objects_iff.mp hobj with ⟨sz, hsz⟩
      exact (hload.sized obj sz hsz).1
    · intro root rec hrec
      rcases hload.held root rec hrec with ⟨hroot, _, hcomplete⟩
      exact ⟨hroot, hcomplete.1⟩
  · intro obj hobj
    rcases (hload.objects_iff obj).mp hobj with ⟨rec, hmem, hcomplete, hnamed⟩
    exact ⟨rec.rootKey, rec, hload.kept hdistinct rec hmem hcomplete, hnamed⟩

theorem settled_load (hdistinct : DistinctIndex d.index)
    (h : load config io d = (Except.ok (), w)) : Settled w := by
  rcases load_eq_ok h with ⟨habsent, hw⟩ | ⟨pins, hindex, hw⟩
  · subst hw
    have hnone : DistinctRoots [] := List.nodup_nil
    rcases settled_sweepOrphans config d hnone with ⟨hretained, hreferenced⟩
    refine ⟨hretained, hreferenced, rfl, ?_⟩
    change IndexCovers _ d.index
    rw [habsent]
    rfl
  · subst hw
    rw [hindex] at hdistinct
    rcases settled_sweepOrphans config d hdistinct with ⟨hretained, hreferenced⟩
    refine ⟨retained_writeIndexLocked hretained, hreferenced,
      (loading_loadedStore config d pins).pending_eq, ?_⟩
    change IndexCovers _ (PinStore.indexFile _)
    exact indexCovers_indexFile
      (fun root rec hrec => (hretained.keyed root rec hrec).1)

theorem load_keeps_pins (hsettled : Settled w) (h : load config io w.disk = (Except.ok (), w'))
    {root : String} (hrec : w.store.pins.lookup root = some rec) :
    w'.store.pins.lookup root = some rec := by
  have hindexed := hsettled.indexed
  rcases load_eq_ok h with ⟨habsent, hw⟩ | ⟨pins, hindex, hw⟩
  · rw [habsent] at hindexed
    change w.store.pins = ∅ at hindexed
    rw [hindexed] at hrec
    cases hrec
  · rw [hindex] at hindexed
    rcases hindexed with ⟨_, hdistinct, hlisted⟩
    rcases hsettled.keyed root rec hrec with ⟨hroot, hwell⟩
    have hcomplete : Complete w.disk rec := by
      refine ⟨hwell, ?_⟩
      intro obj hobj
      have hheld := hsettled.named root rec hrec obj hobj
      rcases mem_objects_iff.mp hheld with ⟨sz, hsz⟩
      rcases hsettled.onDisk obj sz hsz with ⟨body, hfile, _⟩
      exact ⟨hsettled.valid obj hheld, body, hfile⟩
    rw [hw, hroot]
    exact (loading_loadedStore config w.disk pins).kept hdistinct rec
      (hlisted root rec hrec) hcomplete

/-!
# Runs
-/

inductive PinOp where
  | restart (config : PinConfig) (io : LoadIo)
  | pin (src : Source) (io : PinIo) (kind : Kind) (addr : Addr) (owner : String)
  | unpin (failure : Option String) (kind : Kind) (addr : Addr) (owner : String)
  | get (io : GetIo) (kind : Kind) (addr : Addr)
  | quarantine (failure : Option String) (badKey : String)

section Runs

variable (blake3 : Bytes -> Digest)

/-- The state after an operation; after a load that failed there is no store. -/
def PinOp.run (w : World) : PinOp -> Option World
  | restart config io =>
      match load config io w.disk with
      | (Except.ok (), w') => some w'
      | (Except.error _, _) => none
  | pin src io kind addr owner => some (Pubcache.pin blake3 src io kind addr owner w).2
  | unpin failure kind addr owner => some (Pubcache.unpin failure kind addr owner w).2
  | get io kind addr => some (Pubcache.get blake3 io kind addr w).2
  | quarantine failure badKey => some (Pubcache.quarantine failure badKey w)

/--
The states of the store: a load of some directory whose index names each root at
most once, the empty directory among them, and any operations after it.
-/
inductive Reachable : World -> Prop where
  | loaded {config : PinConfig} {io : LoadIo} {d : Disk} {w : World} :
      DistinctIndex d.index -> load config io d = (Except.ok (), w) -> Reachable w
  | step {w w' : World} (op : PinOp) :
      Reachable w -> op.run blake3 w = some w' -> Reachable w'

variable {blake3}

theorem distinctIndex_of_settled (h : Settled w) : DistinctIndex w.disk.index := by
  have hindexed := h.indexed
  cases hindex : w.disk.index with
  | absent | unparsable => trivial
  | document version pins =>
      rw [hindex] at hindexed
      exact hindexed.2.1

theorem restart_eq_some (h : (PinOp.restart config io).run blake3 w = some w') :
    load config io w.disk = (Except.ok (), w') := by
  cases hload : load config io w.disk with
  | mk result w'' =>
      cases result with
      | error text => simp [PinOp.run, hload] at h
      | ok u =>
          simp only [PinOp.run, hload, Option.some.injEq] at h
          rw [h]

theorem settled_run {op : PinOp} (h : Settled w) (hrun : op.run blake3 w = some w') :
    Settled w' := by
  cases op with
  | restart config io =>
      exact settled_load (distinctIndex_of_settled h) (restart_eq_some hrun)
  | pin src io kind addr owner =>
      cases hrun
      exact settled_pin blake3 src io kind addr owner h
  | unpin failure kind addr owner =>
      cases hrun
      exact settled_unpin failure kind addr owner h
  | get io kind addr =>
      cases hrun
      exact settled_get io kind addr h
  | quarantine failure badKey =>
      cases hrun
      exact settled_quarantine failure badKey h

theorem settled_of_reachable (h : Reachable blake3 w) : Settled w := by
  induction h with
  | loaded hdistinct hload => exact settled_load hdistinct hload
  | step op _ hrun ih => exact settled_run ih hrun

variable (blake3) in
/--
The ways in which an operation may drop a held pin: an `unpin` of its root by its
owner, or by anyone when it has none, or the quarantine of an object that it
names, directly or in the course of a read.
-/
def MayDrop (w : World) (root : String) (rec : PinRecord) : PinOp -> Prop
  | PinOp.restart _ _ => False
  | PinOp.pin src _ kind addr _ =>
      src.consults = true ∧ objectKey kind addr ∈ rec.objects ∧
        (callSource blake3 src 0 kind addr w).2 =
          quarantine (src.read 0).writeIndex (objectKey kind addr) w
  | PinOp.unpin _ kind addr owner =>
      root = objectKey kind addr ∧ (rec.owner = owner ∨ rec.owner = "")
  | PinOp.get io kind addr =>
      objectKey kind addr ∈ rec.objects ∧
        get blake3 io kind addr w =
          (none, quarantine io.writeIndex (objectKey kind addr) w)
  | PinOp.quarantine _ badKey => badKey ∈ rec.objects

theorem pins_kept {op : PinOp} (h : Settled w) (hrun : op.run blake3 w = some w')
    {root : String} (hrec : w.store.pins.lookup root = some rec) :
    w'.store.pins.lookup root = some rec ∨ MayDrop blake3 w root rec op := by
  cases op with
  | restart config io =>
      exact Or.inl (load_keeps_pins h (restart_eq_some hrun) hrec)
  | pin src io kind addr owner =>
      cases hrun
      exact pin_keeps_pins blake3 src io kind addr owner h hrec
  | unpin failure kind addr owner =>
      cases hrun
      rcases unpin_cases failure kind addr owner w with
        hsame | ⟨removed, hremoved, howner, hdone⟩
      · rw [hsame]
        exact Or.inl hrec
      · by_cases hroot : root = objectKey kind addr
        · apply Or.inr
          rw [hroot, hremoved] at hrec
          cases hrec
          exact ⟨hroot, howner.symm⟩
        · apply Or.inl
          rw [hdone, writeIndexLocked_store]
          exact FiniteMap.lookup_erase_eq_some.mpr ⟨hroot, hrec⟩
  | get io kind addr =>
      cases hrun
      rcases get_cases blake3 io kind addr w with hsame | ⟨_, hbad⟩ | hmarked
      · rw [hsame]
        exact Or.inl hrec
      · by_cases hnames : objectKey kind addr ∈ rec.objects
        · exact Or.inr ⟨hnames, hbad⟩
        · apply Or.inl
          rw [hbad]
          exact quarantine_pins.mpr ⟨hrec, hnames⟩
      · rw [hmarked]
        exact Or.inl hrec
  | quarantine failure badKey =>
      cases hrun
      by_cases hnames : badKey ∈ rec.objects
      · exact Or.inr hnames
      · exact Or.inl (quarantine_pins.mpr ⟨hrec, hnames⟩)

/--
The invariant of the pin store in every reachable state, and what one further
operation may do to the total and to the pins.
-/
theorem pinStore_invariant (blake3 : Bytes -> Digest) (w : World)
    (h : Reachable blake3 w) :
    w.store.bytes = FiniteMap.total w.store.objects ∧
    (forall root rec, w.store.pins.lookup root = some rec ->
      forall obj, obj ∈ rec.objects ->
        obj ∈ w.store.objects ∧ exists body, w.disk.file obj = some body) ∧
    (forall obj, obj ∈ w.store.objects ->
      exists root rec, w.store.pins.lookup root = some rec ∧ obj ∈ rec.objects) ∧
    (forall src io kind addr owner, 0 < w.store.config.maxBytes ->
      (pin blake3 src io kind addr owner w).2.store.bytes <= w.store.bytes ∨
        (pin blake3 src io kind addr owner w).2.store.bytes <=
          w.store.config.maxBytes) ∧
    (forall op w', PinOp.run blake3 w op = some w' ->
      forall root rec, w.store.pins.lookup root = some rec ->
        w'.store.pins.lookup root ≠ some rec -> MayDrop blake3 w root rec op) := by
  have hsettled := settled_of_reachable h
  refine ⟨hsettled.balanced, ?_, hsettled.referenced, ?_, ?_⟩
  · intro root rec hrec obj hobj
    have hheld := hsettled.named root rec hrec obj hobj
    rcases mem_objects_iff.mp hheld with ⟨sz, hsz⟩
    rcases hsettled.onDisk obj sz hsz with ⟨body, hfile, _⟩
    exact ⟨hheld, body, hfile⟩
  · intro src io kind addr owner hmax
    exact pin_bytes_le blake3 src io kind addr owner hsettled hmax
  · intro op w' hrun root rec hrec hgone
    exact (pins_kept hsettled hrun hrec).resolve_left hgone

def freshWorld : World :=
  (load ⟨1048576, 0, 0, 0⟩ ⟨none, none⟩ ⟨∅, IndexFile.absent⟩).2

def constantSource (body : Bytes) : Source where
  consults := false
  read := fun _ => ⟨false, none⟩
  answer := fun _ => Except.ok (some body)

def chunkA : Addr :=
  hashBytes blake3OfAB (asciiBytes "a")

def rottedRoot : Addr :=
  hashBytes blake3OfAB (asciiBytes "b")

/-- A pin of the manifest and its one chunk `a`. -/
def rottedRecord : PinRecord :=
  ⟨"manifest", rottedRoot.string, "alice",
    [objectKey Kind.manifest rottedRoot, objectKey Kind.chunk chunkA], 1, 0⟩

/-- A directory that holds the rotted manifest and its one chunk `a`. -/
def rottedDirectory : Disk where
  files := Finmap.insert ⟨"chunk", chunkA.string⟩ (asciiBytes "a")
    (Finmap.insert ⟨"manifest", rottedRoot.string⟩ [] ∅)
  index := IndexFile.document pinIndexVersion [some rottedRecord]

def pinnedA (owner : String) : World :=
  (pin blake3OfAB (constantSource (asciiBytes "a")) ⟨fun _ => none, none, 0⟩
    Kind.chunk chunkA owner freshWorld).2

theorem reachable_pinnedA (owner : String) : Reachable blake3OfAB (pinnedA owner) := by
  have hfresh : Reachable blake3OfAB freshWorld :=
    @Reachable.loaded blake3OfAB ⟨1048576, 0, 0, 0⟩ ⟨none, none⟩
      ⟨∅, IndexFile.absent⟩ freshWorld trivial rfl
  exact Reachable.step
    (PinOp.pin (constantSource (asciiBytes "a")) ⟨fun _ => none, none, 0⟩
      Kind.chunk chunkA owner) hfresh rfl

theorem pinnedA_invariant :
    (pinnedA "alice").store.bytes =
      FiniteMap.total (pinnedA "alice").store.objects :=
  (pinStore_invariant blake3OfAB (pinnedA "alice") (reachable_pinnedA "alice")).1

def doubledDirectory : Disk where
  files := rottedDirectory.files
  index := IndexFile.document pinIndexVersion
    [some ⟨"chunk", chunkA.string, "alice", [objectKey Kind.chunk chunkA], 1, 0⟩,
      some ⟨"chunk", chunkA.string, "alice",
        [objectKey Kind.manifest rottedRoot], 0, 0⟩]

def doubledWorld : World :=
  (load ⟨1048576, 0, 0, 0⟩ ⟨none, none⟩ doubledDirectory).2

theorem doubledWorld_unnamed :
    doubledWorld.store.objects.lookup (objectKey Kind.chunk chunkA) = some 1 ∧
      doubledWorld.store.pins.any (fun _ rec =>
        recordReferences rec (objectKey Kind.chunk chunkA)) = false := by
  decide +kernel

theorem exists_unnamed {obj : String} {sz : Int} (hheld : s.objects.lookup obj = some sz)
    (hunnamed : s.pins.any (fun _ rec => recordReferences rec obj) = false) :
    exists obj, obj ∈ s.objects ∧
      forall root rec, s.pins.lookup root = some rec -> obj ∉ rec.objects := by
  refine ⟨obj, mem_objects_iff.mpr ⟨sz, hheld⟩, ?_⟩
  intro root rec hrec hobj
  have hnamed : s.pins.any (fun _ rec => recordReferences rec obj) = true :=
    FiniteMap.any_eq_true.mpr ⟨root, rec, hrec, decide_eq_true hobj⟩
  rw [hunnamed] at hnamed
  cases hnamed

/--
A pin recorded without an owner is removed by any key; and of an index that names
a root twice, `load` keeps the objects of both records and holds only the second.
-/
theorem ownerless_unpinned_and_doubled_root_unnamed :
    (Reachable blake3OfAB (pinnedA "") ∧
      exists rec : PinRecord,
        (pinnedA "").store.pins.lookup (objectKey Kind.chunk chunkA) = some rec ∧
        (unpin none Kind.chunk chunkA "mallory" (pinnedA "")).2.store.pins.lookup
          (objectKey Kind.chunk chunkA) = none ∧
        rec.owner ≠ "mallory") ∧
    (load ⟨1048576, 0, 0, 0⟩ ⟨none, none⟩ doubledDirectory =
        (Except.ok (), doubledWorld) ∧
      exists obj, obj ∈ doubledWorld.store.objects ∧
        forall root rec, doubledWorld.store.pins.lookup root = some rec ->
          obj ∉ rec.objects) := by
  constructor
  · refine ⟨reachable_pinnedA "",
      ⟨"chunk", chunkA.string, "", [objectKey Kind.chunk chunkA], 1, 0⟩, ?_⟩
    decide +kernel
  · exact ⟨rfl, exists_unnamed doubledWorld_unnamed.1 doubledWorld_unnamed.2⟩

end Runs

end Pubcache
end Ephor
