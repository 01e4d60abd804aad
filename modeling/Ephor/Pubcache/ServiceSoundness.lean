import Ephor.Pubcache.Service

/-!
# Nothing unverified is served

A file is sound when it is absent or passes the check of its key.  Every write of
the process puts a checked body in place and every other change removes the file,
so a sound file stays sound.  The flag `verified` is only ever set for a sound
file, and that is all a later read relies on.
-/

namespace Ephor
namespace Pubcache

open Foundation

section Gate

variable {blake3 : Bytes -> Digest}

/-!
# Sound files
-/

variable (blake3) in
/-- What is on disk under the key, if anything, is the object of that key. -/
def FileSound (d : Disk) (key : String) : Prop :=
  forall kind addr body, key = objectKey kind addr -> d.file key = some body ->
    verify blake3 kind addr body = Except.ok ()

variable (blake3) in
/-- The flags speak of sound files only. -/
def FlagsSound (w : World) : Prop :=
  forall key, key ∈ w.store.verified -> FileSound blake3 w.disk key

/-- A step that removes files and flags at most. -/
structure Shrinks (w w' : World) : Prop where
  files : forall key body, w'.disk.file key = some body ->
    w.disk.file key = some body
  flags : w'.store.verified ⊆ w.store.verified

theorem shrinks_refl (w : World) : Shrinks w w :=
  ⟨fun _ _ h => h, Finset.Subset.refl _⟩

variable {w w' : World} {d : Disk} {s : Service}

theorem shrinks_trans {w'' : World} (h : Shrinks w w') (h' : Shrinks w' w'') : Shrinks w w'' :=
  ⟨fun key body hbody => h.files key body (h'.files key body hbody),
    h'.flags.trans h.flags⟩

theorem fileSound_of_shrinks (h : Shrinks w w') {key : String}
    (hsound : FileSound blake3 w.disk key) : FileSound blake3 w'.disk key := by
  intro kind addr body hkey hbody
  exact hsound kind addr body hkey (h.files key body hbody)

theorem flagsSound_of_shrinks (h : Shrinks w w') (hflags : FlagsSound blake3 w) :
    FlagsSound blake3 w' := by
  intro key hkey
  exact fileSound_of_shrinks h (hflags key (h.flags hkey))

/-!
# The sections that shrink
-/

theorem shrinks_writeIndexLocked (failure : Option String) (w : World) :
    Shrinks w (writeIndexLocked failure w).2 := by
  constructor
  · intro key body hbody
    rw [writeIndexLocked_file] at hbody
    exact hbody
  · rw [writeIndexLocked_store]

theorem shrinks_reclaim (w : World) : Shrinks w (reclaimUnreferencedLocked w) := by
  constructor
  · intro key body hbody
    rw [file_reclaim] at hbody
    split at hbody
    · cases hbody
    · exact hbody
  · exact Finset.filter_subset _ _

theorem verified_dropObject (s : PinStore) (key : String) :
    (s.dropObject key).verified ⊆ s.verified := by
  unfold PinStore.dropObject
  split
  · exact Finset.erase_subset _ _
  · exact Finset.Subset.refl _

theorem shrinks_dropObject (w : World) (key : String) :
    Shrinks w ⟨w.store.dropObject key, w.disk.removeObject key⟩ := by
  constructor
  · intro k body hbody
    change (w.disk.removeObject key).file k = some body at hbody
    rw [Disk.file_removeObject] at hbody
    split at hbody
    · cases hbody
    · exact hbody
  · exact verified_dropObject w.store key

theorem shrinks_quarantine (failure : Option String) (badKey : String) (w : World) :
    Shrinks w (quarantine failure badKey w) := by
  have hpins : Shrinks w ⟨w.store.dropPins badKey, w.disk⟩ :=
    ⟨fun _ _ h => h, Finset.Subset.refl _⟩
  have hdrop := shrinks_trans hpins (shrinks_dropObject _ badKey)
  exact shrinks_trans (shrinks_trans hdrop (shrinks_reclaim _))
    (shrinks_writeIndexLocked failure _)

theorem shrinks_deletePin (rootKey : String) (w : World) : Shrinks w (deletePin rootKey w) :=
  ⟨fun _ _ h => h, Finset.Subset.refl _⟩

theorem shrinks_unpin (failure : Option String) (kind : Kind) (addr : Addr)
    (owner : String) (w : World) : Shrinks w (unpin failure kind addr owner w).2 := by
  rcases unpin_cases failure kind addr owner w with hsame | ⟨_, _, _, hremoved⟩
  · rw [hsame]
    exact shrinks_refl w
  · rw [hremoved]
    exact shrinks_trans (shrinks_trans (shrinks_deletePin _ w) (shrinks_reclaim _))
      (shrinks_writeIndexLocked failure _)

theorem shrinks_rollback (wrote : List String) (w : World) : Shrinks w (rollback wrote w) := by
  induction wrote generalizing w with
  | nil => exact shrinks_refl w
  | cons key rest ih =>
      rw [rollback_cons]
      exact shrinks_trans (shrinks_dropObject w key) (ih _)

theorem shrinks_releasePending (wrote : List String) (w : World) :
    Shrinks w (releasePending wrote w) := by
  rcases releasePending_fields wrote w with ⟨pending, hstore⟩
  constructor
  · intro key body hbody
    exact hbody
  · rw [hstore]

theorem shrinks_commitPin (failure : Option String) (rec : PinRecord) (w : World) :
    Shrinks w (commitPin failure rec w).2 := by
  apply shrinks_trans _ (shrinks_writeIndexLocked failure _)
  exact ⟨fun _ _ h => h, Finset.Subset.refl _⟩

/-!
# The steps of a pin
-/

theorem fileSound_writeObject {kind : Kind} {addr : Addr} {body : Bytes}
    (hbody : verify blake3 kind addr body = Except.ok ()) {key : String}
    (h : FileSound blake3 d key ∨ key = objectKey kind addr) :
    FileSound blake3 (d.writeObject (objectKey kind addr) body) key := by
  intro kind' addr' body' hkey hfile
  rw [Disk.file_writeObject d body key ⟨_, keyPath_objectKey kind addr⟩] at hfile
  split at hfile
  · rename_i hself
    rw [hself] at hkey
    rcases objectKey_inj hkey with ⟨hkind, haddr⟩
    injection hfile with heq
    rw [<- hkind, <- haddr, <- heq]
    exact hbody
  · rename_i hother
    exact h.resolve_right hother kind' addr' body' hkey hfile

variable (blake3) in
/-- What a pin has established about the object it is about to write or has written. -/
def PinTask.Sound (d : Disk) (t : PinTask) : Prop :=
  match t.pc with
  | PinPc.write want _ body => verify blake3 want.kind want.addr body = Except.ok ()
  | PinPc.account want _ _ => FileSound blake3 d want.key
  | _ => True

theorem PinTask.sound_of_fileSound {d' : Disk} {t : PinTask}
    (h : forall key, FileSound blake3 d key -> FileSound blake3 d' key)
    (hsound : t.Sound blake3 d) : t.Sound blake3 d' := by
  unfold PinTask.Sound at hsound ⊢
  split at hsound
  · exact hsound
  · exact h _ hsound
  · trivial

variable (blake3) in
/-- What one step owes to all others: sound files and sound flags stay so. -/
structure Keeps (w w' : World) : Prop where
  files : forall key, FileSound blake3 w.disk key -> FileSound blake3 w'.disk key
  flags : FlagsSound blake3 w -> FlagsSound blake3 w'

theorem keeps_of_shrinks (h : Shrinks w w') : Keeps blake3 w w' :=
  ⟨fun _ => fileSound_of_shrinks h, flagsSound_of_shrinks h⟩

theorem keeps_refl (w : World) : Keeps blake3 w w :=
  keeps_of_shrinks (shrinks_refl w)

theorem PinTask.sound_next {t : PinTask} {wants : List Want} (hpc : t.pc = PinPc.next wants) :
    t.Sound blake3 d := by
  unfold PinTask.Sound
  rw [hpc]
  cases wants <;> trivial

theorem keeps_insert_verified {key : String} (hdisk : w'.disk = w.disk)
    (hflags : w'.store.verified = insert key w.store.verified)
    (hsound : FileSound blake3 w.disk key) : Keeps blake3 w w' := by
  constructor
  · intro k hk
    rw [hdisk]
    exact hk
  · intro hall k hk
    rw [hdisk]
    rw [hflags] at hk
    rcases Finset.mem_insert.mp hk with hself | hold
    · rw [hself]
      exact hsound
    · exact hall k hold

theorem PinTask.sound_advance {env : PinEnv} {t : PinTask} (h : t.Sound blake3 w.disk) :
    Keeps blake3 w (t.advance blake3 env w).2 ∧
      (t.advance blake3 env w).1.Sound blake3 (t.advance blake3 env w).2.disk := by
  unfold PinTask.advance
  cases hpc : t.pc with
  | start =>
      dsimp only
      split
      · exact ⟨keeps_refl w, trivial⟩
      · split
        · exact ⟨keeps_refl w, trivial⟩
        · exact ⟨keeps_refl w, trivial⟩
  | resolveRoot =>
      dsimp only
      split
      · exact ⟨keeps_refl w, trivial⟩
      · split
        · exact ⟨keeps_refl w, trivial⟩
        · exact ⟨keeps_refl w, PinTask.sound_next rfl⟩
  | check want rest =>
      dsimp only
      split
      · exact ⟨keeps_refl w, PinTask.sound_next rfl⟩
      · split
        · exact ⟨keeps_refl w, trivial⟩
        · exact ⟨keeps_refl w, trivial⟩
  | fetch want rest =>
      dsimp only
      split
      · exact ⟨keeps_refl w, trivial⟩
      · exact ⟨keeps_refl w, trivial⟩
  | gate want rest body =>
      dsimp only
      split
      · exact ⟨keeps_refl w, trivial⟩
      · rename_i hverify
        split
        · exact ⟨keeps_refl w, trivial⟩
        · exact ⟨keeps_refl w, hverify⟩
  | write want rest body =>
      unfold PinTask.Sound at h
      rw [hpc] at h
      change verify blake3 want.kind want.addr body = Except.ok () at h
      dsimp only
      split
      · exact ⟨keeps_refl w, trivial⟩
      · constructor
        · constructor
          · intro key hkey
            exact fileSound_writeObject h (Or.inl hkey)
          · intro hflags key hkey
            exact fileSound_writeObject h (Or.inl (hflags key hkey))
        · exact fileSound_writeObject h (Or.inr rfl)
  | account want rest body =>
      unfold PinTask.Sound at h
      rw [hpc] at h
      change FileSound blake3 w.disk want.key at h
      exact ⟨keeps_insert_verified rfl rfl h, PinTask.sound_next rfl⟩
  | commit =>
      dsimp only
      have hcommit := shrinks_commitPin env.failure (t.record env.now w) w
      split
      · rename_i text w' heq
        rw [heq] at hcommit
        exact ⟨keeps_of_shrinks hcommit, trivial⟩
      · rename_i w' heq
        rw [heq] at hcommit
        exact ⟨keeps_of_shrinks hcommit, trivial⟩
  | uncommit text =>
      exact ⟨keeps_of_shrinks (shrinks_deletePin _ w), trivial⟩
  | rollback e =>
      exact ⟨keeps_of_shrinks (shrinks_rollback t.wrote w), trivial⟩
  | release result =>
      exact ⟨keeps_of_shrinks (shrinks_releasePending t.wrote w), trivial⟩
  | done result => exact ⟨keeps_refl w, h⟩

/-!
# The steps of a lookup
-/

variable (blake3) in
def CacheSound (cache : Store) : Prop :=
  forall kind addr body, cache.Holds (cacheKey kind addr) body ->
    verify blake3 kind addr body = Except.ok ()

theorem cacheSound_put {cache : Store} {now : Int} {kind : Kind} {addr : Addr}
    {body : Bytes} (h : CacheSound blake3 cache)
    (hbody : verify blake3 kind addr body = Except.ok ()) :
    CacheSound blake3 (cache.put now (cacheKey kind addr) body) := by
  intro kind' addr' body' hholds
  rcases Store.put_holds hholds with hold | ⟨hkey, hnew⟩
  · exact h kind' addr' body' hold
  · rcases objectKey_inj hkey with ⟨hkind, haddr⟩
    rw [hkind, haddr, hnew]
    exact hbody

variable (blake3) in
/-- What a lookup has established about the bytes it is about to use. -/
def LookupTask.Sound (d : Disk) (t : LookupTask) : Prop :=
  match t.pc with
  | LookupPc.readFile true => FileSound blake3 d t.key
  | LookupPc.mark body =>
      verify blake3 t.kind t.addr body = Except.ok () ∧ FileSound blake3 d t.key
  | LookupPc.put body => verify blake3 t.kind t.addr body = Except.ok ()
  | LookupPc.returned (some body) => verify blake3 t.kind t.addr body = Except.ok ()
  | _ => True

theorem LookupTask.sound_of_fileSound {d' : Disk} {t : LookupTask}
    (h : forall key, FileSound blake3 d key -> FileSound blake3 d' key)
    (hsound : t.Sound blake3 d) : t.Sound blake3 d' := by
  unfold LookupTask.Sound at hsound ⊢
  split at hsound
  · exact h _ hsound
  · exact ⟨hsound.1, h _ hsound.2⟩
  · exact hsound
  · exact hsound
  · trivial

theorem fileSound_of_verify {kind : Kind} {addr : Addr} {body : Bytes}
    (hfile : d.file (objectKey kind addr) = some body)
    (hbody : verify blake3 kind addr body = Except.ok ()) :
    FileSound blake3 d (objectKey kind addr) := by
  intro kind' addr' body' hkey hfile'
  rcases objectKey_inj hkey with ⟨hkind, haddr⟩
  rw [hfile] at hfile'
  injection hfile' with heq
  rw [<- hkind, <- haddr, <- heq]
  exact hbody

theorem LookupTask.sound_advance {env : LookupEnv} {t : LookupTask} {s : Shared}
    (h : t.Sound blake3 s.world.disk) (hflags : FlagsSound blake3 s.world)
    (hcache : CacheSound blake3 s.cache) :
    Keeps blake3 s.world (t.advance blake3 env s).2.world ∧
      CacheSound blake3 (t.advance blake3 env s).2.cache ∧
      (t.advance blake3 env s).1.Sound blake3
        (t.advance blake3 env s).2.world.disk := by
  have hsame : Keeps blake3 s.world s.world := keeps_refl _
  unfold LookupTask.advance
  cases hpc : t.pc with
  | start =>
      dsimp only
      split
      · refine ⟨hsame, hcache, ?_⟩
        unfold LookupTask.Sound LookupTask.goto
        dsimp only
        cases hflag : decide (t.key ∈ s.world.store.verified) with
        | false => trivial
        | true => exact hflags _ (of_decide_eq_true hflag)
      · exact ⟨hsame, hcache, trivial⟩
  | readFile alreadyVerified =>
      unfold LookupTask.Sound at h
      rw [hpc] at h
      dsimp only
      split
      · exact ⟨hsame, hcache, trivial⟩
      · rename_i body hread
        have hfile : s.world.disk.file t.key = some body := by
          split at hread
          · cases hread
          · exact hread
        split
        · rename_i hflag
          rw [hflag] at h
          change FileSound blake3 s.world.disk t.key at h
          exact ⟨hsame, hcache, h t.kind t.addr body rfl hfile⟩
        · split
          · exact ⟨hsame, hcache, trivial⟩
          · rename_i hverify
            exact ⟨hsame, hcache, hverify, fileSound_of_verify hfile hverify⟩
  | quarantine =>
      exact ⟨keeps_of_shrinks (shrinks_quarantine _ _ _), hcache, trivial⟩
  | mark body =>
      unfold LookupTask.Sound at h
      rw [hpc] at h
      exact ⟨keeps_insert_verified rfl rfl h.2, hcache, h.1⟩
  | readStore =>
      have hholds := @Store.get_holds s.cache env.now (cacheKey t.kind t.addr)
      dsimp only
      split
      · rename_i body cache hget
        rw [hget] at hholds
        refine ⟨hsame, ?_, ?_⟩
        · intro kind addr held hheld
          exact hcache kind addr held (hholds.2 _ _ hheld)
        · exact hcache t.kind t.addr body (hholds.1 body rfl)
      · rename_i cache hget
        rw [hget] at hholds
        refine ⟨hsame, ?_, trivial⟩
        intro kind addr held hheld
        exact hcache kind addr held (hholds.2 _ _ hheld)
  | fetch =>
      dsimp only
      split
      · exact ⟨hsame, hcache, trivial⟩
      · split
        · exact ⟨hsame, hcache, trivial⟩
        · rename_i hverify
          exact ⟨hsame, hcache, hverify⟩
  | put body =>
      unfold LookupTask.Sound at h
      rw [hpc] at h
      exact ⟨hsame, cacheSound_put hcache h, h⟩
  | returned result => exact ⟨hsame, hcache, h⟩

/-!
# Runs of the service
-/

namespace Service

variable (blake3) in
structure Sound (s : Service) : Prop where
  flags : FlagsSound blake3 s.shared.world
  cache : CacheSound blake3 s.shared.cache
  pin : forall t, s.pin = some t -> t.Sound blake3 s.shared.world.disk
  lookups : forall id t, s.lookups.lookup id = some t ->
    t.Sound blake3 s.shared.world.disk

theorem sound_init {config : PinConfig} {io : LoadIo}
    (hload : load config io d = (Except.ok (), w)) (pinning : Bool) (maxBytes maxObjBytes : Int)
    (ttl : GoTime.Duration) :
    (init pinning w (Store.init maxBytes maxObjBytes ttl)).Sound blake3 := by
  constructor
  · have hnone : w.store.verified = ∅ := by
      rcases load_eq_ok hload with ⟨_, hw⟩ | ⟨pins, _, hw⟩
      · rw [hw]
        rfl
      · rw [hw]
        exact (loading_loadedStore config d pins).verified_eq
    intro key hkey
    change key ∈ w.store.verified at hkey
    rw [hnone] at hkey
    cases hkey
  · intro kind addr body hholds
    rcases hholds with ⟨storedAt, hlookup⟩
    cases hlookup
  · intro t ht
    cases ht
  · intro id t ht
    cases ht

theorem sound_of_keeps (h : s.Sound blake3) (hkeeps : Keeps blake3 s.shared.world w) :
    Sound blake3 { s with shared := { s.shared with world := w } } where
  flags := hkeeps.flags h.flags
  cache := h.cache
  pin := fun t ht => PinTask.sound_of_fileSound hkeeps.files (h.pin t ht)
  lookups := fun id t ht =>
    LookupTask.sound_of_fileSound hkeeps.files (h.lookups id t ht)

theorem sound_begin (id : Nat) (kind : Kind) (addr : Addr) (h : s.Sound blake3) :
    (s.step blake3 (ServiceEvent.begin id kind addr)).Sound blake3 := by
  unfold step
  dsimp only
  split
  · exact h
  · refine ⟨h.flags, h.cache, h.pin, ?_⟩
    intro id' t ht
    rcases FiniteMap.lookup_insert_eq_some.mp ht with ⟨_, hself⟩ | ⟨_, hold⟩
    · rw [hself]
      trivial
    · exact h.lookups id' t hold

theorem sound_lookup (id : Nat) (env : LookupEnv) (h : s.Sound blake3) :
    (s.step blake3 (ServiceEvent.lookup id env)).Sound blake3 := by
  unfold step
  dsimp only
  split
  · exact h
  · rename_i t ht
    rcases LookupTask.sound_advance (h.lookups id t ht) h.flags h.cache with
      ⟨hkeeps, hcache, hsound⟩
    refine ⟨hkeeps.flags h.flags, hcache, ?_, ?_⟩
    · intro running hrunning
      exact PinTask.sound_of_fileSound hkeeps.files (h.pin running hrunning)
    · intro id' t' ht'
      rcases FiniteMap.lookup_insert_eq_some.mp ht' with ⟨_, hself⟩ | ⟨_, hold⟩
      · rw [hself]
        exact hsound
      · exact LookupTask.sound_of_fileSound hkeeps.files (h.lookups id' t' hold)

theorem sound_startPin (kind : Kind) (addr : Addr) (owner : String) (h : s.Sound blake3) :
    (s.step blake3 (ServiceEvent.startPin kind addr owner)).Sound blake3 := by
  unfold step
  dsimp only
  split
  · refine ⟨h.flags, h.cache, ?_, h.lookups⟩
    intro t ht
    cases ht
    trivial
  · exact h

theorem sound_pin (env : PinEnv) (h : s.Sound blake3) :
    (s.step blake3 (ServiceEvent.pin env)).Sound blake3 := by
  unfold step
  dsimp only
  split
  · exact h
  · rename_i t ht
    rcases PinTask.sound_advance (h.pin t ht) with ⟨hkeeps, hsound⟩
    have hothers := sound_of_keeps h hkeeps
    refine ⟨hothers.flags, hothers.cache, ?_, hothers.lookups⟩
    intro t' ht'
    injection ht' with heq
    rw [<- heq]
    exact hsound

theorem sound_step (e : ServiceEvent) (h : s.Sound blake3) : (s.step blake3 e).Sound blake3 := by
  cases e with
  | begin id kind addr => exact sound_begin id kind addr h
  | lookup id env => exact sound_lookup id env h
  | startPin kind addr owner => exact sound_startPin kind addr owner h
  | pin env => exact sound_pin env h
  | unpin failure kind addr owner =>
      unfold step
      dsimp only
      split
      · exact sound_of_keeps h (keeps_of_shrinks (shrinks_unpin _ _ _ _ _))
      · exact h
  | close =>
      refine ⟨h.flags, ?_, h.pin, h.lookups⟩
      intro kind addr body hholds
      rcases hholds with ⟨storedAt, hlookup⟩
      cases hlookup

def run (blake3 : Bytes -> Digest) (pinning : Bool) (w : World) (cache : Store)
    (events : List ServiceEvent) : Service :=
  Transition.after (step blake3) (init pinning w cache) events

end Service

/--
Whatever the directory held at the start and whatever the upstreams answer, every
body that a lookup returns, in any interleaving of lookups, pins and unpins, passes
the check of the address it was asked for.
-/
theorem lookup_returns_verified (blake3 : Bytes -> Digest) (config : PinConfig)
    (io : LoadIo) (d : Disk) (w : World)
    (hload : load config io d = (Except.ok (), w)) (pinning : Bool)
    (maxBytes maxObjBytes : Int) (ttl : GoTime.Duration)
    (events : List ServiceEvent) (id : Nat) (t : LookupTask) (body : Bytes)
    (ht : (Service.run blake3 pinning w (Store.init maxBytes maxObjBytes ttl)
      events).lookups.lookup id = some t)
    (hreturned : t.pc = LookupPc.returned (some body)) :
    verify blake3 t.kind t.addr body = Except.ok () := by
  have hsound : (Service.run blake3 pinning w
      (Store.init maxBytes maxObjBytes ttl) events).Sound blake3 :=
    Transition.invariant_after (fun s e hs _ => Service.sound_step e hs)
      (Service.sound_init hload pinning maxBytes maxObjBytes ttl)
      (Transition.stepsMeet_true (Service.step blake3) _ _)
  have htask := hsound.lookups id t ht
  unfold LookupTask.Sound at htask
  rw [hreturned] at htask
  exact htask

def lookupPinLookup : List ServiceEvent :=
  let env : LookupEnv := ⟨false, none, Except.ok (asciiBytes "a"), 0⟩
  let pinEnv : PinEnv := ⟨Except.ok (some (asciiBytes "a")), none, 0⟩
  ServiceEvent.begin 0 Kind.chunk chunkA ::
    List.replicate 4 (ServiceEvent.lookup 0 env) ++
    ServiceEvent.startPin Kind.chunk chunkA "alice" ::
    List.replicate 8 (ServiceEvent.pin pinEnv) ++
    ServiceEvent.begin 1 Kind.chunk chunkA ::
    List.replicate 2 (ServiceEvent.lookup 1 env)

theorem lookupPinLookup_returned :
    (Service.run blake3OfAB true freshWorld (Store.init 1024 1024 0)
      lookupPinLookup).lookups.lookup 0 =
        some ⟨Kind.chunk, chunkA, LookupPc.returned (some (asciiBytes "a"))⟩ ∧
    (Service.run blake3OfAB true freshWorld (Store.init 1024 1024 0)
      lookupPinLookup).lookups.lookup 1 =
        some ⟨Kind.chunk, chunkA, LookupPc.returned (some (asciiBytes "a"))⟩ := by
  decide +kernel

theorem lookupPinLookup_verified :
    (Service.run blake3OfAB true freshWorld (Store.init 1024 1024 0)
      lookupPinLookup).lookups.lookup 1 =
        some ⟨Kind.chunk, chunkA, LookupPc.returned (some (asciiBytes "a"))⟩ ∧
    verify blake3OfAB Kind.chunk chunkA (asciiBytes "a") = Except.ok () :=
  ⟨lookupPinLookup_returned.2,
    lookup_returns_verified blake3OfAB ⟨1048576, 0, 0, 0⟩ ⟨none, none⟩
      ⟨∅, IndexFile.absent⟩ freshWorld rfl true 1024 1024 0 lookupPinLookup 1
      ⟨Kind.chunk, chunkA, LookupPc.returned (some (asciiBytes "a"))⟩
      (asciiBytes "a") lookupPinLookup_returned.2 rfl⟩

end Gate

end Pubcache
end Ephor
