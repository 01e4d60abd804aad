import Ephor.Pubcache.PinLoad

/-!
# Pins that fail

A pin that returns an error has undone what it did.  The rollback works from the list of the
objects that the operation has written, one object after the other; what makes it a return
to the state before is that none of these was held, claimed or filed by anyone else.
-/

namespace Ephor
namespace Pubcache

open Foundation

/-!
# What a failed pin leaves
-/

def Filed (w : World) : Prop :=
  forall path, path ∈ w.disk.files -> path.key ∈ w.store.objects

/-- A claim counts its operations, and no object has a file that is not held. -/
structure Tidy (w : World) : Prop where
  claimed : forall k n, w.store.pending.lookup k = some n -> 0 < n
  filed : Filed w

/-- The same pins, objects, sizes, claims and files; among the marks of verified objects only
those of objects that are not held may be gone. -/
structure Unchanged (w w' : World) : Prop where
  store : w'.store = { w.store with verified := w'.store.verified }
  verified : forall k, k ∈ w.store.objects ->
    (k ∈ w'.store.verified ↔ k ∈ w.store.verified)
  disk : w'.disk = w.disk

theorem unchanged_refl (w : World) : Unchanged w w where
  store := rfl
  verified := fun _ _ => Iff.rfl
  disk := rfl

/-!
# One object more, one object less
-/

def FiledUnder (keys : List String) (path : ObjectPath) : Prop :=
  path.key ∈ keys ∧ keyPath path.key = some path

theorem lookup_removeObject (d : Disk) (key : String) (path : ObjectPath) :
    (d.removeObject key).files.lookup path =
      if keyPath key = some path then none else d.files.lookup path := by
  unfold Disk.removeObject
  cases hkey : keyPath key with
  | none => rfl
  | some own =>
      by_cases hpath : path = own
      · rw [hpath, if_pos rfl]
        exact Finmap.lookup_erase _ _
      · rw [if_neg (fun heq => hpath (Option.some.inj heq).symm)]
        exact Finmap.lookup_erase_ne hpath

variable {key : String} {w0 : World} {p : PinProgress}

theorem lookup_writeObject_of_ne (d : Disk) (body : Bytes) {path : ObjectPath}
    (h : keyPath key ≠ some path) :
    (d.writeObject key body).files.lookup path = d.files.lookup path := by
  unfold Disk.writeObject
  cases hkey : keyPath key with
  | none => rfl
  | some own =>
      have hpath : path ≠ own := fun heq => h (heq ▸ hkey)
      exact Finmap.lookup_insert_of_ne _ hpath

theorem rollback_files (wrote : List String) (w : World) {path : ObjectPath} :
    (FiledUnder wrote path -> (rollback wrote w).disk.files.lookup path = none) ∧
      (Not (FiledUnder wrote path) ->
        (rollback wrote w).disk.files.lookup path = w.disk.files.lookup path) := by
  induction wrote generalizing w with
  | nil => exact ⟨(fun h => nomatch h.1), (fun _ => rfl)⟩
  | cons key wrote ih =>
      rw [rollback_cons]
      have hrest := ih ⟨w.store.dropObject key, w.disk.removeObject key⟩
      have hremoved := lookup_removeObject w.disk key path
      by_cases hin : FiledUnder wrote path
      · refine ⟨fun _ => hrest.1 hin, ?_⟩
        intro hnot
        exact absurd ⟨List.mem_cons_of_mem _ hin.1, hin.2⟩ hnot
      · rw [hrest.2 hin, hremoved]
        constructor
        · intro h
          cases List.mem_cons.mp h.1 with
          | inl heq => exact if_pos (heq ▸ h.2)
          | inr hmem => exact absurd ⟨hmem, h.2⟩ hin
        · intro hnot
          refine if_neg ?_
          intro hkey
          have hown : path.key = key := key_of_keyPath hkey
          exact hnot ⟨List.mem_cons.mpr (Or.inl hown), hown ▸ hkey⟩

theorem mem_verified_dropObject {s : PinStore} {k : String} (h : k ≠ key) :
    k ∈ (s.dropObject key).verified ↔ k ∈ s.verified := by
  unfold PinStore.dropObject
  split
  · exact Finset.mem_erase.trans (and_iff_right h)
  · exact Iff.rfl

theorem rollback_verified {wrote : List String} (w : World) {k : String} (h : k ∉ wrote) :
    k ∈ (rollback wrote w).store.verified ↔ k ∈ w.store.verified := by
  induction wrote generalizing w with
  | nil => exact Iff.rfl
  | cons key wrote ih =>
      rw [rollback_cons, ih _ (fun hmem => h (List.mem_cons_of_mem _ hmem))]
      exact mem_verified_dropObject fun heq => h (heq ▸ List.mem_cons_self)

/-- The bytes that no held object accounts for. -/
def PinStore.unaccounted (s : PinStore) : Int :=
  s.bytes - FiniteMap.total s.objects

theorem unaccounted_dropObject (s : PinStore) (key : String) :
    (s.dropObject key).unaccounted = s.unaccounted := by
  unfold PinStore.dropObject
  cases hkey : s.objects.lookup key with
  | none => rfl
  | some sz =>
      have htotal := FiniteMap.total_erase hkey
      change s.bytes - sz - FiniteMap.total (s.objects.erase key) = _
      rw [PinStore.unaccounted, htotal]
      omega

theorem unaccounted_recordObject {s : PinStore} (n : Int) (hkey : s.objects.lookup key = none) :
    (s.recordObject key n).unaccounted = s.unaccounted := by
  change s.bytes + n - FiniteMap.total (s.objects.insert key n) = _
  rw [FiniteMap.total_insert hkey, PinStore.unaccounted]
  omega

theorem rollback_unaccounted (wrote : List String) (w : World) :
    (rollback wrote w).store.unaccounted = w.store.unaccounted := by
  induction wrote generalizing w with
  | nil => rfl
  | cons key wrote ih => rw [rollback_cons, ih, unaccounted_dropObject]

def released (claim : Option Int) : Option Int :=
  if claim.getD 0 <= 1 then none else some (claim.getD 0 - 1)

theorem lookup_releaseKey (s : PinStore) (key k : String) :
    (s.releaseKey key).pending.lookup k =
      if k = key then released (s.pending.lookup k) else s.pending.lookup k := by
  by_cases hk : k = key
  · rw [if_pos hk, hk, released, PinStore.releaseKey]
    split
    · exact Finmap.lookup_erase _ _
    · exact Finmap.lookup_insert _
  · rw [if_neg hk, PinStore.releaseKey]
    split
    · exact Finmap.lookup_erase_ne hk
    · exact Finmap.lookup_insert_of_ne _ hk

theorem foldl_releaseKey_lookup {wrote : List String} (hnodup : wrote.Nodup) (s : PinStore)
    (k : String) :
    (wrote.foldl PinStore.releaseKey s).pending.lookup k =
      if k ∈ wrote then released (s.pending.lookup k) else s.pending.lookup k := by
  induction wrote generalizing s with
  | nil => rfl
  | cons key wrote ih =>
      rcases List.nodup_cons.mp hnodup with ⟨hkey, hrest⟩
      rw [List.foldl_cons, ih hrest, lookup_releaseKey]
      by_cases hk : k = key
      · rw [hk, if_neg hkey, if_pos rfl, if_pos List.mem_cons_self]
      · simp only [List.mem_cons, hk, false_or, if_false]

/-!
# The loop
-/

/-- What the loop has changed since `w0`: the objects that it wrote, and nothing else. -/
structure Adding (w0 : World) (p : PinProgress) : Prop where
  pins_eq : p.world.store.pins = w0.store.pins
  config_eq : p.world.store.config = w0.store.config
  index_eq : p.world.disk.index = w0.disk.index
  nodup : p.wrote.Nodup
  held : forall k, k ∈ p.wrote -> k ∈ p.world.store.objects
  fresh : forall k, k ∈ p.wrote -> k ∉ w0.store.objects
  lookup_old : forall k, k ∉ p.wrote ->
    p.world.store.objects.lookup k = w0.store.objects.lookup k
  unaccounted_eq : p.world.store.unaccounted = w0.store.unaccounted
  verified_old : forall k, k ∉ p.wrote ->
    (k ∈ p.world.store.verified ↔ k ∈ w0.store.verified)
  pending_eq : forall k, p.world.store.pending.lookup k =
    if k ∈ p.wrote then some ((w0.store.pending.lookup k).getD 0 + 1)
    else w0.store.pending.lookup k
  file_old : forall path, Not (FiledUnder p.wrote path) ->
    p.world.disk.files.lookup path = w0.disk.files.lookup path

theorem adding_start (w0 : World) : Adding w0 ⟨w0, [], [], 0⟩ where
  pins_eq := rfl
  config_eq := rfl
  index_eq := rfl
  nodup := List.nodup_nil
  held := fun _ hk => nomatch hk
  fresh := fun _ hk => nomatch hk
  lookup_old := fun _ _ => rfl
  unaccounted_eq := rfl
  verified_old := fun _ _ => Iff.rfl
  pending_eq := fun _ => rfl
  file_old := fun _ _ => rfl

theorem adding_write (h : Adding w0 p) (body : Bytes) (objects : List String) (pinBytes : Int)
    (hkey : p.world.store.objects.lookup key = none) :
    Adding w0 ⟨⟨p.world.store.recordObject key body.length, p.world.disk.writeObject key body⟩,
      p.wrote ++ [key], objects, pinBytes⟩ := by
  have hnot : key ∉ p.wrote :=
    fun hmem => Finmap.lookup_eq_none.mp hkey (h.held key hmem)
  have hfresh : key ∉ w0.store.objects := by
    apply Finmap.lookup_eq_none.mp
    rw [<- h.lookup_old key hnot, hkey]
  have hmem : forall k, k ∈ p.wrote ++ [key] ↔ k = key ∨ k ∈ p.wrote := by
    intro k
    rw [List.mem_append, List.mem_singleton, or_comm]
  have hother : forall {k}, k ∉ p.wrote ++ [key] -> k ≠ key ∧ k ∉ p.wrote := by
    intro k hk
    exact not_or.mp fun hor => hk ((hmem k).mpr hor)
  constructor
  · exact h.pins_eq
  · exact h.config_eq
  · rw [Disk.index_writeObject]
    exact h.index_eq
  · exact List.nodup_append.mpr ⟨h.nodup, List.nodup_singleton key, by
      intro a ha b hb heq
      rw [heq, List.mem_singleton.mp hb] at ha
      exact hnot ha⟩
  · intro k hk
    apply FiniteMap.mem_insert_iff.mpr
    exact ((hmem k).mp hk).imp_right (h.held k)
  · intro k hk
    cases (hmem k).mp hk with
    | inl heq =>
        rw [heq]
        exact hfresh
    | inr hold => exact h.fresh k hold
  · intro k hk
    change (p.world.store.objects.insert key _).lookup k = _
    rw [Finmap.lookup_insert_of_ne _ (hother hk).1]
    exact h.lookup_old k (hother hk).2
  · rw [unaccounted_recordObject _ hkey]
    exact h.unaccounted_eq
  · intro k hk
    change k ∈ insert key p.world.store.verified ↔ _
    rw [Finset.mem_insert, or_iff_right (hother hk).1]
    exact h.verified_old k (hother hk).2
  · intro k
    have hbefore := h.pending_eq key
    rw [if_neg hnot] at hbefore
    change (p.world.store.pending.insert key
      ((p.world.store.pending.lookup key).getD 0 + 1)).lookup k = _
    by_cases heq : k = key
    · rw [heq, Finmap.lookup_insert, if_pos ((hmem key).mpr (Or.inl rfl)), hbefore]
    · rw [Finmap.lookup_insert_of_ne _ heq, h.pending_eq k]
      simp only [hmem k, heq, false_or]
  · intro path hpath
    have hne : keyPath key ≠ some path := by
      intro hown
      have hpathKey : path.key = key := key_of_keyPath hown
      exact hpath ⟨(hmem _).mpr (Or.inl hpathKey), hpathKey ▸ hown⟩
    rw [lookup_writeObject_of_ne _ _ hne]
    exact h.file_old path fun hold => hpath ⟨(hmem _).mpr (Or.inr hold.1), hold.2⟩

section Gate

variable {blake3 : Bytes -> Digest}

theorem adding_storeObject (io : PinIo) {want : Want} (body : Bytes) (h : Adding w0 p)
    (hkey : p.world.store.objects.lookup want.key = none) :
    Adding w0 (storeObject blake3 io want body p).2 := by
  unfold storeObject
  split
  · exact h
  · dsimp only
    split
    · exact h
    · split
      · exact h
      · exact adding_write h body _ _ hkey

variable (blake3) in
theorem adding_gather (src : Source) (io : PinIo) (root : Addr) (i : Nat) (set : List Want)
    (h : Adding w0 p) : Adding w0 (gather blake3 src io root i set p).2 := by
  refine gather_keeps ?_ i set h
  intro p i want h
  exact gatherObject_keeps (fun _ _ => { h with }) (fun body => adding_storeObject io body h)
    src root i h

end Gate

/-!
# Giving up
-/

theorem released_claim {claim : Option Int} (h : forall n, claim = some n -> 0 < n) :
    released (some (claim.getD 0 + 1)) = claim := by
  cases claim with
  | none => rfl
  | some n =>
      have hpos := h n rfl
      rw [released, Option.getD_some, Option.getD_some, if_neg (by omega)]
      exact congrArg some (by omega)

theorem unchanged_givenUp (htidy : Tidy w0) (h : Adding w0 p) : Unchanged w0 (givenUp p) := by
  rcases releasePending_fields p.wrote (rollback p.wrote p.world) with ⟨pending, hfields⟩
  have hstore : (givenUp p).store =
      { (rollback p.wrote p.world).store with pending := pending } := hfields
  have hpins : (rollback p.wrote p.world).store.pins = w0.store.pins :=
    (rollback_pins _ _).trans h.pins_eq
  have hconfig : (rollback p.wrote p.world).store.config = w0.store.config :=
    (rollback_config _ _).trans h.config_eq
  have hobjects : (rollback p.wrote p.world).store.objects = w0.store.objects := by
    apply Finmap.ext_lookup
    intro k
    rw [rollback_lookup]
    by_cases hmem : k ∈ p.wrote
    · rw [if_pos hmem]
      exact (Finmap.lookup_eq_none.mpr (h.fresh k hmem)).symm
    · rw [if_neg hmem]
      exact h.lookup_old k hmem
  have hbytes : (rollback p.wrote p.world).store.bytes = w0.store.bytes := by
    have hsame := (rollback_unaccounted p.wrote p.world).trans h.unaccounted_eq
    rw [PinStore.unaccounted, PinStore.unaccounted, hobjects] at hsame
    omega
  have hpending : pending = w0.store.pending := by
    apply Finmap.ext_lookup
    intro k
    have hreleased : pending.lookup k = if k ∈ p.wrote then
        released ((rollback p.wrote p.world).store.pending.lookup k)
        else (rollback p.wrote p.world).store.pending.lookup k := by
      rw [<- foldl_releaseKey_lookup h.nodup]
      exact congrArg (fun s : PinStore => s.pending.lookup k) hstore.symm
    rw [hreleased, rollback_pending, h.pending_eq k]
    by_cases hmem : k ∈ p.wrote
    · rw [if_pos hmem, if_pos hmem]
      exact released_claim (htidy.claimed k)
    · rw [if_neg hmem, if_neg hmem]
  constructor
  · rw [hstore]
    simp only [hpins, hconfig, hobjects, hbytes, hpending]
  · intro k hk
    rw [hstore]
    have hnot : k ∉ p.wrote := fun hmem => h.fresh k hmem hk
    exact (rollback_verified p.world hnot).trans (h.verified_old k hnot)
  · have hfiles : (rollback p.wrote p.world).disk.files = w0.disk.files := by
      apply Finmap.ext_lookup
      intro path
      have hroll := @rollback_files p.wrote p.world path
      by_cases hfiled : FiledUnder p.wrote path
      · rw [hroll.1 hfiled]
        apply Eq.symm
        apply Finmap.lookup_eq_none.mpr
        intro hmem
        exact h.fresh path.key hfiled.1 (htidy.filed path hmem)
      · rw [hroll.2 hfiled]
        exact h.file_old path hfiled
    have hindex : (rollback p.wrote p.world).disk.index = w0.disk.index :=
      (rollback_index _ _).trans h.index_eq
    change (rollback p.wrote p.world).disk = w0.disk
    exact congrArg₂ Disk.mk hfiles hindex

/-!
# Reachable states are tidy
-/

set_option maxRecDepth 2000 in
theorem letter_ne_colon : forall v, v < 64 -> Base64.letter v ≠ ':' := by
  decide

theorem colon_not_mem_addr (a : Addr) : ':' ∉ a.string.toList := by
  rw [Addr.string, String.toList_ofList]
  intro hmem
  rcases List.mem_map.mp hmem with ⟨v, hv, hletter⟩
  exact letter_ne_colon v (Base64.toSextets_lt v hv) hletter

theorem keyPath_of_validKey {path : ObjectPath} (h : ValidKey path.key) :
    keyPath path.key = some path := by
  rcases h with ⟨kind, addr, _, hkey⟩
  have hlist := congrArg String.toList hkey
  simp only [ObjectPath.key, objectKey, storeKeyStr, String.toList_append,
    List.append_assoc] at hlist
  rcases (List.append_cons_inj_of_notMem (colon_not_mem_kind kind)
    (colon_not_mem_addr addr)).mp hlist.symm with ⟨hkind, _, hname⟩
  rw [hkey, keyPath_objectKey, String.toList_inj.mp hkind, String.toList_inj.mp hname]

theorem filed_reclaim {w : World} (hvalid : forall k, k ∈ w.store.objects -> ValidKey k)
    (h : Filed w) : Filed (reclaimUnreferencedLocked w) := by
  intro path hpath
  rcases FiniteMap.mem_filter.mp hpath with ⟨body, hbody, hkept⟩
  have hheld := h path (Finmap.mem_iff.mpr ⟨body, hbody⟩)
  rw [Bool.not_eq_true', Bool.and_eq_false_iff] at hkept
  apply mem_objects_reclaim.mpr
  refine ⟨hheld, ?_⟩
  cases hkept with
  | inl halive => simpa [hheld] using halive
  | inr helsewhere =>
      exact absurd (keyPath_of_validKey (hvalid _ hheld)) (of_decide_eq_false helsewhere)

theorem filed_writeIndexLocked (failure : Option String) {w : World} (h : Filed w) :
    Filed (writeIndexLocked failure w).2 := by
  rw [Filed, writeIndexLocked_files, writeIndexLocked_store]
  exact h

theorem filed_sweepOrphans (w : World) : Filed (sweepOrphans w) := by
  intro path hpath
  rcases FiniteMap.mem_filter.mp hpath with ⟨_, _, hkept⟩
  exact of_decide_eq_true hkept

theorem filed_quarantine {w : World} (failure : Option String) (badKey : String)
    (hsettled : Settled w) (h : Filed w) : Filed (quarantine failure badKey w) := by
  apply filed_writeIndexLocked
  apply filed_reclaim
  · intro k hk
    exact hsettled.valid k (PinStore.mem_objects_dropObject.mp hk).2
  · intro path hpath
    apply PinStore.mem_objects_dropObject.mpr
    have hremoved := lookup_removeObject w.disk badKey path
    rcases Finmap.mem_iff.mp hpath with ⟨body, hbody⟩
    rw [hbody] at hremoved
    split at hremoved
    · exact nomatch hremoved
    · rename_i hother
      have hheld := h path (Finmap.mem_iff.mpr ⟨body, hremoved.symm⟩)
      refine ⟨?_, hheld⟩
      intro heq
      exact hother (heq ▸ keyPath_of_validKey (hsettled.valid _ hheld))

section Gate

variable {blake3 : Bytes -> Digest}

theorem filed_get {w : World} (io : GetIo) (kind : Kind) (addr : Addr)
    (hsettled : Settled w) (h : Filed w) : Filed (get blake3 io kind addr w).2 := by
  rcases get_cases blake3 io kind addr w with hsame | ⟨_, hbad⟩ | hmarked
  · rw [hsame]
    exact h
  · rw [hbad]
    exact filed_quarantine _ _ hsettled h
  · rw [hmarked]
    exact h

theorem filed_callSource {w : World} (src : Source) (i : Nat) (kind : Kind) (addr : Addr)
    (hsettled : Settled w) (h : Filed w) : Filed (callSource blake3 src i kind addr w).2 := by
  rcases callSource_cases blake3 src i kind addr w with hsame | ⟨_, hget⟩
  · rw [hsame]
    exact h
  · rw [hget]
    exact filed_get _ _ _ hsettled h

theorem filed_committed (record : PinRecord) (h : Adding w0 p) (hfiled : Filed w0) :
    Filed (committed record p) := by
  rcases committed_store record p with ⟨_, hstore⟩
  have hobjects : (committed record p).store.objects = p.world.store.objects := by
    rw [hstore]
  intro path hpath
  rw [hobjects]
  by_cases hwrote : FiledUnder p.wrote path
  · exact h.held path.key hwrote.1
  · rcases Finmap.mem_iff.mp hpath with ⟨body, hbody⟩
    have hold : w0.disk.files.lookup path = some body :=
      (h.file_old path hwrote).symm.trans hbody
    have hheld := hfiled path (Finmap.mem_iff.mpr ⟨body, hold⟩)
    by_cases hnew : path.key ∈ p.wrote
    · exact h.held path.key hnew
    · rcases mem_objects_iff.mp hheld with ⟨sz, hsz⟩
      exact mem_objects_iff.mpr ⟨sz, (h.lookup_old path.key hnew).trans hsz⟩

theorem Unchanged.filed {w w' : World} (h : Unchanged w w') (hfiled : Filed w) : Filed w' := by
  rw [Filed, h.disk, h.store]
  exact hfiled

variable (blake3) in
theorem pin_cases_adding {w : World} (src : Source) (io : PinIo) (kind : Kind) (addr : Addr)
    (owner : String) :
    (pin blake3 src io kind addr owner w).2 = w ∨
      (pin blake3 src io kind addr owner w).2 = (callSource blake3 src 0 kind addr w).2 ∨
      exists p, Adding (callSource blake3 src 0 kind addr w).2 p ∧
        ((pin blake3 src io kind addr owner w).2 = givenUp p ∨
          exists record, pin blake3 src io kind addr owner w =
            (Except.ok record, committed record p)) := by
  have hadding := fun set => adding_gather blake3 src io addr 1 set
    (adding_start (callSource blake3 src 0 kind addr w).2)
  rcases pin_cases_gather blake3 src io kind addr owner
    (fun set => (hadding set).pins_eq) with
    hsame | hread | ⟨set, p, hp, hup | ⟨record, _, hok, _⟩⟩
  · exact Or.inl hsame
  · exact Or.inr (Or.inl hread)
  · exact Or.inr (Or.inr ⟨p, hp ▸ hadding set, Or.inl hup⟩)
  · exact Or.inr (Or.inr ⟨p, hp ▸ hadding set, Or.inr ⟨record, hok⟩⟩)

theorem filed_run {w w' : World} {op : PinOp} (hsettled : Settled w) (h : Filed w)
    (hrun : op.run blake3 w = some w') : Filed w' := by
  cases op with
  | restart config io =>
      rcases load_eq_ok (restart_eq_some hrun) with ⟨_, hw⟩ | ⟨pins, _, hw⟩
      · rw [hw]
        exact filed_sweepOrphans _
      · rw [hw]
        exact filed_writeIndexLocked _ (filed_sweepOrphans _)
  | pin src io kind addr owner =>
      cases hrun
      have hsource : Settled (callSource blake3 src 0 kind addr w).2 :=
        settled_callSource blake3 src 0 kind addr hsettled
      have hfiled : Filed (callSource blake3 src 0 kind addr w).2 :=
        filed_callSource src 0 kind addr hsettled h
      rcases pin_cases_adding blake3 src io kind addr owner with
        hsame | hread | ⟨p, hp, hup | ⟨record, hok⟩⟩
      · rw [hsame]
        exact h
      · rw [hread]
        exact hfiled
      · rw [hup]
        have hclaimed : forall k n,
            (callSource blake3 src 0 kind addr w).2.store.pending.lookup k = some n -> 0 < n := by
          intro k n hk
          rw [hsource.pending] at hk
          exact nomatch hk
        exact (unchanged_givenUp ⟨hclaimed, hfiled⟩ hp).filed hfiled
      · rw [hok]
        exact filed_committed record hp hfiled
  | unpin failure kind addr owner =>
      cases hrun
      rcases unpin_cases failure kind addr owner w with hsame | ⟨rec, _, _, hremoved⟩
      · rw [hsame]
        exact h
      · rw [hremoved]
        exact filed_writeIndexLocked _ (filed_reclaim hsettled.valid h)
  | get io kind addr =>
      cases hrun
      exact filed_get io kind addr hsettled h
  | quarantine failure badKey =>
      cases hrun
      exact filed_quarantine failure badKey hsettled h

theorem filed_of_reachable {w : World} (h : Reachable blake3 w) : Filed w := by
  induction h with
  | loaded _ hload =>
      rcases load_eq_ok hload with ⟨_, hw⟩ | ⟨pins, _, hw⟩
      · rw [hw]
        exact filed_sweepOrphans _
      · rw [hw]
        exact filed_writeIndexLocked _ (filed_sweepOrphans _)
  | step op hw hrun ih => exact filed_run (settled_of_reachable hw) ih hrun

theorem tidy_of_reachable {w : World} (h : Reachable blake3 w) : Tidy w where
  claimed := by
    intro k n hk
    rw [(settled_of_reachable h).pending] at hk
    exact nomatch hk
  filed := filed_of_reachable h

/-!
# All or nothing
-/

variable (blake3) in
/--
A pin that returns an error has changed nothing, if the read of its root has not.  The other
objects that it asks for are not held, so that a source which consults the store leaves it
alone.
-/
theorem pin_error_unchanged (w : World) (htidy : Tidy w) (src : Source) (io : PinIo)
    (kind : Kind) (addr : Addr) (owner : String)
    (hsource : (callSource blake3 src 0 kind addr w).2 = w) (e : PinError)
    (herror : (pin blake3 src io kind addr owner w).1 = Except.error e) :
    Unchanged w (pin blake3 src io kind addr owner w).2 := by
  rcases pin_cases_adding blake3 src io kind addr owner with
    hsame | hread | ⟨p, hp, hup | ⟨record, hok⟩⟩
  · rw [hsame]
    exact unchanged_refl w
  · rw [hread, hsource]
    exact unchanged_refl w
  · rw [hup]
    rw [hsource] at hp
    exact unchanged_givenUp htidy hp
  · rw [hok] at herror
    exact nomatch herror

end Gate

/-- The index cannot be written, after the chunk has been. -/
theorem unindexedChunk_unchanged :
    Unchanged freshWorld (pin blake3OfAB (constantSource (asciiBytes "a"))
      ⟨fun _ => none, some "disk full", 0⟩ Kind.chunk chunkA "alice" freshWorld).2 := by
  have hfresh : Reachable blake3OfAB freshWorld :=
    @Reachable.loaded blake3OfAB ⟨1048576, 0, 0, 0⟩ ⟨none, none⟩
      ⟨∅, IndexFile.absent⟩ freshWorld trivial rfl
  exact pin_error_unchanged blake3OfAB freshWorld (tidy_of_reachable hfresh) _ _ _ _ _ rfl
    (PinError.persistIndex "disk full") (by decide +kernel)

/-!
# Unpins that fail

An unpin has deleted the pin and reclaimed its objects by the time it writes the index.
-/

def Removable (w : World) (kind : Kind) (addr : Addr) (owner : String) : Prop :=
  exists rec, w.store.pins.lookup (objectKey kind addr) = some rec ∧
    (rec.owner = "" ∨ rec.owner = owner)

/-- An unpin that returns an error has kept the pins, the objects and their files. -/
def UnpinFailsCleanly (failure : Option String) (kind : Kind) (addr : Addr) (owner : String)
    (w : World) : Prop :=
  forall e, (unpin failure kind addr owner w).1 = Except.error e ->
    (unpin failure kind addr owner w).2.store.pins = w.store.pins ∧
      (unpin failure kind addr owner w).2.store.objects = w.store.objects ∧
      (unpin failure kind addr owner w).2.store.bytes = w.store.bytes ∧
      (unpin failure kind addr owner w).2.disk.files = w.disk.files

theorem unpin_of_not_removable {failure : Option String} {kind : Kind} {addr : Addr}
    {owner : String} {w : World} (h : Not (Removable w kind addr owner)) :
    (unpin failure kind addr owner w).2 = w := by
  rcases unpin_cases failure kind addr owner w with hsame | ⟨rec, hrec, howner, _⟩
  · exact hsame
  · exact absurd ⟨rec, hrec, howner⟩ h

section Removable

variable {kind : Kind} {addr : Addr} {owner : String} {w : World} {rec : PinRecord}

theorem unpin_unindexed (hrec : w.store.pins.lookup (objectKey kind addr) = some rec)
    (howner : rec.owner = "" ∨ rec.owner = owner) (text : String) :
    unpin (some text) kind addr owner w =
      (Except.error (PinError.persistIndex text),
        reclaimUnreferencedLocked (deletePin (objectKey kind addr) w)) := by
  have hallowed : Not (rec.owner ≠ "" ∧ rec.owner ≠ owner) :=
    fun h => howner.elim h.1 h.2
  simp only [unpin, hrec]
  rw [if_neg hallowed]
  rfl

theorem unpin_indexed (hrec : w.store.pins.lookup (objectKey kind addr) = some rec)
    (howner : rec.owner = "" ∨ rec.owner = owner) :
    (unpin none kind addr owner w).1 = Except.ok rec := by
  have hallowed : Not (rec.owner ≠ "" ∧ rec.owner ≠ owner) :=
    fun h => howner.elim h.1 h.2
  simp only [unpin, hrec]
  rw [if_neg hallowed]
  rfl

end Removable

/-- A failed unpin changes nothing unless it is the write of the index that fails. -/
theorem unpinFailsCleanly_iff (w : World) (failure : Option String) (kind : Kind)
    (addr : Addr) (owner : String) :
    UnpinFailsCleanly failure kind addr owner w ↔
      failure = none ∨ Not (Removable w kind addr owner) := by
  constructor
  · intro hclean
    cases failure with
    | none => exact Or.inl rfl
    | some text =>
        apply Or.inr
        intro hremovable
        rcases hremovable with ⟨rec, hrec, howner⟩
        have hunpin := unpin_unindexed hrec howner text
        have hpins := (hclean _ (congrArg Prod.fst hunpin)).1
        rw [hunpin] at hpins
        change w.store.pins.erase (objectKey kind addr) = w.store.pins at hpins
        rw [<- hpins, Finmap.lookup_erase] at hrec
        exact nomatch hrec
  · intro h e herror
    by_cases hremovable : Removable w kind addr owner
    · rcases hremovable with ⟨rec, hrec, howner⟩
      cases h.resolve_right (not_not.mpr ⟨rec, hrec, howner⟩)
      rw [unpin_indexed hrec howner] at herror
      exact nomatch herror
    · rw [unpin_of_not_removable hremovable]
      exact ⟨rfl, rfl, rfl, rfl⟩

/-- Bob may not unpin what Alice pinned. -/
theorem unpin_of_other_failsCleanly :
    UnpinFailsCleanly (some "disk full") Kind.chunk chunkA "bob" (pinnedA "alice") := by
  apply (unpinFailsCleanly_iff _ _ _ _ _).mpr
  refine Or.inr ?_
  rintro ⟨rec, hrec, howner⟩
  have hown : ((pinnedA "alice").store.pins.lookup (objectKey Kind.chunk chunkA)).map
      (fun rec => rec.owner) = some "alice" := by
    decide +kernel
  rw [hrec] at hown
  injection hown with hown
  change rec.owner = "alice" at hown
  rw [hown] at howner
  exact absurd howner (by decide)

/-- The index cannot be written, after the pin and its chunk are gone. -/
theorem unindexedUnpin_loses :
    (unpin (some "disk full") Kind.chunk chunkA "alice" (pinnedA "alice")).1 =
        Except.error (PinError.persistIndex "disk full") ∧
      (pinnedA "alice").disk.file (objectKey Kind.chunk chunkA) = some (asciiBytes "a") ∧
      (unpin (some "disk full") Kind.chunk chunkA "alice" (pinnedA "alice")).2.disk.file
        (objectKey Kind.chunk chunkA) = none ∧
      Not (UnpinFailsCleanly (some "disk full") Kind.chunk chunkA "alice" (pinnedA "alice")) := by
  have herror : (unpin (some "disk full") Kind.chunk chunkA "alice" (pinnedA "alice")).1 =
      Except.error (PinError.persistIndex "disk full") := by
    decide +kernel
  have hheld : objectKey Kind.chunk chunkA ∈ (pinnedA "alice").store.objects := by
    decide +kernel
  have hgone : objectKey Kind.chunk chunkA ∉
      (unpin (some "disk full") Kind.chunk chunkA "alice" (pinnedA "alice")).2.store.objects := by
    decide +kernel
  refine ⟨herror, by decide +kernel, by decide +kernel, ?_⟩
  intro hclean
  rw [(hclean _ herror).2.1] at hgone
  exact hgone hheld

end Pubcache
end Ephor
