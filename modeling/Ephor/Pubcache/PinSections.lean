import Ephor.Pubcache.Pin

/-!
# What the sections of the pin store do

One description for each step on the keys, the directory, and the store.  The
results about whole operations use these and never unfold a section again.
-/

namespace Ephor
namespace Pubcache

open Foundation
open FiniteMap

/-!
# Store keys and paths

A key with a path is the key of that path, so two keys never share a file.
-/

theorem takeWhile_append_cons {p : Char -> Bool} {l : List Char} {c : Char}
    (rest : List Char) (hl : forall x, x ∈ l -> p x = true) (hc : p c = false) :
    (l ++ c :: rest).takeWhile p = l ∧ (l ++ c :: rest).dropWhile p = c :: rest := by
  induction l with
  | nil => simp [hc]
  | cons x l ih =>
      have hx := hl x List.mem_cons_self
      have htail := ih (List.forall_mem_cons.mp hl).2
      simp [hx, htail.1, htail.2]

theorem splitStoreKey_storeKeyStr {kind addr : String} (hkind : kind ≠ "")
    (hcolon : ':' ∉ kind.toList) (haddr : addr ≠ "") :
    splitStoreKey (storeKeyStr kind addr) = some (kind, addr) := by
  have hlist : (storeKeyStr kind addr).toList =
      kind.toList ++ ':' :: addr.toList := by
    simp [storeKeyStr]
  have hkeep : forall x, x ∈ kind.toList -> (x != ':') = true := by
    intro x hx
    simp only [bne_iff_ne, ne_eq]
    intro heq
    exact hcolon (heq ▸ hx)
  rcases takeWhile_append_cons addr.toList hkeep
    (show (':' != ':') = false by rfl) with ⟨htake, hdrop⟩
  have hkindList : kind.toList ≠ [] := by
    intro h
    exact hkind (String.toList_eq_nil_iff.mp h)
  have haddrList : addr.toList ≠ [] := by
    intro h
    exact haddr (String.toList_eq_nil_iff.mp h)
  unfold splitStoreKey
  rw [hlist, htake, hdrop]
  simp only [hkindList, haddrList, ne_eq, not_false_eq_true, and_self, if_true,
    String.ofList_toList]

variable {key : String} {w : World}

theorem storeKeyStr_of_splitStoreKey {kind addr : String}
    (h : splitStoreKey key = some (kind, addr)) : storeKeyStr kind addr = key := by
  unfold splitStoreKey at h
  split at h
  · cases h
  · rename_i c tail hdrop
    dsimp only at h
    split at h
    · injection h with hpair
      injection hpair with hkind haddr
      have hc : c = ':' := by
        have hne : key.toList.dropWhile (fun c => c != ':') ≠ [] := by
          rw [hdrop]
          exact List.cons_ne_nil _ _
        have hhead := List.head_dropWhile_not (fun c => c != ':') hne
        simp only [hdrop, List.head_cons, bne_eq_false_iff_eq] at hhead
        exact hhead
      apply String.toList_inj.mp
      rw [<- hkind, <- haddr]
      simp only [storeKeyStr, String.toList_append, String.toList_ofList]
      calc
        key.toList.takeWhile (fun c => c != ':') ++ ":".toList ++ tail
            = key.toList.takeWhile (fun c => c != ':') ++ (':' :: tail) := by
              rw [List.append_assoc]
              rfl
        _ = key.toList.takeWhile (fun c => c != ':') ++
              key.toList.dropWhile (fun c => c != ':') := by rw [hdrop, hc]
        _ = key.toList := List.takeWhile_append_dropWhile
    · cases h

theorem key_of_keyPath {path : ObjectPath} (h : keyPath key = some path) : path.key = key := by
  unfold keyPath at h
  rcases Option.map_eq_some_iff.mp h with ⟨⟨kind, addr⟩, hsplit, hpath⟩
  subst hpath
  exact storeKeyStr_of_splitStoreKey hsplit

theorem kind_string_ne_empty (kind : Kind) : kind.string ≠ "" := by
  cases kind <;> decide

theorem colon_not_mem_kind (kind : Kind) : ':' ∉ kind.string.toList := by
  cases kind <;> decide

theorem splitStoreKey_objectKey (kind : Kind) (addr : Addr) :
    splitStoreKey (objectKey kind addr) = some (kind.string, addr.string) :=
  splitStoreKey_storeKeyStr (kind_string_ne_empty kind) (colon_not_mem_kind kind)
    addr.string_ne_empty

theorem keyPath_objectKey (kind : Kind) (addr : Addr) :
    keyPath (objectKey kind addr) = some ⟨kind.string, addr.string⟩ := by
  rw [keyPath, splitStoreKey_objectKey]
  rfl

theorem parseObjectKind_string (kind : Kind) : parseObjectKind kind.string = some kind := by
  cases kind <;> rfl

theorem string_of_parseObjectKind {s : String} {kind : Kind}
    (h : parseObjectKind s = some kind) : kind.string = s := by
  unfold parseObjectKind at h
  split at h
  · rename_i hs
    injection h with hk
    rw [<- hk, hs]
    rfl
  · split at h
    · rename_i hs
      injection h with hk
      rw [<- hk, hs]
      rfl
    · split at h
      · rename_i hs
        injection h with hk
        rw [<- hk, hs]
        rfl
      · cases h

theorem addr_string_injective {a b : Addr} (h : a.string = b.string) : a = b :=
  FixedBytes.ext_toBytes (Base64.encode_injective (String.ofList_injective h))

theorem objectKey_inj {kind kind' : Kind} {addr addr' : Addr}
    (h : objectKey kind addr = objectKey kind' addr') : kind = kind' ∧ addr = addr' := by
  have hsplit := congrArg splitStoreKey h
  rw [splitStoreKey_objectKey, splitStoreKey_objectKey] at hsplit
  injection hsplit with hpair
  injection hpair with hkind haddr
  constructor
  · have hparsed := congrArg parseObjectKind hkind
    rw [parseObjectKind_string, parseObjectKind_string] at hparsed
    injection hparsed
  · exact addr_string_injective haddr

def ValidKey (key : String) : Prop :=
  exists kind addr, Addr.Tagged addr ∧ key = objectKey kind addr

theorem keyPath_isSome_of_validKey (h : ValidKey key) : exists path, keyPath key = some path := by
  rcases h with ⟨kind, addr, _, hkey⟩
  rw [hkey]
  exact ⟨_, keyPath_objectKey kind addr⟩

/-!
# The directory
-/

namespace Disk

theorem path_ne {key k : String} {path other : ObjectPath} (hkey : keyPath key = some path)
    (hother : keyPath k = some other) (hk : k ≠ key) : other ≠ path := by
  intro heq
  apply hk
  rw [<- key_of_keyPath hother, <- key_of_keyPath hkey, heq]

theorem file_removeObject (d : Disk) (key k : String) :
    (d.removeObject key).file k = if k = key then none else d.file k := by
  unfold removeObject file
  cases hkey : keyPath key with
  | none =>
      by_cases hk : k = key
      · rw [if_pos hk, hk, hkey]
        rfl
      · rw [if_neg hk]
  | some path =>
      by_cases hk : k = key
      · rw [if_pos hk, hk, hkey]
        exact Finmap.lookup_erase path d.files
      · rw [if_neg hk]
        cases hpath : keyPath k with
        | none => rfl
        | some other => exact Finmap.lookup_erase_ne (path_ne hkey hpath hk)

theorem file_removeObjects (d : Disk) (dead : String -> Bool) (k : String) :
    (d.removeObjects dead).file k = if dead k then none else d.file k := by
  unfold removeObjects file
  cases hpath : keyPath k with
  | none => simp
  | some path =>
      have hkey := key_of_keyPath hpath
      cases hdead : dead k with
      | true =>
          rw [if_pos rfl]
          apply lookup_filter_eq_none.mpr
          intro body _
          simp [hkey, hdead, hpath]
      | false =>
          rw [if_neg Bool.false_ne_true]
          cases hfile : d.files.lookup path with
          | none =>
              simp only [Option.bind_some, hfile]
              apply lookup_filter_eq_none.mpr
              intro body hbody
              rw [hfile] at hbody
              cases hbody
          | some body =>
              simp only [Option.bind_some, hfile]
              apply lookup_filter_eq_some.mpr
              simp [hkey, hdead, hfile]

theorem file_writeObject (d : Disk) (body : Bytes) (k : String)
    (hkey : exists path, keyPath key = some path) :
    (d.writeObject key body).file k = if k = key then some body else d.file k := by
  rcases hkey with ⟨path, hpath⟩
  unfold writeObject file
  rw [hpath]
  by_cases hk : k = key
  · rw [if_pos hk, hk, hpath]
    exact Finmap.lookup_insert d.files
  · rw [if_neg hk]
    cases hother : keyPath k with
    | none => rfl
    | some other => exact Finmap.lookup_insert_of_ne d.files (path_ne hpath hother hk)

@[simp] theorem index_removeObject (d : Disk) (key : String) :
    (d.removeObject key).index = d.index := by
  unfold removeObject
  split <;> rfl

@[simp] theorem index_writeObject (d : Disk) (key : String) (body : Bytes) :
    (d.writeObject key body).index = d.index := by
  unfold writeObject
  split <;> rfl

end Disk

/-!
# Sections
-/

theorem mem_objects_iff {s : PinStore} :
    key ∈ s.objects <-> exists sz, s.objects.lookup key = some sz :=
  Finmap.mem_iff

theorem writeIndexLocked_store (failure : Option String) (w : World) :
    (writeIndexLocked failure w).2.store = w.store := by
  unfold writeIndexLocked
  split <;> rfl

theorem writeIndexLocked_files (failure : Option String) (w : World) :
    (writeIndexLocked failure w).2.disk.files = w.disk.files := by
  unfold writeIndexLocked
  split <;> rfl

theorem writeIndexLocked_file (failure : Option String) (w : World) (k : String) :
    (writeIndexLocked failure w).2.disk.file k = w.disk.file k := by
  unfold Disk.file
  rw [writeIndexLocked_files]

theorem writeIndexLocked_index (failure : Option String) (w : World) :
    (writeIndexLocked failure w).2.disk.index =
      match failure with
      | some _ => w.disk.index
      | none => w.store.indexFile := by
  unfold writeIndexLocked
  split <;> rfl

theorem mem_indexPins {s : PinStore} {rec : PinRecord} :
    rec ∈ s.indexPins <-> exists key, s.pins.lookup key = some rec := by
  unfold PinStore.indexPins
  rw [Multiset.mem_sort, Multiset.mem_map]
  constructor
  · intro h
    rcases h with ⟨e, he, hrec⟩
    refine ⟨e.1, Finmap.lookup_eq_some_iff.mpr ?_⟩
    rw [<- hrec]
    exact he
  · intro h
    rcases h with ⟨key, hkey⟩
    exact ⟨⟨key, rec⟩, Finmap.lookup_eq_some_iff.mp hkey, rfl⟩

namespace PinStore

variable {s : PinStore}

theorem live_eq_true :
    s.live key = true <->
      (exists root rec, s.pins.lookup root = some rec ∧ key ∈ rec.objects) ∨
        key ∈ s.pending := by
  simp only [live, Bool.or_eq_true, any_eq_true, recordReferences,
    decide_eq_true_iff]

theorem lookup_dropPins {badKey root : String} {rec : PinRecord} :
    (s.dropPins badKey).pins.lookup root = some rec <->
      s.pins.lookup root = some rec ∧ badKey ∉ rec.objects := by
  unfold dropPins
  rw [lookup_filter_eq_some]
  simp [recordReferences]

theorem lookup_objects_dropObject (key k : String) :
    (s.dropObject key).objects.lookup k =
      if k = key then none else s.objects.lookup k := by
  unfold dropObject
  cases hkey : s.objects.lookup key with
  | none =>
      by_cases hk : k = key
      · rw [if_pos hk, hk]
        exact hkey
      · rw [if_neg hk]
  | some sz =>
      by_cases hk : k = key
      · rw [if_pos hk, hk]
        exact Finmap.lookup_erase key s.objects
      · rw [if_neg hk]
        exact Finmap.lookup_erase_ne hk

theorem mem_objects_dropObject {k : String} :
    k ∈ (s.dropObject key).objects <-> k ≠ key ∧ k ∈ s.objects := by
  rw [mem_objects_iff, mem_objects_iff]
  simp only [lookup_objects_dropObject]
  by_cases hk : k = key
  · simp [hk]
  · simp [hk]

@[simp] theorem pins_dropObject (key : String) :
    (s.dropObject key).pins = s.pins := by
  unfold dropObject
  split <;> rfl

@[simp] theorem pending_dropObject (key : String) :
    (s.dropObject key).pending = s.pending := by
  unfold dropObject
  split <;> rfl

@[simp] theorem config_dropObject (key : String) :
    (s.dropObject key).config = s.config := by
  unfold dropObject
  split <;> rfl

def Balanced (s : PinStore) : Prop :=
  s.bytes = total s.objects

theorem balanced_dropObject (key : String) (h : s.Balanced) : (s.dropObject key).Balanced := by
  unfold dropObject
  cases hkey : s.objects.lookup key with
  | none => exact h
  | some sz =>
      change s.bytes - sz = total (s.objects.erase key)
      rw [total_erase hkey, h]

theorem balanced_recordObject {n : Int} (h : s.Balanced) (hkey : s.objects.lookup key = none) :
    (s.recordObject key n).Balanced := by
  change s.bytes + n = total (s.objects.insert key n)
  rw [total_insert hkey, h]

theorem balanced_addObject (obj : String × Int) (h : s.Balanced) : (s.addObject obj).Balanced := by
  unfold addObject
  cases hobj : s.objects.lookup obj.1 with
  | some sz => exact h
  | none =>
      change s.bytes + obj.2 = total (s.objects.insert obj.1 obj.2)
      rw [total_insert hobj, h]

theorem mem_objects_addObject {obj : String × Int} {k : String} :
    k ∈ (s.addObject obj).objects <-> k = obj.1 ∨ k ∈ s.objects := by
  unfold addObject
  cases hobj : s.objects.lookup obj.1 with
  | some sz =>
      constructor
      · exact Or.inr
      · intro h
        cases h with
        | inl hk =>
            rw [hk]
            exact mem_objects_iff.mpr ⟨sz, hobj⟩
        | inr hmem => exact hmem
  | none => exact mem_insert_iff

@[simp] theorem pins_addObject (obj : String × Int) :
    (s.addObject obj).pins = s.pins := by
  unfold addObject
  split <;> rfl

@[simp] theorem pending_addObject (obj : String × Int) :
    (s.addObject obj).pending = s.pending := by
  unfold addObject
  split <;> rfl

@[simp] theorem verified_addObject (obj : String × Int) :
    (s.addObject obj).verified = s.verified := by
  unfold addObject
  split <;> rfl

@[simp] theorem config_addObject (obj : String × Int) :
    (s.addObject obj).config = s.config := by
  unfold addObject
  split <;> rfl

end PinStore

/-!
## Reclamation
-/

theorem lookup_objects_reclaim {sz : Int} :
    (reclaimUnreferencedLocked w).store.objects.lookup key = some sz <->
      w.store.objects.lookup key = some sz ∧ w.store.live key = true :=
  lookup_filter_eq_some

theorem mem_objects_reclaim :
    key ∈ (reclaimUnreferencedLocked w).store.objects <->
      key ∈ w.store.objects ∧ w.store.live key = true := by
  rw [mem_objects_iff, mem_objects_iff]
  simp only [lookup_objects_reclaim]
  constructor
  · intro h
    rcases h with ⟨sz, hsz, hlive⟩
    exact ⟨⟨sz, hsz⟩, hlive⟩
  · intro h
    rcases h with ⟨⟨sz, hsz⟩, hlive⟩
    exact ⟨sz, hsz, hlive⟩

theorem balanced_reclaim (h : w.store.Balanced) : (reclaimUnreferencedLocked w).store.Balanced := by
  have hsum := total_filter (fun key _ => w.store.live key)
    w.store.objects
  change w.store.bytes -
      total (w.store.objects.filter fun key _ => !w.store.live key) =
    total (w.store.objects.filter fun key _ => w.store.live key)
  unfold PinStore.Balanced at h
  omega

theorem file_reclaim (w : World) (k : String) :
    (reclaimUnreferencedLocked w).disk.file k =
      if k ∈ w.store.objects ∧ w.store.live k = false then none
      else w.disk.file k := by
  change (w.disk.removeObjects _).file k = _
  rw [Disk.file_removeObjects]
  simp

theorem file_reclaim_of_live {k : String} (h : w.store.live k = true) :
    (reclaimUnreferencedLocked w).disk.file k = w.disk.file k := by
  rw [file_reclaim, if_neg]
  intro hdead
  rw [h] at hdead
  cases hdead.2

end Pubcache
end Ephor
