import Ephor.Foundation.Recency
import Ephor.Foundation.Transition
import Ephor.Pubcache.Store

/-!
# The cache over whole runs

Reads, writes and purges in any order, with any keys, bodies and clock readings.  The
recency list and the item map hold the same keys, the byte count is the size of the held
bodies and stays within the cap, and the list is in the order of the last uses.
-/

namespace Ephor
namespace Pubcache

open Foundation
open Foundation.Transition (after emitted StepsMeet)
open Foundation.Recency (Ordered UsedAfter)

namespace Store

/-- The body is within the cap on objects and within the cap on the store. -/
def Fits (s : Store) (body : Bytes) : Prop :=
  Not (0 < s.maxObjBytes ∧ s.maxObjBytes < body.length) ∧
    Not (0 < s.maxBytes ∧ s.maxBytes < body.length)

instance (s : Store) (body : Bytes) : Decidable (s.Fits body) :=
  inferInstanceAs (Decidable (_ ∧ _))

def Expired (s : Store) (now : Int) (e : CacheEntry) : Prop :=
  0 < s.ttl ∧ s.ttl <= GoTime.sub now e.storedAt

def pushFront (s : Store) (key : String) (e : CacheEntry) : Store :=
  { s with
    ll := key :: s.ll
    items := s.items.insert key e
    bytes := s.bytes + e.body.length }

def refresh (s : Store) (key : String) (e : CacheEntry) (now : Int) : Store :=
  moveToFront { s with items := s.items.insert key { e with storedAt := now } } key

theorem expired_iff (ttl : GoTime.Duration) (now storedAt : Int) :
    0 < ttl ∧ ttl <= GoTime.sub now storedAt <-> 0 < ttl ∧ ttl.toInt <= now - storedAt := by
  apply and_congr_right
  intro hpos
  have hlow := Int64.lt_iff_toInt_lt.mp hpos
  have hhigh := Int64.toInt_lt ttl
  have hzero : (0 : Int64).toInt = 0 := rfl
  rw [Int64.le_iff_toInt_le, GoTime.toInt_sub]
  omega

/-!
# What an operation does
-/

theorem get_cases (s : Store) (now : Int) (key : String) :
    (s.items.lookup key = none ∧ s.get now key = (none, s)) ∨
      exists e, s.items.lookup key = some e ∧
        ((s.Expired now e ∧ s.get now key = (none, s.removeLocked key)) ∨
          (Not (s.Expired now e) ∧ s.get now key = (some e.body, s.moveToFront key))) := by
  unfold get
  split
  · rename_i hlookup
    exact Or.inl ⟨hlookup, rfl⟩
  · rename_i e hlookup
    refine Or.inr ⟨e, hlookup, ?_⟩
    split
    · rename_i hexpired
      exact Or.inl ⟨hexpired, rfl⟩
    · rename_i hlive
      exact Or.inr ⟨hlive, rfl⟩

variable {s : Store} {body : Bytes} {key : String} {e : CacheEntry} {past : List String}

theorem put_of_not_fits (h : Not (s.Fits body)) (now : Int) (key : String) :
    s.put now key body = s := by
  unfold put
  split
  · rfl
  · rename_i hobj
    rw [if_pos (Classical.not_not.mp (mt (And.intro hobj) h))]

theorem put_of_some (hfits : s.Fits body) (h : s.items.lookup key = some e) (now : Int) :
    s.put now key body = s.refresh key e now := by
  unfold put
  rw [if_neg hfits.1, if_neg hfits.2, h]
  rfl

theorem put_of_none (hfits : s.Fits body) (h : s.items.lookup key = none) (now : Int) :
    s.put now key body = evictLocked (s.pushFront key ⟨body, now⟩) := by
  unfold put
  rw [if_neg hfits.1, if_neg hfits.2, h]
  rfl

/-!
# The list, the map and the byte count
-/

def bodyBytes (items : FiniteMap String CacheEntry) : Int :=
  items.sumBy fun _ e => (e.body.length : Int)

/-- The recency list and the item map hold the same keys, and the bytes are counted. -/
structure Linked (s : Store) : Prop where
  nodup : s.ll.Nodup
  mem_iff : forall k, k ∈ s.ll <-> k ∈ s.items
  bytes_eq : s.bytes = bodyBytes s.items

theorem linked_init (maxBytes maxObjBytes : Int) (ttl : GoTime.Duration) :
    (init maxBytes maxObjBytes ttl).Linked where
  nodup := List.nodup_nil
  mem_iff := fun k => iff_of_false List.not_mem_nil Finmap.notMem_empty
  bytes_eq := (FiniteMap.sumBy_eq_zero fun k v h => by
    cases h).symm

theorem mem_ll_of_lookup (hs : s.Linked) (h : s.items.lookup key = some e) : key ∈ s.ll :=
  (hs.mem_iff key).mpr (Finmap.mem_iff.mpr ⟨e, h⟩)

theorem linked_removeLocked (hs : s.Linked) (hkey : key ∈ s.ll) : (s.removeLocked key).Linked := by
  rcases Finmap.mem_iff.mp ((hs.mem_iff key).mp hkey) with ⟨e, he⟩
  constructor
  · exact hs.nodup.erase key
  · intro k
    change k ∈ s.ll.erase key <-> k ∈ s.items.erase key
    rw [hs.nodup.mem_erase_iff, Finmap.mem_erase, hs.mem_iff]
  · change s.bytes - (s.items.lookup key).elim 0 (fun e => (e.body.length : Int)) =
      bodyBytes (s.items.erase key)
    rw [bodyBytes, FiniteMap.sumBy_erase _ he, he, hs.bytes_eq]
    rfl

theorem linked_moveToFront (hs : s.Linked) (hkey : key ∈ s.ll) : (s.moveToFront key).Linked := by
  have hperm := List.perm_cons_erase hkey
  constructor
  · exact hperm.nodup_iff.mp hs.nodup
  · intro k
    exact Iff.trans hperm.mem_iff.symm (hs.mem_iff k)
  · exact hs.bytes_eq

theorem linked_refresh (hs : s.Linked) (he : s.items.lookup key = some e) (now : Int) :
    (s.refresh key e now).Linked := by
  have hkey := mem_ll_of_lookup hs he
  have hitems : Linked { s with items := s.items.insert key { e with storedAt := now } } := by
    refine ⟨hs.nodup, ?_, ?_⟩
    · intro k
      change k ∈ s.ll <-> k ∈ s.items.insert key _
      rw [Finmap.mem_insert, <- hs.mem_iff k]
      constructor
      · exact Or.inr
      · intro h
        rcases h with heq | hold
        · rw [heq]
          exact hkey
        · exact hold
    · change s.bytes = bodyBytes (s.items.insert key _)
      rw [bodyBytes, FiniteMap.sumBy_insert _ _ he, hs.bytes_eq]
      exact (Int.sub_add_cancel _ _).symm
  exact linked_moveToFront hitems hkey

theorem linked_pushFront (hs : s.Linked) (h : s.items.lookup key = none) (e : CacheEntry) :
    (s.pushFront key e).Linked := by
  have hnew : key ∉ s.ll := by
    rw [hs.mem_iff]
    exact Finmap.lookup_eq_none.mp h
  constructor
  · exact List.nodup_cons.mpr ⟨hnew, hs.nodup⟩
  · intro k
    change k ∈ key :: s.ll <-> k ∈ s.items.insert key e
    rw [List.mem_cons, Finmap.mem_insert, hs.mem_iff]
  · change s.bytes + e.body.length = bodyBytes (s.items.insert key e)
    rw [bodyBytes, FiniteMap.sumBy_insert_of_none _ e h, hs.bytes_eq]
    rfl

/-!
# Eviction
-/

def Within (s : Store) : Prop :=
  0 < s.maxBytes -> s.bytes <= s.maxBytes

theorem ll_removeLocked_back (hs : s.Linked) {kept : List String} {back : String}
    (h : s.ll = kept ++ [back]) : (s.removeLocked back).ll = kept := by
  have hnodup := hs.nodup
  rw [h, List.nodup_append] at hnodup
  have hback : back ∉ kept := fun hmem => hnodup.2.2 back hmem back List.mem_cons_self rfl
  change s.ll.erase back = kept
  rw [h, List.erase_append_right _ hback, List.erase_cons_head, List.append_nil]

/-- A store is what eviction leaves of another one: a prefix of the list with its entries. -/
structure Evicts (s s' : Store) : Prop where
  caps : s'.maxBytes = s.maxBytes ∧ s'.maxObjBytes = s.maxObjBytes ∧ s'.ttl = s.ttl
  kept : List.IsPrefix s'.ll s.ll
  lookup : forall k, k ∈ s'.ll -> s'.items.lookup k = s.items.lookup k

theorem evicts_refl (s : Store) : s.Evicts s where
  caps := ⟨rfl, rfl, rfl⟩
  kept := List.prefix_rfl
  lookup := fun _ _ => rfl

theorem evicts_removeLocked (hs : s.Linked) {kept : List String} {back : String}
    (h : s.ll = kept ++ [back]) : s.Evicts (s.removeLocked back) := by
  have hll := ll_removeLocked_back hs h
  refine ⟨⟨rfl, rfl, rfl⟩, ⟨[back], ?_⟩, ?_⟩
  · rw [hll]
    exact h.symm
  · intro k hk
    apply Finmap.lookup_erase_ne
    intro heq
    rw [heq] at hk
    exact List.Nodup.not_mem_erase hs.nodup hk

theorem Evicts.trans {s' s'' : Store} (h : s.Evicts s') (h' : s'.Evicts s'') : s.Evicts s'' where
  caps := ⟨h'.caps.1.trans h.caps.1, h'.caps.2.1.trans h.caps.2.1,
    h'.caps.2.2.trans h.caps.2.2⟩
  kept := h'.kept.trans h.kept
  lookup := fun k hk => (h'.lookup k hk).trans (h.lookup k (h'.kept.subset hk))

theorem within_of_ll_nil (hs : s.Linked) (h : s.ll = []) : s.Within := by
  intro hcap
  have hempty : bodyBytes s.items = 0 := by
    apply FiniteMap.sumBy_eq_zero
    intro k v hv
    have hk := mem_ll_of_lookup hs hv
    rw [h] at hk
    cases hk
  rw [hs.bytes_eq, hempty]
  exact Int.le_of_lt hcap

theorem evictLoop_spec {n : Nat} (hs : s.Linked) (hn : s.ll.length <= n) :
    (evictLoop n s).Linked ∧ (evictLoop n s).Within ∧ s.Evicts (evictLoop n s) := by
  induction n generalizing s with
  | zero =>
      exact ⟨hs, within_of_ll_nil hs (List.length_eq_zero_iff.mp (Nat.le_zero.mp hn)),
        evicts_refl s⟩
  | succ n ih =>
      rw [evictLoop]
      split
      · split
        · rename_i hlast
          exact ⟨hs, within_of_ll_nil hs (List.getLast?_eq_none_iff.mp hlast), evicts_refl s⟩
        · rename_i back hlast
          rcases List.getLast?_eq_some_iff.mp hlast with ⟨kept, hll⟩
          have hback : back ∈ s.ll := List.mem_of_getLast? hlast
          have hlen : (s.removeLocked back).ll.length <= n := by
            rw [hll, List.length_append] at hn
            rw [ll_removeLocked_back hs hll]
            exact Nat.le_of_succ_le_succ hn
          rcases ih (linked_removeLocked hs hback) hlen with ⟨hlinked, hwithin, hevicts⟩
          exact ⟨hlinked, hwithin, (evicts_removeLocked hs hll).trans hevicts⟩
      · rename_i hdone
        refine ⟨hs, ?_, evicts_refl s⟩
        intro hcap
        exact Int.not_lt.mp fun hover => hdone ⟨hcap, hover⟩

theorem evictLocked_spec (hs : s.Linked) :
    (evictLocked s).Linked ∧ (evictLocked s).Within ∧ s.Evicts (evictLocked s) :=
  evictLoop_spec hs (Nat.le_refl _)

theorem front_mem_evictLoop {n : Nat} (hs : s.Linked) {front : String} {rest : List String}
    (hll : s.ll = front :: rest) (he : s.items.lookup front = some e)
    (hfits : Not (0 < s.maxBytes ∧ s.maxBytes < e.body.length)) : front ∈ (evictLoop n s).ll := by
  have hfront : front ∈ s.ll := by
    rw [hll]
    exact List.mem_cons_self
  induction n generalizing s rest with
  | zero => exact hfront
  | succ n ih =>
      rw [evictLoop]
      split
      · rename_i hover
        split
        · exact hfront
        · rename_i back hlast
          rcases List.getLast?_eq_some_iff.mp hlast with ⟨kept, hback⟩
          have hremoved := ll_removeLocked_back hs hback
          cases kept with
          | nil =>
              -- the front entry alone fills no more than the cap
              have halone : s.items = (s.items.erase front).insert front e :=
                (FiniteMap.insert_erase_of_lookup he).symm
              have hrest : bodyBytes (s.items.erase front) = 0 := by
                apply FiniteMap.sumBy_eq_zero
                intro k v hv
                rcases FiniteMap.lookup_erase_eq_some.mp hv with ⟨hne, hold⟩
                have hk := mem_ll_of_lookup hs hold
                rw [hback] at hk hfront
                rw [List.nil_append, List.mem_singleton] at hk hfront
                exact absurd (hk.trans hfront.symm) hne
              have hbytes : s.bytes = e.body.length := by
                rw [hs.bytes_eq, halone, bodyBytes,
                  FiniteMap.sumBy_insert_of_none _ e (Finmap.lookup_erase front _), <- bodyBytes,
                  hrest, Int.zero_add]
              rw [hbytes] at hover
              exact absurd hover hfits
          | cons first kept =>
              have hhead : first = front := by
                rw [hback] at hll
                injection hll
              rw [hhead] at hback hremoved
              have hne : front ≠ back := by
                intro heq
                have hnodup := hs.nodup
                rw [hback, heq] at hnodup
                exact (List.nodup_cons.mp hnodup).1
                  (List.mem_append.mpr (Or.inr List.mem_cons_self))
              have hmem : back ∈ s.ll := List.mem_of_getLast? hlast
              refine ih (linked_removeLocked hs hmem) hremoved ?_ hfits ?_
              · exact (Finmap.lookup_erase_ne hne).trans he
              · rw [hremoved]
                exact List.mem_cons_self
      · exact hfront

/-!
# Runs
-/

inductive CacheOp where
  | get (now : Int) (key : String)
  | put (now : Int) (key : String) (body : Bytes)
  | purge
deriving DecidableEq

def step (s : Store) (op : CacheOp) : Store :=
  match op with
  | CacheOp.get now key => (s.get now key).2
  | CacheOp.put now key body => s.put now key body
  | CacheOp.purge => s.purge

def used (s : Store) (op : CacheOp) : List String :=
  match op with
  | CacheOp.get now key => if (s.get now key).1.isSome then [key] else []
  | CacheOp.put _ key body => if s.Fits body then [key] else []
  | CacheOp.purge => []

def run (maxBytes maxObjBytes : Int) (ttl : GoTime.Duration) (ops : List CacheOp) : Store :=
  after step (init maxBytes maxObjBytes ttl) ops

/-- The keys that the run used, the latest use first. -/
def uses (maxBytes maxObjBytes : Int) (ttl : GoTime.Duration) (ops : List CacheOp) :
    List String :=
  (emitted step used (init maxBytes maxObjBytes ttl) ops).reverse

/-- What holds of the store between two operations. -/
structure Sound (s : Store) (past : List String) : Prop where
  linked : s.Linked
  within : s.Within
  ordered : Ordered past s.ll

theorem ordered_pushFront (h : s.Sound past) (hnew : s.items.lookup key = none) (e : CacheEntry) :
    Ordered (key :: past) (s.pushFront key e).ll := by
  apply h.ordered.cons
  rw [h.linked.mem_iff]
  exact Finmap.lookup_eq_none.mp hnew

theorem sound_put (h : s.Sound past) (now : Int) (key : String) (body : Bytes) :
    (s.put now key body).Sound (used s (CacheOp.put now key body) ++ past) := by
  rw [used]
  by_cases hfits : s.Fits body
  · rw [if_pos hfits]
    cases hlookup : s.items.lookup key with
    | none =>
        have hpushed := linked_pushFront h.linked hlookup ⟨body, now⟩
        rcases evictLocked_spec hpushed with ⟨hlinked, hwithin, hevicts⟩
        rw [put_of_none hfits hlookup]
        exact ⟨hlinked, hwithin,
          (ordered_pushFront h hlookup _).sublist hevicts.kept.sublist⟩
    | some e =>
        rw [put_of_some hfits hlookup]
        exact ⟨linked_refresh h.linked hlookup now, h.within, h.ordered.moveToFront key⟩
  · rw [if_neg hfits, put_of_not_fits hfits]
    exact h

theorem sound_get (h : s.Sound past) (now : Int) (key : String) :
    (s.get now key).2.Sound (used s (CacheOp.get now key) ++ past) := by
  rw [used]
  rcases get_cases s now key with ⟨hlookup, hget⟩ | ⟨e, hlookup, hcase⟩
  · rw [hget]
    exact h
  · have hkey := mem_ll_of_lookup h.linked hlookup
    rcases hcase with ⟨_, hget⟩ | ⟨_, hget⟩
    · rw [hget]
      refine ⟨linked_removeLocked h.linked hkey, ?_, h.ordered.sublist List.erase_sublist⟩
      intro hcap
      have hle := h.within hcap
      change s.bytes - (s.items.lookup key).elim 0 (fun e => (e.body.length : Int)) <= s.maxBytes
      rw [hlookup, Option.elim_some]
      omega
    · rw [hget]
      exact ⟨linked_moveToFront h.linked hkey, h.within, h.ordered.moveToFront key⟩

theorem sound_purge {s : Store} {past : List String} : (s.purge).Sound past where
  linked := linked_init s.maxBytes s.maxObjBytes s.ttl
  within := fun hcap => Int.le_of_lt hcap
  ordered := ⟨List.Pairwise.nil, fun _ hk => absurd hk List.not_mem_nil⟩

theorem sound_step (h : s.Sound past) (op : CacheOp) : (step s op).Sound (used s op ++ past) := by
  cases op with
  | get now key => exact sound_get h now key
  | put now key body => exact sound_put h now key body
  | purge => exact sound_purge

theorem reverse_used (s : Store) (op : CacheOp) : (used s op).reverse = used s op := by
  cases op with
  | get now key | put now key body =>
      rw [used]
      split
      · rfl
      · rfl
  | purge => rfl

theorem uses_concat (maxBytes maxObjBytes : Int) (ttl : GoTime.Duration)
    (ops : List CacheOp) (op : CacheOp) :
    uses maxBytes maxObjBytes ttl (ops ++ [op]) =
      used (run maxBytes maxObjBytes ttl ops) op ++ uses maxBytes maxObjBytes ttl ops := by
  rw [uses, Transition.emitted_append, List.reverse_append, <- uses]
  change ([] ++ (used (run maxBytes maxObjBytes ttl ops) op ++ []).reverse) ++ _ = _
  rw [List.append_nil, reverse_used, List.nil_append]

theorem run_concat (maxBytes maxObjBytes : Int) (ttl : GoTime.Duration)
    (ops : List CacheOp) (op : CacheOp) :
    run maxBytes maxObjBytes ttl (ops ++ [op]) = step (run maxBytes maxObjBytes ttl ops) op :=
  Transition.after_append step _ ops [op]

theorem sound_run (maxBytes maxObjBytes : Int) (ttl : GoTime.Duration) (ops : List CacheOp) :
    (run maxBytes maxObjBytes ttl ops).Sound (uses maxBytes maxObjBytes ttl ops) := by
  induction ops using List.reverseRecOn with
  | nil => exact @sound_purge (init maxBytes maxObjBytes ttl) []
  | append_singleton ops op ih =>
      rw [run_concat, uses_concat]
      exact sound_step ih op

/-!
# Which keys stay
-/

theorem mem_put (hs : s.Linked) (hfits : s.Fits body) (now : Int) (key : String) :
    key ∈ (s.put now key body).items := by
  cases hlookup : s.items.lookup key with
  | none =>
      have hpushed := linked_pushFront hs hlookup ⟨body, now⟩
      rw [put_of_none hfits hlookup, <- (evictLocked_spec hpushed).1.mem_iff]
      exact front_mem_evictLoop hpushed rfl (Finmap.lookup_insert s.items) hfits.2
  | some e =>
      rw [put_of_some hfits hlookup, <- (linked_refresh hs hlookup now).mem_iff]
      exact List.mem_cons_self

theorem usedAfter_of_put (h : s.Sound past) {now : Int} {j k : String} (hj : j ∈ s.items)
    (hgone : j ∉ (s.put now key body).items) (hk : k ∈ (s.put now key body).items) :
    UsedAfter (used s (CacheOp.put now key body) ++ past) k j := by
  by_cases hfits : s.Fits body
  · rw [used, if_pos hfits]
    cases hlookup : s.items.lookup key with
    | none =>
        have hpushed := linked_pushFront h.linked hlookup ⟨body, now⟩
        rcases evictLocked_spec hpushed with ⟨hlinked, _, hevicts⟩
        rw [put_of_none hfits hlookup, <- hlinked.mem_iff] at hgone hk
        refine (ordered_pushFront h hlookup _).usedAfter_of_kept hevicts.kept hk ?_ hgone
        exact List.mem_cons_of_mem key ((h.linked.mem_iff j).mpr hj)
    | some e =>
        rw [put_of_some hfits hlookup] at hgone
        exact absurd (FiniteMap.mem_insert_iff.mpr (Or.inr hj)) hgone
  · rw [put_of_not_fits hfits] at hgone
    exact absurd hj hgone

theorem expired_of_get {now : Int} {j : String} (hj : j ∈ s.items)
    (hgone : j ∉ (s.get now key).2.items) :
    j = key ∧ exists e, s.items.lookup j = some e ∧ s.Expired now e := by
  rcases get_cases s now key with ⟨hlookup, hget⟩ | ⟨e, hlookup, ⟨hexpired, hget⟩ | ⟨_, hget⟩⟩
  · rw [hget] at hgone
    exact absurd hj hgone
  · have heq : j = key := by
      by_contra hne
      rw [hget] at hgone
      exact hgone (Finmap.mem_erase.mpr ⟨hne, hj⟩)
    rw [heq]
    exact ⟨rfl, e, hlookup, hexpired⟩
  · rw [hget] at hgone
    exact absurd hj hgone

/-!
# Where a body and its time come from
-/

def stored (s : Store) (key : String) (op : CacheOp) : Option (Int × Bytes) :=
  match op with
  | CacheOp.put now k body => if k = key ∧ s.Fits body then some (now, body) else none
  | CacheOp.get _ _ => none
  | CacheOp.purge => none

/-- The time and the body of the last write of the key that was within the caps. -/
def lastPut (s : Store) (key : String) (ops : List CacheOp) : Option (Int × Bytes) :=
  ops.foldl (fun last op => (stored s key op).or last) none

/-- A write of the body added the key, and every step since then has kept it. -/
def Inserted (s : Store) (ops : List CacheOp) (key : String) (body : Bytes) : Prop :=
  exists pre now rest, ops = pre ++ CacheOp.put now key body :: rest ∧
    key ∉ (after step s pre).items ∧
      StepsMeet step (fun s op => key ∈ (step s op).items) (after step s pre)
        (CacheOp.put now key body :: rest)

theorem lookup_evictLocked (hs : s.Linked) {k : String}
    (h : (evictLocked s).items.lookup k = some e) : s.items.lookup k = some e := by
  rcases evictLocked_spec hs with ⟨hlinked, _, hevicts⟩
  rw [<- hevicts.lookup k (mem_ll_of_lookup hlinked h)]
  exact h

theorem lookup_put_of_ne (hs : s.Linked) {now : Int} {k : String} (hfits : s.Fits body)
    (hkey : k ≠ key) (h : (s.put now k body).items.lookup key = some e) :
    s.items.lookup key = some e := by
  have hinsert : forall e' : CacheEntry,
      (s.items.insert k e').lookup key = s.items.lookup key :=
    fun e' => Finmap.lookup_insert_of_ne _ (Ne.symm hkey)
  cases hlookup : s.items.lookup k with
  | none =>
      rw [put_of_none hfits hlookup] at h
      rw [<- hinsert]
      exact lookup_evictLocked (linked_pushFront hs hlookup ⟨body, now⟩) h
  | some old =>
      rw [put_of_some hfits hlookup] at h
      rw [<- hinsert]
      exact h

theorem lookup_step (hs : s.Linked) {op : CacheOp} (h : (step s op).items.lookup key = some e) :
    (exists now body, op = CacheOp.put now key body ∧ key ∉ s.items ∧
      stored s key op = some (now, body) ∧ e = ⟨body, now⟩) ∨
      exists old, s.items.lookup key = some old ∧ e.body = old.body ∧
        ((stored s key op = none ∧ e.storedAt = old.storedAt) ∨
          exists body, stored s key op = some (e.storedAt, body)) := by
  have hkept : stored s key op = none -> s.items.lookup key = some e ->
      exists old, s.items.lookup key = some old ∧ e.body = old.body ∧
        ((stored s key op = none ∧ e.storedAt = old.storedAt) ∨
          exists body, stored s key op = some (e.storedAt, body)) :=
    fun hstored hold => ⟨e, hold, rfl, Or.inl ⟨hstored, rfl⟩⟩
  cases op with
  | get now k =>
      refine Or.inr (hkept rfl ?_)
      change (s.get now k).2.items.lookup key = some e at h
      rcases get_cases s now k with ⟨_, hget⟩ | ⟨_, _, ⟨_, hget⟩ | ⟨_, hget⟩⟩
      · rw [hget] at h
        exact h
      · rw [hget] at h
        exact (FiniteMap.lookup_erase_eq_some.mp h).2
      · rw [hget] at h
        exact h
  | put now k body =>
      change (s.put now k body).items.lookup key = some e at h
      by_cases hfits : s.Fits body
      · by_cases hkey : k = key
        · rw [hkey] at h ⊢
          have hstored : stored s key (CacheOp.put now key body) = some (now, body) :=
            if_pos ⟨rfl, hfits⟩
          cases hlookup : s.items.lookup key with
          | none =>
              rw [put_of_none hfits hlookup] at h
              have hfound := lookup_evictLocked (linked_pushFront hs hlookup ⟨body, now⟩) h
              rw [pushFront, Finmap.lookup_insert] at hfound
              injection hfound with hentry
              exact Or.inl ⟨now, body, rfl, Finmap.lookup_eq_none.mp hlookup, hstored,
                hentry.symm⟩
          | some old =>
              rw [put_of_some hfits hlookup] at h
              have hfound : (s.items.insert key { old with storedAt := now }).lookup key =
                some e := h
              rw [Finmap.lookup_insert] at hfound
              cases hfound
              exact Or.inr ⟨old, rfl, rfl, Or.inr ⟨body, hstored⟩⟩
        · have hstored : stored s key (CacheOp.put now k body) = none :=
            if_neg fun hboth => hkey hboth.1
          exact Or.inr (hkept hstored (lookup_put_of_ne hs hfits hkey h))
      · rw [put_of_not_fits hfits] at h
        have hstored : stored s key (CacheOp.put now k body) = none :=
          if_neg fun hboth => hfits hboth.2
        exact Or.inr (hkept hstored h)
  | purge =>
      cases h

theorem caps_step (hs : s.Linked) (op : CacheOp) :
    (step s op).maxBytes = s.maxBytes ∧ (step s op).maxObjBytes = s.maxObjBytes ∧
      (step s op).ttl = s.ttl := by
  cases op with
  | get now key =>
      change (s.get now key).2.maxBytes = s.maxBytes ∧ (s.get now key).2.maxObjBytes =
        s.maxObjBytes ∧ (s.get now key).2.ttl = s.ttl
      rcases get_cases s now key with ⟨_, hget⟩ | ⟨_, _, ⟨_, hget⟩ | ⟨_, hget⟩⟩
      all_goals
        rw [hget]
        exact ⟨rfl, rfl, rfl⟩
  | put now key body =>
      change (s.put now key body).maxBytes = s.maxBytes ∧ (s.put now key body).maxObjBytes =
        s.maxObjBytes ∧ (s.put now key body).ttl = s.ttl
      by_cases hfits : s.Fits body
      · cases hlookup : s.items.lookup key with
        | none =>
            rw [put_of_none hfits hlookup]
            exact (evictLocked_spec (linked_pushFront hs hlookup ⟨body, now⟩)).2.2.caps
        | some e =>
            rw [put_of_some hfits hlookup]
            exact ⟨rfl, rfl, rfl⟩
      · rw [put_of_not_fits hfits]
        exact ⟨rfl, rfl, rfl⟩
  | purge => exact ⟨rfl, rfl, rfl⟩

theorem caps_run (maxBytes maxObjBytes : Int) (ttl : GoTime.Duration) (ops : List CacheOp) :
    (run maxBytes maxObjBytes ttl ops).maxBytes = maxBytes ∧
      (run maxBytes maxObjBytes ttl ops).maxObjBytes = maxObjBytes ∧
        (run maxBytes maxObjBytes ttl ops).ttl = ttl := by
  induction ops using List.reverseRecOn with
  | nil => exact ⟨rfl, rfl, rfl⟩
  | append_singleton ops op ih =>
      have hstep := caps_step (sound_run maxBytes maxObjBytes ttl ops).linked op
      rw [run_concat]
      exact ⟨hstep.1.trans ih.1, hstep.2.1.trans ih.2.1, hstep.2.2.trans ih.2.2⟩

theorem stored_congr {s' : Store} (hbytes : s.maxBytes = s'.maxBytes)
    (hobj : s.maxObjBytes = s'.maxObjBytes) (key : String) (op : CacheOp) :
    stored s key op = stored s' key op := by
  cases op with
  | get now k | purge => rfl
  | put now k body =>
      have hfits : s.Fits body <-> s'.Fits body := by
        rw [Fits, Fits, hbytes, hobj]
      rw [stored, stored]
      simp only [hfits]

theorem lastPut_concat (s : Store) (key : String) (ops : List CacheOp) (op : CacheOp) :
    lastPut s key (ops ++ [op]) = (stored s key op).or (lastPut s key ops) :=
  List.foldl_append

theorem inserted_concat {ops : List CacheOp} {op : CacheOp} (h : Inserted s ops key body)
    (hheld : key ∈ (step (after step s ops) op).items) : Inserted s (ops ++ [op]) key body := by
  rcases h with ⟨pre, now, rest, rfl, hnew, hmeet⟩
  refine ⟨pre, now, rest ++ [op], ?_, hnew, ?_⟩
  · rw [List.append_assoc, List.cons_append]
  · refine Transition.stepsMeet_append hmeet ⟨?_, trivial⟩
    rw [<- Transition.after_append]
    exact hheld

theorem lookup_run {maxBytes maxObjBytes : Int} {ttl : GoTime.Duration} {ops : List CacheOp}
    (h : (run maxBytes maxObjBytes ttl ops).items.lookup key = some e) :
    Inserted (init maxBytes maxObjBytes ttl) ops key e.body ∧
      exists body, lastPut (init maxBytes maxObjBytes ttl) key ops = some (e.storedAt, body) := by
  induction ops using List.reverseRecOn generalizing e with
  | nil =>
      cases h
  | append_singleton ops op ih =>
      rw [run_concat] at h
      have hcaps := caps_run maxBytes maxObjBytes ttl ops
      have hstored : stored (init maxBytes maxObjBytes ttl) key op =
          stored (run maxBytes maxObjBytes ttl ops) key op :=
        stored_congr hcaps.1.symm hcaps.2.1.symm key op
      have hheld : key ∈ (step (run maxBytes maxObjBytes ttl ops) op).items :=
        Finmap.mem_iff.mpr ⟨e, h⟩
      rw [lastPut_concat, hstored]
      rcases lookup_step (sound_run maxBytes maxObjBytes ttl ops).linked h with
        ⟨now, body, hop, hnew, hput, hentry⟩ | ⟨old, hold, hbody, hcase⟩
      · rw [hput, hentry]
        refine ⟨⟨ops, now, [], ?_, hnew, ?_⟩, body, rfl⟩
        · rw [hop]
        · rw [hop] at hheld
          exact ⟨hheld, trivial⟩
      · rcases ih hold with ⟨hinserted, last, hlast⟩
        rw [hbody]
        refine ⟨inserted_concat hinserted hheld, ?_⟩
        rcases hcase with ⟨hnone, htime⟩ | ⟨body, hput⟩
        · rw [hnone, htime]
          exact ⟨last, hlast⟩
        · rw [hput]
          exact ⟨body, rfl⟩

/-!
# The cache over a run
-/

/-- Writing a held key again leaves the first body, so a read may not return the last one. -/
theorem put_keeps_first_body :
    Not (forall (maxBytes maxObjBytes : Int) (ttl : GoTime.Duration) (ops : List CacheOp)
      (now : Int) (key : String) (body : Bytes),
      ((run maxBytes maxObjBytes ttl ops).get now key).1 = some body ->
        (lastPut (init maxBytes maxObjBytes ttl) key ops).map Prod.snd = some body) := by
  intro h
  have hlast := h 1024 1024 0 [CacheOp.put 0 "k" [1], CacheOp.put 1 "k" [2]] 2 "k" [1]
    (by decide +kernel)
  revert hlast
  decide +kernel

/--
After every run: the list and the map hold the same keys, each once; the bytes are counted
and within the cap; a body within both caps is held after its write; a write drops keys
only in the order of their last uses, and a read only the expired key that it is asked for;
and a read returns the body that added the key, younger than the time to live since the
last write of the key.
-/
theorem store_over_runs (maxBytes maxObjBytes : Int) (ttl : GoTime.Duration)
    (ops : List CacheOp) :
    (run maxBytes maxObjBytes ttl ops).Linked ∧
      (0 < maxBytes -> (run maxBytes maxObjBytes ttl ops).bytes <= maxBytes) ∧
      (forall now key body, (run maxBytes maxObjBytes ttl ops).Fits body ->
        key ∈ (run maxBytes maxObjBytes ttl (ops ++ [CacheOp.put now key body])).items) ∧
      (forall now key body j k, j ∈ (run maxBytes maxObjBytes ttl ops).items ->
        j ∉ (run maxBytes maxObjBytes ttl (ops ++ [CacheOp.put now key body])).items ->
        k ∈ (run maxBytes maxObjBytes ttl (ops ++ [CacheOp.put now key body])).items ->
          UsedAfter (uses maxBytes maxObjBytes ttl (ops ++ [CacheOp.put now key body])) k j) ∧
      (forall now key j, j ∈ (run maxBytes maxObjBytes ttl ops).items ->
        j ∉ (run maxBytes maxObjBytes ttl (ops ++ [CacheOp.get now key])).items ->
          j = key ∧ exists e, (run maxBytes maxObjBytes ttl ops).items.lookup j = some e ∧
            0 < ttl ∧ ttl.toInt <= now - e.storedAt) ∧
      forall now key body,
        ((run maxBytes maxObjBytes ttl ops).get now key).1 = some body ->
          Inserted (init maxBytes maxObjBytes ttl) ops key body ∧
            exists storedAt last,
              lastPut (init maxBytes maxObjBytes ttl) key ops = some (storedAt, last) ∧
                (0 < ttl -> now - storedAt < ttl.toInt) := by
  have hsound := sound_run maxBytes maxObjBytes ttl ops
  have hcaps := caps_run maxBytes maxObjBytes ttl ops
  refine ⟨hsound.linked, ?_, ?_, ?_, ?_, ?_⟩
  · intro hcap
    have hwithin := hsound.within
    rw [Within, hcaps.1] at hwithin
    exact hwithin hcap
  · intro now key body hfits
    rw [run_concat]
    exact mem_put hsound.linked hfits now key
  · intro now key body j k hj hgone hk
    rw [run_concat] at hgone hk
    rw [uses_concat]
    exact usedAfter_of_put hsound hj hgone hk
  · intro now key j hj hgone
    rw [run_concat] at hgone
    rcases expired_of_get hj hgone with ⟨hkey, e, hlookup, hexpired⟩
    rw [Expired, hcaps.2.2, expired_iff] at hexpired
    exact ⟨hkey, e, hlookup, hexpired⟩
  · intro now key body hget
    rcases get_cases (run maxBytes maxObjBytes ttl ops) now key with
      ⟨_, hmiss⟩ | ⟨e, hlookup, ⟨_, hmiss⟩ | ⟨hlive, hhit⟩⟩
    · rw [hmiss] at hget
      cases hget
    · rw [hmiss] at hget
      cases hget
    · rw [hhit] at hget
      injection hget with hbody
      rcases lookup_run hlookup with ⟨hinserted, last, hlast⟩
      rw [hbody] at hinserted
      rw [Expired, hcaps.2.2, expired_iff] at hlive
      exact ⟨hinserted, e.storedAt, last, hlast,
        fun hpos => Int.not_le.mp fun hle => hlive ⟨hpos, hle⟩⟩

theorem first_body_was_inserted :
    Inserted (init 1024 1024 0) [CacheOp.put 0 "k" [1], CacheOp.put 1 "k" [2]] "k" [1] :=
  ((store_over_runs 1024 1024 0 _).2.2.2.2.2 2 "k" [1] (by decide +kernel)).1

end Store

end Pubcache
end Ephor
