import Ephor.Rendezvous.Ttl

/-!
# The presence directory

`presence.go` with the end of `handleAnnounce`.  The directory holds one record for each key:
what the key announced last, until it withdraws or the record expires.  An announce now and
then sweeps the expired records of every key.  Each operation is one critical section.
-/

namespace Ephor
namespace Rendezvous

open Foundation
open Foundation.GoTime

def maxEndpoints : Nat := 16

def maxEndpointLen : Nat := 512

def maxMetaLen : Nat := 2048

structure PresenceRecord where
  endpoints : List Bytes
  metadata : Bytes
  updatedAt : Int
  expiresAt : Int
deriving DecidableEq

/-- `now.Before(rec.expiresAt)`. -/
def PresenceRecord.live (now : Int) (r : PresenceRecord) : Bool :=
  decide (now < r.expiresAt)

structure Announcement where
  endpoints : List Bytes
  metadata : Bytes
  ttl : Int64

/-- The status and the text of `writeErr`. -/
structure Refusal where
  status : Nat
  reason : String
deriving DecidableEq

structure PresenceStore where
  byKey : FiniteMap String PresenceRecord
  maxKeys : Int
  swep : Int

/-- The entries that the loop of `sanitizeEndpoints` does not pass over. -/
def validEndpoint (e : Bytes) : Bool :=
  decide (e ≠ []) && decide (e.length <= maxEndpointLen) && decide (0x0A ∉ e) && decide (0x0D ∉ e)

def sanitizeEndpoints (endpoints : List Bytes) : List Bytes :=
  (endpoints.filter validEndpoint).take maxEndpoints

/-- What the directory keeps of an announcement. -/
def Announcement.record (a : Announcement) (now : Int) : PresenceRecord where
  endpoints := sanitizeEndpoints a.endpoints
  metadata := a.metadata
  updatedAt := now
  expiresAt := add now (clampPresenceTTL a.ttl)

structure PresenceRecord.Fits (r : PresenceRecord) : Prop where
  endpoints : r.endpoints.length <= maxEndpoints
  valid : forall e, e ∈ r.endpoints -> validEndpoint e = true
  metadata : r.metadata.length <= maxMetaLen
  expires : r.expiresAt <= add r.updatedAt maxPresenceTTL

namespace PresenceStore

def newPresenceStore (maxKeys : Int) : PresenceStore where
  byKey := ∅
  maxKeys := if maxKeys <= 0 then 100000 else maxKeys
  swep := 0

def sweepLocked (s : PresenceStore) (now : Int) : PresenceStore :=
  if sub now s.swep < minute then
    s
  else
    { s with
      swep := now
      byKey := FiniteMap.filter (fun _ r => r.live now) s.byKey }

/-- The expiry of the record, unless the directory is full. -/
def upsert (s : PresenceStore) (key : String) (endpoints : List Bytes) (metadata : Bytes)
    (ttl : Duration) (now : Int) : Option Int × PresenceStore :=
  let s := s.sweepLocked now
  if (s.byKey.lookup key).isNone ∧ s.maxKeys <= s.byKey.size then
    (none, s)
  else
    (some (add now ttl),
      { s with byKey := s.byKey.insert key ⟨endpoints, metadata, now, add now ttl⟩ })

def resolve (s : PresenceStore) (key : String) (now : Int) : Option PresenceRecord :=
  (s.byKey.lookup key).filter (PresenceRecord.live now)

def remove (s : PresenceStore) (key : String) : PresenceStore :=
  { s with byKey := s.byKey.erase key }

/-- `handleAnnounce` past the replay guard: the stored record, or the refusal. -/
def announce (s : PresenceStore) (key : String) (a : Announcement) (now : Int) :
    Except Refusal PresenceRecord × PresenceStore :=
  if maxMetaLen < a.metadata.length then
    (Except.error ⟨413, "meta too large"⟩, s)
  else
    let endpoints := sanitizeEndpoints a.endpoints
    match s.upsert key endpoints a.metadata (clampPresenceTTL a.ttl) now with
    | (none, s) => (Except.error ⟨503, "presence directory at capacity"⟩, s)
    | (some expiresAt, s) => (Except.ok ⟨endpoints, a.metadata, now, expiresAt⟩, s)

/-!
# Runs of the directory
-/

inductive Op where
  | announce (key : String) (a : Announcement) (now : Int)
  | withdraw (key : String)

def step (s : PresenceStore) : Op -> PresenceStore
  | Op.announce key a now => (s.announce key a now).2
  | Op.withdraw key => s.remove key

/-- The directory has no record of the key and, swept, no room for one. -/
def full (s : PresenceStore) (key : String) (now : Int) : Bool :=
  ((s.sweepLocked now).byKey.lookup key).isNone &&
    decide ((s.sweepLocked now).maxKeys <= (s.sweepLocked now).byKey.size)

/-- Whether an announcement is refused, and changes nothing. -/
def refuses (s : PresenceStore) (key : String) (a : Announcement) (now : Int) : Bool :=
  decide (maxMetaLen < a.metadata.length) || s.full key now

/-- What an operation makes of its key. -/
def change (s : PresenceStore) : Op -> List (String × Option PresenceRecord)
  | Op.announce key a now => if s.refuses key a now then [] else [(key, some (a.record now))]
  | Op.withdraw key => [(key, none)]

def latest (key : String) (changes : List (String × Option PresenceRecord)) :
    Option PresenceRecord :=
  changes.foldl (fun current c => if c.1 = key then c.2 else current) none

def NotAfter (now : Int) : Op -> Prop
  | Op.announce _ _ t => t <= now
  | Op.withdraw _ => True

structure Bounded (s : PresenceStore) : Prop where
  size : s.byKey.size <= s.maxKeys
  fits : forall key r, s.byKey.lookup key = some r -> r.Fits

/-- The directory and the changes say the same about every resolve at this time. -/
def Agrees (now : Int) (s : PresenceStore) (changes : List (String × Option PresenceRecord)) :
    Prop :=
  forall key, s.resolve key now = (latest key changes).filter (PresenceRecord.live now)

variable {s : PresenceStore}

theorem announce_cases (s : PresenceStore) (key : String) (a : Announcement) (now : Int) :
    s.refuses key a now = true ∧ (exists e, s.announce key a now = (Except.error e, s) ∨
      s.announce key a now = (Except.error e, s.sweepLocked now)) ∨
    s.refuses key a now = false ∧ s.announce key a now = (Except.ok (a.record now),
        { s.sweepLocked now with
          byKey := (s.sweepLocked now).byKey.insert key (a.record now) }) := by
  unfold refuses announce upsert
  by_cases hmeta : maxMetaLen < a.metadata.length
  · rw [if_pos hmeta, decide_eq_true hmeta]
    exact Or.inl ⟨rfl, _, Or.inl rfl⟩
  · rw [if_neg hmeta, decide_eq_false hmeta, Bool.false_or, full]
    dsimp only
    by_cases hfull : ((s.sweepLocked now).byKey.lookup key).isNone ∧
        (s.sweepLocked now).maxKeys <= (s.sweepLocked now).byKey.size
    · rw [if_pos hfull, hfull.1, decide_eq_true hfull.2]
      exact Or.inl ⟨rfl, _, Or.inr rfl⟩
    · rw [if_neg hfull]
      refine Or.inr ⟨?_, rfl⟩
      rw [<- Bool.not_eq_true, Bool.and_eq_true, decide_eq_true_eq]
      exact hfull

theorem fits_record {a : Announcement} (hmeta : a.metadata.length <= maxMetaLen) (now : Int) :
    (a.record now).Fits where
  endpoints := List.length_take_le _ _
  valid _ he := (List.mem_filter.mp (List.mem_of_mem_take he)).2
  metadata := hmeta
  expires := Int.add_le_add_left (Int64.le_iff_toInt_le.mp (clampSeconds_le (by decide) a.ttl)) now

theorem lookup_sweepLocked {key : String} {r : PresenceRecord} {t : Int}
    (h : (s.sweepLocked t).byKey.lookup key = some r) : s.byKey.lookup key = some r := by
  unfold sweepLocked at h
  split at h
  · exact h
  · exact (FiniteMap.lookup_filter_eq_some.mp h).1

theorem resolve_sweepLocked (s : PresenceStore) (key : String) {t now : Int} (h : t <= now) :
    (s.sweepLocked t).resolve key now = s.resolve key now := by
  unfold sweepLocked
  split
  · rfl
  · apply Option.ext
    intro r
    have hlive : r.live now = true -> r.live t = true := by
      intro hr
      exact decide_eq_true (Int.lt_of_le_of_lt h (of_decide_eq_true hr))
    simp only [resolve, Option.filter_eq_some_iff, FiniteMap.lookup_filter_eq_some]
    exact ⟨fun hr => ⟨hr.1.1, hr.2⟩, fun hr => ⟨⟨hr.1, hlive hr.2⟩, hr.2⟩⟩

theorem agrees_step {now : Int} (s : PresenceStore)
    (changes : List (String × Option PresenceRecord)) (op : Op) (h : Agrees now s changes)
    (hclock : NotAfter now op) : Agrees now (s.step op) (changes ++ s.change op) := by
  intro key
  cases op with
  | announce key' a t =>
      have hswept := resolve_sweepLocked s key hclock
      rw [step, change]
      rcases announce_cases s key' a t with
        ⟨hrefuses, e, hrefused | hrefused⟩ | ⟨hrefuses, haccepted⟩
      · rw [hrefused, if_pos hrefuses, List.append_nil, h key]
      · rw [hrefused, if_pos hrefuses, List.append_nil, hswept, h key]
      · rw [haccepted, hrefuses, latest, List.foldl_append]
        change _ = (if key' = key then some (a.record t) else latest key changes).filter _
        split
        · rename_i heq
          rw [resolve, heq, Finmap.lookup_insert]
        · rename_i hne
          rw [<- h key, <- hswept, resolve, Finmap.lookup_insert_of_ne _ (Ne.symm hne)]
          rfl
  | withdraw key' =>
      rw [latest, List.foldl_append]
      change _ = (if key' = key then none else latest key changes).filter _
      split
      · rename_i heq
        rw [resolve, step, remove, heq, Finmap.lookup_erase]
      · rename_i hne
        rw [<- h key, resolve, step, remove, Finmap.lookup_erase_ne (Ne.symm hne)]
        rfl

theorem bounded_sweepLocked (t : Int) (h : Bounded s) : Bounded (s.sweepLocked t) where
  size := by
    unfold sweepLocked
    split
    · exact h.size
    · exact Int.le_trans (Int.ofNat_le.mpr (FiniteMap.size_filter_le _ _)) h.size
  fits := fun key r hr => h.fits key r (lookup_sweepLocked hr)

theorem bounded_step (s : PresenceStore) (op : Op) (h : Bounded s) : Bounded (s.step op) := by
  cases op with
  | announce key a t =>
      have hswept := bounded_sweepLocked t h
      rw [step]
      rcases announce_cases s key a t with
        ⟨_, e, hrefused | hrefused⟩ | ⟨hrefuses, haccepted⟩
      · rw [hrefused]
        exact h
      · rw [hrefused]
        exact hswept
      · rcases Bool.or_eq_false_iff.mp hrefuses with ⟨hmeta, hfull⟩
        rw [haccepted]
        constructor
        · dsimp only
          cases hold : (s.sweepLocked t).byKey.lookup key with
          | none =>
              rw [FiniteMap.size_insert_of_none _ hold]
              rw [full, hold] at hfull
              exact Int.not_le.mp (of_decide_eq_false hfull)
          | some old =>
              rw [FiniteMap.size_insert_of_some _ hold]
              exact hswept.size
        · intro key' r' hr'
          rcases FiniteMap.lookup_insert_eq_some.mp hr' with ⟨_, heq⟩ | ⟨_, hold⟩
          · rw [heq]
            exact fits_record (Nat.not_lt.mp (of_decide_eq_false hmeta)) t
          · exact hswept.fits key' r' hold
  | withdraw key =>
      constructor
      · change (FiniteMap.size (s.byKey.erase key) : Int) <= s.maxKeys
        cases hold : s.byKey.lookup key with
        | none =>
            rw [FiniteMap.erase_of_lookup_none hold]
            exact h.size
        | some r =>
            have hsize := FiniteMap.size_erase hold
            have hroom := h.size
            omega
      · intro key' r hr
        exact h.fits key' r (FiniteMap.lookup_erase_eq_some.mp hr).2

/-- After any operations a resolve answers what the key announced last without being refused,
unless that was withdrawn or is expired; and the directory and its records stay within their
bounds. -/
theorem presence_over_runs (maxKeys : Int) (ops : List Op) (now : Int)
    (hclock : Transition.StepsMeet step (fun _ op => NotAfter now op) (newPresenceStore maxKeys)
      ops) :
    Agrees now (Transition.after step (newPresenceStore maxKeys) ops)
        (Transition.emitted step change (newPresenceStore maxKeys) ops) ∧
      Bounded (Transition.after step (newPresenceStore maxKeys) ops) := by
  constructor
  · have hstart : Agrees now (newPresenceStore maxKeys) [] := fun _ => rfl
    exact Transition.invariant_emitted agrees_step hstart hclock
  · refine Transition.invariant_after (fun s op h _ => bounded_step s op h) ⟨?_, ?_⟩ hclock
    · unfold newPresenceStore
      dsimp only
      split
      · decide
      · exact Int.le_of_lt (Int.not_le.mp ‹_›)
    · intro key r hr
      cases hr

/-- The second key finds the directory full, and the first is resolved. -/
theorem presence_after_refusal :
    (Transition.after step (newPresenceStore 1) [Op.announce "a" ⟨[[0x65]], [], 60⟩ 5,
      Op.announce "b" ⟨[], [], 60⟩ 6]).resolve "a" 6 = some ⟨[[0x65]], [], 5, 60000000005⟩ :=
  ((presence_over_runs 1 [Op.announce "a" ⟨[[0x65]], [], 60⟩ 5, Op.announce "b" ⟨[], [], 60⟩ 6] 6
    ⟨(by decide : (5 : Int) <= 6), Int.le_refl 6, trivial⟩).1 "a").trans (by decide +kernel)

end PresenceStore

end Rendezvous
end Ephor
