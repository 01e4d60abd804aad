import Ephor.Foundation.FiniteMap
import Ephor.Foundation.GoTime
import Ephor.Pubcache.Verify

/-!
# The cache

`pubcache/store.go`: an LRU store with a byte cap and a time to live.  The recency
list holds the keys, the most recently used first; what an element of the list
points to is the entry of the item map under its key.
-/

namespace Ephor
namespace Pubcache

open Foundation

structure CacheEntry where
  body : Bytes
  storedAt : Int

structure Store where
  maxBytes : Int
  maxObjBytes : Int
  ttl : GoTime.Duration
  ll : List String
  items : FiniteMap String CacheEntry
  bytes : Int

def cacheKey (kind : Kind) (a : Addr) : String :=
  kind.string ++ ":" ++ a.string

namespace Store

def init (maxBytes maxObjBytes : Int) (ttl : GoTime.Duration) : Store where
  maxBytes := maxBytes
  maxObjBytes := maxObjBytes
  ttl := ttl
  ll := []
  items := ∅
  bytes := 0

def removeLocked (s : Store) (key : String) : Store :=
  { s with
    ll := s.ll.erase key
    items := s.items.erase key
    bytes := s.bytes - ((s.items.lookup key).elim 0 fun e => (e.body.length : Int)) }

def moveToFront (s : Store) (key : String) : Store :=
  { s with ll := key :: s.ll.erase key }

/-- `get`; the store time it also returns is read by no caller. -/
def get (s : Store) (now : Int) (key : String) : Option Bytes × Store :=
  match s.items.lookup key with
  | none => (none, s)
  | some e =>
      if 0 < s.ttl ∧ s.ttl <= GoTime.sub now e.storedAt then
        (none, s.removeLocked key)
      else
        (some e.body, s.moveToFront key)

/-- The loop of `evictLocked`; it removes an element a round, so the length bounds it. -/
def evictLoop : Nat -> Store -> Store
  | 0, s => s
  | n + 1, s =>
      if 0 < s.maxBytes ∧ s.maxBytes < s.bytes then
        match s.ll.getLast? with
        | none => s
        | some back => evictLoop n (s.removeLocked back)
      else
        s

def evictLocked (s : Store) : Store :=
  evictLoop s.ll.length s

def put (s : Store) (now : Int) (key : String) (body : Bytes) : Store :=
  if 0 < s.maxObjBytes ∧ s.maxObjBytes < body.length then
    s
  else if 0 < s.maxBytes ∧ s.maxBytes < body.length then
    s
  else
    match s.items.lookup key with
    | some e =>
        moveToFront
          { s with items := s.items.insert key { e with storedAt := now } } key
    | none =>
        evictLocked
          { s with
            ll := key :: s.ll
            items := s.items.insert key ⟨body, now⟩
            bytes := s.bytes + body.length }

def purge (s : Store) : Store :=
  { s with ll := [], items := ∅, bytes := 0 }

/-!
# Where bodies come from
-/

def Holds (s : Store) (key : String) (body : Bytes) : Prop :=
  exists storedAt, s.items.lookup key = some ⟨body, storedAt⟩

theorem holds_removeLocked {s : Store} {key k : String} {body : Bytes}
    (h : (s.removeLocked key).Holds k body) : s.Holds k body := by
  rcases h with ⟨storedAt, hlookup⟩
  exact ⟨storedAt, (FiniteMap.lookup_erase_eq_some.mp hlookup).2⟩

theorem holds_evictLoop {n : Nat} {s : Store} {k : String} {body : Bytes}
    (h : (evictLoop n s).Holds k body) : s.Holds k body := by
  induction n generalizing s with
  | zero => exact h
  | succ n ih =>
      unfold evictLoop at h
      split at h
      · split at h
        · exact h
        · exact holds_removeLocked (ih h)
      · exact h

theorem get_holds {s : Store} {now : Int} {key : String} :
    (forall body, (s.get now key).1 = some body -> s.Holds key body) ∧
      forall k body, (s.get now key).2.Holds k body -> s.Holds k body := by
  unfold get
  split
  · constructor
    · intro body hbody
      cases hbody
    · intro k body hold
      exact hold
  · rename_i e hlookup
    split
    · constructor
      · intro body hbody
        cases hbody
      · intro k body hold
        exact holds_removeLocked hold
    · constructor
      · intro body hbody
        cases hbody
        exact ⟨e.storedAt, hlookup⟩
      · intro k body hold
        exact hold

theorem put_holds {s : Store} {now : Int} {key k : String} {body held : Bytes}
    (h : (s.put now key body).Holds k held) : s.Holds k held ∨ (k = key ∧ held = body) := by
  unfold put at h
  split at h
  · exact Or.inl h
  · split at h
    · exact Or.inl h
    · split at h
      · rename_i e hlookup
        rcases h with ⟨storedAt, hinsert⟩
        apply Or.inl
        rcases FiniteMap.lookup_insert_eq_some.mp hinsert with
          ⟨hk, hentry⟩ | ⟨_, hold⟩
        · rw [hk]
          injection hentry with hbody _
          rw [hbody]
          exact ⟨e.storedAt, hlookup⟩
        · exact ⟨storedAt, hold⟩
      · rcases holds_evictLoop h with ⟨storedAt, hinsert⟩
        rcases FiniteMap.lookup_insert_eq_some.mp hinsert with
          ⟨hk, hentry⟩ | ⟨_, hold⟩
        · injection hentry with hbody _
          exact Or.inr ⟨hk, hbody⟩
        · exact Or.inl ⟨storedAt, hold⟩

end Store

end Pubcache
end Ephor
