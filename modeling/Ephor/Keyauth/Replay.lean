import Ephor.Foundation.FiniteMap
import Ephor.Foundation.GoTime

/-!
# Freshness and replay protection for signed writes

The guard of `keyauth/replay.go`.  A signed write carries a Unix timestamp and a
nonce.  The guard accepts it when the timestamp lies within the skew of the
node's clock and the (key, nonce) pair has no live entry in the seen-set; an
accepted pair is remembered until the clock has advanced by the skew.
-/

namespace Ephor
namespace Keyauth

open Foundation
open Foundation.GoTime

/-!
# The guard

Every field of the Go structure except its mutex: one call of
`CheckAndRecord` runs its map accesses under that mutex, so a run of the guard is
a sequence of calls.
-/

def defaultClockSkew : Duration := 5 * minute

structure Guard where
  skew : Duration
  maxKeys : Int
  seen : FiniteMap String Int
  swep : Int

/-- `NewGuard`, with its defaults for non-positive arguments. -/
def newGuard (skew : Duration) (maxKeys : Int) : Guard :=
  { skew := if skew <= 0 then defaultClockSkew else skew
    maxKeys := if maxKeys <= 0 then 100000 else maxKeys
    seen := ∅
    swep := 0 }

/-- `FreshTimestamp`: is the Unix second `ts` within the skew of `now`? -/
def Guard.freshTimestamp (g : Guard) (ts : Int64) (now : Int) : Bool :=
  if ts <= 0 then
    false
  else
    let delta := sub now (unix ts)
    let delta := if delta < 0 then -delta else delta
    decide (delta <= g.skew)

def Guard.sweepInterval (g : Guard) : Duration :=
  if g.skew / 4 <= 0 then minute else g.skew / 4

/-- `sweepLocked`: drop expired nonces, at most once per sweep interval. -/
def Guard.sweepLocked (g : Guard) (now : Int) : Guard :=
  if sub now g.swep < g.sweepInterval then
    g
  else
    { g with
      swep := now
      seen := FiniteMap.filter (fun _ exp => decide (now < exp)) g.seen }

/-- The seen-set key of a (key, nonce) pair. -/
def nonceId (key nonce : String) : String :=
  key ++ "\x00" ++ nonce

/-- Does the seen-set hold a live entry for this pair? -/
def Guard.replayed (g : Guard) (id : String) (now : Int) : Bool :=
  match g.seen.lookup id with
  | some exp => decide (now < exp)
  | none => false

def Guard.remember (g : Guard) (id : String) (now : Int) : Guard :=
  { g with seen := g.seen.insert id (add now g.skew) }

/-- The map accesses of `CheckAndRecord`, on a swept guard. -/
def Guard.record (g : Guard) (id : String) (now : Int) : Bool × Guard :=
  if g.replayed id now then
    (false, g)
  else if g.maxKeys <= g.seen.size ∧ (g.seen.lookup id).isNone then
    (false, g)
  else
    (true, g.remember id now)

/-- `CheckAndRecord`: the verdict on one signed write, and the guard after it. -/
def Guard.checkAndRecord (g : Guard) (key nonce : String) (ts : Int64)
    (now : Int) : Bool × Guard :=
  if nonce = "" ∨ g.freshTimestamp ts now = false then
    (false, g)
  else
    (g.sweepLocked now).record (nonceId key nonce) now

/-!
# Facts about one call
-/

theorem newGuard_skew {skew : Duration} (maxKeys : Int) (h : 0 < skew) :
    (newGuard skew maxKeys).skew = skew := by
  have hpos : Not (skew <= 0) := by
    rw [Int64.lt_iff_toInt_lt] at h
    rw [Int64.le_iff_toInt_le]
    omega
  simp [newGuard, hpos]

theorem newGuard_maxKeys_pos (skew : Duration) (maxKeys : Int) :
    0 < (newGuard skew maxKeys).maxKeys := by
  unfold newGuard
  dsimp only
  split <;> omega

theorem sweepLocked_skew (g : Guard) (now : Int) : (g.sweepLocked now).skew = g.skew := by
  unfold Guard.sweepLocked
  split <;> rfl

theorem sweepLocked_maxKeys (g : Guard) (now : Int) : (g.sweepLocked now).maxKeys = g.maxKeys := by
  unfold Guard.sweepLocked
  split <;> rfl

theorem sweepLocked_seen_cases (g : Guard) (now : Int) :
    (g.sweepLocked now).seen = g.seen ∨
      (g.sweepLocked now).seen =
        FiniteMap.filter (fun _ exp => decide (now < exp)) g.seen := by
  unfold Guard.sweepLocked
  split
  · exact Or.inl rfl
  · exact Or.inr rfl

theorem sweepLocked_lookup {g : Guard} {now : Int} {id : String} {exp : Int}
    (h : g.seen.lookup id = some exp) (hlive : now < exp) :
    (g.sweepLocked now).seen.lookup id = some exp := by
  rcases sweepLocked_seen_cases g now with hseen | hseen
  · rw [hseen, h]
  · rw [hseen]
    exact FiniteMap.lookup_filter_eq_some.mpr ⟨h, decide_eq_true hlive⟩

theorem sweepLocked_lookup_of_some {g : Guard} {now : Int} {id : String}
    {exp : Int} (h : (g.sweepLocked now).seen.lookup id = some exp) :
    g.seen.lookup id = some exp := by
  rcases sweepLocked_seen_cases g now with hseen | hseen
  · rwa [hseen] at h
  · rw [hseen] at h
    exact (FiniteMap.lookup_filter_eq_some.mp h).left

theorem replayed_eq_false {g : Guard} {id : String} {now : Int} :
    g.replayed id now = false <-> forall exp, g.seen.lookup id = some exp -> exp <= now := by
  unfold Guard.replayed
  cases hl : g.seen.lookup id with
  | none | some exp => simp

theorem record_cases (g : Guard) (id : String) (now : Int) :
    (g.record id now = (false, g)) ∨
      ((forall exp, g.seen.lookup id = some exp -> exp <= now) ∧
        g.record id now = (true, g.remember id now)) := by
  unfold Guard.record
  cases hreplayed : g.replayed id now with
  | true => exact Or.inl rfl
  | false =>
      by_cases hfull :
          g.maxKeys <= g.seen.size ∧ (g.seen.lookup id).isNone = true
      · exact Or.inl (if_pos hfull)
      · exact Or.inr ⟨replayed_eq_false.mp hreplayed, if_neg hfull⟩

theorem checkAndRecord_cases (g : Guard) (key nonce : String) (ts : Int64)
    (now : Int) :
    (exists g',
      g.checkAndRecord key nonce ts now = (false, g') ∧
        (g' = g ∨ g' = g.sweepLocked now)) ∨
    (nonce ≠ "" ∧ g.freshTimestamp ts now = true ∧
      (forall exp,
        (g.sweepLocked now).seen.lookup (nonceId key nonce) = some exp ->
          exp <= now) ∧
      g.checkAndRecord key nonce ts now =
        (true, (g.sweepLocked now).remember (nonceId key nonce) now)) := by
  unfold Guard.checkAndRecord
  split
  · exact Or.inl ⟨g, rfl, Or.inl rfl⟩
  · rename_i hgate
    rcases record_cases (g.sweepLocked now) (nonceId key nonce) now with
      hrejected | ⟨hexpired, haccepted⟩
    · exact Or.inl ⟨g.sweepLocked now, hrejected, Or.inr rfl⟩
    · refine Or.inr ⟨fun hempty => hgate (Or.inl hempty), ?_, hexpired, haccepted⟩
      cases hfresh : g.freshTimestamp ts now with
      | true => rfl
      | false => exact absurd (Or.inr hfresh) hgate

end Keyauth
end Ephor
