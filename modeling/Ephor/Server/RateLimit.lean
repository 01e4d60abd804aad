import Ephor.Foundation.Bytes
import Ephor.Foundation.FiniteMap
import Ephor.Foundation.GoTime
import Ephor.Foundation.Transition
import Mathlib.Data.Rat.Defs
import Mathlib.Algebra.Order.Ring.Rat

/-!
# The rate limiter

`rateLimiter` of `tunnel/server/ratelimit.go`: a token bucket for each key, made when the key is
first seen and forgotten when a sweep finds it idle.  Tokens are counted in rationals where the
source has floating point.  A call of `allow` is one step of the machine; between calls time
passes.
-/

namespace Ephor
namespace Server
namespace RateLimit

open Foundation
open Foundation.Transition (after emitted)

abbrev Key := Bytes

structure TokenBucket where
  tokens : Rat
  last : Int
  lastUsed : Int
deriving DecidableEq

/-- What `newRateLimiter` builds. -/
structure RateLimiter where
  rate : Rat
  burst : Rat
  idleTTL : GoTime.Duration
  maxKeys : Int64
  rate_pos : 0 < rate
  burst_pos : 0 < burst
  idleTTL_pos : 0 < idleTTL
  maxKeys_pos : 0 < maxKeys

def orDefault (value fallback : Int64) : Int64 :=
  if value <= 0 then fallback else value

theorem orDefault_pos {value fallback : Int64} (h : 0 < fallback) :
    0 < orDefault value fallback := by
  unfold orDefault
  split
  · exact h
  · rename_i hvalue
    exact Int64.not_le.mp hvalue

def newRateLimiter (ratePerSec burst : Rat) (idleTTL : GoTime.Duration) (maxKeys : Int64) :
    Option RateLimiter :=
  if h : ratePerSec <= 0 ∨ burst <= 0 then none
  else
    some
      { rate := ratePerSec
        burst := burst
        idleTTL := orDefault idleTTL (10 * GoTime.minute)
        maxKeys := orDefault maxKeys 100000
        rate_pos := not_le.mp fun hrate => h (Or.inl hrate)
        burst_pos := not_le.mp fun hburst => h (Or.inr hburst)
        idleTTL_pos := orDefault_pos (by decide)
        maxKeys_pos := orDefault_pos (by decide) }

def seconds (nanoseconds : Int) : Rat :=
  nanoseconds / 1000000000

structure State where
  now : Int
  lastSwep : Int
  buckets : FiniteMap Key TokenBucket

/-- No sweep was made yet: `lastSwep` is the zero time. -/
def State.init (now : Int) : State where
  now := now
  lastSwep := 0
  buckets := ∅

variable (rl : RateLimiter)

def RateLimiter.interval : GoTime.Duration :=
  if rl.idleTTL / 4 <= 0 then GoTime.minute else rl.idleTTL / 4

def RateLimiter.sweeps (st : State) : Bool :=
  !decide (GoTime.sub st.now st.lastSwep < rl.interval)

def RateLimiter.idle (now : Int) (b : TokenBucket) : Bool :=
  decide (rl.idleTTL < GoTime.sub now b.lastUsed)

def RateLimiter.sweepLocked (st : State) : State :=
  if rl.sweeps st then
    { st with
      lastSwep := st.now
      buckets := FiniteMap.filter (fun _ b => !rl.idle st.now b) st.buckets }
  else
    st

/-- The bucket with what it gained since it was last refilled. -/
def RateLimiter.refill (now : Int) (b : TokenBucket) : TokenBucket :=
  let elapsed := seconds (GoTime.sub now b.last).toInt
  if 0 < elapsed then
    { tokens := min rl.burst (b.tokens + elapsed * rl.rate), last := now, lastUsed := now }
  else
    { b with lastUsed := now }

def RateLimiter.take (now : Int) (b : TokenBucket) : Bool × TokenBucket :=
  let b := rl.refill now b
  if 1 <= b.tokens then (true, { b with tokens := b.tokens - 1 }) else (false, b)

/-- The bucket of a key that is let through for the first time. -/
def RateLimiter.fresh (now : Int) : TokenBucket where
  tokens := rl.burst - 1
  last := now
  lastUsed := now

def RateLimiter.full (st : State) : Bool :=
  decide (rl.maxKeys.toInt <= FiniteMap.size st.buckets)

/-- The part of `allow` after the sweep. -/
def RateLimiter.answer (st : State) (key : Key) : Bool × State :=
  match st.buckets.lookup key with
  | none =>
      if rl.full st then (false, st)
      else (true, { st with buckets := st.buckets.insert key (rl.fresh st.now) })
  | some b =>
      let taken := rl.take st.now b
      (taken.1, { st with buckets := st.buckets.insert key taken.2 })

def RateLimiter.allow (st : State) (key : Key) : Bool × State :=
  if key = [] then (true, st) else rl.answer (rl.sweepLocked st) key

inductive Event where
  | allow (key : Key)
  | tick (nanoseconds : Nat)

def step (st : State) : Event -> State
  | .allow key => (rl.allow st key).2
  | .tick nanoseconds => { st with now := st.now + nanoseconds }

def RateLimiter.run (start : Int) (events : List Event) : State :=
  after (step rl) (State.init start) events

/-!
## What happens to a key
-/

inductive Note where
  | answered (now : Int) (allowed : Bool)
  /-- A call for the key was refused because there were `maxKeys` buckets. -/
  | refusedAtCap (now : Int)
  /-- A sweep forgot the key's bucket; `short` if it was not full again. -/
  | forgotten (now : Int) (short : Bool)
deriving DecidableEq

/-- The bucket has less than a new one, what it gained since included. -/
def RateLimiter.short (now : Int) (b : TokenBucket) : Bool :=
  decide ((rl.refill now b).tokens < rl.burst)

def RateLimiter.emitSweep (key : Key) (st : State) : List Note :=
  match st.buckets.lookup key with
  | none => []
  | some b =>
      if rl.sweeps st && rl.idle st.now b then [.forgotten st.now (rl.short st.now b)] else []

/-- The answer of a call that is over its sweep; the one without a bucket is refused at the cap. -/
def RateLimiter.emitCall (key : Key) (st : State) : List Note :=
  let allowed := (rl.answer st key).1
  if st.buckets.lookup key = none ∧ allowed = false then [.refusedAtCap st.now]
  else [.answered st.now allowed]

theorem RateLimiter.emitCall_eq (key : Key) (st : State) :
    rl.emitCall key st =
      match st.buckets.lookup key with
      | none => if rl.full st then [.refusedAtCap st.now] else [.answered st.now true]
      | some b => [.answered st.now (rl.take st.now b).1] := by
  unfold emitCall answer
  cases hlookup : st.buckets.lookup key with
  | none => cases rl.full st <;> rfl
  | some b => exact if_neg (fun h => Option.some_ne_none b h.1)

def emit (key : Key) (st : State) : Event -> List Note
  | .tick _ => []
  | .allow called =>
      if called = [] then
        if key = [] then [.answered st.now (rl.allow st called).1] else []
      else
        rl.emitSweep key st ++ if called = key then rl.emitCall key (rl.sweepLocked st) else []

def RateLimiter.notes (key : Key) (start : Int) (events : List Event) : List Note :=
  emitted (step rl) (emit rl key) (State.init start) events

end RateLimit
end Server
end Ephor
