import Ephor.Pubcache.PinMachine
import Ephor.Pubcache.PinLoad
import Ephor.Pubcache.Store

/-!
# The service

`lookup` of `pubcache/service.go` returns bytes from the pin store, from the cache
or from an upstream.  Any number of lookups run at the same time, beside one pin or
unpin, and they meet only in the sections of the two stores and in the directory.
The machine here interleaves all of them, one section, file read, file write or
fetch at a time.
-/

namespace Ephor
namespace Pubcache

open Foundation

/-!
# A lookup
-/

inductive LookupPc where
  | start
  | readFile (alreadyVerified : Bool)
  | quarantine
  | mark (body : Bytes)
  | readStore
  | fetch
  | put (body : Bytes)
  | returned (result : Option Bytes)
deriving DecidableEq

/-- A running `lookup`; its callers pass `cacheKey(kind, addr)` as the key. -/
structure LookupTask where
  kind : Kind
  addr : Addr
  pc : LookupPc
deriving DecidableEq

structure LookupEnv where
  readFails : Bool
  writeIndex : Option String
  answer : Except String Bytes
  now : Int

/-- The memory of the process and the directory; without the pin role the latter
and the pin store are not used. -/
structure Shared where
  pinning : Bool
  world : World
  cache : Store

namespace LookupTask

def key (t : LookupTask) : String :=
  objectKey t.kind t.addr

def goto (t : LookupTask) (pc : LookupPc) : LookupTask :=
  { t with pc := pc }

/-- One step of `lookup`; the states up to `mark` are those of the pin store's `get`. -/
def advance (blake3 : Bytes -> Digest) (env : LookupEnv) (t : LookupTask)
    (s : Shared) : LookupTask × Shared :=
  match t.pc with
  | LookupPc.start =>
      if s.pinning = true ∧ t.key ∈ s.world.store.objects then
        (t.goto (LookupPc.readFile (decide (t.key ∈ s.world.store.verified))), s)
      else
        (t.goto LookupPc.readStore, s)
  | LookupPc.readFile alreadyVerified =>
      match if env.readFails then none else s.world.disk.file t.key with
      | none => (t.goto LookupPc.quarantine, s)
      | some body =>
          if alreadyVerified = true then
            (t.goto (LookupPc.returned (some body)), s)
          else
            match verify blake3 t.kind t.addr body with
            | Except.error _ => (t.goto LookupPc.quarantine, s)
            | Except.ok () => (t.goto (LookupPc.mark body), s)
  | LookupPc.quarantine =>
      (t.goto LookupPc.readStore,
        { s with world := Pubcache.quarantine env.writeIndex t.key s.world })
  | LookupPc.mark body =>
      (t.goto (LookupPc.returned (some body)),
        { s with world := { s.world with store :=
          { s.world.store with
            verified := insert t.key s.world.store.verified } } })
  | LookupPc.readStore =>
      match s.cache.get env.now (cacheKey t.kind t.addr) with
      | (some body, cache) =>
          (t.goto (LookupPc.returned (some body)), { s with cache := cache })
      | (none, cache) => (t.goto LookupPc.fetch, { s with cache := cache })
  | LookupPc.fetch =>
      match env.answer with
      | Except.error _ => (t.goto (LookupPc.returned none), s)
      | Except.ok body =>
          match verify blake3 t.kind t.addr body with
          | Except.error _ => (t.goto (LookupPc.returned none), s)
          | Except.ok () => (t.goto (LookupPc.put body), s)
  | LookupPc.put body =>
      (t.goto (LookupPc.returned (some body)),
        { s with cache := s.cache.put env.now (cacheKey t.kind t.addr) body })
  | LookupPc.returned _ => (t, s)

def alone (blake3 : Bytes -> Digest) (env : LookupEnv) (t : LookupTask) (s : Shared)
    (steps : Nat) : LookupTask × Shared :=
  (List.replicate steps env).foldl (fun r env => r.1.advance blake3 env r.2) (t, s)

/-- Left alone with a disk that answers as `io` has it, the first states of a lookup compute the
pin store's `get`. -/
theorem alone_get (blake3 : Bytes -> Digest) (io : GetIo) (kind : Kind)
    (addr : Addr) (s : Shared) (hpinning : s.pinning = true) {env : LookupEnv}
    (hread : env.readFails = io.readFails) (hwrite : env.writeIndex = io.writeIndex) :
    exists steps, alone blake3 env ⟨kind, addr, LookupPc.start⟩ s steps =
      (⟨kind, addr,
        match (Pubcache.get blake3 io kind addr s.world).1 with
        | some body => LookupPc.returned (some body)
        | none => LookupPc.readStore⟩,
        { s with world := (Pubcache.get blake3 io kind addr s.world).2 }) := by
  unfold Pubcache.get
  rw [<- hread, <- hwrite]
  by_cases hheld : objectKey kind addr ∈ s.world.store.objects
  · have hstart : LookupTask.advance blake3 env ⟨kind, addr, LookupPc.start⟩ s =
        (⟨kind, addr, LookupPc.readFile
          (decide (objectKey kind addr ∈ s.world.store.verified))⟩, s) := by
      unfold advance
      exact if_pos ⟨hpinning, hheld⟩
    dsimp only
    rw [if_pos hheld]
    cases hfile : (if env.readFails then none
        else s.world.disk.file (objectKey kind addr)) with
    | none =>
        refine ⟨3, ?_⟩
        simp only [alone, List.replicate, List.foldl_cons, List.foldl_nil, hstart]
        simp only [advance, goto, key, hfile]
    | some body =>
        by_cases hflag : objectKey kind addr ∈ s.world.store.verified
        · refine ⟨2, ?_⟩
          simp only [alone, List.replicate, List.foldl_cons, List.foldl_nil, hstart]
          simp only [advance, goto, key, hfile, hflag, decide_true, if_true]
        · dsimp only
          rw [if_neg hflag]
          cases hverify : verify blake3 kind addr body with
          | error e | ok u =>
              refine ⟨3, ?_⟩
              simp only [alone, List.replicate, List.foldl_cons, List.foldl_nil, hstart]
              simp only [advance, goto, key, hfile, hflag, hverify,
                decide_false, Bool.false_eq_true, if_false]
  · refine ⟨1, ?_⟩
    dsimp only
    rw [if_neg hheld]
    have hnot : Not (s.pinning = true ∧
        objectKey kind addr ∈ s.world.store.objects) := fun h => hheld h.2
    exact if_neg hnot

end LookupTask

/-!
# The machine
-/

/-- The process: the stores, the running pin if there is one, and the lookups. -/
structure Service where
  shared : Shared
  pin : Option PinTask
  lookups : FiniteMap Nat LookupTask

inductive ServiceEvent where
  | begin (id : Nat) (kind : Kind) (addr : Addr)
  | lookup (id : Nat) (env : LookupEnv)
  | startPin (kind : Kind) (addr : Addr) (owner : String)
  | pin (env : PinEnv)
  | unpin (failure : Option String) (kind : Kind) (addr : Addr) (owner : String)
  | close

namespace Service

/-- The process after a load of the pin directory. -/
def init (pinning : Bool) (w : World) (cache : Store) : Service where
  shared := ⟨pinning, w, cache⟩
  pin := none
  lookups := ∅

/-- `opMu` is free: no pin is running. -/
def opFree (s : Service) : Bool :=
  match s.pin with
  | none => true
  | some t =>
      match t.pc with
      | PinPc.done _ => true
      | _ => false

def step (blake3 : Bytes -> Digest) (s : Service) : ServiceEvent -> Service
  | ServiceEvent.begin id kind addr =>
      match s.lookups.lookup id with
      | some _ => s
      | none =>
          { s with
            lookups := s.lookups.insert id ⟨kind, addr, LookupPc.start⟩ }
  | ServiceEvent.lookup id env =>
      match s.lookups.lookup id with
      | none => s
      | some t =>
          { s with
            shared := (t.advance blake3 env s.shared).2
            lookups := s.lookups.insert id (t.advance blake3 env s.shared).1 }
  | ServiceEvent.startPin kind addr owner =>
      if s.shared.pinning = true ∧ s.opFree = true then
        { s with pin := some (PinTask.init kind addr owner) }
      else
        s
  | ServiceEvent.pin env =>
      match s.pin with
      | none => s
      | some t =>
          { s with
            shared := { s.shared with world := (t.advance blake3 env s.shared.world).2 }
            pin := some (t.advance blake3 env s.shared.world).1 }
  | ServiceEvent.unpin failure kind addr owner =>
      if s.shared.pinning = true ∧ s.opFree = true then
        { s with
          shared := { s.shared with
            world := (Pubcache.unpin failure kind addr owner s.shared.world).2 } }
      else
        s
  | ServiceEvent.close =>
      { s with shared := { s.shared with cache := s.shared.cache.purge } }

end Service

end Pubcache
end Ephor
