import Ephor.Foundation.FiniteMap
import Ephor.Pubcache.Verify
import Mathlib.Data.Multiset.Sort
import Mathlib.Data.Prod.Lex
import Mathlib.Data.List.Lex
import Mathlib.Data.String.Basic

/-!
# The pin store

`pubcache/pin.go`: durable, content-addressed, budgeted retention.  A pin names a
root object and, for a manifest, every chunk of it.  Objects are shared between
pins, and an object is retained exactly as long as some pin names it.

The store in memory and the directory on disk are both explicit.  Every lock
section of the source is a function of its own, so that the operations below and
the interleavings of a later module run the same sections.  What the environment
decides, whether a write succeeds and what an object source answers, is an
argument.
-/

namespace Ephor
namespace Pubcache

open Foundation

/-!
# Records, keys, and the directory
-/

structure PinRecord where
  kind : String
  addr : String
  owner : String
  objects : List String
  bytes : Int
  createdAt : Int
deriving DecidableEq

def storeKeyStr (kind addr : String) : String :=
  kind ++ ":" ++ addr

/-- `splitStoreKey`: cut at the first colon; both parts must be there. -/
def splitStoreKey (k : String) : Option (String × String) :=
  match k.toList.dropWhile (fun c => c != ':') with
  | [] => none
  | _ :: addr =>
      let kind := k.toList.takeWhile (fun c => c != ':')
      if kind ≠ [] ∧ addr ≠ [] then
        some (String.ofList kind, String.ofList addr)
      else
        none

def parseObjectKind (s : String) : Option Kind :=
  if s = "announce" then
    some Kind.announce
  else if s = "manifest" then
    some Kind.manifest
  else if s = "chunk" then
    some Kind.chunk
  else
    none

def objectKey (kind : Kind) (addr : Addr) : String :=
  storeKeyStr kind.string addr.string

def PinRecord.rootKey (rec : PinRecord) : String :=
  storeKeyStr rec.kind rec.addr

def recordReferences (rec : PinRecord) (key : String) : Bool :=
  decide (key ∈ rec.objects)

/--
The file `objects/<kind>/<xx>/<name>`.  The shard `xx` is a function of the name
and is left out.
-/
structure ObjectPath where
  kind : String
  name : String
deriving DecidableEq

/-- The key that `sweepOrphans` computes for a file. -/
def ObjectPath.key (path : ObjectPath) : String :=
  storeKeyStr path.kind path.name

/-- `index.json`: missing, not an index document, or a document. -/
inductive IndexFile where
  | absent
  | unparsable
  | document (version : Int) (pins : List (Option PinRecord))

def pinIndexVersion : Int := 1

structure Disk where
  files : FiniteMap ObjectPath Bytes
  index : IndexFile

def keyPath (key : String) : Option ObjectPath :=
  (splitStoreKey key).map fun (kind, addr) => ⟨kind, addr⟩

/-- The contents of the object with the given store key. -/
def Disk.file (d : Disk) (key : String) : Option Bytes :=
  (keyPath key).bind fun path => d.files.lookup path

/-- `os.Remove` of the object with the given store key. -/
def Disk.removeObject (d : Disk) (key : String) : Disk :=
  match keyPath key with
  | some path => { d with files := d.files.erase path }
  | none => d

/-- `os.Remove` of every object whose store key passes the test. -/
def Disk.removeObjects (d : Disk) (dead : String -> Bool) : Disk :=
  { d with
    files := d.files.filter fun path _ =>
      !(dead path.key && decide (keyPath path.key = some path)) }

def Disk.writeObject (d : Disk) (key : String) (body : Bytes) : Disk :=
  match keyPath key with
  | some path => { d with files := d.files.insert path body }
  | none => d

/-!
# The store in memory
-/

structure PinConfig where
  maxBytes : Int
  maxPinBytes : Int
  maxObjBytes : Int
  maxPins : Int

structure PinStore where
  config : PinConfig
  pins : FiniteMap String PinRecord
  objects : FiniteMap String Int
  verified : Finset String
  bytes : Int
  pending : FiniteMap String Int

/-- The store that `newPinStore` makes before it loads the index. -/
def PinStore.empty (config : PinConfig) : PinStore where
  config := config
  pins := ∅
  objects := ∅
  verified := ∅
  bytes := 0
  pending := ∅

structure World where
  store : PinStore
  disk : Disk

inductive PinError where
  | budget (detail : String)
  | notFound
  | forbidden
  | source (text : String)
  | chunk (root addr : String) (text : String)
  | manifest (e : Error)
  | unverified (addr : String) (e : Error)
  | writeObject (text : String)
  | persistIndex (text : String)
deriving DecidableEq

/-!
# The index
-/

/--
The order of the index.  Two pins never agree on kind and address, so the
remaining fields only make the order total.
-/
def PinRecord.sortKey (rec : PinRecord) :
    String ×ₗ String ×ₗ String ×ₗ List String ×ₗ Int ×ₗ Int :=
  toLex (rec.kind, toLex (rec.addr, toLex (rec.owner,
    toLex (rec.objects, toLex (rec.bytes, rec.createdAt)))))

theorem PinRecord.sortKey_injective : Function.Injective PinRecord.sortKey := by
  intro a b h
  cases a
  cases b
  simp only [sortKey, toLex_inj, Prod.mk.injEq] at h
  simp only [h]

instance : LinearOrder PinRecord :=
  LinearOrder.lift' PinRecord.sortKey PinRecord.sortKey_injective

/-- The records of the index that `writeIndexLocked` writes. -/
def PinStore.indexPins (s : PinStore) : List PinRecord :=
  (s.pins.entries.map fun e => e.2).sort

def PinStore.indexFile (s : PinStore) : IndexFile :=
  IndexFile.document pinIndexVersion (s.indexPins.map some)

/-- `writeIndexLocked`, failing with the text of an error of the file system. -/
def writeIndexLocked (failure : Option String) (w : World) :
    Except String Unit × World :=
  match failure with
  | some text => (Except.error text, w)
  | none =>
      (Except.ok (),
        { w with disk := { w.disk with index := w.store.indexFile } })

/-!
# Startup
-/

/-- The sizes of the objects a record names, when all of them are on disk. -/
def recordSizes (d : Disk) : List String -> Option (List (String × Int))
  | [] => some []
  | obj :: rest => do
      let (kind, addr) <- splitStoreKey obj
      let _ <- parseObjectKind kind
      let _ <- (parseAddr addr).toOption
      let body <- d.files.lookup ⟨kind, addr⟩
      let sizes <- recordSizes d rest
      return (obj, (body.length : Int)) :: sizes

/-- Count an object of a loaded pin, unless another pin has brought it in. -/
def PinStore.addObject (s : PinStore) (obj : String × Int) : PinStore :=
  match s.objects.lookup obj.1 with
  | some _ => s
  | none =>
      { s with
        objects := s.objects.insert obj.1 obj.2
        bytes := s.bytes + obj.2 }

/-- One record of the index; one that is not complete is not a pin. -/
def loadRecord (d : Disk) (s : PinStore) (entry : Option PinRecord) : PinStore :=
  match entry with
  | none => s
  | some rec =>
      if rec.kind = "" ∨ rec.addr = "" ∨ rec.objects = [] then
        s
      else
        match recordSizes d rec.objects with
        | none => s
        | some sizes =>
            sizes.foldl PinStore.addObject
              { s with pins := s.pins.insert rec.rootKey rec }

def sweepOrphans (w : World) : World :=
  { w with
    disk := { w.disk with
      files := w.disk.files.filter fun path _ =>
        decide (path.key ∈ w.store.objects) } }

/-- What startup needs from the file system. -/
structure LoadIo where
  readIndex : Option String
  writeIndex : Option String

def load (config : PinConfig) (io : LoadIo) (d : Disk) :
    Except String Unit × World :=
  let empty : World := ⟨PinStore.empty config, d⟩
  match d.index, io.readIndex with
  | IndexFile.absent, _ => (Except.ok (), sweepOrphans empty)
  | _, some text => (Except.error ("pubcache: read pin index: " ++ text), empty)
  | IndexFile.unparsable, none =>
      (Except.error "pubcache: parse pin index", empty)
  | IndexFile.document version pins, none =>
      if version ≠ pinIndexVersion then
        (Except.error
          (s!"pubcache: pin index version {version} is not supported " ++
            s!"(want {pinIndexVersion})"),
          empty)
      else
        writeIndexLocked io.writeIndex
          (sweepOrphans
            ⟨pins.foldl (loadRecord d) (PinStore.empty config), d⟩)

/-!
# Sections under the lock
-/

/-- Forget one object: the part shared by `quarantine` and `rollback`. -/
def PinStore.dropObject (s : PinStore) (key : String) : PinStore :=
  match s.objects.lookup key with
  | some sz =>
      { s with
        objects := s.objects.erase key
        verified := s.verified.erase key
        bytes := s.bytes - sz }
  | none => s

/-- The object is named by a pin, or an operation in flight has claimed it. -/
def PinStore.live (s : PinStore) (key : String) : Bool :=
  s.pins.any (fun _ rec => recordReferences rec key) || decide (key ∈ s.pending)

def reclaimUnreferencedLocked (w : World) : World where
  store :=
    { w.store with
      objects := w.store.objects.filter fun key _ => w.store.live key
      verified := w.store.verified.filter fun key =>
        w.store.live key = true ∨ key ∉ w.store.objects
      bytes := w.store.bytes -
        FiniteMap.total (w.store.objects.filter fun key _ => !w.store.live key) }
  disk := w.disk.removeObjects fun key =>
    decide (key ∈ w.store.objects) && !w.store.live key

def PinStore.dropPins (s : PinStore) (badKey : String) : PinStore :=
  { s with pins := s.pins.filter fun _ rec => !recordReferences rec badKey }

/-- `quarantine`; a failure to write the index is logged and otherwise ignored. -/
def quarantine (failure : Option String) (badKey : String) (w : World) : World :=
  (writeIndexLocked failure
    (reclaimUnreferencedLocked
      ⟨(w.store.dropPins badKey).dropObject badKey,
        w.disk.removeObject badKey⟩)).2

/-- `delete(p.pins, rootKey)`: in `unpin`, and in `pin` to undo its commit. -/
def deletePin (rootKey : String) (w : World) : World :=
  { w with store := { w.store with pins := w.store.pins.erase rootKey } }

def unpin (failure : Option String) (kind : Kind) (addr : Addr) (owner : String)
    (w : World) : Except PinError PinRecord × World :=
  let rootKey := objectKey kind addr
  match w.store.pins.lookup rootKey with
  | none => (Except.error PinError.notFound, w)
  | some rec =>
      if rec.owner ≠ "" ∧ rec.owner ≠ owner then
        (Except.error PinError.forbidden, w)
      else
        match writeIndexLocked failure
            (reclaimUnreferencedLocked (deletePin rootKey w)) with
        | (Except.error text, w'') =>
            (Except.error (PinError.persistIndex text), w'')
        | (Except.ok (), w'') => (Except.ok rec, w'')

/-- The section of `pin` that accounts for an object it has written. -/
def PinStore.recordObject (s : PinStore) (key : String) (n : Int) : PinStore :=
  { s with
    objects := s.objects.insert key n
    verified := insert key s.verified
    bytes := s.bytes + n
    pending := s.pending.insert key ((s.pending.lookup key).getD 0 + 1) }

/-- `rollback`: forget and delete every object this operation wrote. -/
def rollback (wrote : List String) (w : World) : World :=
  wrote.foldl
    (fun w key => ⟨w.store.dropObject key, w.disk.removeObject key⟩) w

/-- One claim of `releasePending`. -/
def PinStore.releaseKey (s : PinStore) (key : String) : PinStore :=
  if (s.pending.lookup key).getD 0 <= 1 then
    { s with pending := s.pending.erase key }
  else
    { s with pending := s.pending.insert key ((s.pending.lookup key).getD 0 - 1) }

def releasePending (wrote : List String) (w : World) : World :=
  { w with store := wrote.foldl PinStore.releaseKey w.store }

def commitPin (failure : Option String) (rec : PinRecord) (w : World) :
    Except String Unit × World :=
  writeIndexLocked failure
    { w with store := { w.store with pins := w.store.pins.insert rec.rootKey rec } }

/-!
# Reading a pinned object
-/

/-- What a read needs from the file system. -/
structure GetIo where
  readFails : Bool
  writeIndex : Option String

section Gate

variable (blake3 : Bytes -> Digest)

/-- `get`: verify on the first read of this process, quarantine what fails. -/
def get (io : GetIo) (kind : Kind) (addr : Addr) (w : World) :
    Option Bytes × World :=
  let key := objectKey kind addr
  if key ∈ w.store.objects then
    match if io.readFails then none else w.disk.file key with
    | none => (none, quarantine io.writeIndex key w)
    | some body =>
        if key ∈ w.store.verified then
          (some body, w)
        else
          match verify blake3 kind addr body with
          | Except.error _ => (none, quarantine io.writeIndex key w)
          | Except.ok () =>
              (some body,
                { w with store :=
                  { w.store with verified := insert key w.store.verified } })
  else
    (none, w)

/-!
# Pinning
-/

/--
An `objectSource`: its answer to each call, where a nil slice is `none`.  The
source that the service supplies consults the pin store before anything else.
-/
structure Source where
  consults : Bool
  read : Nat -> GetIo
  answer : Nat -> Except String (Option Bytes)

/-- The `i`-th call of the source. -/
def callSource (src : Source) (i : Nat) (kind : Kind) (addr : Addr) (w : World) :
    Except String (Option Bytes) × World :=
  if src.consults then
    match get blake3 (src.read i) kind addr w with
    | (some body, w') => (Except.ok (some body), w')
    | (none, w') => (src.answer i, w')
  else
    (src.answer i, w)

/-- `want`: one object of the set to pin, with its body when it is in hand. -/
structure Want where
  kind : Kind
  addr : Addr
  body : Option Bytes
deriving DecidableEq

def Want.key (want : Want) : String :=
  objectKey want.kind want.addr

/-- The chunks not named before, in order. -/
def distinctChunks (seen : Finset Addr) : List Addr -> List Addr
  | [] => []
  | c :: rest =>
      if c ∈ seen then
        distinctChunks seen rest
      else
        c :: distinctChunks (insert c seen) rest

def wantSet (kind : Kind) (addr : Addr) (rootBody : Option Bytes) :
    Except Error (List Want) :=
  match kind with
  | Kind.manifest => do
      let chunks <- verifiedManifestChunks blake3 addr (rootBody.getD [])
      return ⟨kind, addr, rootBody⟩ ::
        (distinctChunks ∅ chunks).map fun c => ⟨Kind.chunk, c, none⟩
  | _ => Except.ok [⟨kind, addr, rootBody⟩]

/-- What a pin operation needs from the file system, and its clock. -/
structure PinIo where
  writeObject : String -> Option String
  writeIndex : Option String
  now : Int

/-- A pin operation between two objects: the world and its local variables. -/
structure PinProgress where
  world : World
  wrote : List String
  objects : List String
  pinBytes : Int

/-- The budget checks on an object of `n` bytes. -/
def checkBudget (config : PinConfig) (addr : Addr) (pinBytes total n : Int) :
    Except PinError Unit :=
  if 0 < config.maxObjBytes ∧ config.maxObjBytes < n then
    Except.error (PinError.budget
      ("object " ++ addr.string ++
        s!" is {n} bytes (per-object max {config.maxObjBytes})"))
  else if 0 < config.maxPinBytes ∧ config.maxPinBytes < pinBytes + n then
    Except.error (PinError.budget
      s!"pin exceeds the per-pin max of {config.maxPinBytes} bytes")
  else if 0 < config.maxBytes ∧ config.maxBytes < total + n then
    Except.error (PinError.budget
      (s!"{total} of {config.maxBytes} bytes used, " ++
        s!"this pin needs {n} more"))
  else
    Except.ok ()

/-- Verify, budget, write and account for one object that is not yet held. -/
def storeObject (io : PinIo) (want : Want) (body : Bytes) (p : PinProgress) :
    Except PinError Unit × PinProgress :=
  match verify blake3 want.kind want.addr body with
  | Except.error e => (Except.error (PinError.unverified want.addr.string e), p)
  | Except.ok () =>
      let n : Int := body.length
      match checkBudget p.world.store.config want.addr p.pinBytes
          p.world.store.bytes n with
      | Except.error e => (Except.error e, p)
      | Except.ok () =>
          match io.writeObject want.key with
          | some text => (Except.error (PinError.writeObject text), p)
          | none =>
              (Except.ok (),
                { world :=
                    ⟨p.world.store.recordObject want.key n,
                      p.world.disk.writeObject want.key body⟩
                  wrote := p.wrote ++ [want.key]
                  objects := p.objects ++ [want.key]
                  pinBytes := p.pinBytes + n })

/-- One iteration of the loop of `pin`. -/
def gatherObject (src : Source) (io : PinIo) (root : Addr) (i : Nat) (want : Want)
    (p : PinProgress) : Except PinError Unit × PinProgress :=
  match p.world.store.objects.lookup want.key with
  | some sz =>
      (Except.ok (),
        { p with
          objects := p.objects ++ [want.key]
          pinBytes := p.pinBytes + sz })
  | none =>
      match want.body with
      | some body => storeObject blake3 io want body p
      | none =>
          match callSource blake3 src i want.kind want.addr p.world with
          | (Except.error text, w) =>
              (Except.error
                (PinError.chunk root.string want.addr.string text),
                { p with world := w })
          | (Except.ok body, w) =>
              storeObject blake3 io want (body.getD []) { p with world := w }

/-- The loop of `pin`; call `0` of the source was the one for the root. -/
def gather (src : Source) (io : PinIo) (root : Addr) :
    Nat -> List Want -> PinProgress -> Except PinError Unit × PinProgress
  | _, [], p => (Except.ok (), p)
  | i, want :: rest, p =>
      match gatherObject blake3 src io root i want p with
      | (Except.error e, p') => (Except.error e, p')
      | (Except.ok (), p') => gather src io root (i + 1) rest p'

def pinRecord (kind : Kind) (addr : Addr) (owner : String) (now : Int)
    (p : PinProgress) : PinRecord where
  kind := kind.string
  addr := addr.string
  owner := owner
  objects := p.objects
  bytes := p.pinBytes
  createdAt := now

/-- The end of `pin` after its loop; `releasePending` is deferred to the last. -/
def finishPin (io : PinIo) (kind : Kind) (addr : Addr) (owner : String) :
    Except PinError Unit × PinProgress -> Except PinError PinRecord × World
  | (Except.error e, p) =>
      (Except.error e, releasePending p.wrote (rollback p.wrote p.world))
  | (Except.ok (), p) =>
      let record := pinRecord kind addr owner io.now p
      match commitPin io.writeIndex record p.world with
      | (Except.error text, w) =>
          (Except.error (PinError.persistIndex text),
            releasePending p.wrote
              (rollback p.wrote (deletePin (objectKey kind addr) w)))
      | (Except.ok (), w) => (Except.ok record, releasePending p.wrote w)

def pin (src : Source) (io : PinIo) (kind : Kind) (addr : Addr) (owner : String)
    (w : World) : Except PinError PinRecord × World :=
  match w.store.pins.lookup (objectKey kind addr) with
  | some existing => (Except.ok existing, w)
  | none =>
      if 0 < w.store.config.maxPins ∧
          w.store.config.maxPins <= w.store.pins.size then
        (Except.error (PinError.budget
          (s!"already holding {w.store.pins.size} pins " ++
            s!"(max {w.store.config.maxPins})")), w)
      else
        match callSource blake3 src 0 kind addr w with
        | (Except.error text, w') => (Except.error (PinError.source text), w')
        | (Except.ok rootBody, w') =>
            match wantSet blake3 kind addr rootBody with
            | Except.error e => (Except.error (PinError.manifest e), w')
            | Except.ok set =>
                finishPin io kind addr owner
                  (gather blake3 src io addr 1 set ⟨w', [], [], 0⟩)

end Gate

end Pubcache
end Ephor
