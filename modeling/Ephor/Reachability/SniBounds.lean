import Ephor.Reachability.Sni

/-!
# The parser inside its buffer

The cursor of `sni.rs` is a slice and a position, and the parser takes bytes and slices by
index.  Here every index is checked against the slice it reads: a read outside it has no
result.  Every read of the parser has one, and what it computes is what the parser over the
remaining bytes computes.
-/

namespace Ephor
namespace Reachability
namespace Sni

open Foundation
open Foundation.Text

variable {ioError : Type}

/-!
# Indexing
-/

/-- A computation that may fail with an `SniError`, or panic: a panic has no result. -/
abbrev Checked (ioError α : Type) := ExceptT (SniError ioError) Option α

namespace Checked

def index (b : Bytes) (i : Nat) : Checked ioError UInt8 :=
  ExceptT.lift (b[i]?)

def slice (b : Bytes) (i j : Nat) : Checked ioError Bytes :=
  ExceptT.lift (if i <= j ∧ j <= b.length then some ((b.take j).drop i) else none)

end Checked

structure SliceCursor where
  buf : Bytes
  pos : Nat

namespace SliceCursor

open Checked

def new (buf : Bytes) : SliceCursor where
  buf := buf
  pos := 0

/-- `remaining`; the subtraction of two `usize` must not go below zero. -/
def remaining (c : SliceCursor) : Checked ioError Nat :=
  ExceptT.lift (if c.pos <= c.buf.length then some (c.buf.length - c.pos) else none)

def take (c : SliceCursor) (n : Nat) : Checked ioError (Bytes × SliceCursor) := do
  let remaining <- c.remaining
  if n > remaining then
    throw (SniError.malformed "truncated field")
  else do
    let s <- slice c.buf c.pos (c.pos + n)
    return (s, { c with pos := c.pos + n })

def u8 (c : SliceCursor) : Checked ioError (Nat × SliceCursor) := do
  let (b, c) <- c.take 1
  let b0 <- index b 0
  return (Cursor.fromBeBytes [b0], c)

def u16 (c : SliceCursor) : Checked ioError (Nat × SliceCursor) := do
  let (b, c) <- c.take 2
  let b0 <- index b 0
  let b1 <- index b 1
  return (Cursor.fromBeBytes [b0, b1], c)

def u24 (c : SliceCursor) : Checked ioError (Nat × SliceCursor) := do
  let (b, c) <- c.take 3
  let b0 <- index b 0
  let b1 <- index b 1
  let b2 <- index b 2
  return (Cursor.fromBeBytes [0, b0, b1, b2], c)

def rest (c : SliceCursor) : Bytes :=
  c.buf.drop c.pos

def Valid (c : SliceCursor) : Prop :=
  c.pos <= c.buf.length

end SliceCursor

/-!
# Refinement

A checked computation refines one over the remaining bytes when it has the same result and
leaves its cursor at the same bytes.
-/

variable {e : SniError ioError} {c lc ec : SliceCursor}

section Refinement

variable {α β : Type}

def Refines (x : Checked ioError (α × SliceCursor))
    (y : Except (SniError ioError) (α × Bytes)) : Prop :=
  match y with
  | Except.error e => x.run = some (Except.error e)
  | Except.ok (a, rest) =>
      exists c : SliceCursor, x.run = some (Except.ok (a, c)) ∧ c.Valid ∧ c.rest = rest

/-- The same for a computation that ends without a cursor. -/
def Agrees (x : Checked ioError β) (y : Except (SniError ioError) β) : Prop :=
  x.run = some y

theorem run_bind_of_ok {x : Checked ioError α} {a : α} (h : x.run = some (Except.ok a))
    (f : α -> Checked ioError β) : (x >>= f).run = (f a).run := by
  rw [ExceptT.run_bind, h]
  rfl

theorem run_bind_of_error {x : Checked ioError α} (h : x.run = some (Except.error e))
    (f : α -> Checked ioError β) : (x >>= f).run = some (Except.error e) := by
  rw [ExceptT.run_bind, h]
  rfl

theorem run_bind_of_none {x : Checked ioError α} (h : x.run = none)
    (f : α -> Checked ioError β) : (x >>= f).run = none := by
  rw [ExceptT.run_bind, h]
  rfl

theorem Refines.bind_of_ok {x : Checked ioError (α × SliceCursor)}
    {y : Except (SniError ioError) (α × Bytes)} {f : α × SliceCursor -> Checked ioError β}
    {g : α × Bytes -> Except (SniError ioError) β} (hx : Refines x y)
    (hf : forall (a : α) (c : SliceCursor), c.Valid -> y = Except.ok (a, c.rest) ->
      Agrees (f (a, c)) (g (a, c.rest))) : Agrees (x >>= f) (y >>= g) := by
  cases y with
  | error e => exact run_bind_of_error hx f
  | ok result =>
      rcases hx with ⟨c, hrun, hvalid, hrest⟩
      have h := hf result.1 c hvalid (by rw [hrest])
      rw [hrest] at h
      exact (run_bind_of_ok hrun f).trans h

theorem Agrees.bind {x : Checked ioError (α × SliceCursor)}
    {y : Except (SniError ioError) (α × Bytes)} {f : α × SliceCursor -> Checked ioError β}
    {g : α × Bytes -> Except (SniError ioError) β} (hx : Refines x y)
    (hf : forall (a : α) (c : SliceCursor), c.Valid -> Agrees (f (a, c)) (g (a, c.rest))) :
    Agrees (x >>= f) (y >>= g) :=
  hx.bind_of_ok fun a c hvalid _ => hf a c hvalid

theorem Refines.bind {x : Checked ioError (α × SliceCursor)}
    {y : Except (SniError ioError) (α × Bytes)}
    {f : α × SliceCursor -> Checked ioError (β × SliceCursor)}
    {g : α × Bytes -> Except (SniError ioError) (β × Bytes)} (hx : Refines x y)
    (hf : forall (a : α) (c : SliceCursor), c.Valid -> Refines (f (a, c)) (g (a, c.rest))) :
    Refines (x >>= f) (y >>= g) := by
  cases y with
  | error e => exact run_bind_of_error hx f
  | ok result =>
      rcases hx with ⟨c, hrun, hvalid, hrest⟩
      have h := hf result.1 c hvalid
      rw [hrest] at h
      change Refines (x >>= f) (g result)
      unfold Refines at h ⊢
      rw [run_bind_of_ok hrun f]
      exact h

end Refinement

namespace SliceCursor

theorem valid_new (buf : Bytes) : (new buf).Valid := Nat.zero_le _

theorem run_remaining (h : c.Valid) :
    (c.remaining : Checked ioError Nat).run = some (Except.ok c.rest.length) := by
  have hle : c.pos <= c.buf.length := h
  unfold remaining
  rw [if_pos hle, rest, List.length_drop]
  rfl

theorem run_slice {c : SliceCursor} {n : Nat} (h : c.pos + n <= c.buf.length) :
    (Checked.slice c.buf c.pos (c.pos + n) : Checked ioError Bytes).run =
      some (Except.ok (c.rest.take n)) := by
  unfold Checked.slice
  rw [if_pos ⟨Nat.le_add_right c.pos n, h⟩, List.drop_take, Nat.add_sub_cancel_left]
  rfl

theorem refines_take (h : c.Valid) (n : Nat) :
    Refines (c.take n : Checked ioError _) (Cursor.take c.rest n) := by
  unfold Cursor.take
  by_cases hlong : n > c.rest.length
  · rw [if_pos hlong]
    change (c.take n : Checked ioError _).run = _
    rw [take, run_bind_of_ok (run_remaining h), if_pos hlong]
    rfl
  · have hle : c.pos + n <= c.buf.length := by
      rw [rest, List.length_drop] at hlong
      unfold Valid at h
      omega
    rw [if_neg hlong]
    refine ⟨{ c with pos := c.pos + n }, ?_, hle, ?_⟩
    · rw [take, run_bind_of_ok (run_remaining h), if_neg hlong, run_bind_of_ok (run_slice hle)]
      rfl
    · exact List.drop_drop.symm

theorem refines_number (h : c.Valid) {n : Nat}
    {f : Bytes × SliceCursor -> Checked ioError (Nat × SliceCursor)}
    (hf : forall (b : Bytes) (c : SliceCursor), b.length = n ->
      (f (b, c)).run = some (Except.ok (Cursor.fromBeBytes b, c))) :
    Refines (c.take n >>= f) (Cursor.number n c.rest) := by
  have htake : Refines (c.take n : Checked ioError _) (Cursor.take c.rest n) :=
    refines_take h n
  unfold Cursor.number
  cases hread : (Cursor.take c.rest n : Except (SniError ioError) _) with
  | error e =>
      rw [hread] at htake
      exact run_bind_of_error htake f
  | ok result =>
      rw [hread] at htake
      rcases htake with ⟨c', hrun, hvalid, hrest⟩
      rcases Cursor.take_eq_ok.mp hread with ⟨hle, hfield, _⟩
      have hlen : result.1.length = n := by
        rw [hfield, List.length_take, Nat.min_eq_left hle]
      exact ⟨c', (run_bind_of_ok hrun f).trans (hf result.1 c' hlen), hvalid, hrest⟩

theorem refines_u8 (h : c.Valid) : Refines (c.u8 : Checked ioError _) (Cursor.u8 c.rest) := by
  apply refines_number h
  intro b c hlen
  cases b with
  | nil => cases hlen
  | cons b0 b =>
      cases List.eq_nil_of_length_eq_zero (Nat.succ.inj hlen)
      rfl

theorem refines_u16 (h : c.Valid) : Refines (c.u16 : Checked ioError _) (Cursor.u16 c.rest) := by
  apply refines_number h
  intro b c hlen
  rcases List.length_eq_two.mp hlen with ⟨b0, b1, hb⟩
  rw [hb]
  rfl

theorem fromBeBytes_zero_cons (b : Bytes) : Cursor.fromBeBytes (0 :: b) = Cursor.fromBeBytes b := by
  rw [Cursor.fromBeBytes, List.foldl_cons]
  rfl

theorem refines_u24 (h : c.Valid) : Refines (c.u24 : Checked ioError _) (Cursor.u24 c.rest) := by
  apply refines_number h
  intro b c hlen
  rcases List.length_eq_three.mp hlen with ⟨b0, b1, b2, hb⟩
  rw [hb]
  rw [<- fromBeBytes_zero_cons]
  rfl

end SliceCursor

/-!
# The loops, one entry at a time
-/

def hostNameEntry (name : Bytes) : Except (SniError ioError) (List Char) :=
  if name.isEmpty then
    Except.error SniError.emptySni
  else
    match fromUtf8 name with
    | some serverName => Except.ok serverName
    | none => Except.error (SniError.malformed "server_name is not valid UTF-8")

theorem findHostName_eq (lc : Bytes) : (findHostName lc : Except (SniError ioError) _) =
    if lc.length = 0 then
      Except.error SniError.noSni
    else
      readName lc >>= fun entry =>
        if entry.1.1 = nameTypeHostName then hostNameEntry entry.1.2 else findHostName entry.2 := by
  rw [findHostName]
  split
  · rfl
  · split
    · rename_i hread
      rw [hread]
      rfl
    · rename_i hread
      rw [hread]
      rfl

theorem findServerName_eq (ec : Bytes) : (findServerName ec : Except (SniError ioError) _) =
    if ec.length = 0 then
      Except.error SniError.noSni
    else
      readExtension ec >>= fun extension =>
        if extension.1.1 = extensionServerName then
          parseServerNameExtension extension.1.2
        else
          findServerName extension.2 := by
  rw [findServerName]
  split
  · rfl
  · split
    · rename_i hread
      rw [hread]
      rfl
    · rename_i hread
      rw [hread]
      rfl

/-!
# The parser
-/

def readNameAt (lc : SliceCursor) : Checked ioError ((Nat × Bytes) × SliceCursor) := do
  let (nameType, lc) <- lc.u8
  let (nameLen, lc) <- lc.u16
  let (name, lc) <- lc.take nameLen
  return ((nameType, name), lc)

theorem refines_readName (h : lc.Valid) :
    Refines (readNameAt lc : Checked ioError _) (readName lc.rest) := by
  apply Refines.bind (SliceCursor.refines_u8 h)
  intro nameType lc h
  apply Refines.bind (SliceCursor.refines_u16 h)
  intro nameLen lc h
  apply Refines.bind (SliceCursor.refines_take h nameLen)
  intro name lc h
  exact ⟨lc, rfl, h, rfl⟩

theorem rest_lt_of_refines {α : Type} {x : Checked ioError (α × SliceCursor)}
    {y : Except (SniError ioError) (α × Bytes)} {a : α} {bound : Nat} (hx : Refines x y)
    (hrun : x.run = some (Except.ok (a, c)))
    (hy : forall rest, y = Except.ok (a, rest) -> rest.length < bound) : c.rest.length < bound := by
  cases y with
  | error e =>
      rw [(show x.run = some (Except.error e) from hx)] at hrun
      cases hrun
  | ok result =>
      rcases hx with ⟨c', hrun', _, hrest⟩
      rw [hrun] at hrun'
      injection hrun' with hrun'
      injection hrun' with hrun'
      injection hrun' with ha hc
      apply hy
      rw [hc, hrest, ha]

theorem agrees_loop {α β : Type} {readAt : SliceCursor -> Checked ioError (α × SliceCursor)}
    {read : Bytes -> Except (SniError ioError) (α × Bytes)}
    (hrefines : forall c : SliceCursor, c.Valid -> Refines (readAt c) (read c.rest))
    (hshorter : forall b a rest, read b = Except.ok (a, rest) -> rest.length < b.length)
    {loopAt : SliceCursor -> Checked ioError β} {loop : Bytes -> Except (SniError ioError) β}
    {nextAt : α × SliceCursor -> Checked ioError β}
    {next : α × Bytes -> Except (SniError ioError) β} {e : SniError ioError}
    (hloopAt : forall c : SliceCursor, c.Valid -> (loopAt c).run =
      if c.rest.length = 0 then some (Except.error e) else (readAt c >>= nextAt).run)
    (hloop : forall b, loop b = if b.length = 0 then Except.error e else read b >>= next)
    (hnext : forall a (c : SliceCursor), Agrees (loopAt c) (loop c.rest) ->
      Agrees (nextAt (a, c)) (next (a, c.rest))) (h : c.Valid) :
    Agrees (loopAt c) (loop c.rest) := by
  induction hlen : c.rest.length using Nat.strong_induction_on generalizing c with
  | h n ih =>
      unfold Agrees
      rw [hloopAt c h, hloop c.rest]
      split
      · rfl
      · apply (hrefines c h).bind_of_ok
        intro a c' hvalid hread
        apply hnext
        refine ih c'.rest.length ?_ hvalid rfl
        rw [<- hlen]
        exact hshorter c.rest a c'.rest hread

theorem run_take_of_not_valid (h : Not c.Valid) (n : Nat) :
    (c.take n : Checked ioError _).run = none := by
  have hgt : Not (c.pos <= c.buf.length) := h
  have hremaining : (c.remaining : Checked ioError Nat).run = none := by
    rw [SliceCursor.remaining, if_neg hgt]
    rfl
  exact run_bind_of_none hremaining _

theorem valid_of_readName {r : Except (SniError ioError) _}
    (h : (readNameAt lc : Checked ioError _).run = some r) : lc.Valid := by
  by_contra hnot
  have htype : (lc.u8 : Checked ioError _).run = none :=
    run_bind_of_none (run_take_of_not_valid hnot 1) _
  rw [readNameAt, run_bind_of_none htype] at h
  cases h

def findHostNameAt (lc : SliceCursor) : Checked ioError (List Char) := do
  let remaining <- lc.remaining
  if remaining = 0 then
    throw SniError.noSni
  else
    match _h : (readNameAt lc : Checked ioError _).run with
    | none => ExceptT.mk none
    | some (Except.error e) => throw e
    | some (Except.ok ((nameType, name), rest)) =>
        if nameType = nameTypeHostName then
          if name.isEmpty then
            throw SniError.emptySni
          else
            match fromUtf8 name with
            | some serverName => return serverName
            | none => throw (SniError.malformed "server_name is not valid UTF-8")
        else
          findHostNameAt rest
termination_by lc.rest.length
decreasing_by
  exact rest_lt_of_refines (refines_readName (valid_of_readName _h)) _h
    fun _ => length_readName

theorem run_findHostNameAt (h : lc.Valid) : (findHostNameAt lc : Checked ioError _).run =
    if lc.rest.length = 0 then
      some (Except.error SniError.noSni)
    else
      (readNameAt lc >>= fun entry =>
        if entry.1.1 = nameTypeHostName then ExceptT.mk (some (hostNameEntry entry.1.2))
        else findHostNameAt entry.2).run := by
  rw [findHostNameAt, run_bind_of_ok (SliceCursor.run_remaining h)]
  split
  · rfl
  · split
    · rename_i hread
      exact (run_bind_of_none hread _).symm
    · rename_i hread
      exact (run_bind_of_error hread _).symm
    · rename_i hread
      rw [run_bind_of_ok hread]
      dsimp only [hostNameEntry]
      split
      · split
        · rfl
        · split <;> rfl
      · rfl

theorem agrees_findHostName (h : lc.Valid) :
    Agrees (findHostNameAt lc : Checked ioError _) (findHostName lc.rest) := by
  refine agrees_loop (fun _ => refines_readName) (fun _ _ _ => length_readName)
    (fun _ => run_findHostNameAt) findHostName_eq ?_ h
  intro entry c hrest
  dsimp only
  split
  · rfl
  · exact hrest

def parseServerNameExtensionAt (data : Bytes) : Checked ioError (List Char) := do
  let (listLen, c) <- (SliceCursor.new data).u16
  let (list, _) <- c.take listLen
  findHostNameAt (SliceCursor.new list)

theorem agrees_parseServerNameExtension (data : Bytes) :
    Agrees (parseServerNameExtensionAt data : Checked ioError _)
      (parseServerNameExtension data) := by
  apply Agrees.bind (SliceCursor.refines_u16 (SliceCursor.valid_new data))
  intro listLen c h
  apply Agrees.bind (SliceCursor.refines_take h listLen)
  intro list _ _
  exact agrees_findHostName (SliceCursor.valid_new list)

def readExtensionAt (ec : SliceCursor) : Checked ioError ((Nat × Bytes) × SliceCursor) := do
  let (extType, ec) <- ec.u16
  let (extLen, ec) <- ec.u16
  let (extData, ec) <- ec.take extLen
  return ((extType, extData), ec)

theorem refines_readExtension (h : ec.Valid) :
    Refines (readExtensionAt ec : Checked ioError _) (readExtension ec.rest) := by
  apply Refines.bind (SliceCursor.refines_u16 h)
  intro extType ec h
  apply Refines.bind (SliceCursor.refines_u16 h)
  intro extLen ec h
  apply Refines.bind (SliceCursor.refines_take h extLen)
  intro extData ec h
  exact ⟨ec, rfl, h, rfl⟩

theorem valid_of_readExtension {r : Except (SniError ioError) _}
    (h : (readExtensionAt ec : Checked ioError _).run = some r) : ec.Valid := by
  by_contra hnot
  have htype : (ec.u16 : Checked ioError _).run = none :=
    run_bind_of_none (run_take_of_not_valid hnot 2) _
  rw [readExtensionAt, run_bind_of_none htype] at h
  cases h

def findServerNameAt (ec : SliceCursor) : Checked ioError (List Char) := do
  let remaining <- ec.remaining
  if remaining = 0 then
    throw SniError.noSni
  else
    match _h : (readExtensionAt ec : Checked ioError _).run with
    | none => ExceptT.mk none
    | some (Except.error e) => throw e
    | some (Except.ok ((extType, extData), rest)) =>
        if extType = extensionServerName then
          parseServerNameExtensionAt extData
        else
          findServerNameAt rest
termination_by ec.rest.length
decreasing_by
  exact rest_lt_of_refines (refines_readExtension (valid_of_readExtension _h)) _h
    fun _ => length_readExtension

theorem run_findServerNameAt (h : ec.Valid) : (findServerNameAt ec : Checked ioError _).run =
    if ec.rest.length = 0 then
      some (Except.error SniError.noSni)
    else
      (readExtensionAt ec >>= fun extension =>
        if extension.1.1 = extensionServerName then parseServerNameExtensionAt extension.1.2
        else findServerNameAt extension.2).run := by
  rw [findServerNameAt, run_bind_of_ok (SliceCursor.run_remaining h)]
  split
  · rfl
  · split
    · rename_i hread
      exact (run_bind_of_none hread _).symm
    · rename_i hread
      exact (run_bind_of_error hread _).symm
    · rename_i hread
      rw [run_bind_of_ok hread]

theorem agrees_findServerName (h : ec.Valid) :
    Agrees (findServerNameAt ec : Checked ioError _) (findServerName ec.rest) := by
  refine agrees_loop (fun _ => refines_readExtension) (fun _ _ _ => length_readExtension)
    (fun _ => run_findServerNameAt) findServerName_eq ?_ h
  intro extension c hrest
  dsimp only
  split
  · exact agrees_parseServerNameExtension extension.2
  · exact hrest

def parseClientHelloBodyAt (body : Bytes) : Checked ioError (List Char) := do
  let (_, c) <- (SliceCursor.new body).take 2
  let (_, c) <- c.take 32
  let (sessionIdLen, c) <- c.u8
  let (_, c) <- c.take sessionIdLen
  let (cipherSuitesLen, c) <- c.u16
  let (_, c) <- c.take cipherSuitesLen
  let (compressionMethodsLen, c) <- c.u8
  let (_, c) <- c.take compressionMethodsLen
  let remaining <- c.remaining
  if remaining = 0 then
    throw SniError.noSni
  else do
    let (extensionsLen, c) <- c.u16
    let (extensions, _) <- c.take extensionsLen
    findServerNameAt (SliceCursor.new extensions)

theorem agrees_parseClientHelloBody (body : Bytes) :
    Agrees (parseClientHelloBodyAt body : Checked ioError _) (parseClientHelloBody body) := by
  apply Agrees.bind (SliceCursor.refines_take (SliceCursor.valid_new body) 2)
  intro version c h
  apply Agrees.bind (SliceCursor.refines_take h 32)
  intro random c h
  apply Agrees.bind (SliceCursor.refines_u8 h)
  intro sessionIdLen c h
  apply Agrees.bind (SliceCursor.refines_take h sessionIdLen)
  intro sessionId c h
  apply Agrees.bind (SliceCursor.refines_u16 h)
  intro cipherSuitesLen c h
  apply Agrees.bind (SliceCursor.refines_take h cipherSuitesLen)
  intro cipherSuites c h
  apply Agrees.bind (SliceCursor.refines_u8 h)
  intro compressionMethodsLen c h
  apply Agrees.bind (SliceCursor.refines_take h compressionMethodsLen)
  intro compressionMethods c h
  unfold Agrees
  dsimp only
  rw [run_bind_of_ok (SliceCursor.run_remaining h)]
  split
  · rfl
  · apply Agrees.bind (SliceCursor.refines_u16 h)
    intro extensionsLen c h
    apply Agrees.bind (SliceCursor.refines_take h extensionsLen)
    intro extensions _ _
    exact agrees_findServerName (SliceCursor.valid_new extensions)

/-- The body of the handshake message; a shorter record holds only a part of it. -/
def takeBody (c : SliceCursor) (hsLen : Nat) : Checked ioError (Bytes × SliceCursor) :=
  ExceptT.adapt
    (fun _ : SniError ioError =>
      SniError.malformed "ClientHello spans multiple TLS records (unsupported)")
    (c.take hsLen)

/-- The part of `try_parse` that looks inside the complete record. -/
def parseRecordAt (record : Bytes) : Checked ioError (List Char) := do
  let (hsType, c) <- (SliceCursor.new record).u8
  if hsType ≠ handshakeTypeClientHello then
    throw (SniError.malformed "first handshake message is not ClientHello")
  else do
    let (hsLen, c) <- c.u24
    let (body, _) <- takeBody c hsLen
    parseClientHelloBodyAt body

theorem agrees_parseRecord (record : Bytes) :
    Agrees (parseRecordAt record : Checked ioError _) (parseRecord record) := by
  apply Agrees.bind (SliceCursor.refines_u8 (SliceCursor.valid_new record))
  intro hsType c h
  dsimp only
  split
  · rfl
  · apply Agrees.bind (SliceCursor.refines_u24 h)
    intro hsLen c h
    have htake : Refines (c.take hsLen : Checked ioError _) (Cursor.take c.rest hsLen) :=
      SliceCursor.refines_take h hsLen
    dsimp only
    cases hy : (Cursor.take c.rest hsLen : Except (SniError ioError) _) with
    | error e =>
        rw [hy] at htake
        apply run_bind_of_error
        change Except.mapError _ <$> (c.take hsLen : Checked ioError _).run = _
        rw [(show (c.take hsLen : Checked ioError _).run = some (Except.error e) from htake)]
        rfl
    | ok result =>
        rw [hy] at htake
        rcases htake with ⟨c', hrun, _, _⟩
        have hbody : (takeBody c hsLen : Checked ioError _).run =
            some (Except.ok (result.1, c')) := by
          change Except.mapError _ <$> (c.take hsLen : Checked ioError _).run = _
          rw [hrun]
          rfl
        exact (run_bind_of_ok hbody _).trans (agrees_parseClientHelloBody result.1)

def tryParseAt (buf : Bytes) : Checked ioError Parsed := do
  if buf.length < 5 then
    return Parsed.incomplete
  else do
    let b0 <- Checked.index buf 0
    if b0 ≠ contentTypeHandshake then
      throw SniError.notHandshake
    else do
      let b3 <- Checked.index buf 3
      let b4 <- Checked.index buf 4
      let recordLen := Cursor.fromBeBytes [b3, b4]
      if recordLen = 0 ∨ recordLen > 0x4000 then
        throw (SniError.malformed "record length out of range")
      else if buf.length < 5 + recordLen then
        return Parsed.incomplete
      else do
        let record <- Checked.slice buf 5 (5 + recordLen)
        let serverName <- parseRecordAt record
        return Parsed.complete serverName

theorem run_index_header {buf : Bytes} (h : 5 <= buf.length) :
    (Checked.index buf 0 : Checked ioError UInt8).run = some (Except.ok (buf.headD 0)) ∧
      exists b3 b4 : UInt8,
        (Checked.index buf 3 : Checked ioError UInt8).run = some (Except.ok b3) ∧
        (Checked.index buf 4 : Checked ioError UInt8).run = some (Except.ok b4) ∧
        Cursor.fromBeBytes [b3, b4] = recordLen buf := by
  rcases buf with _ | ⟨b0, _ | ⟨b1, _ | ⟨b2, _ | ⟨b3, _ | ⟨b4, more⟩⟩⟩⟩⟩
  · cases h
  · simp at h
  · simp at h
  · simp at h
  · simp at h
  · exact ⟨rfl, b3, b4, rfl, rfl, rfl⟩

theorem run_tryParseAt (buf : Bytes) :
    (tryParseAt buf : Checked ioError Parsed).run = some (tryParse buf) := by
  unfold tryParseAt tryParse
  by_cases hshort : buf.length < 5
  · rw [if_pos hshort, if_pos hshort]
    rfl
  · rw [if_neg hshort, if_neg hshort]
    rcases @run_index_header ioError buf (Nat.not_lt.mp hshort) with
      ⟨h0, b3, b4, h3, h4, hlen⟩
    rw [run_bind_of_ok h0]
    by_cases htype : buf.headD 0 ≠ contentTypeHandshake
    · rw [if_pos htype, if_pos htype]
      rfl
    · rw [if_neg htype, if_neg htype, run_bind_of_ok h3, run_bind_of_ok h4, hlen]
      dsimp only
      by_cases hrange : recordLen buf = 0 ∨ recordLen buf > 0x4000
      · rw [if_pos hrange, if_pos hrange]
        rfl
      · rw [if_neg hrange, if_neg hrange]
        by_cases hpart : buf.length < 5 + recordLen buf
        · rw [if_pos hpart, if_pos hpart]
          rfl
        · have hrecord := @SliceCursor.run_slice ioError ⟨buf, 5⟩ (recordLen buf)
            (Nat.not_lt.mp hpart)
          rw [if_neg hpart, if_neg hpart, run_bind_of_ok hrecord]
          have hparse : (parseRecordAt ((buf.drop 5).take (recordLen buf)) :
              Checked ioError _).run = some (parseRecord _) := agrees_parseRecord _
          cases hy : (parseRecord ((buf.drop 5).take (recordLen buf)) :
              Except (SniError ioError) _) with
          | error e =>
              rw [hy] at hparse
              exact run_bind_of_error hparse _
          | ok serverName =>
              rw [hy] at hparse
              exact run_bind_of_ok hparse _

end Sni
end Reachability
end Ephor
