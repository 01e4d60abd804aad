import Ephor.Foundation.Text

/-!
# Peeking the server name of a ClientHello

`pier-reachability-adapter/src/sni.rs`: the adapter reads from a connection until the first
TLS record is complete and takes the `server_name` out of it.  The buffer is parsed anew
after every read, and its size is checked between the reads only, so how the stream happens
to be cut into reads could show in the result.
-/

namespace Ephor
namespace Reachability
namespace Sni

open Foundation
open Foundation.Text

inductive SniError (ioError : Type) where
  | notHandshake
  | malformed (what : String)
  | noSni
  | emptySni
  | tooLarge
  | unexpectedEof
  | io (error : ioError)
deriving DecidableEq

structure ClientHelloPeek where
  serverName : List Char
  raw : Bytes
deriving DecidableEq

inductive Parsed where
  | incomplete
  | complete (serverName : List Char)
deriving DecidableEq

def maxClientHelloBytes : Nat := 16 * 1024

def contentTypeHandshake : UInt8 := 0x16

def handshakeTypeClientHello : Nat := 0x01

def extensionServerName : Nat := 0x0000

def nameTypeHostName : Nat := 0x00

variable {ioError : Type}

/-!
# The cursor

A cursor is the bytes it has not taken yet.
-/

variable {rest buf more stream : Bytes} {n : Nat}

namespace Cursor

/-- The number that the bytes spell, the most significant first. -/
def fromBeBytes (b : Bytes) : Nat :=
  b.foldl (fun n x => n * 256 + x.toNat) 0

def take (c : Bytes) (n : Nat) : Except (SniError ioError) (Bytes × Bytes) :=
  if n > c.length then
    Except.error (SniError.malformed "truncated field")
  else
    Except.ok (c.take n, c.drop n)

def number (n : Nat) (c : Bytes) : Except (SniError ioError) (Nat × Bytes) := do
  let (b, c) <- take c n
  return (fromBeBytes b, c)

def u8 (c : Bytes) : Except (SniError ioError) (Nat × Bytes) := number 1 c

def u16 (c : Bytes) : Except (SniError ioError) (Nat × Bytes) := number 2 c

def u24 (c : Bytes) : Except (SniError ioError) (Nat × Bytes) := number 3 c

theorem take_eq_ok {c field : Bytes} :
    (take c n : Except (SniError ioError) (Bytes × Bytes)) = Except.ok (field, rest) <->
      n <= c.length ∧ field = c.take n ∧ rest = c.drop n := by
  by_cases h : n > c.length
  · have hnot : Not (n <= c.length) := Nat.not_le.mpr h
    simp [take, h, hnot]
  · simp [take, h, Nat.not_lt.mp h, eq_comm]

theorem length_number {value : Nat} {c : Bytes}
    (h : (number n c : Except (SniError ioError) (Nat × Bytes)) = Except.ok (value, rest)) :
    rest.length + n = c.length := by
  rcases bind_eq_ok.mp h with ⟨field, hfield, hvalue⟩
  rcases take_eq_ok.mp hfield with ⟨hle, _, hrest⟩
  injection hvalue with hvalue
  injection hvalue with _ hvalue
  rw [<- hvalue, hrest, List.length_drop]
  omega

/-- A number, and a field behind its length. -/
def field (n : Nat) (c : Bytes) : Except (SniError ioError) ((Nat × Bytes) × Bytes) := do
  let (value, c) <- number n c
  let (len, c) <- u16 c
  let (b, c) <- take c len
  return ((value, b), c)

theorem length_field {c : Bytes} {entry : Nat × Bytes}
    (h : (field n c : Except (SniError ioError) _) = Except.ok (entry, rest)) :
    rest.length < c.length := by
  rcases bind_eq_ok.mp h with ⟨⟨_, c'⟩, hvalue, h⟩
  rcases bind_eq_ok.mp h with ⟨⟨_, c''⟩, hlen, h⟩
  rcases bind_eq_ok.mp h with ⟨_, htake, h⟩
  injection h with h
  injection h with _ h
  rw [<- h]
  have hvalue' := length_number hvalue
  have hlen' := length_number hlen
  rcases take_eq_ok.mp htake with ⟨_, _, hdrop⟩
  rw [hdrop, List.length_drop]
  omega

end Cursor

/-!
# The parser
-/

/-- One entry of the `server_name` list: its type, its name and the entries after it. -/
def readName (lc : Bytes) : Except (SniError ioError) ((Nat × Bytes) × Bytes) := do
  let (nameType, lc) <- Cursor.u8 lc
  let (nameLen, lc) <- Cursor.u16 lc
  let (name, lc) <- Cursor.take lc nameLen
  return ((nameType, name), lc)

theorem length_readName {lc : Bytes} {entry : Nat × Bytes}
    (h : (readName lc : Except (SniError ioError) _) = Except.ok (entry, rest)) :
    rest.length < lc.length :=
  Cursor.length_field h

/-- The loop over the `server_name` list. -/
def findHostName (lc : Bytes) : Except (SniError ioError) (List Char) :=
  if lc.length = 0 then
    Except.error SniError.noSni
  else
    match _h : (readName lc : Except (SniError ioError) _) with
    | Except.error e => Except.error e
    | Except.ok ((nameType, name), rest) =>
        if nameType = nameTypeHostName then
          if name.isEmpty then
            Except.error SniError.emptySni
          else
            match fromUtf8 name with
            | some serverName => Except.ok serverName
            | none => Except.error (SniError.malformed "server_name is not valid UTF-8")
        else
          findHostName rest
termination_by lc.length
decreasing_by exact length_readName _h

def parseServerNameExtension (data : Bytes) : Except (SniError ioError) (List Char) := do
  let (listLen, c) <- Cursor.u16 data
  let (list, _) <- Cursor.take c listLen
  findHostName list

def readExtension (ec : Bytes) : Except (SniError ioError) ((Nat × Bytes) × Bytes) := do
  let (extType, ec) <- Cursor.u16 ec
  let (extLen, ec) <- Cursor.u16 ec
  let (extData, ec) <- Cursor.take ec extLen
  return ((extType, extData), ec)

theorem length_readExtension {ec : Bytes} {extension : Nat × Bytes}
    (h : (readExtension ec : Except (SniError ioError) _) = Except.ok (extension, rest)) :
    rest.length < ec.length :=
  Cursor.length_field h

def findServerName (ec : Bytes) : Except (SniError ioError) (List Char) :=
  if ec.length = 0 then
    Except.error SniError.noSni
  else
    match _h : (readExtension ec : Except (SniError ioError) _) with
    | Except.error e => Except.error e
    | Except.ok ((extType, extData), rest) =>
        if extType = extensionServerName then
          parseServerNameExtension extData
        else
          findServerName rest
termination_by ec.length
decreasing_by exact length_readExtension _h

def parseClientHelloBody (body : Bytes) : Except (SniError ioError) (List Char) := do
  let (_, c) <- Cursor.take body 2
  let (_, c) <- Cursor.take c 32
  let (sessionIdLen, c) <- Cursor.u8 c
  let (_, c) <- Cursor.take c sessionIdLen
  let (cipherSuitesLen, c) <- Cursor.u16 c
  let (_, c) <- Cursor.take c cipherSuitesLen
  let (compressionMethodsLen, c) <- Cursor.u8 c
  let (_, c) <- Cursor.take c compressionMethodsLen
  if c.length = 0 then
    Except.error SniError.noSni
  else do
    let (extensionsLen, c) <- Cursor.u16 c
    let (extensions, _) <- Cursor.take c extensionsLen
    findServerName extensions

/-- The part of `try_parse` that looks inside the complete record. -/
def parseRecord (record : Bytes) : Except (SniError ioError) (List Char) := do
  let (hsType, c) <- Cursor.u8 record
  if hsType ≠ handshakeTypeClientHello then
    Except.error (SniError.malformed "first handshake message is not ClientHello")
  else do
    let (hsLen, c) <- Cursor.u24 c
    match (Cursor.take c hsLen : Except (SniError ioError) _) with
    | Except.error _ =>
        Except.error
          (SniError.malformed "ClientHello spans multiple TLS records (unsupported)")
    | Except.ok (body, _) => parseClientHelloBody body

def recordLen (buf : Bytes) : Nat :=
  Cursor.fromBeBytes ((buf.drop 3).take 2)

def tryParse (buf : Bytes) : Except (SniError ioError) Parsed :=
  if buf.length < 5 then
    Except.ok Parsed.incomplete
  else if buf.headD 0 ≠ contentTypeHandshake then
    Except.error SniError.notHandshake
  else if recordLen buf = 0 ∨ recordLen buf > 0x4000 then
    Except.error (SniError.malformed "record length out of range")
  else if buf.length < 5 + recordLen buf then
    Except.ok Parsed.incomplete
  else
    (parseRecord ((buf.drop 5).take (recordLen buf))).map Parsed.complete

/-!
# Reading
-/

inductive StreamEnd (ioError : Type) where
  | eof
  | failed (error : ioError)
deriving DecidableEq

def StreamEnd.error : StreamEnd ioError -> SniError ioError
  | eof => SniError.unexpectedEof
  | failed e => SniError.io e

/-- The loop of `peek_client_hello`, with the reads still to come. -/
def peekLoop (ending : StreamEnd ioError) :
    Bytes -> List Bytes -> Except (SniError ioError) ClientHelloPeek
  | buf, reads =>
      match (tryParse buf : Except (SniError ioError) Parsed) with
      | Except.error e => Except.error e
      | Except.ok (Parsed.complete serverName) => Except.ok ⟨serverName, buf⟩
      | Except.ok Parsed.incomplete =>
          if buf.length >= maxClientHelloBytes then
            Except.error SniError.tooLarge
          else
            match reads with
            | [] => Except.error ending.error
            | chunk :: reads => peekLoop ending (buf ++ chunk) reads

def peekClientHello (ending : StreamEnd ioError) (reads : List Bytes) :
    Except (SniError ioError) ClientHelloPeek :=
  peekLoop ending [] reads

/-- One way of cutting the stream into reads; a read fills a buffer of 1024 bytes at most. -/
structure Reads (stream : Bytes) where
  chunks : List Bytes
  size : forall chunk, chunk ∈ chunks -> 1 <= chunk.length ∧ chunk.length <= 1024
  flatten : chunks.flatten = stream

def routes (ending : StreamEnd ioError) {stream : Bytes} (reads : Reads stream) :
    Except (SniError ioError) (List Char) :=
  (peekClientHello ending reads.chunks).map ClientHelloPeek.serverName

/-!
# A growing buffer

More bytes change nothing once the buffer has been understood.
-/

theorem headD_append (h : 5 <= buf.length) (more : Bytes) :
    (buf ++ more).headD 0 = buf.headD 0 := by
  cases buf with
  | nil => cases h
  | cons b buf => rfl

theorem recordLen_append (h : 5 <= buf.length) (more : Bytes) :
    recordLen (buf ++ more) = recordLen buf := by
  have htake : ((buf ++ more).drop 3).take 2 = (buf.drop 3).take 2 := by
    rw [List.drop_append_of_le_length (by omega), List.take_append_of_le_length]
    rw [List.length_drop]
    omega
  rw [recordLen, htake, recordLen]

theorem record_append (h : 5 + n <= buf.length) :
    ((buf ++ more).drop 5).take n = (buf.drop 5).take n := by
  rw [List.drop_append_of_le_length (by omega), List.take_append_of_le_length]
  rw [List.length_drop]
  omega

def Waiting (buf : Bytes) : Prop :=
  buf.length < 5 ∨
    (buf.headD 0 = contentTypeHandshake ∧ 1 <= recordLen buf ∧ recordLen buf <= 0x4000 ∧
      buf.length < 5 + recordLen buf)

/-- What `try_parse` makes of a buffer that is not waiting. -/
def understood (buf : Bytes) : Except (SniError ioError) (List Char) :=
  if buf.headD 0 ≠ contentTypeHandshake then
    Except.error SniError.notHandshake
  else if recordLen buf = 0 ∨ recordLen buf > 0x4000 then
    Except.error (SniError.malformed "record length out of range")
  else
    parseRecord ((buf.drop 5).take (recordLen buf))

theorem length_of_not_waiting (h : Not (Waiting buf)) : 5 <= buf.length := by
  by_contra hshort
  exact h (Or.inl (by omega))

theorem record_of_not_waiting (h : Not (Waiting buf))
    (htype : Not (buf.headD 0 ≠ contentTypeHandshake))
    (hrange : Not (recordLen buf = 0 ∨ recordLen buf > 0x4000)) :
    5 + recordLen buf <= buf.length := by
  by_contra hpart
  exact h (Or.inr ⟨not_not.mp htype, by omega, by omega, by omega⟩)

theorem tryParse_of_waiting (h : Waiting buf) :
    (tryParse buf : Except (SniError ioError) Parsed) = Except.ok Parsed.incomplete := by
  unfold tryParse
  by_cases hshort : buf.length < 5
  · rw [if_pos hshort]
  · rcases h with hshort' | ⟨htype, hpos, hmax, hpart⟩
    · exact absurd hshort' hshort
    · have hrange : Not (recordLen buf = 0 ∨ recordLen buf > 0x4000) := by omega
      rw [if_neg hshort, if_neg (not_not.mpr htype), if_neg hrange, if_pos hpart]

theorem tryParse_of_not_waiting (h : Not (Waiting buf)) :
    (tryParse buf : Except (SniError ioError) Parsed) = (understood buf).map Parsed.complete := by
  unfold tryParse understood
  rw [if_neg (Nat.not_lt.mpr (length_of_not_waiting h))]
  split
  · rfl
  · rename_i htype
    split
    · rfl
    · rename_i hrange
      rw [if_neg (Nat.not_lt.mpr (record_of_not_waiting h htype hrange))]

theorem waiting_of_append (h : Waiting (buf ++ more)) : Waiting buf := by
  by_cases hlen : 5 <= buf.length
  · rcases h with hshort | ⟨htype, hpos, hmax, hpart⟩
    · rw [List.length_append] at hshort
      omega
    · rw [headD_append hlen more] at htype
      rw [recordLen_append hlen more] at hpos hmax hpart
      rw [List.length_append] at hpart
      exact Or.inr ⟨htype, hpos, hmax, by omega⟩
  · exact Or.inl (by omega)

theorem understood_append (h : Not (Waiting buf)) (more : Bytes) :
    (understood (buf ++ more) : Except (SniError ioError) (List Char)) = understood buf := by
  have hlen := length_of_not_waiting h
  unfold understood
  rw [headD_append hlen more, recordLen_append hlen more]
  split
  · rfl
  · rename_i htype
    split
    · rfl
    · rename_i hrange
      rw [record_append (record_of_not_waiting h htype hrange)]

/-!
# The bound is not the parser's
-/

section NotTooLarge

variable {α β : Type}

def NotTooLarge (r : Except (SniError ioError) α) : Prop :=
  r ≠ Except.error SniError.tooLarge

theorem notTooLarge_bind {x : Except (SniError ioError) α}
    {f : α -> Except (SniError ioError) β} (hx : NotTooLarge x)
    (hf : forall a, NotTooLarge (f a)) : NotTooLarge (x >>= f) := by
  cases x with
  | error e =>
      intro h
      apply hx
      cases h
      rfl
  | ok a => exact hf a

theorem notTooLarge_take (c : Bytes) (n : Nat) :
    NotTooLarge (Cursor.take c n : Except (SniError ioError) _) := by
  unfold Cursor.take
  split
  · intro h
    cases h
  · intro h
    cases h

theorem notTooLarge_number (n : Nat) (c : Bytes) :
    NotTooLarge (Cursor.number n c : Except (SniError ioError) _) := by
  apply notTooLarge_bind (notTooLarge_take c n)
  intro field h
  cases h

theorem notTooLarge_field (n : Nat) (c : Bytes) :
    NotTooLarge (Cursor.field n c : Except (SniError ioError) _) := by
  apply notTooLarge_bind (notTooLarge_number n c)
  intro value
  apply notTooLarge_bind (notTooLarge_number 2 value.2)
  intro len
  apply notTooLarge_bind (notTooLarge_take len.2 len.1)
  intro b h
  cases h

theorem notTooLarge_findHostName (lc : Bytes) :
    NotTooLarge (findHostName lc : Except (SniError ioError) _) := by
  fun_induction findHostName lc with
  | case1 => exact fun h => nomatch h
  | case2 lc _ e hread =>
      intro h
      cases h
      exact notTooLarge_field 1 lc hread
  | case3 => exact fun h => nomatch h
  | case4 => exact fun h => nomatch h
  | case5 => exact fun h => nomatch h
  | case6 _ _ _ _ _ _ _ ih => exact ih

theorem notTooLarge_parseServerNameExtension (data : Bytes) :
    NotTooLarge (parseServerNameExtension data : Except (SniError ioError) _) := by
  apply notTooLarge_bind (notTooLarge_number 2 data)
  intro listLen
  apply notTooLarge_bind (notTooLarge_take listLen.2 listLen.1)
  intro list
  exact notTooLarge_findHostName list.1

theorem notTooLarge_findServerName (ec : Bytes) :
    NotTooLarge (findServerName ec : Except (SniError ioError) _) := by
  fun_induction findServerName ec with
  | case1 => exact fun h => nomatch h
  | case2 ec _ e hread =>
      intro h
      cases h
      exact notTooLarge_field 2 ec hread
  | case3 => exact notTooLarge_parseServerNameExtension _
  | case4 _ _ _ _ _ _ _ ih => exact ih

theorem notTooLarge_parseClientHelloBody (body : Bytes) :
    NotTooLarge (parseClientHelloBody body : Except (SniError ioError) _) := by
  apply notTooLarge_bind (notTooLarge_take body 2)
  intro version
  apply notTooLarge_bind (notTooLarge_take version.2 32)
  intro random
  apply notTooLarge_bind (notTooLarge_number 1 random.2)
  intro sessionIdLen
  apply notTooLarge_bind (notTooLarge_take sessionIdLen.2 sessionIdLen.1)
  intro sessionId
  apply notTooLarge_bind (notTooLarge_number 2 sessionId.2)
  intro cipherSuitesLen
  apply notTooLarge_bind (notTooLarge_take cipherSuitesLen.2 cipherSuitesLen.1)
  intro cipherSuites
  apply notTooLarge_bind (notTooLarge_number 1 cipherSuites.2)
  intro compressionMethodsLen
  apply notTooLarge_bind (notTooLarge_take compressionMethodsLen.2 compressionMethodsLen.1)
  intro compressionMethods
  dsimp only
  split
  · exact fun h => nomatch h
  · apply notTooLarge_bind (notTooLarge_number 2 compressionMethods.2)
    intro extensionsLen
    apply notTooLarge_bind (notTooLarge_take extensionsLen.2 extensionsLen.1)
    intro extensions
    exact notTooLarge_findServerName extensions.1

theorem notTooLarge_parseRecord (record : Bytes) :
    NotTooLarge (parseRecord record : Except (SniError ioError) _) := by
  apply notTooLarge_bind (notTooLarge_number 1 record)
  intro hsType
  dsimp only
  split
  · exact fun h => nomatch h
  · apply notTooLarge_bind (notTooLarge_number 3 hsType.2)
    intro hsLen
    split
    · exact fun h => nomatch h
    · exact notTooLarge_parseClientHelloBody _

theorem notTooLarge_understood (buf : Bytes) :
    NotTooLarge (understood buf : Except (SniError ioError) _) := by
  unfold understood
  split
  · exact fun h => nomatch h
  · split
    · exact fun h => nomatch h
    · exact notTooLarge_parseRecord _

end NotTooLarge

/-!
# The loop
-/

/-- The result while the record is not complete, by the bytes read so far. -/
def starved (ending : StreamEnd ioError) (buf : Bytes) :
    Except (SniError ioError) (List Char) :=
  if buf.length >= maxClientHelloBytes then
    Except.error SniError.tooLarge
  else
    Except.error ending.error

variable {ending : StreamEnd ioError}

theorem peekLoop_of_not_waiting {reads : List Bytes} (h : Not (Waiting buf)) :
    (peekLoop ending buf reads).map ClientHelloPeek.serverName = understood buf := by
  unfold peekLoop
  rw [tryParse_of_not_waiting h]
  cases (understood buf : Except (SniError ioError) (List Char)) with
  | error e | ok serverName => rfl

theorem peekLoop_of_full {reads : List Bytes} (h : Waiting buf)
    (hfull : maxClientHelloBytes <= buf.length) :
    peekLoop ending buf reads = Except.error SniError.tooLarge := by
  unfold peekLoop
  rw [tryParse_of_waiting h]
  simp [hfull]

theorem peekLoop_nil (h : Waiting buf) :
    (peekLoop ending buf []).map ClientHelloPeek.serverName = starved ending buf := by
  unfold peekLoop starved
  rw [tryParse_of_waiting h]
  dsimp only
  split <;> rfl

theorem peekLoop_cons {chunk : Bytes} {reads : List Bytes} (h : Waiting buf)
    (hroom : buf.length < maxClientHelloBytes) :
    peekLoop ending buf (chunk :: reads) = peekLoop ending (buf ++ chunk) reads := by
  rw [peekLoop, tryParse_of_waiting h]
  simp [Nat.not_le.mpr hroom]

theorem peekLoop_append (ending : StreamEnd ioError) (buf : Bytes) (reads : List Bytes)
    (hsize : forall chunk, chunk ∈ reads -> 1 <= chunk.length)
    (hwait : Waiting (buf ++ reads.flatten))
    (hroom : (buf ++ reads.flatten).length <= maxClientHelloBytes) (more : List Bytes) :
    peekLoop ending buf (reads ++ more) = peekLoop ending (buf ++ reads.flatten) more := by
  induction reads generalizing buf with
  | nil => rw [List.flatten_nil, List.append_nil, List.nil_append]
  | cons chunk reads ih =>
      have hchunk := hsize chunk List.mem_cons_self
      rw [List.flatten_cons] at hwait hroom ⊢
      have hshort : buf.length < maxClientHelloBytes := by
        rw [List.length_append, List.length_append] at hroom
        omega
      rw [List.cons_append, peekLoop_cons (waiting_of_append hwait) hshort]
      rw [<- List.append_assoc] at hwait hroom ⊢
      apply ih
      · intro c hc
        exact hsize c (List.mem_cons_of_mem chunk hc)
      · exact hwait
      · exact hroom

/-!
# Cuts that cannot be told apart, and cuts that can
-/

/--
The stream starts with a complete record of a legal length that does not fit the bound with
its header.
-/
def StraddlesBound (stream : Bytes) : Prop :=
  stream.headD 0 = contentTypeHandshake ∧ recordLen stream <= 0x4000 ∧
    maxClientHelloBytes < 5 + recordLen stream ∧ 5 + recordLen stream <= stream.length

instance (stream : Bytes) : Decidable (StraddlesBound stream) :=
  inferInstanceAs (Decidable (_ ∧ _ ∧ _ ∧ _))

theorem waiting_append_of_full (h : Waiting buf) (hfull : maxClientHelloBytes <= buf.length)
    (hfits : Not (StraddlesBound (buf ++ more))) : Waiting (buf ++ more) := by
  have hmax : maxClientHelloBytes = 16384 := rfl
  have hlen : 5 <= buf.length := by omega
  rcases h with hshort | ⟨htype, hpos, hrange, hpart⟩
  · omega
  · apply Or.inr
    unfold StraddlesBound at hfits
    rw [headD_append hlen more, recordLen_append hlen more] at hfits ⊢
    refine ⟨htype, hpos, hrange, ?_⟩
    by_contra hcomplete
    exact hfits ⟨htype, hrange, by omega, by omega⟩

def outcome (ending : StreamEnd ioError) (stream : Bytes) :
    Except (SniError ioError) (List Char) :=
  match (tryParse stream : Except (SniError ioError) Parsed) with
  | Except.error e => Except.error e
  | Except.ok (Parsed.complete serverName) => Except.ok serverName
  | Except.ok Parsed.incomplete => starved ending stream

theorem outcome_of_not_waiting (h : Not (Waiting stream)) :
    outcome ending stream = understood stream := by
  unfold outcome
  rw [tryParse_of_not_waiting h]
  cases (understood stream : Except (SniError ioError) (List Char)) with
  | error e | ok serverName => rfl

theorem outcome_of_waiting (h : Waiting stream) :
    outcome ending stream = starved ending stream := by
  unfold outcome
  rw [tryParse_of_waiting h]

theorem peekLoop_eq_outcome (ending : StreamEnd ioError) (buf : Bytes)
    (reads : List Bytes) (hfits : Not (StraddlesBound (buf ++ reads.flatten))) :
    (peekLoop ending buf reads).map ClientHelloPeek.serverName =
      outcome ending (buf ++ reads.flatten) := by
  induction reads generalizing buf with
  | nil =>
      rw [List.flatten_nil, List.append_nil]
      by_cases hwait : Waiting buf
      · rw [peekLoop_nil hwait, outcome_of_waiting hwait]
      · rw [peekLoop_of_not_waiting hwait, outcome_of_not_waiting hwait]
  | cons chunk reads ih =>
      rw [List.flatten_cons] at hfits ⊢
      by_cases hwait : Waiting buf
      · by_cases hfull : maxClientHelloBytes <= buf.length
        · rw [peekLoop_of_full hwait hfull,
            outcome_of_waiting (waiting_append_of_full hwait hfull hfits)]
          have hlong : maxClientHelloBytes <= (buf ++ (chunk ++ reads.flatten)).length := by
            rw [List.length_append]
            omega
          rw [starved, if_pos hlong]
          rfl
        · rw [peekLoop_cons hwait (Nat.not_le.mp hfull)]
          rw [<- List.append_assoc] at hfits ⊢
          exact ih (buf ++ chunk) hfits
      · have hdone : Not (Waiting (buf ++ (chunk ++ reads.flatten))) := by
          intro h
          exact hwait (waiting_of_append h)
        rw [peekLoop_of_not_waiting hwait, outcome_of_not_waiting hdone,
          understood_append hwait]

def bytewise (b : Bytes) : List Bytes :=
  b.map fun x => [x]

theorem flatten_bytewise (b : Bytes) : (bytewise b).flatten = b := by
  induction b with
  | nil => rfl
  | cons x b ih =>
      change [x] ++ (bytewise b).flatten = _
      rw [ih]
      rfl

theorem size_bytewise (b : Bytes) :
    forall chunk, chunk ∈ bytewise b -> 1 <= chunk.length ∧ chunk.length <= 1024 := by
  intro chunk h
  rcases List.mem_map.mp h with ⟨x, _, hx⟩
  rw [<- hx, List.length_singleton]
  exact ⟨Nat.le_refl 1, by decide⟩

def Reads.bytewise (stream : Bytes) : Reads stream where
  chunks := Sni.bytewise stream
  size := size_bytewise stream
  flatten := flatten_bytewise stream

/-- One byte at a time up to one below the bound, then a full read, then one at a time. -/
def Reads.leap (stream : Bytes) (h : maxClientHelloBytes <= stream.length) :
    Reads stream where
  chunks := Sni.bytewise (stream.take 16383) ++
    ((stream.drop 16383).take 1024 :: Sni.bytewise ((stream.drop 16383).drop 1024))
  size := by
    intro chunk hchunk
    rcases List.mem_append.mp hchunk with hfirst | hrest
    · exact size_bytewise _ chunk hfirst
    · rcases List.mem_cons.mp hrest with hleap | hlast
      · have hmax : maxClientHelloBytes = 16384 := rfl
        rw [hleap, List.length_take, List.length_drop]
        omega
      · exact size_bytewise _ chunk hlast
  flatten := by
    rw [List.flatten_append, List.flatten_cons, flatten_bytewise, flatten_bytewise,
      List.take_append_drop, List.take_append_drop]

theorem StraddlesBound.waiting_take (h : StraddlesBound stream) (hn : n <= maxClientHelloBytes) :
    Waiting (stream.take n) := by
  rcases h with ⟨htype, hrange, hlong, hcomplete⟩
  by_cases hlen : 5 <= (stream.take n).length
  · apply Or.inr
    have hhead := headD_append hlen (stream.drop n)
    have hrecord := recordLen_append hlen (stream.drop n)
    rw [List.take_append_drop] at hhead hrecord
    have hmax : maxClientHelloBytes = 16384 := rfl
    rw [<- hhead, <- hrecord]
    refine ⟨htype, by omega, hrange, ?_⟩
    rw [List.length_take]
    omega
  · exact Or.inl (Nat.not_le.mp hlen)

theorem not_waiting_of_complete (hstream : buf ++ more = stream)
    (hlong : 5 + recordLen stream <= buf.length) : Not (Waiting buf) := by
  have hlen : 5 <= buf.length := by omega
  have hrecord := recordLen_append hlen more
  rw [hstream] at hrecord
  intro hwait
  rcases hwait with hshort | ⟨_, _, _, hpart⟩
  · omega
  · omega

theorem routes_bytewise (h : StraddlesBound stream) :
    routes ending (Reads.bytewise stream) = Except.error SniError.tooLarge := by
  have hlen : maxClientHelloBytes <= stream.length := by
    rcases h with ⟨_, _, hlong, hcomplete⟩
    omega
  have hwait := h.waiting_take (Nat.le_refl maxClientHelloBytes)
  have htake : (stream.take maxClientHelloBytes).length = maxClientHelloBytes := by
    rw [List.length_take, Nat.min_eq_left hlen]
  have hsplit : bytewise stream = bytewise (stream.take maxClientHelloBytes) ++
      bytewise (stream.drop maxClientHelloBytes) := by
    rw [bytewise, bytewise, bytewise, <- List.map_append, List.take_append_drop]
  have hfill := peekLoop_append ending [] (bytewise (stream.take maxClientHelloBytes))
    (fun chunk hchunk => (size_bytewise _ chunk hchunk).1)
  rw [flatten_bytewise, List.nil_append] at hfill
  change (peekLoop ending [] (bytewise stream)).map _ = _
  rw [hsplit, hfill hwait (Nat.le_of_eq htake), peekLoop_of_full hwait (Nat.le_of_eq htake.symm)]
  rfl

theorem routes_leap (h : StraddlesBound stream) (hlen : maxClientHelloBytes <= stream.length) :
    routes ending (Reads.leap stream hlen) = understood stream := by
  have hmax : maxClientHelloBytes = 16384 := rfl
  have hwait := h.waiting_take (show 16383 <= maxClientHelloBytes by omega)
  have hfill := peekLoop_append ending [] (bytewise (stream.take 16383))
    (fun chunk hchunk => (size_bytewise _ chunk hchunk).1)
  rw [flatten_bytewise, List.nil_append] at hfill
  have htake : (stream.take 16383).length = 16383 := by
    rw [List.length_take]
    omega
  have hstream : stream.take 16383 ++ (stream.drop 16383).take 1024 ++
      (stream.drop 16383).drop 1024 = stream := by
    rw [List.append_assoc, List.take_append_drop, List.take_append_drop]
  have hdone : Not (Waiting (stream.take 16383 ++ (stream.drop 16383).take 1024)) := by
    apply not_waiting_of_complete hstream
    rcases h with ⟨_, hrange, _, hcomplete⟩
    rw [List.length_append, htake, List.length_take, List.length_drop]
    omega
  have hsame : understood stream = (understood _ : Except (SniError ioError) _) :=
    hstream ▸ understood_append hdone ((stream.drop 16383).drop 1024)
  change (peekLoop ending [] (bytewise (stream.take 16383) ++ _)).map _ = _
  rw [hfill hwait (by omega), peekLoop_cons hwait (by omega), peekLoop_of_not_waiting hdone,
    hsame]

/--
Every two ways of cutting the stream into reads have the same outcome, unless the stream
starts with a complete record that is legal by its length but exceeds the bound together
with its header.
-/
theorem routes_same_iff (ending : StreamEnd ioError) (stream : Bytes) :
    (forall r r' : Reads stream, routes ending r = routes ending r') <->
      Not (StraddlesBound stream) := by
  constructor
  · intro hsame h
    have hlen : maxClientHelloBytes <= stream.length := by
      rcases h with ⟨_, _, hlong, hcomplete⟩
      omega
    have hcuts := hsame (Reads.bytewise stream) (Reads.leap stream hlen)
    rw [routes_bytewise h, routes_leap h hlen] at hcuts
    exact notTooLarge_understood stream hcuts.symm
  · intro h r r'
    have hcut : forall cut : Reads stream, routes ending cut = outcome ending stream := by
      intro cut
      have hflat := cut.flatten
      have hloop := peekLoop_eq_outcome ending [] cut.chunks
      rw [List.nil_append, hflat] at hloop
      exact hloop h
    rw [hcut r, hcut r']

/-!
A ClientHello for `a.example`, padded to the largest legal record: cut one way it is
routed, cut another way it is refused.
-/

theorem Cursor.take_append {a b : Bytes} (h : a.length = n) :
    (Cursor.take (a ++ b) n : Except (SniError ioError) _) = Except.ok (a, b) := by
  apply Cursor.take_eq_ok.mpr
  subst h
  exact ⟨by simp, by simp, by simp⟩

theorem Cursor.number_append {a b : Bytes} {n : Nat} (h : a.length = n) :
    (Cursor.number n (a ++ b) : Except (SniError ioError) _) =
      Except.ok (Cursor.fromBeBytes a, b) := by
  rw [Cursor.number, Cursor.take_append h]
  rfl

/-- `a.example`. -/
def hostName : Bytes := [0x61, 0x2E, 0x65, 0x78, 0x61, 0x6D, 0x70, 0x6C, 0x65]

def nameList : Bytes :=
  [0x00] ++ ([0x00, 0x09] ++ (hostName ++ []))

def serverNameData : Bytes :=
  [0x00, 0x0C] ++ (nameList ++ [])

def extensions (padding : Bytes) : Bytes :=
  [0x00, 0x00] ++ ([0x00, 0x0E] ++ (serverNameData ++ ([0x00, 0x15, 0x3F, 0xBB] ++ padding)))

def helloBody (padding : Bytes) : Bytes :=
  [0x03, 0x03] ++ (List.replicate 32 0x42 ++ ([0x00] ++ ([] ++ ([0x00, 0x02] ++
    ([0x13, 0x01] ++ ([0x01] ++ ([0x00] ++ ([0x3F, 0xD1] ++ (extensions padding ++ [])))))))))

def helloRecord (padding : Bytes) : Bytes :=
  [0x01] ++ ([0x00, 0x3F, 0xFC] ++ (helloBody padding ++ []))

def hello (padding : Bytes) : Bytes :=
  [0x16, 0x03, 0x01, 0x40, 0x00] ++ helloRecord padding

theorem readName_nameList :
    (readName nameList : Except (SniError ioError) _) = Except.ok ((0, hostName), []) :=
  bind_eq_ok.mpr ⟨_, Cursor.number_append rfl,
    bind_eq_ok.mpr ⟨_, Cursor.number_append rfl,
      bind_eq_ok.mpr ⟨_, Cursor.take_append rfl, rfl⟩⟩⟩

theorem findHostName_nameList :
    (findHostName nameList : Except (SniError ioError) _) =
      Except.ok "a.example".toList := by
  have hname : fromUtf8 hostName = some "a.example".toList := by decide +kernel
  rw [findHostName, if_neg (by decide)]
  split
  · rename_i herror
    rw [readName_nameList] at herror
    cases herror
  · rename_i hok
    rw [readName_nameList] at hok
    cases hok
    have htype : 0 = nameTypeHostName := rfl
    have hfull : Not (hostName.isEmpty = true) := by decide
    rw [if_pos htype, if_neg hfull, hname]

theorem parseServerNameExtension_serverNameData :
    (parseServerNameExtension serverNameData : Except (SniError ioError) _) =
      Except.ok "a.example".toList :=
  bind_eq_ok.mpr ⟨_, Cursor.number_append rfl,
    bind_eq_ok.mpr ⟨_, Cursor.take_append rfl, findHostName_nameList⟩⟩

theorem readExtension_extensions (padding : Bytes) :
    (readExtension (extensions padding) : Except (SniError ioError) _) =
      Except.ok ((0, serverNameData), [0x00, 0x15, 0x3F, 0xBB] ++ padding) :=
  bind_eq_ok.mpr ⟨_, Cursor.number_append rfl,
    bind_eq_ok.mpr ⟨_, Cursor.number_append rfl,
      bind_eq_ok.mpr ⟨_, Cursor.take_append rfl, rfl⟩⟩⟩

theorem findServerName_extensions (padding : Bytes) :
    (findServerName (extensions padding) : Except (SniError ioError) _) =
      Except.ok "a.example".toList := by
  rw [findServerName, if_neg (by simp [extensions])]
  split
  · rename_i herror
    rw [readExtension_extensions] at herror
    cases herror
  · rename_i hok
    rw [readExtension_extensions] at hok
    cases hok
    exact parseServerNameExtension_serverNameData

theorem length_extensions (padding : Bytes) :
    (extensions padding).length = padding.length + 22 := by
  simp [extensions, serverNameData, nameList, hostName]

theorem length_helloBody (padding : Bytes) : (helloBody padding).length = padding.length + 65 := by
  simp [helloBody, length_extensions]

theorem parseClientHelloBody_helloBody {padding : Bytes} (h : padding.length = 16315) :
    (parseClientHelloBody (helloBody padding) : Except (SniError ioError) _) =
      Except.ok "a.example".toList := by
  have hextensions : (extensions padding).length = 0x3FD1 := by
    rw [length_extensions, h]
  refine bind_eq_ok.mpr ⟨_, Cursor.take_append rfl, ?_⟩
  refine bind_eq_ok.mpr ⟨_, Cursor.take_append (List.length_replicate), ?_⟩
  refine bind_eq_ok.mpr ⟨_, Cursor.number_append rfl, ?_⟩
  refine bind_eq_ok.mpr ⟨_, Cursor.take_append rfl, ?_⟩
  refine bind_eq_ok.mpr ⟨_, Cursor.number_append rfl, ?_⟩
  refine bind_eq_ok.mpr ⟨_, Cursor.take_append rfl, ?_⟩
  refine bind_eq_ok.mpr ⟨_, Cursor.number_append rfl, ?_⟩
  refine bind_eq_ok.mpr ⟨_, Cursor.take_append rfl, ?_⟩
  dsimp only
  rw [if_neg (by simp)]
  refine bind_eq_ok.mpr ⟨_, Cursor.number_append rfl, ?_⟩
  refine bind_eq_ok.mpr ⟨_, Cursor.take_append hextensions, ?_⟩
  exact findServerName_extensions padding

theorem understood_hello {padding : Bytes} (h : padding.length = 16315) :
    (understood (hello padding) : Except (SniError ioError) _) =
      Except.ok "a.example".toList := by
  have hbody : (helloBody padding).length = 0x3FFC := by
    rw [length_helloBody, h]
  have hrecord : (helloRecord padding).length = 0x4000 := by
    rw [helloRecord, List.length_append, List.length_append, List.length_append, hbody]
    rfl
  have hlen : recordLen (hello padding) = 0x4000 := rfl
  have htake : ((hello padding).drop 5).take 0x4000 = helloRecord padding := by
    change (helloRecord padding).take 0x4000 = _
    exact List.take_of_length_le (Nat.le_of_eq hrecord)
  have hhead : (hello padding).headD 0 = contentTypeHandshake := rfl
  have htype : Cursor.fromBeBytes [0x01] = handshakeTypeClientHello := rfl
  unfold understood
  rw [hlen, if_neg (not_not.mpr hhead), if_neg (by decide), htake]
  refine bind_eq_ok.mpr ⟨_, Cursor.number_append rfl, ?_⟩
  dsimp only
  rw [if_neg (not_not.mpr htype)]
  refine bind_eq_ok.mpr ⟨_, Cursor.number_append rfl, ?_⟩
  dsimp only
  have hlength : Cursor.fromBeBytes [0x00, 0x3F, 0xFC] = 0x3FFC := rfl
  rw [hlength, Cursor.take_append hbody]
  exact parseClientHelloBody_helloBody h

theorem straddlesBound_hello {padding : Bytes} (h : padding.length = 16315) :
    StraddlesBound (hello padding) := by
  have hlen : recordLen (hello padding) = 0x4000 := rfl
  refine ⟨rfl, Nat.le_of_eq hlen, ?_, ?_⟩
  · rw [hlen]
    decide
  · rw [hlen, hello, helloRecord, List.length_append, List.length_append, List.length_append,
      List.length_append, length_helloBody, h]
    decide

/-- A hello without its padding has the same outcome however it is cut. -/
theorem cut_hello_routes_same :
    forall r r' : Reads (hello []),
      routes (StreamEnd.eof : StreamEnd Unit) r = routes StreamEnd.eof r' :=
  (routes_same_iff _ _).mpr (by decide +kernel)

/-- The same ClientHello is routed to `a.example` or refused, by how it is cut. -/
theorem padded_hello_depends_on_reads :
    exists (stream : Bytes) (r r' : Reads stream),
      stream = hello (List.replicate 16315 0) ∧
      routes (StreamEnd.eof : StreamEnd Unit) r = Except.error SniError.tooLarge ∧
      routes (StreamEnd.eof : StreamEnd Unit) r' = Except.ok "a.example".toList := by
  have hpadding : (List.replicate 16315 (0 : UInt8)).length = 16315 := List.length_replicate
  have hstraddles := straddlesBound_hello hpadding
  have hlen : maxClientHelloBytes <= (hello (List.replicate 16315 0)).length := by
    rcases hstraddles with ⟨_, _, hlong, hcomplete⟩
    omega
  refine ⟨_, Reads.bytewise _, Reads.leap _ hlen, rfl, routes_bytewise hstraddles, ?_⟩
  rw [routes_leap hstraddles hlen, understood_hello hpadding]

end Sni
end Reachability
end Ephor
