import Ephor.Foundation.CanonicalCbor
import Ephor.Reachability.SniBounds

/-!
# ClientHello records

The record that a TLS client opens with, as the bytes it is written to, and the byte strings
in which the parser finds a server name.  The two differ: the parser looks at nothing behind
the first `host_name`, so what follows it may be anything.
-/

namespace Ephor
namespace Reachability
namespace Sni

open Foundation
open Foundation.CanonicalCbor
open Foundation.Text
open Cursor

variable {ioError : Type}

/-!
# Written values
-/

/-- Bytes that stand behind their length in `n` bytes. -/
structure Prefixed (n : Nat) where
  bytes : Bytes
  fits : bytes.length < 256 ^ n

def Prefixed.encode {n : Nat} (b : Prefixed n) : Bytes :=
  bigEndian n b.bytes.length ++ b.bytes

structure NameEntry where
  nameType : UInt8
  name : Prefixed 2

def NameEntry.encode (e : NameEntry) : Bytes :=
  [e.nameType] ++ e.name.encode

def NameEntry.isHostName (e : NameEntry) : Bool :=
  e.nameType == 0

structure WireExtension where
  extType : UInt16
  data : Prefixed 2

def WireExtension.encode (e : WireExtension) : Bytes :=
  bigEndian 2 e.extType.toNat ++ e.data.encode

/-- A `server_name` list, which fits an extension together with its length. -/
structure ServerNameList where
  entries : List NameEntry
  fits : (entries.flatMap NameEntry.encode).length + 2 < 256 ^ 2

namespace ServerNameList

def list (l : ServerNameList) : Prefixed 2 where
  bytes := l.entries.flatMap NameEntry.encode
  fits := Nat.lt_of_le_of_lt (Nat.le_add_right _ 2) l.fits

theorem length_encode (l : ServerNameList) : l.list.encode.length < 256 ^ 2 := by
  rw [Prefixed.encode, List.length_append, length_bigEndian, Nat.add_comm]
  exact l.fits

end ServerNameList

inductive Extension where
  | serverName (names : ServerNameList)
  | other (e : WireExtension) (isOther : e.extType.toNat ≠ extensionServerName)

namespace Extension

def wire : Extension -> WireExtension
  | serverName names => ⟨0, ⟨names.list.encode, names.length_encode⟩⟩
  | other e _ => e

def encode (e : Extension) : Bytes :=
  e.wire.encode

def names : Extension -> Option ServerNameList
  | serverName names => some names
  | other _ _ => none

end Extension

structure ClientHello where
  legacyVersion : FixedBytes 2
  random : FixedBytes 32
  sessionId : Prefixed 1
  cipherSuites : Prefixed 2
  compressionMethods : Prefixed 1
  extensions : Option (List Extension)
  extensions_fit :
    ((extensions.getD []).flatMap Extension.encode).length < 256 ^ 2

namespace ClientHello

def head (legacyVersion : FixedBytes 2) (random : FixedBytes 32) (sessionId : Prefixed 1)
    (cipherSuites : Prefixed 2) (compressionMethods : Prefixed 1) (rest : Bytes) : Bytes :=
  legacyVersion.toBytes ++ (random.toBytes ++ (sessionId.encode ++ (cipherSuites.encode ++
    (compressionMethods.encode ++ rest))))

def extensionsBlock (h : ClientHello) : Prefixed 2 where
  bytes := (h.extensions.getD []).flatMap Extension.encode
  fits := h.extensions_fit

def body (h : ClientHello) : Bytes :=
  head h.legacyVersion h.random h.sessionId h.cipherSuites h.compressionMethods
    (if h.extensions.isSome then h.extensionsBlock.encode else [])

def handshake (h : ClientHello) : Bytes :=
  [0x01] ++ (bigEndian 3 h.body.length ++ h.body)

def record (h : ClientHello) (version : FixedBytes 2) : Bytes :=
  [0x16] ++ (version.toBytes ++ (bigEndian 2 h.handshake.length ++ h.handshake))

/-- The first `host_name` of the first `server_name` extension. -/
def hostName (h : ClientHello) : Option Bytes :=
  ((h.extensions.getD []).findSome? Extension.names).bind fun names =>
    (names.entries.find? NameEntry.isHostName).map fun e => e.name.bytes

def route (h : ClientHello) : Except (SniError ioError) (List Char) :=
  h.hostName.elim (Except.error SniError.noSni) hostNameEntry

end ClientHello

/-!
# Reading written values
-/

variable {n : Nat} {rest buf : Bytes} {serverName : List Char} {h : ClientHello}

theorem number_bigEndian {v : Nat} (h : v < 256 ^ n) (rest : Bytes) :
    (number n (bigEndian n v ++ rest) : Except (SniError ioError) _) = Except.ok (v, rest) := by
  rw [number_append (length_bigEndian n v)]
  change Except.ok (ofBigEndian (bigEndian n v), rest) = _
  rw [ofBigEndian_bigEndian h]

theorem number_eq_ok {v : Nat} {c : Bytes} :
    (number n c : Except (SniError ioError) _) = Except.ok (v, rest) <->
      v < 256 ^ n ∧ c = bigEndian n v ++ rest := by
  constructor
  · intro h
    rcases bind_eq_ok.mp h with ⟨⟨field, rest'⟩, htake, hvalue⟩
    rcases take_eq_ok.mp htake with ⟨hle, hfield, hrest⟩
    have hlen : field.length = n := by
      rw [hfield, List.length_take, Nat.min_eq_left hle]
    injection hvalue with hvalue
    injection hvalue with hv hrest'
    have hvalue : v = ofBigEndian field := hv.symm
    constructor
    · rw [hvalue, <- hlen]
      exact ofBigEndian_lt field
    · rw [hvalue, <- hlen, bigEndian_ofBigEndian, hfield, <- hrest', hrest,
        List.take_append_drop]
  · intro h
    rw [h.2]
    exact number_bigEndian h.1 rest

theorem take_eq_ok' {c field : Bytes} :
    (take c n : Except (SniError ioError) _) = Except.ok (field, rest) <->
      field.length = n ∧ c = field ++ rest := by
  constructor
  · intro h
    rcases take_eq_ok.mp h with ⟨hle, hfield, hrest⟩
    constructor
    · rw [hfield, List.length_take, Nat.min_eq_left hle]
    · rw [hfield, hrest, List.take_append_drop]
  · intro h
    rw [h.2]
    exact take_append h.1

theorem readPrefixed_encode {β : Type} (b : Prefixed n) (rest : Bytes)
    (f : Bytes × Bytes -> Except (SniError ioError) β) :
    (do
        let (len, c) <- (number n (b.encode ++ rest) : Except (SniError ioError) _)
        let field <- take c len
        f field) = f (b.bytes, rest) := by
  rw [Prefixed.encode, List.append_assoc, number_bigEndian b.fits]
  change (take (b.bytes ++ rest) b.bytes.length : Except (SniError ioError) _) >>= _ = _
  rw [take_append rfl]
  rfl

theorem prefixed_of_read {len : Nat} {c c' field : Bytes}
    (hnumber : (number n c : Except (SniError ioError) _) = Except.ok (len, c'))
    (htake : (take c' len : Except (SniError ioError) _) = Except.ok (field, rest)) :
    exists b : Prefixed n, b.bytes = field ∧ c = b.encode ++ rest := by
  rcases number_eq_ok.mp hnumber with ⟨hlen, hc⟩
  rcases take_eq_ok'.mp htake with ⟨hfield, hc'⟩
  subst hfield
  refine ⟨⟨field, hlen⟩, rfl, ?_⟩
  rw [hc, hc', Prefixed.encode, List.append_assoc]

/-!
# Entries and extensions
-/

theorem readName_encode (e : NameEntry) (rest : Bytes) :
    (readName (e.encode ++ rest) : Except (SniError ioError) _) =
      Except.ok ((e.nameType.toNat, e.name.bytes), rest) := by
  have htype : (u8 ([e.nameType] ++ (e.name.encode ++ rest)) :
      Except (SniError ioError) _) = Except.ok (e.nameType.toNat, e.name.encode ++ rest) := by
    rw [u8, @Cursor.number_append _ [e.nameType] _ 1 rfl]
    simp [fromBeBytes]
  rw [NameEntry.encode, List.append_assoc, readName, htype]
  exact readPrefixed_encode e.name rest _

theorem entry_of_readName {lc name : Bytes} {nameType : Nat}
    (h : (readName lc : Except (SniError ioError) _) = Except.ok ((nameType, name), rest)) :
    exists e : NameEntry, e.nameType.toNat = nameType ∧ e.name.bytes = name ∧
      lc = e.encode ++ rest := by
  rcases bind_eq_ok.mp h with ⟨⟨nameType, c⟩, htype, h⟩
  rcases bind_eq_ok.mp h with ⟨⟨nameLen, c'⟩, hlen, h⟩
  rcases bind_eq_ok.mp h with ⟨⟨name, c''⟩, hname, h⟩
  cases h
  rcases number_eq_ok.mp htype with ⟨hlt, hlc⟩
  rcases prefixed_of_read hlen hname with ⟨b, hb, hc⟩
  refine ⟨⟨UInt8.ofNat nameType, b⟩, UInt8.toNat_ofNat_of_lt' hlt, hb, ?_⟩
  rw [hlc, hc, NameEntry.encode, List.append_assoc]
  rfl

theorem readExtension_encode (e : WireExtension) (rest : Bytes) :
    (readExtension (e.encode ++ rest) : Except (SniError ioError) _) =
      Except.ok ((e.extType.toNat, e.data.bytes), rest) := by
  rw [WireExtension.encode, List.append_assoc, readExtension, u16,
    number_bigEndian e.extType.toNat_lt]
  exact readPrefixed_encode e.data rest _

theorem extension_of_readExtension {ec extData : Bytes} {extType : Nat}
    (h : (readExtension ec : Except (SniError ioError) _) = Except.ok ((extType, extData), rest)) :
    exists e : WireExtension, e.extType.toNat = extType ∧ e.data.bytes = extData ∧
      ec = e.encode ++ rest := by
  rcases bind_eq_ok.mp h with ⟨⟨extType, c⟩, htype, h⟩
  rcases bind_eq_ok.mp h with ⟨⟨extLen, c'⟩, hlen, h⟩
  rcases bind_eq_ok.mp h with ⟨⟨extData, c''⟩, hdata, h⟩
  cases h
  rcases number_eq_ok.mp htype with ⟨hlt, hec⟩
  rcases prefixed_of_read hlen hdata with ⟨b, hb, hc⟩
  have htype : (UInt16.ofNat extType).toNat = extType := UInt16.toNat_ofNat_of_lt' hlt
  refine ⟨⟨UInt16.ofNat extType, b⟩, htype, hb, ?_⟩
  rw [hec, hc, WireExtension.encode, htype, List.append_assoc]

/-!
# The loops
-/

theorem findHostName_nil :
    (findHostName [] : Except (SniError ioError) _) = Except.error SniError.noSni := by
  rw [findHostName]
  rfl

/-- A loop over written entries stops at the first wanted one. -/
structure Finds {entry : Type} (encode : entry -> Bytes) (wanted : entry -> Prop)
    (hit : entry -> Except (SniError ioError) (List Char))
    (find : Bytes -> Except (SniError ioError) (List Char)) : Prop where
  of_wanted : forall e rest, wanted e -> find (encode e ++ rest) = hit e
  of_other : forall e rest, Not (wanted e) -> find (encode e ++ rest) = find rest
  of_ok : forall c serverName, find c = Except.ok serverName ->
    exists e rest, c = encode e ++ rest ∧ rest.length < c.length

namespace Finds

variable {entry : Type} {encode : entry -> Bytes} {wanted : entry -> Prop}
  {hit : entry -> Except (SniError ioError) (List Char)}
  {find : Bytes -> Except (SniError ioError) (List Char)}

theorem skip (h : Finds encode wanted hit find) {others : List entry}
    (hothers : forall o, o ∈ others -> Not (wanted o)) (c : Bytes) :
    find (others.flatMap encode ++ c) = find c := by
  induction others with
  | nil => rfl
  | cons e others ih =>
      rw [List.flatMap_cons, List.append_assoc, h.of_other _ _ (hothers e List.mem_cons_self)]
      exact ih (List.forall_mem_cons.mp hothers).2

theorem eq_ok_iff (h : Finds encode wanted hit find) {c : Bytes} :
    find c = Except.ok serverName <->
      exists (others : List entry) (e : entry) (rest : Bytes),
        (forall o, o ∈ others -> Not (wanted o)) ∧ wanted e ∧
        c = others.flatMap encode ++ (encode e ++ rest) ∧ hit e = Except.ok serverName := by
  constructor
  · intro hok
    induction hlen : c.length using Nat.strong_induction_on generalizing c with
    | h n ih =>
        rcases h.of_ok c serverName hok with ⟨e, rest, hc, hshorter⟩
        rw [hc] at hok
        by_cases hwanted : wanted e
        · rw [h.of_wanted e rest hwanted] at hok
          exact ⟨[], e, rest, fun o ho => absurd ho List.not_mem_nil, hwanted, hc, hok⟩
        · rw [h.of_other e rest hwanted] at hok
          rcases ih rest.length (hlen ▸ hshorter) hok rfl with
            ⟨others, e', rest', hothers, hwanted', hrest, hhit⟩
          refine ⟨e :: others, e', rest', List.forall_mem_cons.mpr ⟨hwanted, hothers⟩, hwanted',
            ?_, hhit⟩
          rw [hc, hrest, List.flatMap_cons, List.append_assoc]
  · intro hin
    rcases hin with ⟨others, e, rest, hothers, hwanted, hc, hhit⟩
    rw [hc, h.skip hothers, h.of_wanted e rest hwanted]
    exact hhit

end Finds

theorem findHostName_encode (e : NameEntry) (rest : Bytes) :
    (findHostName (e.encode ++ rest) : Except (SniError ioError) _) =
      if e.nameType.toNat = nameTypeHostName then hostNameEntry e.name.bytes
      else findHostName rest := by
  have hread := @readName_encode ioError e rest
  rw [findHostName_eq, if_neg (Nat.ne_zero_of_lt (length_readName hread)), hread]
  rfl

theorem finds_hostName : Finds NameEntry.encode (fun e => e.nameType = 0)
    (fun e => hostNameEntry e.name.bytes)
    (findHostName : Bytes -> Except (SniError ioError) _) where
  of_wanted := by
    intro e rest h
    exact (findHostName_encode e rest).trans (if_pos (congrArg UInt8.toNat h))
  of_other := by
    intro e rest h
    exact (findHostName_encode e rest).trans (if_neg fun hzero => h (UInt8.toNat_inj.mp hzero))
  of_ok := by
    intro lc serverName h
    rw [findHostName_eq] at h
    split at h
    · cases h
    · rcases bind_eq_ok.mp h with ⟨⟨entry, rest⟩, hread, _⟩
      rcases entry_of_readName hread with ⟨e, _, _, hlc⟩
      exact ⟨e, rest, hlc, length_readName hread⟩

def HostNameIn (lc : Bytes) (serverName : List Char) : Prop :=
  exists (others : List NameEntry) (e : NameEntry) (rest : Bytes),
    (forall o, o ∈ others -> o.nameType ≠ 0) ∧ e.nameType = 0 ∧
    lc = others.flatMap NameEntry.encode ++ (e.encode ++ rest) ∧
    e.name.bytes ≠ [] ∧ fromUtf8 e.name.bytes = some serverName

theorem hostNameEntry_eq_ok {name : Bytes} :
    (hostNameEntry name : Except (SniError ioError) _) = Except.ok serverName <->
      name ≠ [] ∧ fromUtf8 name = some serverName := by
  unfold hostNameEntry
  by_cases hempty : name = []
  · rw [if_pos (List.isEmpty_iff.mpr hempty)]
    constructor
    · intro h
      cases h
    · intro h
      exact absurd hempty h.1
  · rw [if_neg (fun h => hempty (List.isEmpty_iff.mp h))]
    cases fromUtf8 name with
    | none => simp
    | some s => simp [hempty]

theorem findHostName_eq_ok {lc : Bytes} :
    (findHostName lc : Except (SniError ioError) _) = Except.ok serverName <->
      HostNameIn lc serverName := by
  rw [finds_hostName.eq_ok_iff]
  simp only [hostNameEntry_eq_ok]
  rfl

theorem parseServerNameExtension_encode (list : Prefixed 2) (rest : Bytes) :
    (parseServerNameExtension (list.encode ++ rest) : Except (SniError ioError) _) =
      findHostName list.bytes :=
  readPrefixed_encode list rest _

theorem parseServerNameExtension_eq_ok {data : Bytes} :
    (parseServerNameExtension data : Except (SniError ioError) _) = Except.ok serverName <->
      exists (list : Prefixed 2) (rest : Bytes), data = list.encode ++ rest ∧
        HostNameIn list.bytes serverName := by
  constructor
  · intro h
    rcases bind_eq_ok.mp h with ⟨⟨listLen, c⟩, hlen, h⟩
    rcases bind_eq_ok.mp h with ⟨⟨list, rest⟩, hlist, h⟩
    rcases prefixed_of_read hlen hlist with ⟨b, hb, hdata⟩
    refine ⟨b, rest, hdata, ?_⟩
    rw [hb]
    exact findHostName_eq_ok.mp h
  · intro h
    rcases h with ⟨list, rest, hdata, hname⟩
    rw [hdata, parseServerNameExtension_encode]
    exact findHostName_eq_ok.mpr hname

theorem findServerName_nil :
    (findServerName [] : Except (SniError ioError) _) = Except.error SniError.noSni := by
  rw [findServerName]
  rfl

theorem findServerName_encode (e : WireExtension) (rest : Bytes) :
    (findServerName (e.encode ++ rest) : Except (SniError ioError) _) =
      if e.extType.toNat = extensionServerName then parseServerNameExtension e.data.bytes
      else findServerName rest := by
  have hread := @readExtension_encode ioError e rest
  rw [findServerName_eq, if_neg (Nat.ne_zero_of_lt (length_readExtension hread)), hread]
  rfl

theorem finds_serverName : Finds WireExtension.encode (fun e => e.extType = 0)
    (fun e => parseServerNameExtension e.data.bytes)
    (findServerName : Bytes -> Except (SniError ioError) _) where
  of_wanted := by
    intro e rest h
    exact (findServerName_encode e rest).trans (if_pos (congrArg UInt16.toNat h))
  of_other := by
    intro e rest h
    exact (findServerName_encode e rest).trans (if_neg fun hzero => h (UInt16.toNat_inj.mp hzero))
  of_ok := by
    intro ec serverName h
    rw [findServerName_eq] at h
    split at h
    · cases h
    · rcases bind_eq_ok.mp h with ⟨⟨extension, rest⟩, hread, _⟩
      rcases extension_of_readExtension hread with ⟨e, _, _, hec⟩
      exact ⟨e, rest, hec, length_readExtension hread⟩

def ServerNameIn (ec : Bytes) (serverName : List Char) : Prop :=
  exists (others : List WireExtension) (e : WireExtension) (rest : Bytes),
    (forall o, o ∈ others -> o.extType ≠ 0) ∧ e.extType = 0 ∧
    ec = others.flatMap WireExtension.encode ++ (e.encode ++ rest) ∧
    exists (list : Prefixed 2) (rest' : Bytes), e.data.bytes = list.encode ++ rest' ∧
      HostNameIn list.bytes serverName

theorem findServerName_eq_ok {ec : Bytes} :
    (findServerName ec : Except (SniError ioError) _) = Except.ok serverName <->
      ServerNameIn ec serverName := by
  rw [finds_serverName.eq_ok_iff]
  simp only [parseServerNameExtension_eq_ok]
  rfl

/-!
# The body and the record
-/

theorem parseClientHelloBody_head (legacyVersion : FixedBytes 2) (random : FixedBytes 32)
    (sessionId : Prefixed 1) (cipherSuites : Prefixed 2) (compressionMethods : Prefixed 1)
    (rest : Bytes) :
    (parseClientHelloBody (ClientHello.head legacyVersion random sessionId cipherSuites
        compressionMethods rest) : Except (SniError ioError) _) =
      if rest.length = 0 then
        Except.error SniError.noSni
      else (do
        let (extensionsLen, c) <- u16 rest
        let (extensions, _) <- take c extensionsLen
        findServerName extensions) := by
  rw [parseClientHelloBody, ClientHello.head, take_append legacyVersion.length_eq]
  change (take (random.toBytes ++ _) 32 : Except (SniError ioError) _) >>= _ = _
  rw [take_append random.length_eq]
  refine (readPrefixed_encode sessionId _ _).trans ?_
  refine (readPrefixed_encode cipherSuites _ _).trans ?_
  exact readPrefixed_encode compressionMethods _ _

theorem parseClientHelloBody_extensions (legacyVersion : FixedBytes 2)
    (random : FixedBytes 32) (sessionId : Prefixed 1) (cipherSuites : Prefixed 2)
    (compressionMethods : Prefixed 1) (extensions : Prefixed 2) (rest : Bytes) :
    (parseClientHelloBody (ClientHello.head legacyVersion random sessionId cipherSuites
        compressionMethods (extensions.encode ++ rest)) : Except (SniError ioError) _) =
      findServerName extensions.bytes := by
  have hsome : Not ((extensions.encode ++ rest).length = 0) := by
    rw [Prefixed.encode, List.length_append, List.length_append, length_bigEndian]
    omega
  rw [parseClientHelloBody_head, if_neg hsome]
  exact readPrefixed_encode extensions rest _

/-- The fields up to the extensions, and extensions with a server name. -/
def BodyIn (body : Bytes) (serverName : List Char) : Prop :=
  exists (legacyVersion : FixedBytes 2) (random : FixedBytes 32) (sessionId : Prefixed 1)
      (cipherSuites : Prefixed 2) (compressionMethods : Prefixed 1) (extensions : Prefixed 2)
      (rest : Bytes),
    body = ClientHello.head legacyVersion random sessionId cipherSuites compressionMethods
      (extensions.encode ++ rest) ∧ ServerNameIn extensions.bytes serverName

theorem parseClientHelloBody_eq_ok {body : Bytes} :
    (parseClientHelloBody body : Except (SniError ioError) _) = Except.ok serverName <->
      BodyIn body serverName := by
  constructor
  · intro h
    rcases bind_eq_ok.mp h with ⟨⟨version, c⟩, hversion, h⟩
    rcases bind_eq_ok.mp h with ⟨⟨random, c'⟩, hrandom, h⟩
    rcases bind_eq_ok.mp h with ⟨⟨sessionIdLen, c1⟩, hsessionLen, h⟩
    rcases bind_eq_ok.mp h with ⟨⟨sessionId, c2⟩, hsession, h⟩
    rcases bind_eq_ok.mp h with ⟨⟨cipherSuitesLen, c3⟩, hcipherLen, h⟩
    rcases bind_eq_ok.mp h with ⟨⟨cipherSuites, c4⟩, hcipher, h⟩
    rcases bind_eq_ok.mp h with ⟨⟨compressionMethodsLen, c5⟩, hcompressionLen, h⟩
    rcases bind_eq_ok.mp h with ⟨⟨compressionMethods, c6⟩, hcompression, h⟩
    dsimp only at h
    by_cases hend : c6.length = 0
    · rw [if_pos hend] at h
      cases h
    · rw [if_neg hend] at h
      rcases bind_eq_ok.mp h with ⟨⟨extensionsLen, c7⟩, hextensionsLen, h⟩
      rcases bind_eq_ok.mp h with ⟨⟨extensions, rest⟩, hextensions, h⟩
      rcases take_eq_ok'.mp hversion with ⟨hversionLen, hbody⟩
      rcases take_eq_ok'.mp hrandom with ⟨hrandomLen, hc⟩
      rcases prefixed_of_read hsessionLen hsession with ⟨session, _, hc'⟩
      rcases prefixed_of_read hcipherLen hcipher with ⟨cipher, _, hc2⟩
      rcases prefixed_of_read hcompressionLen hcompression with ⟨compression, _, hc4⟩
      rcases prefixed_of_read hextensionsLen hextensions with ⟨block, hblock, hc6⟩
      refine ⟨⟨version, hversionLen⟩, ⟨random, hrandomLen⟩, session, cipher, compression,
        block, rest, ?_, ?_⟩
      · rw [hbody, hc, hc', hc2, hc4, hc6]
        rfl
      · rw [hblock]
        exact findServerName_eq_ok.mp h
  · intro h
    rcases h with ⟨version, random, session, cipher, compression, block, rest, hbody, hname⟩
    rw [hbody, parseClientHelloBody_extensions]
    exact findServerName_eq_ok.mpr hname

theorem parseRecord_message (body : Prefixed 3) (rest : Bytes) :
    (parseRecord ([0x01] ++ (body.encode ++ rest)) : Except (SniError ioError) _) =
      parseClientHelloBody body.bytes := by
  have htype : (u8 ([0x01] ++ (body.encode ++ rest)) : Except (SniError ioError) _) =
      Except.ok (handshakeTypeClientHello, body.encode ++ rest) :=
    @Cursor.number_append _ [0x01] _ 1 rfl
  have hlen : (u24 (body.encode ++ rest) : Except (SniError ioError) _) =
      Except.ok (body.bytes.length, body.bytes ++ rest) := by
    rw [u24, Prefixed.encode, List.append_assoc, number_bigEndian body.fits]
  have htake : (take (body.bytes ++ rest) body.bytes.length :
      Except (SniError ioError) _) = Except.ok (body.bytes, rest) := take_append rfl
  rw [parseRecord, htype]
  dsimp only [bind, Except.bind]
  rw [if_neg (not_not.mpr rfl), hlen]
  dsimp only
  rw [htake]

/-- A handshake message of type ClientHello that is complete in its record. -/
def MessageIn (payload : Bytes) (serverName : List Char) : Prop :=
  exists (body : Prefixed 3) (rest : Bytes), payload = [0x01] ++ (body.encode ++ rest) ∧
    BodyIn body.bytes serverName

theorem parseRecord_eq_ok {payload : Bytes} :
    (parseRecord payload : Except (SniError ioError) _) = Except.ok serverName <->
      MessageIn payload serverName := by
  constructor
  · intro h
    rcases bind_eq_ok.mp h with ⟨⟨hsType, c⟩, htype, h⟩
    dsimp only at h
    by_cases hhello : hsType ≠ handshakeTypeClientHello
    · rw [if_pos hhello] at h
      cases h
    · rw [if_neg hhello] at h
      rcases bind_eq_ok.mp h with ⟨⟨hsLen, c'⟩, hlen, h⟩
      dsimp only at h
      cases htake : (take c' hsLen : Except (SniError ioError) _) with
      | error e =>
          rw [htake] at h
          cases h
      | ok result =>
          rcases result with ⟨body, rest⟩
          rw [htake] at h
          rcases number_eq_ok.mp htype with ⟨_, hpayload⟩
          rcases prefixed_of_read hlen htake with ⟨b, hb, hc⟩
          refine ⟨b, rest, ?_, ?_⟩
          · rw [hpayload, hc, not_not.mp hhello]
            rfl
          · rw [hb]
            exact parseClientHelloBody_eq_ok.mp h
  · intro h
    rcases h with ⟨body, rest, hpayload, hname⟩
    rw [hpayload, parseRecord_message]
    exact parseClientHelloBody_eq_ok.mpr hname

def recordOf (version : FixedBytes 2) (payload : Prefixed 2) : Bytes :=
  [0x16] ++ (version.toBytes ++ payload.encode)

theorem length_recordOf (version : FixedBytes 2) (payload : Prefixed 2) :
    (recordOf version payload).length = 5 + payload.bytes.length := by
  rw [recordOf, List.length_append, List.length_append, version.length_eq, Prefixed.encode,
    List.length_append, length_bigEndian, List.length_singleton]
  omega

theorem recordLen_recordOf (version : FixedBytes 2) (payload : Prefixed 2) (rest : Bytes) :
    recordLen (recordOf version payload ++ rest) = payload.bytes.length := by
  have hdrop : (recordOf version payload ++ rest).drop 3 =
      bigEndian 2 payload.bytes.length ++ (payload.bytes ++ rest) := by
    have hhead : ([0x16] ++ version.toBytes).length = 3 := by
      rw [List.length_append, version.length_eq]
      rfl
    have hsplit : recordOf version payload ++ rest = ([0x16] ++ version.toBytes) ++
        (bigEndian 2 payload.bytes.length ++ (payload.bytes ++ rest)) := by
      simp [recordOf, Prefixed.encode]
    rw [hsplit, List.drop_left' hhead]
  rw [recordLen, hdrop, List.take_left' (length_bigEndian 2 _)]
  exact ofBigEndian_bigEndian payload.fits

theorem payload_recordOf (version : FixedBytes 2) (payload : Prefixed 2) (rest : Bytes) :
    ((recordOf version payload ++ rest).drop 5).take payload.bytes.length = payload.bytes := by
  have hhead : ([0x16] ++ (version.toBytes ++ bigEndian 2 payload.bytes.length)).length = 5 := by
    rw [List.length_append, List.length_append, version.length_eq, length_bigEndian]
    rfl
  have hsplit : recordOf version payload ++ rest =
      ([0x16] ++ (version.toBytes ++ bigEndian 2 payload.bytes.length)) ++
        (payload.bytes ++ rest) := by
    simp [recordOf, Prefixed.encode]
  rw [hsplit, List.drop_left' hhead, List.take_left]

theorem not_waiting_recordOf (version : FixedBytes 2) (payload : Prefixed 2) (rest : Bytes) :
    Not (Waiting (recordOf version payload ++ rest)) := by
  apply not_waiting_of_complete (List.append_nil _)
  rw [recordLen_recordOf, List.length_append, length_recordOf]
  exact Nat.le_add_right _ _

theorem understood_recordOf {version : FixedBytes 2} {payload : Prefixed 2}
    (hpos : 1 <= payload.bytes.length) (hmax : payload.bytes.length <= 0x4000) (rest : Bytes) :
    (understood (recordOf version payload ++ rest) : Except (SniError ioError) _) =
      parseRecord payload.bytes := by
  have htype : (recordOf version payload ++ rest).headD 0 = contentTypeHandshake := rfl
  unfold understood
  rw [recordLen_recordOf, payload_recordOf, if_neg (not_not.mpr htype), if_neg (by omega)]

/-- A complete record of a legal length that opens with a ClientHello with a server name. -/
def Carries (buf : Bytes) (serverName : List Char) : Prop :=
  exists (version : FixedBytes 2) (payload : Prefixed 2) (rest : Bytes),
    buf = recordOf version payload ++ rest ∧ payload.bytes.length <= 0x4000 ∧
      MessageIn payload.bytes serverName

theorem MessageIn.length_pos {payload : Bytes} (h : MessageIn payload serverName) :
    1 <= payload.length := by
  rcases h with ⟨body, rest, hpayload, _⟩
  rw [hpayload, List.length_append, List.length_singleton]
  exact Nat.le_add_right 1 _

theorem recordOf_of_complete (htype : buf.headD 0 = contentTypeHandshake)
    (hcomplete : 5 + recordLen buf <= buf.length) :
    exists (version : FixedBytes 2) (payload : Prefixed 2) (rest : Bytes),
      buf = recordOf version payload ++ rest ∧ payload.bytes.length = recordLen buf ∧
        payload.bytes = (buf.drop 5).take (recordLen buf) := by
  have hnumber : (number 2 (buf.drop 3) : Except (SniError Unit) _) =
      Except.ok (recordLen buf, buf.drop 5) := by
    have hheader : (take (buf.drop 3) 2 : Except (SniError Unit) _) =
        Except.ok ((buf.drop 3).take 2, buf.drop 5) := by
      apply take_eq_ok.mpr
      refine ⟨?_, rfl, by rw [List.drop_drop]⟩
      rw [List.length_drop]
      omega
    rw [number, hheader]
    rfl
  have htake : (take (buf.drop 5) (recordLen buf) : Except (SniError Unit) _) =
      Except.ok ((buf.drop 5).take (recordLen buf), (buf.drop 5).drop (recordLen buf)) := by
    apply take_eq_ok.mpr
    refine ⟨?_, rfl, rfl⟩
    rw [List.length_drop]
    omega
  rcases prefixed_of_read hnumber htake with ⟨payload, hpayload, hrest⟩
  have hversion : ((buf.drop 1).take 2).length = 2 := by
    rw [List.length_take, List.length_drop]
    omega
  have hfirst : buf.take 1 = [0x16] := by
    cases buf with
    | nil => simp at hcomplete
    | cons b buf =>
        rw [List.take_succ_cons, List.take_zero]
        exact congrArg (fun x => [x]) htype
  refine ⟨⟨(buf.drop 1).take 2, hversion⟩, payload, (buf.drop 5).drop (recordLen buf), ?_, ?_,
    hpayload⟩
  · rw [recordOf, List.append_assoc, List.append_assoc, <- hrest, <- hfirst]
    change buf = buf.take 1 ++ ((buf.drop 1).take 2 ++ buf.drop (1 + 2))
    rw [<- List.drop_drop, List.take_append_drop, List.take_append_drop]
  · rw [hpayload, List.length_take, List.length_drop]
    omega

theorem tryParse_eq_complete :
    (tryParse buf : Except (SniError ioError) Parsed) =
        Except.ok (Parsed.complete serverName) <->
      Carries buf serverName := by
  constructor
  · intro h
    by_cases hwait : Waiting buf
    · rw [tryParse_of_waiting hwait] at h
      cases h
    · have hunderstood : (understood buf : Except (SniError ioError) _) =
          Except.ok serverName := by
        rw [tryParse_of_not_waiting hwait] at h
        cases hresult : (understood buf : Except (SniError ioError) (List Char)) with
        | error e =>
            rw [hresult] at h
            cases h
        | ok name =>
            rw [hresult] at h
            cases h
            rfl
      unfold understood at hunderstood
      by_cases htype : buf.headD 0 ≠ contentTypeHandshake
      · rw [if_pos htype] at hunderstood
        cases hunderstood
      · rw [if_neg htype] at hunderstood
        by_cases hrange : recordLen buf = 0 ∨ recordLen buf > 0x4000
        · rw [if_pos hrange] at hunderstood
          cases hunderstood
        · rw [if_neg hrange] at hunderstood
          rcases recordOf_of_complete (not_not.mp htype)
            (record_of_not_waiting hwait htype hrange) with
            ⟨version, payload, rest, hbuf, hlen, hpayload⟩
          refine ⟨version, payload, rest, hbuf, ?_, ?_⟩
          · rw [hlen]
            omega
          · rw [hpayload]
            exact parseRecord_eq_ok.mp hunderstood
  · intro h
    rcases h with ⟨version, payload, rest, hbuf, hmax, hmessage⟩
    have hpayload : (parseRecord payload.bytes : Except (SniError ioError) _) =
        Except.ok serverName := parseRecord_eq_ok.mpr hmessage
    rw [hbuf, tryParse_of_not_waiting (not_waiting_recordOf version payload rest),
      understood_recordOf hmessage.length_pos hmax, hpayload]
    rfl

/-!
# A written hello
-/

theorem findHostName_entries (entries : List NameEntry) :
    (findHostName (entries.flatMap NameEntry.encode) : Except (SniError ioError) _) =
      (entries.find? NameEntry.isHostName).elim (Except.error SniError.noSni)
        (fun e => hostNameEntry e.name.bytes) := by
  induction entries with
  | nil => exact findHostName_nil
  | cons e entries ih =>
      rw [List.flatMap_cons]
      by_cases htype : e.nameType = 0
      · have hfind : e.isHostName = true := beq_iff_eq.mpr htype
        rw [finds_hostName.of_wanted e _ htype, List.find?_cons_of_pos hfind, Option.elim_some]
      · have hfind : Not (e.isHostName = true) := fun h => htype (beq_iff_eq.mp h)
        rw [List.find?_cons_of_neg hfind, finds_hostName.of_other e _ htype, ih]

theorem findServerName_written (extensions : List Extension) :
    (findServerName (extensions.flatMap Extension.encode) : Except (SniError ioError) _) =
      (extensions.findSome? Extension.names).elim (Except.error SniError.noSni)
        (fun names => findHostName names.list.bytes) := by
  induction extensions with
  | nil => exact findServerName_nil
  | cons e extensions ih =>
      rw [List.flatMap_cons]
      cases e with
      | serverName names =>
          have hzero : (Extension.serverName names).wire.extType = 0 := rfl
          have hdata := @parseServerNameExtension_encode ioError names.list []
          rw [List.append_nil] at hdata
          rw [Extension.encode, finds_serverName.of_wanted _ _ hzero]
          exact hdata
      | other e isOther =>
          have hother : Not (e.extType = 0) := fun hzero => isOther (congrArg UInt16.toNat hzero)
          exact (finds_serverName.of_other e _ hother).trans ih

theorem parseClientHelloBody_body (h : ClientHello) :
    (parseClientHelloBody h.body : Except (SniError ioError) _) = h.route := by
  have hroute : (h.route : Except (SniError ioError) _) =
      findServerName h.extensionsBlock.bytes := by
    change _ = findServerName ((h.extensions.getD []).flatMap Extension.encode)
    rw [findServerName_written, ClientHello.route, ClientHello.hostName]
    cases (h.extensions.getD []).findSome? Extension.names with
    | none => rfl
    | some names =>
        change _ = findHostName (names.entries.flatMap NameEntry.encode)
        rw [findHostName_entries, Option.bind_some]
        cases names.entries.find? NameEntry.isHostName with
        | none | some e => rfl
  rw [hroute, ClientHello.body]
  cases hextensions : h.extensions with
  | none =>
      have hnone : h.extensionsBlock.bytes = [] := by
        change (h.extensions.getD []).flatMap Extension.encode = []
        rw [hextensions]
        rfl
      have hempty : Not ((none : Option (List Extension)).isSome = true) := by decide
      rw [if_neg hempty, parseClientHelloBody_head, hnone, findServerName_nil]
      rfl
  | some extensions =>
      have hblock := @parseClientHelloBody_extensions ioError h.legacyVersion h.random
        h.sessionId h.cipherSuites h.compressionMethods h.extensionsBlock []
      rw [List.append_nil] at hblock
      have hsome : (some extensions).isSome = true := rfl
      rw [if_pos hsome, hblock]

/-- The payload of the record, when it fits one. -/
def ClientHello.payload (h : ClientHello) (hsize : h.handshake.length <= 0x4000) :
    Prefixed 2 where
  bytes := h.handshake
  fits := Nat.lt_of_le_of_lt hsize (by decide)

theorem ClientHello.record_eq (hsize : h.handshake.length <= 0x4000) (version : FixedBytes 2) :
    h.record version = recordOf version (h.payload hsize) := rfl

theorem ClientHello.length_handshake (h : ClientHello) :
    h.handshake.length = 4 + h.body.length := by
  rw [handshake, List.length_append, List.length_append, length_bigEndian,
    List.length_singleton]
  omega

theorem understood_record (hsize : h.handshake.length <= 0x4000) (version : FixedBytes 2)
    (more : Bytes) :
    (understood (h.record version ++ more) : Except (SniError ioError) _) = h.route := by
  have hlen := h.length_handshake
  have hbody : h.body.length < 256 ^ 3 := by omega
  have hpos : 1 <= (h.payload hsize).bytes.length := by
    change 1 <= h.handshake.length
    omega
  rw [ClientHello.record_eq hsize, understood_recordOf hpos hsize]
  have hmessage := @parseRecord_message ioError ⟨h.body, hbody⟩ []
  rw [List.append_nil] at hmessage
  exact hmessage.trans (parseClientHelloBody_body h)

/-!
# The stream that is left
-/

/-- The loop of `peek_client_hello` with the reads that it leaves. -/
def peekStream (ending : StreamEnd ioError) :
    Bytes -> List Bytes -> Except (SniError ioError) ClientHelloPeek × List Bytes
  | buf, reads =>
      match (tryParse buf : Except (SniError ioError) Parsed) with
      | Except.error e => (Except.error e, reads)
      | Except.ok (Parsed.complete serverName) => (Except.ok ⟨serverName, buf⟩, reads)
      | Except.ok Parsed.incomplete =>
          if buf.length >= maxClientHelloBytes then
            (Except.error SniError.tooLarge, reads)
          else
            match reads with
            | [] => (Except.error ending.error, [])
            | chunk :: reads => peekStream ending (buf ++ chunk) reads

theorem fst_peekStream (ending : StreamEnd ioError) (buf : Bytes) (reads : List Bytes) :
    (peekStream ending buf reads).1 = peekLoop ending buf reads := by
  induction reads generalizing buf with
  | nil =>
      rw [peekStream, peekLoop]
      cases (tryParse buf : Except (SniError ioError) Parsed) with
      | error e => rfl
      | ok parsed =>
          cases parsed with
          | complete serverName => rfl
          | incomplete =>
              dsimp only
              split <;> rfl
  | cons chunk reads ih =>
      rw [peekStream, peekLoop]
      cases (tryParse buf : Except (SniError ioError) Parsed) with
      | error e => rfl
      | ok parsed =>
          cases parsed with
          | complete serverName => rfl
          | incomplete =>
              dsimp only
              split
              · rfl
              · exact ih (buf ++ chunk)

theorem peekStream_eq_ok {ending : StreamEnd ioError} {reads unread : List Bytes}
    {peek : ClientHelloPeek} (h : peekStream ending buf reads = (Except.ok peek, unread)) :
    peek.raw ++ unread.flatten = buf ++ reads.flatten ∧
      (tryParse peek.raw : Except (SniError ioError) Parsed) =
        Except.ok (Parsed.complete peek.serverName) := by
  induction reads generalizing buf with
  | nil =>
      rw [peekStream] at h
      split at h
      · cases h
      · rename_i hparse
        cases h
        exact ⟨rfl, hparse⟩
      · split at h <;> cases h
  | cons chunk reads ih =>
      rw [peekStream] at h
      split at h
      · cases h
      · rename_i hparse
        cases h
        exact ⟨rfl, hparse⟩
      · split at h
        · cases h
        · rw [List.flatten_cons, <- List.append_assoc]
          exact ih h

theorem Carries.append (h : Carries buf serverName) (more : Bytes) :
    Carries (buf ++ more) serverName := by
  rcases h with ⟨version, payload, rest, hbuf, hmax, hmessage⟩
  refine ⟨version, payload, rest ++ more, ?_, hmax, hmessage⟩
  rw [hbuf, List.append_assoc]

theorem peekStream_record {ending : StreamEnd ioError} (hsize : h.handshake.length <= 16379)
    {version : FixedBytes 2} {more : Bytes} (reads : Reads (h.record version ++ more)) :
    (peekStream ending [] reads.chunks).1.map ClientHelloPeek.serverName = h.route := by
  have hrange : h.handshake.length <= 0x4000 := Nat.le_trans hsize (by decide)
  have hlen : recordLen (h.record version ++ more) = h.handshake.length := by
    rw [ClientHello.record_eq hrange, recordLen_recordOf]
    rfl
  have hfits : Not (StraddlesBound (h.record version ++ more)) := by
    intro hstraddles
    have hmax : maxClientHelloBytes = 16384 := rfl
    have hlong := hstraddles.2.2.1
    rw [hlen] at hlong
    omega
  have hdone : Not (Waiting (h.record version ++ more)) := by
    rw [ClientHello.record_eq hrange]
    exact not_waiting_recordOf version _ more
  have houtcome := peekLoop_eq_outcome ending [] reads.chunks
  rw [reads.flatten, List.nil_append] at houtcome
  rw [fst_peekStream, houtcome hfits, outcome_of_not_waiting hdone,
    understood_record hrange]

/--
The record of a hello that fits the bound is routed by the first `host_name` of its first
`server_name` extension, however the stream is cut; what was read and what is left are the
stream; and the parser finds a name in just the byte strings that carry one, without a read
outside its buffer.
-/
theorem peekClientHello_exact (ending : StreamEnd ioError) :
    (forall (h : ClientHello) (version : FixedBytes 2) (more : Bytes)
        (reads : Reads (h.record version ++ more)), h.handshake.length <= 16379 ->
      (peekStream ending [] reads.chunks).1.map ClientHelloPeek.serverName = h.route) ∧
    (forall (stream : Bytes) (reads : Reads stream),
      (peekStream ending [] reads.chunks).1 = peekClientHello ending reads.chunks ∧
      (forall peek unread, peekStream ending [] reads.chunks = (Except.ok peek, unread) ->
        peek.raw ++ unread.flatten = stream ∧ Carries peek.raw peek.serverName) ∧
      ((forall serverName, Not (Carries stream serverName)) ->
        exists e, (peekStream ending [] reads.chunks).1 = Except.error e)) ∧
    (forall buf : Bytes,
      (tryParseAt buf : Checked ioError Parsed).run = some (tryParse buf) ∧
      forall serverName, (tryParse buf : Except (SniError ioError) Parsed) =
        Except.ok (Parsed.complete serverName) <-> Carries buf serverName) := by
  have hraw : forall (stream : Bytes) (reads : Reads stream) (peek : ClientHelloPeek)
      (unread : List Bytes), peekStream ending [] reads.chunks = (Except.ok peek, unread) ->
      peek.raw ++ unread.flatten = stream ∧ Carries peek.raw peek.serverName := by
    intro stream reads peek unread hpeek
    rcases peekStream_eq_ok hpeek with ⟨hstream, hparse⟩
    rw [reads.flatten, List.nil_append] at hstream
    exact ⟨hstream, tryParse_eq_complete.mp hparse⟩
  refine ⟨fun h version more reads hsize => peekStream_record hsize reads, ?_, ?_⟩
  · intro stream reads
    refine ⟨fst_peekStream ending [] reads.chunks, hraw stream reads, ?_⟩
    intro hnone
    cases hresult : peekStream ending [] reads.chunks with
    | mk result unread =>
        cases result with
        | error e => exact ⟨e, rfl⟩
        | ok peek =>
            rcases hraw stream reads peek unread hresult with ⟨hstream, hcarries⟩
            have hname := hcarries.append unread.flatten
            rw [hstream] at hname
            exact absurd hname (hnone peek.serverName)
  · intro buf
    exact ⟨run_tryParseAt buf, fun serverName => tryParse_eq_complete⟩

/-!
An empty `host_name` in front of `a`, and a hello with one more byte in its record.
-/

def namesOf (entries : List NameEntry)
    (fits : (entries.flatMap NameEntry.encode).length + 2 < 256 ^ 2)
    (extension_fits : ([Extension.serverName ⟨entries, fits⟩].flatMap
      Extension.encode).length < 256 ^ 2) : ClientHello where
  legacyVersion := ⟨[0x03, 0x03], rfl⟩
  random := FixedBytes.zero 32
  sessionId := ⟨[], by decide⟩
  cipherSuites := ⟨[0x13, 0x01], by decide⟩
  compressionMethods := ⟨[0x00], by decide⟩
  extensions := some [Extension.serverName ⟨entries, fits⟩]
  extensions_fit := extension_fits

def entryA : NameEntry where
  nameType := 0
  name := ⟨[0x61], by decide⟩

def helloA : ClientHello :=
  namesOf [entryA] (by decide) (by decide)

def emptyThenA : ClientHello :=
  namesOf [⟨0, ⟨[], by decide⟩⟩, entryA] (by decide) (by decide)

/-- The name that a search for a non-empty `host_name` would return. -/
def ClientHello.firstNonEmptyHostName (h : ClientHello) : Option Bytes :=
  ((h.extensions.getD []).findSome? Extension.names).bind fun names =>
    (names.entries.find? fun e => e.isHostName && !e.name.bytes.isEmpty).map
      fun e => e.name.bytes

def recordVersion : FixedBytes 2 where
  toBytes := [0x03, 0x01]
  length_eq := rfl

theorem helloA_is_routed (reads : Reads (helloA.record recordVersion ++ [0x17])) :
    (peekStream (StreamEnd.eof : StreamEnd Unit) [] reads.chunks).1.map
      ClientHelloPeek.serverName = Except.ok ['a'] :=
  (peekClientHello_exact StreamEnd.eof).1 helloA recordVersion [0x17] reads
    (by decide)

theorem handshake_ne_append {h' : ClientHello} (hsize : h.body.length < 256 ^ 3)
    (hsize' : h'.body.length < 256 ^ 3) (x : UInt8) : h'.handshake ≠ h.handshake ++ [x] := by
  intro heq
  have hbody : bigEndian 3 h'.body.length ++ h'.body =
      bigEndian 3 h.body.length ++ (h.body ++ [x]) := by
    apply @List.append_cancel_left _ [0x01]
    rw [<- List.append_assoc (bigEndian 3 h.body.length), <- List.append_assoc [0x01]]
    exact heq
  rcases List.append_inj hbody (by rw [length_bigEndian, length_bigEndian]) with
    ⟨hlen, hrest⟩
  have hsame : h'.body.length = h.body.length := by
    rw [<- ofBigEndian_bigEndian hsize', hlen, ofBigEndian_bigEndian hsize]
  rw [hrest, List.length_append, List.length_singleton] at hsame
  omega

theorem payload_eq_of_recordOf {version version' : FixedBytes 2} {payload payload' : Prefixed 2}
    {rest' : Bytes} (h : recordOf version payload ++ rest = recordOf version' payload' ++ rest') :
    payload.bytes = payload'.bytes := by
  have hlen : payload.bytes.length = payload'.bytes.length := by
    rw [<- recordLen_recordOf version payload rest, h, recordLen_recordOf]
  rw [<- payload_recordOf version payload rest, h, hlen, payload_recordOf]

/-- The payload of `helloA`, and one more byte. -/
def payloadTrailing : Prefixed 2 where
  bytes := helloA.handshake ++ [0x00]
  fits := by decide

theorem peekStream_trailing (reads : Reads (recordOf recordVersion payloadTrailing ++ [])) :
    (peekStream (StreamEnd.eof : StreamEnd Unit) [] reads.chunks).1.map
      ClientHelloPeek.serverName = Except.ok ['a'] := by
  have hlen : 1 <= payloadTrailing.bytes.length ∧ payloadTrailing.bytes.length <= 16379 := by
    decide
  have hfits : Not (StraddlesBound (recordOf recordVersion payloadTrailing ++ [])) := by
    intro hstraddles
    have hmax : maxClientHelloBytes = 16384 := rfl
    have hlong := hstraddles.2.2.1
    rw [recordLen_recordOf] at hlong
    omega
  have houtcome := peekLoop_eq_outcome (StreamEnd.eof : StreamEnd Unit) [] reads.chunks
  rw [reads.flatten, List.nil_append] at houtcome
  have hbody : helloA.body.length < 256 ^ 3 := by decide
  have hparse : (parseRecord payloadTrailing.bytes : Except (SniError Unit) _) =
      parseClientHelloBody helloA.body := by
    have hbytes : payloadTrailing.bytes =
        [0x01] ++ ((⟨helloA.body, hbody⟩ : Prefixed 3).encode ++ [0x00]) := rfl
    rw [hbytes, parseRecord_message]
  rw [fst_peekStream, houtcome hfits,
    outcome_of_not_waiting (not_waiting_recordOf recordVersion payloadTrailing []),
    understood_recordOf hlen.1 (by omega), hparse, parseClientHelloBody_body]
  rfl

/--
A search for a non-empty `host_name` would find `a` where the parser refuses the empty one
before it; and a record that holds one byte behind its hello is not the record of a hello,
but is routed all the same.
-/
theorem claimed_peek_fails :
    (emptyThenA.handshake.length <= 16379 ∧
      emptyThenA.firstNonEmptyHostName = some [0x61] ∧
      forall reads : Reads (emptyThenA.record recordVersion ++ []),
        (peekStream (StreamEnd.eof : StreamEnd Unit) [] reads.chunks).1.map
          ClientHelloPeek.serverName = Except.error SniError.emptySni) ∧
    (forall (h : ClientHello) (version : FixedBytes 2) (more : Bytes),
      h.handshake.length <= 16379 ->
      recordOf recordVersion payloadTrailing ++ [] ≠ h.record version ++ more) ∧
    (forall reads : Reads (recordOf recordVersion payloadTrailing ++ []),
      (peekStream (StreamEnd.eof : StreamEnd Unit) [] reads.chunks).1.map
        ClientHelloPeek.serverName = Except.ok ['a']) := by
  have hempty : emptyThenA.handshake.length <= 16379 := by decide
  refine ⟨⟨hempty, rfl, fun reads => peekStream_record hempty reads⟩, ?_,
    peekStream_trailing⟩
  intro h version more hsize heq
  have hlen := h.length_handshake
  have hrange : h.handshake.length <= 0x4000 := Nat.le_trans hsize (by decide)
  rw [ClientHello.record_eq hrange] at heq
  have hpayload : helloA.handshake ++ [0x00] = h.handshake := payload_eq_of_recordOf heq
  have hbody : helloA.body.length < 256 ^ 3 := by decide
  have hbody' : h.body.length < 256 ^ 3 := by omega
  exact handshake_ne_append hbody hbody' 0x00 hpayload.symm

end Sni
end Reachability
end Ephor
