import Ephor.Gateway.DnsNames

/-!
# What a response parses to

The questions and the records that stand in a packet one after another.  `parse_response`
accepts a packet exactly when its header, its questions and, after a success, its answers are
laid so.
-/

namespace Ephor
namespace Gateway
namespace Dns

open Foundation
open Foundation.CanonicalCbor
open Foundation.CompressedName
open Foundation.Text

variable {packet : Bytes}

theorem length_toBeBytes (v : UInt16) : (toBeBytes v).length = 2 :=
  length_bigEndian 2 v.toNat

theorem toBeBytes_ne_nil (v : UInt16) : toBeBytes v ≠ [] := by
  intro h
  have hlen := length_toBeBytes v
  rw [h] at hlen
  cases hlen

theorem getSlice_eq_ok_of_pos {bytes : Bytes} {pos len : Nat} (hlen : 0 < len) :
    getSlice packet pos len = Except.ok bytes <->
      bytes.length = len ∧ StandsAt packet pos bytes := by
  constructor
  · intro h
    have hle : pos <= packet.length := by
      rw [getSlice] at h
      split at h
      · exact Nat.le_of_add_right_le ‹_›
      · cases h
    exact (getSlice_eq_ok hle).mp h
  · intro h
    have hne := List.ne_nil_of_length_pos (Nat.lt_of_lt_of_eq hlen h.1.symm)
    exact (getSlice_eq_ok (Nat.le_of_add_right_le (h.2.length_le hne))).mpr h

theorem readU16_eq_ok {pos : Nat} {v : UInt16} :
    readU16 packet pos = Except.ok v <-> StandsAt packet pos (toBeBytes v) := by
  rw [readU16, bind_eq_ok]
  constructor
  · intro h
    rcases h with ⟨b, hb, h⟩
    rcases (getSlice_eq_ok_of_pos Nat.two_pos).mp hb with ⟨hlen, hb⟩
    cases h
    have hlt : ofBigEndian b < 2 ^ 16 := by
      have hlt := ofBigEndian_lt b
      rwa [hlen] at hlt
    have hbytes := bigEndian_ofBigEndian b
    rw [hlen] at hbytes
    rwa [toBeBytes, UInt16.toNat_ofNat', Nat.mod_eq_of_lt hlt, hbytes]
  · intro h
    refine ⟨_, (getSlice_eq_ok_of_pos Nat.two_pos).mpr ⟨length_toBeBytes v, h⟩, ?_⟩
    rw [toBeBytes, ofBigEndian_bigEndian v.toNat_lt, UInt16.ofNat_toNat]

/-!
# Questions
-/

/-- So many questions stand in the packet, up to the end. -/
inductive QuestionsLaid (packet : Bytes) : Nat -> Nat -> Nat -> Prop where
  | nil (pos : Nat) : QuestionsLaid packet pos 0 pos
  | cons {pos pointers next count stop : Nat} {labels : List Bytes}
      (hname : Laid packet pos labels pointers next) (hpointers : pointers <= 32)
      (hfixed : next + 4 <= packet.length) (hrest : QuestionsLaid packet (next + 4) count stop) :
      QuestionsLaid packet pos (count + 1) stop

theorem skipQuestions_eq_ok {count pos stop : Nat} :
    skipQuestions packet count pos = Except.ok stop <-> QuestionsLaid packet pos count stop := by
  constructor
  · intro h
    induction count generalizing pos with
    | zero =>
        cases h
        exact QuestionsLaid.nil _
    | succ count ih =>
        rw [skipQuestions] at h
        rcases bind_eq_ok.mp h with ⟨⟨name, next⟩, hname, h⟩
        rcases readName_eq_ok.mp hname with ⟨labels, pointers, hlaid, hle, -⟩
        dsimp only at h
        split at h
        · cases h
        · exact QuestionsLaid.cons hlaid hle (Nat.le_of_not_lt ‹_›) (ih h)
  · intro h
    induction h with
    | nil pos => rfl
    | cons hname hpointers hfixed hrest ih =>
        rw [skipQuestions, readName_eq_ok.mpr ⟨_, _, hname, hpointers, rfl⟩]
        simp only [bind, Except.bind]
        rw [if_neg (Nat.not_lt_of_le hfixed), ih]

/-!
# Records
-/

/-- What stands behind the name of a record. -/
def encodeFixed (rtype rclass : UInt16) (ttl rdata : Bytes) : Bytes :=
  toBeBytes rtype ++ (toBeBytes rclass ++
    (ttl ++ (toBeBytes (UInt16.ofNat rdata.length) ++ rdata)))

/-- The record stands at the position, with the position behind its name. -/
structure RecordLaid (packet : Bytes) (pos next : Nat) (rr : ResourceRecord) : Prop where
  name : exists labels pointers, Laid packet pos labels pointers next ∧ pointers <= 32 ∧
    rr.name = nameOf (labels.map fromUtf8Lossy)
  fits : rr.rdata.length < 2 ^ 16
  fixed : exists (rclass : UInt16) (ttl : Bytes), ttl.length = 4 ∧
    StandsAt packet next (encodeFixed rr.rtype rclass ttl rr.rdata)
  offset : rr.rdataOffset = next + 10

inductive RecordsLaid (packet : Bytes) : Nat -> List ResourceRecord -> Prop where
  | nil (pos : Nat) : RecordsLaid packet pos []
  | cons {pos next : Nat} {rr : ResourceRecord} {rest : List ResourceRecord}
      (h : RecordLaid packet pos next rr)
      (hrest : RecordsLaid packet (next + 10 + rr.rdata.length) rest) :
      RecordsLaid packet pos (rr :: rest)

theorem standsAt_encodeFixed {next : Nat} {rtype rclass : UInt16} {ttl : Bytes}
    (httl : ttl.length = 4) (rdata : Bytes) :
    StandsAt packet next (encodeFixed rtype rclass ttl rdata) <->
      StandsAt packet next (toBeBytes rtype) ∧ StandsAt packet (next + 2) (toBeBytes rclass) ∧
        StandsAt packet (next + 4) ttl ∧
        StandsAt packet (next + 8) (toBeBytes (UInt16.ofNat rdata.length)) ∧
        StandsAt packet (next + 10) rdata := by
  rw [encodeFixed, standsAt_append, standsAt_append, standsAt_append, standsAt_append,
    length_toBeBytes, length_toBeBytes, length_toBeBytes, httl]

theorem readRecord_of_laid {pos next : Nat} {rr : ResourceRecord}
    (h : RecordLaid packet pos next rr) :
    readRecord packet pos = Except.ok (rr, next + 10 + rr.rdata.length) := by
  rcases h with ⟨⟨labels, pointers, hlaid, hle, hname⟩, hfits, ⟨rclass, ttl, hfour, hfixed⟩, hoffset⟩
  rcases (standsAt_encodeFixed hfour _).mp hfixed with ⟨hrtype, hrclass, httl, hlen, hrdata⟩
  have hend := hlen.length_le (toBeBytes_ne_nil _)
  have hnat : (UInt16.ofNat rr.rdata.length).toNat = rr.rdata.length := by
    rw [UInt16.toNat_ofNat', Nat.mod_eq_of_lt hfits]
  rw [length_toBeBytes] at hend
  rw [readRecord, readName_eq_ok.mpr ⟨labels, pointers, hlaid, hle, hname⟩]
  simp only [bind, Except.bind]
  rw [readU16_eq_ok.mpr hrtype]
  dsimp only
  rw [readU16_eq_ok.mpr hrclass]
  dsimp only
  rw [(getSlice_eq_ok_of_pos (Nat.succ_pos 3)).mpr ⟨hfour, httl⟩]
  dsimp only
  rw [readU16_eq_ok.mpr hlen]
  dsimp only
  rw [hnat, (getSlice_eq_ok hend).mpr ⟨rfl, hrdata⟩, <- hoffset]

theorem laid_of_readRecord {pos stop : Nat} {rr : ResourceRecord}
    (h : readRecord packet pos = Except.ok (rr, stop)) :
    exists next, RecordLaid packet pos next rr ∧ stop = next + 10 + rr.rdata.length := by
  rw [readRecord] at h
  rcases bind_eq_ok.mp h with ⟨⟨name, next⟩, hname, h⟩
  rcases bind_eq_ok.mp h with ⟨rtype, hrtype, h⟩
  rcases bind_eq_ok.mp h with ⟨rclass, hrclass, h⟩
  rcases bind_eq_ok.mp h with ⟨ttl, httl, h⟩
  rcases bind_eq_ok.mp h with ⟨rdlength, hlen, h⟩
  rcases bind_eq_ok.mp h with ⟨rdata, hrdata, h⟩
  cases h
  rcases (getSlice_eq_ok_of_pos (Nat.succ_pos 3)).mp httl with ⟨hfour, httl⟩
  rw [readU16_eq_ok] at hrtype hrclass hlen
  have hend := hlen.length_le (toBeBytes_ne_nil _)
  rw [length_toBeBytes] at hend
  rcases (getSlice_eq_ok hend).mp hrdata with ⟨hrdlength, hrdata⟩
  have hfixed := (standsAt_encodeFixed hfour rdata).mpr
    ⟨hrtype, hrclass, httl, by rwa [hrdlength, UInt16.ofNat_toNat], hrdata⟩
  refine ⟨next, ⟨?_, ?_, ⟨rclass, ttl, hfour, hfixed⟩, rfl⟩, ?_⟩
  · rcases readName_eq_ok.mp hname with ⟨labels, pointers, hlaid, hle, hname⟩
    exact ⟨labels, pointers, hlaid, hle, hname⟩
  · exact lt_of_eq_of_lt hrdlength rdlength.toNat_lt
  · rw [hrdlength]

theorem readAnswers_eq_ok {count pos : Nat} {records : List ResourceRecord} :
    readAnswers packet count pos = Except.ok records <->
      records.length = count ∧ RecordsLaid packet pos records := by
  constructor
  · intro h
    induction count generalizing pos records with
    | zero =>
        cases h
        exact ⟨rfl, RecordsLaid.nil _⟩
    | succ count ih =>
        rw [readAnswers] at h
        rcases bind_eq_ok.mp h with ⟨⟨rr, stop⟩, hrr, h⟩
        rcases bind_eq_ok.mp h with ⟨rest, hrest, h⟩
        cases h
        rcases laid_of_readRecord hrr with ⟨next, hlaid, hstop⟩
        cases hstop
        rcases ih hrest with ⟨hlen, hrest⟩
        exact ⟨congrArg Nat.succ hlen, RecordsLaid.cons hlaid hrest⟩
  · intro h
    rcases h with ⟨hlen, h⟩
    induction h generalizing count with
    | nil pos =>
        cases hlen
        rfl
    | cons h hrest ih =>
        cases hlen
        rw [List.length_cons, readAnswers, readRecord_of_laid h]
        simp only [bind, Except.bind]
        rw [ih rfl]

/-!
# Messages
-/

structure Header where
  id : UInt16
  flags : UInt16
  qdcount : UInt16
  ancount : UInt16

def Header.rcode (header : Header) : UInt8 :=
  (header.flags &&& 0x000F).toUInt8

def Header.encode (header : Header) : Bytes :=
  toBeBytes header.id ++ (toBeBytes header.flags ++
    (toBeBytes header.qdcount ++ toBeBytes header.ancount))

structure QuestionSection (packet : Bytes) (header : Header) (stop : Nat) : Prop where
  length : 12 <= packet.length
  head : StandsAt packet 0 header.encode
  questions : QuestionsLaid packet 12 header.qdcount.toNat stop

/-- What a parsed packet says: nothing but the code of the failure, or all its answers. -/
def AnswersOf (packet : Bytes) (header : Header) (stop : Nat) (answers : List ResourceRecord) :
    Prop :=
  if header.rcode ≠ 0 then answers = []
  else answers.length = header.ancount.toNat ∧ RecordsLaid packet stop answers

theorem standsAt_header {header : Header} :
    StandsAt packet 0 header.encode <->
      StandsAt packet 0 (toBeBytes header.id) ∧ StandsAt packet 2 (toBeBytes header.flags) ∧
        StandsAt packet 4 (toBeBytes header.qdcount) ∧
        StandsAt packet 6 (toBeBytes header.ancount) := by
  rw [Header.encode, standsAt_append, standsAt_append, standsAt_append, length_toBeBytes,
    length_toBeBytes, length_toBeBytes]

theorem parseResponse_of_section {header : Header} {stop : Nat}
    (h : QuestionSection packet header stop) :
    parseResponse packet =
      if header.rcode ≠ 0 then Except.ok ⟨header.id, header.rcode, []⟩
      else (readAnswers packet header.ancount.toNat stop).bind fun answers =>
        Except.ok ⟨header.id, header.rcode, answers⟩ := by
  rcases standsAt_header.mp h.head with ⟨hid, hflags, hqdcount, hancount⟩
  rw [parseResponse, if_neg (Nat.not_lt_of_le h.length), readU16_eq_ok.mpr hid]
  simp only [bind, Except.bind]
  rw [readU16_eq_ok.mpr hflags]
  dsimp only
  rw [readU16_eq_ok.mpr hqdcount]
  dsimp only
  rw [readU16_eq_ok.mpr hancount]
  dsimp only
  rw [skipQuestions_eq_ok.mpr h.questions]
  rfl

theorem parseResponse_eq_ok {msg : DnsMessage} :
    parseResponse packet = Except.ok msg <->
      exists header stop, QuestionSection packet header stop ∧
        AnswersOf packet header stop msg.answers ∧ msg.id = header.id ∧
        msg.rcode = header.rcode := by
  constructor
  · intro h
    have hparse := h
    rw [parseResponse] at h
    split at h
    · cases h
    · rename_i hlen
      rcases bind_eq_ok.mp h with ⟨id, hid, h⟩
      rcases bind_eq_ok.mp h with ⟨flags, hflags, h⟩
      rcases bind_eq_ok.mp h with ⟨qdcount, hqdcount, h⟩
      rcases bind_eq_ok.mp h with ⟨ancount, hancount, h⟩
      rcases bind_eq_ok.mp h with ⟨stop, hstop, -⟩
      rw [readU16_eq_ok] at hid hflags hqdcount hancount
      have hsection : QuestionSection packet ⟨id, flags, qdcount, ancount⟩ stop :=
        ⟨Nat.le_of_not_lt hlen, standsAt_header.mpr ⟨hid, hflags, hqdcount, hancount⟩,
          skipQuestions_eq_ok.mp hstop⟩
      refine ⟨_, stop, hsection, ?_⟩
      rw [parseResponse_of_section hsection] at hparse
      rw [AnswersOf]
      split at hparse
      · rename_i hfailed
        cases hparse
        rw [if_pos hfailed]
        exact ⟨rfl, rfl, rfl⟩
      · rename_i hok
        rcases bind_eq_ok.mp hparse with ⟨answers, hanswers, hparse⟩
        cases hparse
        rw [if_neg hok]
        exact ⟨readAnswers_eq_ok.mp hanswers, rfl, rfl⟩
  · intro h
    rcases h with ⟨header, stop, hsection, hanswers, hid, hrcode⟩
    rw [parseResponse_of_section hsection]
    rcases msg with ⟨id, rcode, answers⟩
    dsimp only at hid hrcode hanswers
    rw [hid, hrcode]
    rw [AnswersOf] at hanswers
    split at hanswers
    · rename_i hfailed
      rw [if_pos hfailed, hanswers]
    · rename_i hok
      rw [if_neg hok, readAnswers_eq_ok.mpr hanswers]
      rfl

end Dns
end Gateway
end Ephor
