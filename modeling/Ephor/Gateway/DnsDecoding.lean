import Mathlib.Data.List.Forall2
import Ephor.Gateway.DnsResponses

/-!
# Decoding DNS names and answers

The decoder ends within a bound of the packet's length, takes nothing from behind the packet,
and gives back the labels and the records that were written, in whatever layout they stand.
-/

namespace Ephor
namespace Gateway
namespace Dns

open Foundation
open Foundation.CanonicalCbor (bigEndian length_bigEndian ofBigEndian_bigEndian)
open Foundation.CompressedName
open Foundation.Text

/-!
# The number of passes
-/

/-- The loop of `read_name`, given up after so many passes. -/
def readNameWithin (packet : Bytes) : Nat -> NameCursor -> Option (Except DnsError (Str × Nat))
  | 0, _ => none
  | passes + 1, c =>
      match readNameTurn packet c with
      | Except.error e => some (Except.error e)
      | Except.ok (Turn.done name next) => some (Except.ok (name, next))
      | Except.ok (Turn.again d) => readNameWithin packet passes d

theorem readNameWithin_eq {packet : Bytes} {passes : Nat} {c : NameCursor}
    (h : passesLeft packet c < passes) :
    readNameWithin packet passes c = some (readNameLoop packet c) := by
  induction passes generalizing c with
  | zero => exact absurd h (Nat.not_lt_zero _)
  | succ passes ih =>
      rw [readNameWithin]
      cases hturn : readNameTurn packet c with
      | error e => rw [readNameLoop_error hturn]
      | ok turn =>
          cases turn with
          | done name next => rw [readNameLoop_done hturn]
          | again d =>
              rw [readNameLoop_again hturn]
              exact ih (Nat.lt_of_lt_of_le (passesLeft_lt hturn) (Nat.le_of_lt_succ h))

theorem passesLeft_start_lt (packet : Bytes) (start : Nat) :
    passesLeft packet (NameCursor.start start) < 34 * (packet.length + 1) := by
  rw [passesLeft, NameCursor.start]
  dsimp only
  omega

/-!
# Written labels
-/

structure IsLabel (label : Str) : Prop where
  pos : 0 < label.length
  le : label.length <= 63
  ascii : forall c, c ∈ label -> c.toNat < 128
  dotless : '.' ∉ label

theorem IsLabel.length_utf8 {label : Str} (h : IsLabel label) :
    (utf8 label).length = label.length :=
  length_utf8_of_ascii h.ascii

theorem IsLabel.fits {label : Str} (h : IsLabel label) : LabelFits (utf8 label) := by
  rw [LabelFits, h.length_utf8]
  exact ⟨h.pos, h.le⟩

theorem nameOf_utf8 (labels : List Str) :
    nameOf ((labels.map utf8).map fromUtf8Lossy) = nameOf labels := by
  have hid : fromUtf8Lossy ∘ utf8 = id := funext fromUtf8Lossy_utf8
  rw [List.map_map, hid, List.map_id]

theorem nameOf_ne_nil {label : Str} (h : label ≠ []) (rest : List Str) :
    nameOf (label :: rest) ≠ [] := by
  cases rest with
  | nil => rwa [nameOf, List.intercalate_singleton]
  | cons second rest =>
      rw [nameOf, List.intercalate_cons_cons, List.append_assoc]
      exact List.append_ne_nil_of_left_ne_nil h _

theorem rdropWhile_nameOf {labels : List Str} (h : forall label, label ∈ labels -> IsLabel label) :
    (nameOf labels).rdropWhile (· == '.') = nameOf labels := by
  induction labels with
  | nil => rfl
  | cons label rest ih =>
      cases rest with
      | nil =>
          have hlabel := h label List.mem_cons_self
          rw [nameOf, List.intercalate_singleton]
          apply rdropWhile_of_last
          intro c hc
          rw [beq_eq_false_iff_ne]
          intro hdot
          rw [hdot] at hc
          exact hlabel.dotless (List.mem_of_getLast? hc)
      | cons second rest =>
          have hrest := ih (List.forall_mem_cons.mp h).2
          have hsecond := h second (List.mem_cons_of_mem label List.mem_cons_self)
          have hne := nameOf_ne_nil (List.ne_nil_of_length_pos hsecond.pos) rest
          rw [nameOf] at hrest hne
          rw [nameOf, List.intercalate_cons_cons, rdropWhile_append, hrest]
          rwa [hrest]

theorem encodeName_nameOf {labels : List Str} (h : forall label, label ∈ labels -> IsLabel label) :
    encodeName (nameOf labels) = encodeLabels (labels.map utf8) ++ [0] := by
  cases labels with
  | nil => rfl
  | cons label rest =>
      rw [encodeName, rdropWhile_nameOf h, nameOf,
        List.splitOn_intercalate _ (fun l hl => (h l hl).dotless) (List.cons_ne_nil _ _),
        encodeLabels, List.flatMap_map]
      congr 1
      apply List.flatMap_congr
      intro l hl
      have hlabel := h l hl
      have hempty : l.isEmpty = false := by
        rw [List.isEmpty_eq_false_iff]
        exact List.ne_nil_of_length_pos hlabel.pos
      have htake := List.take_of_length_le (Nat.le_of_eq hlabel.length_utf8)
      rw [hempty, hlabel.length_utf8, Nat.min_eq_left hlabel.le, encodeLabel, hlabel.length_utf8]
      dsimp only
      rw [htake]
      rfl

/-!
# Written answers
-/

structure Answer where
  labels : List Str
  rtype : UInt16
  rclass : UInt16
  ttl : UInt32
  rdata : Bytes
  fits : rdata.length < 2 ^ 16

def Answer.fixed (a : Answer) : Bytes :=
  encodeFixed a.rtype a.rclass (bigEndian 4 a.ttl.toNat) a.rdata

/-- The answers are written one after another, each name in a layout of its own. -/
inductive AnswersWritten (packet : Bytes) : Nat -> List Answer -> Prop where
  | nil (pos : Nat) : AnswersWritten packet pos []
  | cons {pos pointers next : Nat} {a : Answer} {rest : List Answer}
      (hname : Laid packet pos (a.labels.map utf8) pointers next) (hpointers : pointers <= 32)
      (hfixed : StandsAt packet next a.fixed)
      (hrest : AnswersWritten packet (next + 10 + a.rdata.length) rest) :
      AnswersWritten packet pos (a :: rest)

/-- The record says what the answer says, and where its rdata stands. -/
structure Records (packet : Bytes) (a : Answer) (rr : ResourceRecord) : Prop where
  name : rr.name = nameOf a.labels
  rtype : rr.rtype = a.rtype
  rdata : rr.rdata = a.rdata
  offset : StandsAt packet rr.rdataOffset a.rdata

theorem recordsLaid_of_written {packet : Bytes} {pos : Nat} {answers : List Answer}
    (h : AnswersWritten packet pos answers) :
    exists records, RecordsLaid packet pos records ∧
      List.Forall₂ (Records packet) answers records := by
  induction h with
  | nil pos => exact ⟨[], RecordsLaid.nil pos, List.Forall₂.nil⟩
  | @cons pos pointers next a rest hname hpointers hfixed hrest ih =>
      rcases ih with ⟨records, hlaid, hrecords⟩
      have hfour : (bigEndian 4 a.ttl.toNat).length = 4 := length_bigEndian 4 a.ttl.toNat
      have hrdata := ((standsAt_encodeFixed hfour _).mp hfixed).2.2.2.2
      have hrecord : RecordLaid packet pos next ⟨nameOf a.labels, a.rtype, a.rdata, next + 10⟩ :=
        ⟨⟨_, pointers, hname, hpointers, (nameOf_utf8 a.labels).symm⟩, a.fits,
          ⟨a.rclass, _, hfour, hfixed⟩, rfl⟩
      exact ⟨_ :: records, RecordsLaid.cons hrecord hlaid,
        List.Forall₂.cons ⟨rfl, rfl, rfl, hrdata⟩ hrecords⟩

structure ResponseWritten (packet : Bytes) (id flags : UInt16) (answers : List Answer) : Prop where
  length : 12 <= packet.length
  count : answers.length < 2 ^ 16
  head : StandsAt packet 0
    (Header.encode ⟨id, flags, 1, UInt16.ofNat answers.length⟩)
  body : exists question pointers next, Laid packet 12 question pointers next ∧ pointers <= 32 ∧
    next + 4 <= packet.length ∧ AnswersWritten packet (next + 4) answers

theorem parseResponse_of_written {packet : Bytes} {id flags : UInt16} {answers : List Answer}
    (h : ResponseWritten packet id flags answers) (hrcode : flags &&& 0x000F = 0) :
    exists records, parseResponse packet = Except.ok ⟨id, 0, records⟩ ∧
      List.Forall₂ (Records packet) answers records := by
  rcases h with ⟨hlength, hcount, hhead, question, pointers, next, hlaid, hle, hfixed, hanswers⟩
  rcases recordsLaid_of_written hanswers with ⟨records, hrecords, hsame⟩
  have hzero : Header.rcode ⟨id, flags, 1, UInt16.ofNat answers.length⟩ = 0 := by
    rw [Header.rcode, hrcode]
    rfl
  refine ⟨records, parseResponse_eq_ok.mpr ⟨_, next + 4, ⟨hlength, hhead, ?_⟩, ?_, rfl,
    hzero.symm⟩, hsame⟩
  · exact QuestionsLaid.cons hlaid hle hfixed (QuestionsLaid.nil _)
  · rw [AnswersOf, if_neg (not_not_intro hzero), UInt16.toNat_ofNat', Nat.mod_eq_of_lt hcount]
    exact ⟨hsame.length_eq.symm, hrecords⟩

/-!
# The decoder
-/

/-- For every packet and every offset `read_name` ends within a bound of the packet's length,
and what it returns does not depend on what is behind the packet.  Labels come back in every
layout on a way of at most 32 pointers, and so do the answers of a response. -/
theorem dns_decodes (packet : Bytes) (start : Nat) :
    (readNameWithin packet (34 * (packet.length + 1)) (NameCursor.start start) =
        some (readName packet start) ∧
      forall name next, readName packet start = Except.ok (name, next) ->
        next <= packet.length ∧
          forall tail, readName (packet ++ tail) start = Except.ok (name, next)) ∧
    (forall labels, (forall label, label ∈ labels -> IsLabel label) ->
      (StandsAt packet start (encodeName (nameOf labels)) ->
        readName packet start =
          Except.ok (nameOf labels, start + (encodeName (nameOf labels)).length)) ∧
      forall pointers next, Laid packet start (labels.map utf8) pointers next ->
        pointers <= 32 -> readName packet start = Except.ok (nameOf labels, next)) ∧
    forall id flags answers, flags &&& 0x000F = 0 -> ResponseWritten packet id flags answers ->
      exists records, parseResponse packet = Except.ok ⟨id, 0, records⟩ ∧
        List.Forall₂ (Records packet) answers records := by
  have hlaid : forall labels pointers next, Laid packet start (labels.map utf8) pointers next ->
      pointers <= 32 -> readName packet start = Except.ok (nameOf labels, next) := by
    intro labels pointers next h hle
    exact readName_eq_ok.mpr ⟨_, pointers, h, hle, (nameOf_utf8 labels).symm⟩
  refine ⟨⟨readNameWithin_eq (passesLeft_start_lt packet start), ?_⟩, ?_, ?_⟩
  · intro name next h
    rcases readName_eq_ok.mp h with ⟨labels, pointers, hlabels, hle, hname⟩
    refine ⟨hlabels.next_le, ?_⟩
    intro tail
    exact readName_eq_ok.mpr ⟨labels, pointers, hlabels.append_right tail, hle, hname⟩
  · intro labels hlabels
    constructor
    · intro h
      rw [encodeName_nameOf hlabels] at h ⊢
      rw [List.length_append, List.length_singleton, <- Nat.add_assoc]
      refine hlaid labels 0 _ (laid_in_full ?_ h) (Nat.zero_le 32)
      intro label hlabel
      rcases List.mem_map.mp hlabel with ⟨text, htext, heq⟩
      rw [<- heq]
      exact (hlabels text htext).fits
    · exact hlaid labels
  · intro id flags answers hrcode h
    exact parseResponse_of_written h hrcode

theorem written_name_decodes :
    readName (encodeName "a.bc".toList) 0 = Except.ok ("a.bc".toList, 6) := by
  have hlabels : forall label, label ∈ ["a".toList, "bc".toList] -> IsLabel label := by
    rintro label (_ | ⟨_, _ | ⟨_, ⟨⟩⟩⟩) <;>
      exact ⟨by decide, by decide, by simp, by decide⟩
  exact ((dns_decodes (encodeName "a.bc".toList) 0).2.1 _ hlabels).1
    (standsAt_iff_take.mpr (by decide +kernel))

end Dns
end Gateway
end Ephor
