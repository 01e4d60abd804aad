import Mathlib.Logic.Function.Iterate
import Ephor.Gateway.Transfer

/-!
# The line loop of the legacy servers

`pier-gateway/src/legacy_net.rs`: lines are read from a connection, told apart by their first
word and fed to a protocol.  What the socket delivers is a list of reads, the end of which is the
end of the stream; the buffered reader holds what is left of one of them.  The idle timeout,
failing reads and failing writes only cut a run short and are left out.
-/

namespace Ephor
namespace Gateway
namespace LegacyNet

open Foundation
open Foundation.Text

def maxLine : Nat := 64 * 1024 * 1024

def carriageReturn : UInt8 := 0x0D

/-!
# Reading a line
-/

/-- What one read of the socket returns before the end of the stream. -/
abbrev Chunk : Type :=
  { b : Bytes // b ≠ [] }

/-- A `BufReader`: what is buffered, and what the socket delivers after it. -/
structure Reader where
  buffer : Bytes
  socket : List Chunk
deriving DecidableEq

/-- What `fill_buf` returns, now and later. -/
def Reader.chunks (r : Reader) : List Chunk :=
  if h : r.buffer = [] then r.socket else ⟨r.buffer, h⟩ :: r.socket

def Reader.pending (r : Reader) : Bytes :=
  r.buffer ++ (r.socket.map Subtype.val).flatten

/-- The loop of `read_line_capped`, with the bytes read so far; none when the line is too
long. -/
def readLoop : List Chunk -> Bytes -> Option (Bytes × Reader)
  | [], out => some (out, ⟨[], []⟩)
  | available :: socket, out =>
      match available.val.idxOf? lineFeed with
      | some pos =>
          some (out ++ available.val.take (pos + 1), ⟨available.val.drop (pos + 1), socket⟩)
      | none =>
          if maxLine < (out ++ available.val).length then
            none
          else
            readLoop socket (out ++ available.val)

/-- `read_line_capped`: the line with its line feed, empty at the end of the stream. -/
def readLineCapped (r : Reader) : Option (Bytes × Reader) :=
  readLoop r.chunks []

def lineEnd (b : UInt8) : Bool :=
  b == carriageReturn || b == lineFeed

/-- The line without the carriage returns and line feeds at its end. -/
def command (line : Bytes) : Bytes :=
  line.rdropWhile lineEnd

def verbOf (line : Str) : Str :=
  upper ((splitWhitespace line).headD [])

/-!
# The loop
-/

structure LineProtocol (σ : Type) where
  feedLineBytes : σ -> Bytes -> Str × σ
  isStarttls : Str -> Bool
  acceptsUpgrade : Str -> Bool
  isQuit : Str -> Bool

inductive Status where
  | serving
  /-- The loop was left, at the end of the stream or on `QUIT`. -/
  | ended
  | failed
deriving DecidableEq

structure Connection (σ : Type) where
  reader : Reader
  secured : Bool
  status : Status
  upgrades : Nat
  written : List Str
  proto : σ

section Loop

variable {σ : Type} (protocol : LineProtocol σ)

-- What the client sends after a TLS handshake, if it succeeds.
variable (handshake : Reader -> Option Reader)

/-- The upgrade in place; bytes that were sent behind the command end the session. -/
def upgrade (c : Connection σ) : Connection σ :=
  if c.reader.buffer ≠ [] then
    { c with status := Status.failed }
  else
    match handshake c.reader with
    | some secure => { c with reader := secure, secured := true, upgrades := c.upgrades + 1 }
    | none => { c with status := Status.failed }

/-- What is done with a line after it was read. -/
def answer (c : Connection σ) (line : Bytes) : Connection σ :=
  let cmd := command line
  let text := fromUtf8Lossy cmd
  let wantsUpgrade := !c.secured && protocol.isStarttls text
  let quit := protocol.isQuit text
  let fed := protocol.feedLineBytes c.proto cmd
  let c := { c with
    proto := fed.2
    written := if fed.1.isEmpty then c.written else c.written ++ [fed.1] }
  let c := if wantsUpgrade && protocol.acceptsUpgrade fed.1 then upgrade handshake c else c
  if quit && c.status = Status.serving then { c with status := Status.ended } else c

/-- One turn of the loop of `serve_line_session_with_timeout`. -/
def turn (c : Connection σ) : Connection σ :=
  if c.status = Status.serving then
    match readLineCapped c.reader with
    | none => { c with status := Status.failed }
    | some ([], reader) => { c with reader := reader, status := Status.ended }
    | some (line, reader) => answer protocol handshake { c with reader := reader } line
  else
    c

end Loop

/-!
# Lines as they arrive
-/

theorem flatten_chunks (r : Reader) : (r.chunks.map Subtype.val).flatten = r.pending := by
  rw [Reader.chunks, Reader.pending]
  split
  · rename_i hempty
    rw [hempty, List.nil_append]
  · rfl

theorem readLoop_pending {chunks : List Chunk} {out line : Bytes} {reader : Reader}
    (h : readLoop chunks out = some (line, reader)) :
    line ++ reader.pending = out ++ (chunks.map Subtype.val).flatten := by
  induction chunks generalizing out with
  | nil =>
      cases h
      rfl
  | cons available socket ih =>
      rw [List.map_cons, List.flatten_cons]
      rw [readLoop] at h
      split at h
      · rename_i pos _
        cases h
        rw [Reader.pending, List.append_assoc, <- List.append_assoc (available.val.take (pos + 1)),
          List.take_append_drop]
      · split at h
        · cases h
        · rw [ih h, List.append_assoc]

theorem chunk_of_line {chunk line flat rest : Bytes} (hchunk : lineFeed ∉ chunk)
    (h : chunk ++ flat = line ++ lineFeed :: rest) :
    exists more, line = chunk ++ more ∧ flat = more ++ lineFeed :: rest := by
  rcases List.append_eq_append_iff.mp h with hpart | ⟨more, hmore, hrest⟩
  · exact hpart
  · cases more with
    | nil => exact ⟨[], by rw [hmore, List.append_nil, List.append_nil], hrest.symm⟩
    | cons b more =>
        injection hrest with hb _
        apply absurd _ hchunk
        rw [hmore, hb]
        exact List.mem_append_right _ List.mem_cons_self

theorem readLoop_line {chunks : List Chunk} {out line rest : Bytes} (hline : lineFeed ∉ line)
    (hpending : (chunks.map Subtype.val).flatten = line ++ lineFeed :: rest)
    (hfits : out.length + line.length <= maxLine) :
    exists reader, readLoop chunks out = some (out ++ line ++ [lineFeed], reader) ∧
      reader.pending = rest := by
  induction chunks generalizing out line with
  | nil =>
      exact absurd hpending.symm (List.append_ne_nil_of_right_ne_nil _ (List.cons_ne_nil _ _))
  | cons available socket ih =>
      rw [List.map_cons, List.flatten_cons] at hpending
      rw [readLoop]
      by_cases hmem : lineFeed ∈ available.val
      · -- The line feed is in this chunk, so the line ends with it.
        rcases List.eq_append_cons_of_mem hmem with ⟨front, back, havail, hfront⟩
        rw [havail, List.append_assoc, List.cons_append] at hpending
        rcases piece_inj hfront hline hpending with ⟨rfl, hback⟩
        refine ⟨⟨back, socket⟩, ?_, hback⟩
        have hcut : front ++ lineFeed :: back = (front ++ [lineFeed]) ++ back := by
          rw [List.append_assoc, List.singleton_append]
        have hlength : (front ++ [lineFeed]).length = front.length + 1 := List.length_append
        rw [havail, idxOf?_piece hfront]
        change some (out ++ (front ++ lineFeed :: back).take (front.length + 1),
          (⟨(front ++ lineFeed :: back).drop (front.length + 1), socket⟩ : Reader)) = _
        rw [hcut, List.take_left' hlength, List.drop_left' hlength, List.append_assoc]
      · rcases chunk_of_line hmem hpending with ⟨more, hmore, hflat⟩
        rw [List.idxOf?_eq_none_iff.mpr hmem]
        rw [hmore, List.mem_append, not_or] at hline
        have hlength : (out ++ available.val).length + more.length <= maxLine := by
          rw [hmore, List.length_append] at hfits
          rw [List.length_append]
          omega
        change exists reader, (if maxLine < (out ++ available.val).length then none
          else readLoop socket (out ++ available.val)) = _ ∧ _
        rw [if_neg (by omega)]
        rcases ih hline.2 hflat hlength with ⟨reader, hread, hpend⟩
        refine ⟨reader, ?_, hpend⟩
        rw [hread, hmore, List.append_assoc out]

theorem readLineCapped_line {r : Reader} {line rest : Bytes} (hline : lineFeed ∉ line)
    (hpending : r.pending = line ++ lineFeed :: rest) (hfits : line.length <= maxLine) :
    exists reader, readLineCapped r = some (line ++ [lineFeed], reader) ∧
      reader.pending = rest := by
  rw [<- flatten_chunks] at hpending
  have hzero : ([] : Bytes).length + line.length <= maxLine := by
    rw [List.length_nil, Nat.zero_add]
    exact hfits
  exact readLoop_line hline hpending hzero

/-!
# What is left of a line
-/

theorem command_lineFeed (line : Bytes) : command (line ++ [lineFeed]) = command line :=
  List.rdropWhile_concat_pos _ _ _ rfl

theorem command_return (line : Bytes) : command (line ++ [carriageReturn]) = command line :=
  List.rdropWhile_concat_pos _ _ _ rfl

theorem length_command_le (line : Bytes) : (command line).length <= line.length :=
  (List.rdropWhile_prefix _ line).length_le

theorem command_eq_self_iff {line : Bytes} (hline : lineFeed ∉ line) :
    command line = line <-> line.getLast? ≠ some carriageReturn := by
  rw [command, List.rdropWhile_eq_self_iff]
  constructor
  · intro h hlast
    rcases List.getLast?_eq_some_iff.mp hlast with ⟨front, rfl⟩
    refine h (List.append_ne_nil_of_right_ne_nil _ (List.cons_ne_nil _ _)) ?_
    rw [List.getLast_concat]
    rfl
  · intro h hne hlast
    rw [lineEnd, Bool.or_eq_true, beq_iff_eq, beq_iff_eq] at hlast
    rcases hlast with hreturn | hfeed
    · apply h
      rw [List.getLast?_eq_some_getLast hne, hreturn]
    · apply hline
      rw [<- hfeed]
      exact List.getLast_mem hne

theorem command_dot (line : Bytes) : command (0x2E :: line) = 0x2E :: command line := by
  induction line using List.reverseRecOn with
  | nil => rfl
  | append_singleton line b ih =>
      rw [<- List.cons_append]
      by_cases hb : lineEnd b = true
      · rw [command, command, List.rdropWhile_concat_pos _ _ _ hb,
          List.rdropWhile_concat_pos _ _ _ hb]
        exact ih
      · rw [command, command, List.rdropWhile_concat_neg _ _ _ hb,
          List.rdropWhile_concat_neg _ _ _ hb]
        rfl

theorem command_stuff (line : Bytes) : command (stuff line) = stuff (command line) := by
  by_cases hdot : line.head? = some 0x2E
  · rcases List.head?_eq_some_iff.mp hdot with ⟨tail, rfl⟩
    rw [stuff, if_pos hdot, command_dot (0x2E :: tail), command_dot tail, stuff,
      if_pos (List.head?_cons ..)]
  · have hkept : (command line).head? ≠ some 0x2E := by
      rcases List.rdropWhile_prefix _ line with ⟨rest, hrest⟩
      intro hhead
      apply hdot
      rw [<- hrest, List.head?_append]
      exact congrArg (fun o => o.or rest.head?) hhead
    rw [stuff, if_neg hdot, stuff, if_neg hkept]

/-!
# Turns
-/

section Turns

variable {σ : Type} {protocol : LineProtocol σ} {handshake : Reader -> Option Reader}

theorem answer_secured {c : Connection σ} (hsecured : c.secured = true)
    (hserving : c.status = Status.serving) (line : Bytes) :
    exists written, answer protocol handshake c line = { c with
      proto := (protocol.feedLineBytes c.proto (command line)).2
      written := written
      status := if protocol.isQuit (fromUtf8Lossy (command line)) then Status.ended
        else Status.serving } := by
  refine ⟨if (protocol.feedLineBytes c.proto (command line)).1.isEmpty then c.written
    else c.written ++ [(protocol.feedLineBytes c.proto (command line)).1], ?_⟩
  unfold answer
  dsimp only
  rw [hsecured, Bool.not_true, Bool.false_and, Bool.false_and, if_neg Bool.false_ne_true]
  cases protocol.isQuit (fromUtf8Lossy (command line)) with
  | true | false => simp [hserving]

theorem turn_line {c : Connection σ} (hsecured : c.secured = true)
    (hserving : c.status = Status.serving) {line rest : Bytes} (hline : lineFeed ∉ line)
    (hpending : c.reader.pending = line ++ lineFeed :: rest) (hfits : line.length <= maxLine) :
    exists reader written, reader.pending = rest ∧ turn protocol handshake c = { c with
      reader := reader
      proto := (protocol.feedLineBytes c.proto (command line)).2
      written := written
      status := if protocol.isQuit (fromUtf8Lossy (command line)) then Status.ended
        else Status.serving } := by
  rcases readLineCapped_line hline hpending hfits with ⟨reader, hread, hpend⟩
  have hat : ({ c with reader := reader } : Connection σ).secured = true := hsecured
  rcases @answer_secured σ protocol handshake _ hat hserving (line ++ [lineFeed])
    with ⟨written, hanswer⟩
  refine ⟨reader, written, hpend, ?_⟩
  rw [command_lineFeed] at hanswer
  rw [turn, if_pos hserving, hread, <- hanswer]
  split
  · rename_i heq
    cases heq
  · rename_i heq
    injection heq with heq
    injection heq with hnil _
    exact absurd hnil (List.append_ne_nil_of_right_ne_nil _ (List.cons_ne_nil _ _))
  · rename_i heq
    injection heq with heq
    injection heq with hline hreader
    rw [hline, hreader]

theorem turn_of_not_serving {c : Connection σ} (h : c.status ≠ Status.serving) :
    turn protocol handshake c = c :=
  if_neg h

theorem iterate_of_not_serving {c : Connection σ} (h : c.status ≠ Status.serving) (n : Nat) :
    (turn protocol handshake)^[n] c = c :=
  Function.iterate_fixed (turn_of_not_serving h) n

theorem turn_pending {c : Connection σ} (hsecured : c.secured = true) :
    (turn protocol handshake c).secured = true ∧
      (turn protocol handshake c).reader.pending.length <= c.reader.pending.length := by
  by_cases hserving : c.status = Status.serving
  · have hreads : forall line reader, readLineCapped c.reader = some (line, reader) ->
        reader.pending.length <= c.reader.pending.length := by
      intro line reader hread
      have hall := congrArg List.length (readLoop_pending hread)
      rw [flatten_chunks, List.nil_append, List.length_append] at hall
      omega
    rw [turn, if_pos hserving]
    split
    · exact ⟨hsecured, Nat.le_refl _⟩
    · rename_i reader hread
      exact ⟨hsecured, hreads [] reader hread⟩
    · rename_i line reader _ hread
      have hat : ({ c with reader := reader } : Connection σ).secured = true := hsecured
      rcases @answer_secured σ protocol handshake _ hat hserving line with ⟨written, hanswer⟩
      rw [hanswer]
      exact ⟨hsecured, hreads line reader hread⟩
  · rw [turn_of_not_serving hserving]
    exact ⟨hsecured, Nat.le_refl _⟩

theorem iterate_pending_le {c : Connection σ} (hsecured : c.secured = true) (n : Nat) :
    ((turn protocol handshake)^[n] c).reader.pending.length <= c.reader.pending.length := by
  induction n generalizing c with
  | zero => exact Nat.le_refl _
  | succ n ih =>
      rw [Function.iterate_succ_apply]
      have hturn := @turn_pending σ protocol handshake c hsecured
      exact Nat.le_trans (ih hturn.1) hturn.2

end Turns

end LegacyNet
end Gateway
end Ephor
