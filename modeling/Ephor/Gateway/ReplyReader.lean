import Ephor.Foundation.StringSlice
import Ephor.Gateway.InboundTcp

/-!
# Replies of a destination

`read_reply` of `pier-gateway/src/net.rs` and the `ehlo` of `outbound_tcp.rs`.  Both read lines
that a destination server sends, decode each lossily and slice it at fixed byte offsets.  A
result is `none` where the code panics.
-/

namespace Ephor
namespace Gateway
namespace Reply

open Foundation
open Foundation.Text

/-!
## One line
-/

inductive CodeError where
  | short
  | nonNumeric
deriving DecidableEq

def parseCode (digits : Str) : Except CodeError Nat :=
  match parseUnsigned 65535 digits with
  | none => .error .nonNumeric
  | some code => .ok code

/-- The length check, `line[..3]` and its `parse`. -/
def replyCode (line : Str) : Option (Except CodeError Nat) :=
  if (utf8 line).length < 3 then some (.error .short) else (sliceTo 3 line).map parseCode

/-- `line.as_bytes().get(3) == Some(&b'-')`. -/
def hasMore (line : Str) : Bool :=
  (utf8 line)[3]? == some 0x2D

/-!
## Reading on
-/

inductive ReplyError where
  | noReply
  /-- `read_line` failed. -/
  | io
  | code (e : CodeError)
deriving DecidableEq

theorem readLineLoop_shorter {buf stream bytes rest : Bytes}
    (h : readLineLoop buf stream = ReadLine.line bytes rest) : rest.length < stream.length := by
  induction stream generalizing buf with
  | nil =>
      rw [readLineLoop] at h
      split at h
      · cases h
      · cases h
  | cons byte stream ih =>
      rw [readLineLoop] at h
      split at h
      · cases h
        exact Nat.lt_succ_self _
      · split at h
        · cases h
        · exact Nat.lt_succ_of_lt (ih h)

def joinText (text line : Str) : Str :=
  (if text.isEmpty then text else text ++ [' ']) ++ trim ((sliceFrom 4 line).getD [])

/-- The loop of `read_reply`, with the text joined so far, and what it leaves of the stream. -/
def readReplyLoop (text : Str) (stream : Bytes) :
    Option (Except ReplyError ((Nat × Str) × Bytes)) :=
  match _h : readLine stream with
  | .eof => some (.error .noReply)
  | .failed => some (.error .io)
  | .line bytes rest =>
      let line := fromUtf8Lossy bytes
      match replyCode line with
      | none => none
      | some (.error e) => some (.error (.code e))
      | some (.ok code) =>
          let text := joinText text line
          if hasMore line then readReplyLoop text rest else some (.ok ((code, text), rest))
termination_by stream.length
decreasing_by exact readLineLoop_shorter (by assumption)

def readReply (stream : Bytes) : Option (Except ReplyError ((Nat × Str) × Bytes)) :=
  readReplyLoop [] stream

inductive EhloError where
  | noReply
  | io
  | code (e : CodeError)
  | permanent (code : Nat) (text : Str)
deriving DecidableEq

/-- The loop of `ehlo`, with the capabilities so far. -/
def ehloLoop (caps : List Str) (stream : Bytes) : Option (Except EhloError (List Str × Bytes)) :=
  match _h : readLine stream with
  | .eof => some (.error .noReply)
  | .failed => some (.error .io)
  | .line bytes rest =>
      let line := fromUtf8Lossy bytes
      match replyCode line with
      | none => none
      | some (.error e) => some (.error (.code e))
      | some (.ok code) =>
          if code < 200 ∨ 300 <= code then some (.error (.permanent code line))
          else
            let caps := caps ++ ((sliceFrom 4 line).bind fun rest =>
              (splitWhitespace rest).head?).toList
            if hasMore line then ehloLoop caps rest else some (.ok (caps, rest))
termination_by stream.length
decreasing_by exact readLineLoop_shorter (by assumption)

def ehlo (sent : Bool) (stream : Bytes) : Option (Except EhloError (List Str × Bytes)) :=
  if sent then ehloLoop [] stream else some (.error .io)

end Reply
end Gateway
end Ephor
