import Ephor.Gateway.ReplyReader

/-!
# What a destination may send

The lines of a reply are decoded before they are sliced, so one bad byte can move the slice into
the three bytes that stand for it.  The parser of the code takes a plus sign for a digit.  A
stream without such lines is read exactly as the reply it begins with.
-/

namespace Ephor
namespace Gateway
namespace Reply

open Foundation
open Foundation.Text

/-!
## Replies
-/

/-- The stream begins with the line, of at most 64 KiB, and `rest` follows its end. -/
def Framed (stream line rest : Bytes) : Prop :=
  exists raw, stream = raw ++ 0x0A :: rest ∧ (0x0A : UInt8) ∉ raw ∧ raw.length <= maxLine ∧
    line = stripReturn raw

def IsDigitByte (x : UInt8) : Prop :=
  0x30 <= x.toNat ∧ x.toNat <= 0x39

def HasCode (line : Bytes) : Prop :=
  exists a b c rest, line = a :: b :: c :: rest ∧ IsDigitByte a ∧ IsDigitByte b ∧ IsDigitByte c

def HasSignedCode (line : Bytes) : Prop :=
  exists b c rest, line = 0x2B :: b :: c :: rest ∧ IsDigitByte b ∧ IsDigitByte c

/-- The byte after the code says that another line follows. -/
def Continued (line : Bytes) : Prop :=
  (line)[3]? = some 0x2D

/-- The stream begins with a reply: lines of three digits, with a hyphen after them on all lines
but the last. -/
inductive BeginsReply : Bytes -> Bytes -> Prop where
  | final {stream line rest : Bytes} (hline : Framed stream line rest) (hcode : HasCode line)
      (hfinal : ¬ Continued line) : BeginsReply stream rest
  | more {stream line next rest : Bytes} (hline : Framed stream line next) (hcode : HasCode line)
      (hmore : Continued line) (hnext : BeginsReply next rest) : BeginsReply stream rest

/-- Neither reader panics, and `read_reply` accepts the replies and leaves what follows them. -/
structure Handled (stream : Bytes) : Prop where
  readsReply : readReply stream ≠ none
  readsEhlo : forall sent, ehlo sent stream ≠ none
  accepts : forall rest,
    (exists reply, readReply stream = some (.ok (reply, rest))) <-> BeginsReply stream rest

/-!
## The condition
-/

/-- Offset 3 is inside a character of the decoded line. -/
def Splits (line : Bytes) : Prop :=
  3 <= (utf8 (fromUtf8Lossy line)).length ∧ sliceTo 3 (fromUtf8Lossy line) = none

def HasNumber (line : Bytes) : Prop :=
  HasCode line ∨ HasSignedCode line

/-- The lines stand at the front of the stream, each with a number and a hyphen. -/
inductive Passes : Bytes -> List Bytes -> Bytes -> Prop where
  | start (stream : Bytes) : Passes stream [] stream
  | next {stream line rest stop : Bytes} {lines : List Bytes} (hline : Framed stream line rest)
      (hnumber : HasNumber line) (hmore : Continued line) (hrest : Passes rest lines stop) :
      Passes stream (line :: lines) stop

/-- No line the readers get to is sliced inside a character, and no reply they get to the end of
has a line with a sign. -/
def WellSent (stream : Bytes) : Prop :=
  forall lines at_ line rest, Passes stream lines at_ -> Framed at_ line rest ->
    ¬ Splits line ∧
      (HasNumber line -> ¬ Continued line ->
        forall l, l ∈ lines ++ [line] -> ¬ HasSignedCode l)

/-!
## Framing
-/

theorem framed_feed {stream rest : Bytes} {P : Bytes -> Prop} :
    (exists raw, 0x0A :: stream = raw ++ 0x0A :: rest ∧ (0x0A : UInt8) ∉ raw ∧ P raw) <->
      stream = rest ∧ P [] := by
  constructor
  · intro h
    rcases h with ⟨raw, hstream, hnone, hraw⟩
    cases raw with
    | nil =>
        rw [List.nil_append, List.cons.injEq] at hstream
        exact ⟨hstream.2, hraw⟩
    | cons x raw =>
        rw [List.cons_append, List.cons.injEq] at hstream
        exact absurd (List.mem_cons.mpr (Or.inl hstream.1)) hnone
  · intro h
    exact ⟨[], by rw [h.1, List.nil_append], List.not_mem_nil, h.2⟩

theorem framed_cons {byte : UInt8} (hfeed : byte ≠ 0x0A) {stream rest : Bytes} {P : Bytes -> Prop} :
    (exists raw, byte :: stream = raw ++ 0x0A :: rest ∧ (0x0A : UInt8) ∉ raw ∧ P raw) <->
      exists raw, stream = raw ++ 0x0A :: rest ∧ (0x0A : UInt8) ∉ raw ∧ P (byte :: raw) := by
  constructor
  · intro h
    rcases h with ⟨raw, hstream, hnone, hraw⟩
    cases raw with
    | nil =>
        rw [List.nil_append, List.cons.injEq] at hstream
        exact absurd hstream.1 hfeed
    | cons x raw =>
        rw [List.cons_append, List.cons.injEq] at hstream
        rw [<- hstream.1] at hraw
        exact ⟨raw, hstream.2, fun hmem => hnone (List.mem_cons_of_mem _ hmem), hraw⟩
  · intro h
    rcases h with ⟨raw, hstream, hnone, hraw⟩
    refine ⟨byte :: raw, by rw [hstream, List.cons_append], ?_, hraw⟩
    exact List.not_mem_cons_of_ne_of_not_mem (Ne.symm hfeed) hnone

theorem readLineLoop_eq_line {buf stream line rest : Bytes} (hbuf : buf.length <= maxLine) :
    readLineLoop buf stream = ReadLine.line line rest <->
      exists raw, stream = raw ++ 0x0A :: rest ∧ (0x0A : UInt8) ∉ raw ∧
        (buf ++ raw).length <= maxLine ∧ line = stripReturn (buf ++ raw) := by
  induction stream generalizing buf with
  | nil =>
      rw [readLineLoop]
      constructor
      · intro h
        split at h
        · cases h
        · cases h
      · intro h
        rcases h with ⟨raw, hstream, -⟩
        cases (List.append_eq_nil_iff.mp hstream.symm).2
  | cons byte stream ih =>
      rw [readLineLoop]
      by_cases hfeed : byte = 0x0A
      · rw [if_pos hfeed, ReadLine.line.injEq, hfeed, framed_feed, List.append_nil]
        constructor
        · exact fun h => ⟨h.2, hbuf, h.1.symm⟩
        · exact fun h => ⟨h.2.2.symm, h.1⟩
      · rw [if_neg hfeed, framed_cons hfeed]
        split
        · rename_i hlong
          constructor
          · intro h
            cases h
          · intro h
            rcases h with ⟨raw, -, -, hlength, -⟩
            rw [List.length_append] at hlong
            rw [List.length_append, List.length_cons] at hlength
            rw [List.length_singleton] at hlong
            omega
        · rename_i hshort
          have hrest := @ih (buf ++ [byte]) (Nat.not_lt.mp hshort)
          simp only [List.append_assoc, List.singleton_append] at hrest
          exact hrest

theorem readLine_eq_line {stream line rest : Bytes} :
    readLine stream = ReadLine.line line rest <-> Framed stream line rest := by
  rw [readLine, readLineLoop_eq_line (Nat.zero_le _)]
  rfl

theorem framed_unique {stream line line' rest rest' : Bytes} (h : Framed stream line rest)
    (h' : Framed stream line' rest') : line = line' ∧ rest = rest' := by
  have hread := (readLine_eq_line.mpr h).symm.trans (readLine_eq_line.mpr h')
  rw [ReadLine.line.injEq] at hread
  exact hread

/-!
## The code of a line
-/

theorem lt_of_isDigitByte {x : UInt8} (h : IsDigitByte x) : x.toNat < 128 := by
  have hhigh := h.2
  omega

theorem isDigit_asciiChar {x : UInt8} (hx : x.toNat < 128) :
    (asciiChar x).isDigit = true <-> IsDigitByte x := by
  have hnat := toNat_asciiChar hx
  have hval : (asciiChar x).val.toNat = x.toNat := hnat
  unfold Char.isDigit IsDigitByte
  simp only [Bool.and_eq_true, decide_eq_true_eq, UInt32.le_iff_toNat_le, ge_iff_le]
  rw [hval]
  exact Iff.rfl

theorem replyCode_ascii {a b c : UInt8} {rest : Bytes} (ha : a.toNat < 128) (hb : b.toNat < 128)
    (hc : c.toNat < 128) :
    replyCode (fromUtf8Lossy (a :: b :: c :: rest)) =
      some (parseCode [asciiChar a, asciiChar b, asciiChar c]) := by
  have hlength : (utf8 [asciiChar a, asciiChar b, asciiChar c]).length = 3 := by
    have hbytes := utf8_ascii (b := [a, b, c]) (by simp [ha, hb, hc])
    have hmap := congrArg List.length hbytes
    exact hmap
  have htext : fromUtf8Lossy (a :: b :: c :: rest) =
      [asciiChar a, asciiChar b, asciiChar c] ++ fromUtf8Lossy rest := by
    rw [fromUtf8Lossy_ascii ha, fromUtf8Lossy_ascii hb, fromUtf8Lossy_ascii hc]
    rfl
  have hslice := sliceTo_eq_some.mpr ⟨hlength, fromUtf8Lossy rest, htext⟩
  have hlong : ¬ (utf8 (fromUtf8Lossy (a :: b :: c :: rest))).length < 3 := by
    rw [htext, utf8_append, List.length_append, hlength]
    omega
  rw [replyCode, if_neg hlong, hslice]
  rfl

variable {digits : Str} {stop : Bytes}

theorem parseCode_eq_ok {code : Nat} :
    parseCode digits = Except.ok code <-> parseUnsigned 65535 digits = some code := by
  unfold parseCode
  cases parseUnsigned 65535 digits with
  | none | some code' => simp

theorem digitsValue_isSome (hne : digits ≠ []) :
    (digitsValue digits).isSome = digits.all Char.isDigit := by
  cases digits with
  | nil => exact absurd rfl hne
  | cons c rest =>
      rw [digitsValue]
      · split
        · rename_i hall
          rw [hall]
          rfl
        · rename_i hall
          rw [Bool.not_eq_true] at hall
          rw [hall]
          rfl
      · exact List.cons_ne_nil c rest

theorem digitsValue_le {n : Nat} (hlength : digits.length <= 4)
    (h : digitsValue digits = some n) : n <= 65535 := by
  have hstep : forall (rest : Str) (m k : Nat), rest.all Char.isDigit = true ->
      m < 10 ^ k -> rest.foldl (fun n c => n * 10 + (c.toNat - '0'.toNat)) m < 10 ^ (k + rest.length) := by
    intro rest
    induction rest with
    | nil =>
        intro m k _ hm
        exact hm
    | cons c rest ih =>
        intro m k hall hm
        rw [List.all_cons, Bool.and_eq_true] at hall
        have hdigit : c.toNat - '0'.toNat <= 9 := by
          have hbounds := hall.1
          unfold Char.isDigit at hbounds
          simp only [Bool.and_eq_true, decide_eq_true_eq, UInt32.le_iff_toNat_le, ge_iff_le]
            at hbounds
          have hhigh : c.toNat <= 57 := hbounds.2
          have hzero : '0'.toNat = 48 := rfl
          omega
        have hmore := ih (m * 10 + (c.toNat - '0'.toNat)) (k + 1) hall.2 (by
          rw [pow_succ]
          omega)
        rw [List.foldl_cons, List.length_cons, Nat.add_comm rest.length 1, <- Nat.add_assoc]
        exact hmore
  cases digits with
  | nil => cases h
  | cons c rest =>
      rw [digitsValue] at h
      · split at h
        · rename_i hall
          have hbound := hstep (c :: rest) 0 0 hall Nat.one_pos
          have hpow : 10 ^ (0 + (c :: rest).length) <= 10 ^ 4 :=
            Nat.pow_le_pow_right (by omega) (by omega)
          cases h
          omega
        · cases h
      · exact List.cons_ne_nil c rest

theorem filter_digitsValue_iff (digits : Str) (hne : digits ≠ []) (hlength : digits.length <= 4) :
    (exists n, (digitsValue digits).filter (fun n => n <= 65535) = some n) <->
      digits.all Char.isDigit = true := by
  rw [<- digitsValue_isSome hne]
  constructor
  · intro h
    rcases h with ⟨n, hn⟩
    rw [(Option.filter_eq_some_iff.mp hn).1]
    rfl
  · intro h
    rcases Option.isSome_iff_exists.mp h with ⟨n, hn⟩
    exact ⟨n, Option.filter_eq_some_iff.mpr
      ⟨hn, decide_eq_true (digitsValue_le hlength hn)⟩⟩

theorem parseCode_three {x y z : Char} :
    (exists code, parseCode [x, y, z] = Except.ok code) <->
      (x.isDigit = true ∨ x = '+') ∧ y.isDigit = true ∧ z.isDigit = true := by
  simp only [parseCode_eq_ok]
  by_cases hplus : x = '+'
  · subst hplus
    have hparse := filter_digitsValue_iff [y, z] (List.cons_ne_nil y [z]) (by simp)
    simp only [List.all_cons, List.all_nil, Bool.and_true, Bool.and_eq_true] at hparse
    constructor
    · intro h
      exact ⟨Or.inr rfl, hparse.mp h⟩
    · intro h
      exact hparse.mpr h.2
  · have hdigits : parseUnsigned 65535 [x, y, z] =
        (digitsValue [x, y, z]).filter fun n => n <= 65535 := by
      unfold parseUnsigned
      split
      · rename_i rest heq
        injection heq with hx
        exact absurd hx hplus
      · rfl
    have hparse := filter_digitsValue_iff [x, y, z] (List.cons_ne_nil x [y, z]) (by simp)
    simp only [List.all_cons, List.all_nil, Bool.and_true, Bool.and_eq_true] at hparse
    rw [hdigits, hparse]
    simp [hplus]

theorem ascii_of_parseCode {code : Nat} (h : parseCode digits = Except.ok code) :
    forall c, c ∈ digits -> c.toNat < 128 := by
  have hall : forall rest : Str, (exists n, digitsValue rest = some n) ->
      forall c, c ∈ rest -> c.toNat < 128 := by
    intro rest hvalue c hc
    have hne := List.ne_nil_of_mem hc
    rcases hvalue with ⟨n, hn⟩
    have hsome := digitsValue_isSome hne
    rw [hn, Option.isSome_some] at hsome
    have hdigit := List.all_eq_true.mp hsome.symm c hc
    unfold Char.isDigit at hdigit
    simp only [Bool.and_eq_true, decide_eq_true_eq, UInt32.le_iff_toNat_le, ge_iff_le] at hdigit
    have hhigh : c.toNat <= 57 := hdigit.2
    omega
  rw [parseCode_eq_ok] at h
  unfold parseUnsigned at h
  have hvalue := (Option.filter_eq_some_iff.mp h).1
  split at hvalue
  · rename_i rest
    intro c hc
    rcases List.mem_cons.mp hc with hplus | hmem
    · rw [hplus]
      decide
    · exact hall rest ⟨code, hvalue⟩ c hmem
  · exact hall digits ⟨code, hvalue⟩

theorem replyCode_ok_iff {line : Bytes} :
    (exists code, replyCode (fromUtf8Lossy line) = some (.ok code)) <-> HasNumber line := by
  have hascii : forall a b c rest, a.toNat < 128 -> b.toNat < 128 -> c.toNat < 128 ->
      ((exists code, replyCode (fromUtf8Lossy (a :: b :: c :: rest)) = some (.ok code)) <->
        (IsDigitByte a ∨ asciiChar a = '+') ∧ IsDigitByte b ∧ IsDigitByte c) := by
    intro a b c rest ha hb hc
    rw [<- isDigit_asciiChar ha, <- isDigit_asciiChar hb, <- isDigit_asciiChar hc,
      <- parseCode_three, replyCode_ascii ha hb hc]
    simp only [Option.some.injEq]
  constructor
  · intro h
    rcases h with ⟨code, hcode⟩
    have hparsed := hcode
    unfold replyCode at hparsed
    split at hparsed
    · cases hparsed
    · rcases Option.map_eq_some_iff.mp hparsed with ⟨digits, hslice, hparse⟩
      rcases sliceTo_eq_some.mp hslice with ⟨hlength, rest, htext⟩
      have hlow := ascii_of_parseCode hparse
      rw [length_utf8_of_ascii hlow] at hlength
      rcases List.length_eq_three.mp hlength with ⟨x, y, z, hdigits⟩
      subst hdigits
      have hx := hlow x (by simp)
      have hy := hlow y (by simp)
      have hz := hlow z (by simp)
      rcases eq_cons_of_fromUtf8Lossy hx htext with ⟨rest1, hline, htext1⟩
      rcases eq_cons_of_fromUtf8Lossy hy htext1 with ⟨rest2, hrest1, htext2⟩
      rcases eq_cons_of_fromUtf8Lossy hz htext2 with ⟨rest3, hrest2, -⟩
      subst hrest2 hrest1 hline
      have hnat : forall w : Char, w.toNat < 128 -> (UInt8.ofNat w.toNat).toNat = w.toNat := by
        intro w hw
        rw [UInt8.toNat_ofNat']
        omega
      have hnumber := (hascii _ _ _ rest3 ((hnat x hx).symm ▸ hx) ((hnat y hy).symm ▸ hy)
        ((hnat z hz).symm ▸ hz)).mp ⟨code, hcode⟩
      rcases hnumber with ⟨ha | ha, hb, hc⟩
      · exact Or.inl ⟨_, _, _, rest3, rfl, ha, hb, hc⟩
      · apply Or.inr
        refine ⟨_, _, rest3, ?_, hb, hc⟩
        rw [asciiChar, hnat x hx, Char.ofNat_toNat] at ha
        rw [ha]
        rfl
  · intro h
    rcases h with ⟨a, b, c, rest, hline, ha, hb, hc⟩ | ⟨b, c, rest, hline, hb, hc⟩
    · subst hline
      exact (hascii a b c rest (lt_of_isDigitByte ha) (lt_of_isDigitByte hb)
        (lt_of_isDigitByte hc)).mpr ⟨Or.inl ha, hb, hc⟩
    · subst hline
      exact (hascii 0x2B b c rest (by decide) (lt_of_isDigitByte hb)
        (lt_of_isDigitByte hc)).mpr ⟨Or.inr rfl, hb, hc⟩

theorem replyCode_none_iff {line : Bytes} :
    replyCode (fromUtf8Lossy line) = none <-> Splits line := by
  unfold replyCode Splits
  split
  · rename_i hshort
    constructor
    · intro h
      cases h
    · intro h
      exact absurd h.1 (Nat.not_le.mpr hshort)
  · rename_i hlong
    rw [Option.map_eq_none_iff]
    constructor
    · intro h
      exact ⟨Nat.not_lt.mp hlong, h⟩
    · intro h
      exact h.2

theorem hasMore_iff {line : Bytes} (h : HasNumber line) :
    hasMore (fromUtf8Lossy line) = true <-> Continued line := by
  have hbytes : exists a b c rest, line = a :: b :: c :: rest ∧ a.toNat < 128 ∧ b.toNat < 128 ∧
      c.toNat < 128 := by
    rcases h with ⟨a, b, c, rest, hline, ha, hb, hc⟩ | ⟨b, c, rest, hline, hb, hc⟩
    · exact ⟨a, b, c, rest, hline, lt_of_isDigitByte ha, lt_of_isDigitByte hb,
        lt_of_isDigitByte hc⟩
    · exact ⟨0x2B, b, c, rest, hline, by decide, lt_of_isDigitByte hb, lt_of_isDigitByte hc⟩
  rcases hbytes with ⟨a, b, c, rest, hline, ha, hb, hc⟩
  subst hline
  have htext : utf8 (fromUtf8Lossy (a :: b :: c :: rest)) =
      a :: b :: c :: utf8 (fromUtf8Lossy rest) := by
    have hfront := utf8_ascii (b := [a, b, c]) (by simp [ha, hb, hc])
    rw [fromUtf8Lossy_ascii ha, fromUtf8Lossy_ascii hb, fromUtf8Lossy_ascii hc]
    change utf8 ([a, b, c].map asciiChar ++ fromUtf8Lossy rest) = _
    rw [utf8_append, hfront]
    rfl
  have hhead := head_utf8_fromUtf8Lossy (x := 0x2D) (by decide) rest
  rw [hasMore, Continued, htext, beq_iff_eq]
  change (utf8 (fromUtf8Lossy rest))[0]? = some 0x2D <-> rest[0]? = some 0x2D
  rw [<- List.head?_eq_getElem?, <- List.head?_eq_getElem?]
  exact hhead

/-!
## The loops
-/

section Loops

variable {stream line rest : Bytes} {text : Str} {caps : List Str}

theorem readReplyLoop_end (text : Str) (h : forall line rest, ¬ Framed stream line rest) :
    exists e, readReplyLoop text stream = some (.error e) := by
  rw [readReplyLoop]
  split
  · exact ⟨_, rfl⟩
  · exact ⟨_, rfl⟩
  · rename_i hline
    exact absurd (readLine_eq_line.mp hline) (h _ _)

theorem readReplyLoop_line (text : Str) (h : Framed stream line rest) :
    (Splits line -> readReplyLoop text stream = none) ∧
      (¬ Splits line -> ¬ HasNumber line ->
        exists e, readReplyLoop text stream = some (.error e)) ∧
      (HasNumber line -> exists text',
        (Continued line -> readReplyLoop text stream = readReplyLoop text' rest) ∧
        (¬ Continued line ->
          exists code, readReplyLoop text stream = some (.ok ((code, text'), rest)))) := by
  have hread := readLine_eq_line.mpr h
  rw [readReplyLoop]
  split
  · rename_i hline
    rw [hread] at hline
    cases hline
  · rename_i hline
    rw [hread] at hline
    cases hline
  · rename_i bytes rest' hline
    rw [hread] at hline
    cases hline
    dsimp only
    cases hcode : replyCode (fromUtf8Lossy line) with
    | none =>
        refine ⟨fun _ => rfl, fun hsplits => absurd (replyCode_none_iff.mp hcode) hsplits, ?_⟩
        intro hnumber
        rcases replyCode_ok_iff.mpr hnumber with ⟨code, hok⟩
        rw [hcode] at hok
        cases hok
    | some result =>
        refine ⟨?_, ?_, ?_⟩
        · intro hsplits
          rw [replyCode_none_iff.mpr hsplits] at hcode
          cases hcode
        · intro _ hnumber
          cases result with
          | error e => exact ⟨_, rfl⟩
          | ok code => exact absurd (replyCode_ok_iff.mp ⟨code, hcode⟩) hnumber
        · intro hnumber
          rcases replyCode_ok_iff.mpr hnumber with ⟨code, hok⟩
          rw [hcode] at hok
          cases hok
          dsimp only
          refine ⟨joinText text (fromUtf8Lossy line), ?_, ?_⟩
          · intro hmore
            rw [if_pos ((hasMore_iff hnumber).mpr hmore)]
          · intro hfinal
            rw [if_neg (fun hmore => hfinal ((hasMore_iff hnumber).mp hmore))]
            exact ⟨code, rfl⟩

theorem ehloLoop_line (h : Framed stream line rest) (hnone : ehloLoop caps stream = none) :
    Splits line ∨ HasNumber line ∧ Continued line ∧ exists caps', ehloLoop caps' rest = none := by
  have hread := readLine_eq_line.mpr h
  rw [ehloLoop] at hnone
  split at hnone
  · cases hnone
  · cases hnone
  · rename_i bytes rest' hline
    rw [hread] at hline
    cases hline
    dsimp only at hnone
    cases hcode : replyCode (fromUtf8Lossy line) with
    | none => exact Or.inl (replyCode_none_iff.mp hcode)
    | some result =>
        rw [hcode] at hnone
        cases result with
        | error e => cases hnone
        | ok code =>
            have hnumber := replyCode_ok_iff.mp ⟨code, hcode⟩
            dsimp only at hnone
            split at hnone
            · cases hnone
            · split at hnone
              · rename_i hmore
                exact Or.inr ⟨hnumber, (hasMore_iff hnumber).mp hmore, _, hnone⟩
              · cases hnone

theorem framed_of_ehloLoop (hnone : ehloLoop caps stream = none) :
    exists line rest, Framed stream line rest := by
  rw [ehloLoop] at hnone
  split at hnone
  · cases hnone
  · cases hnone
  · rename_i hline
    exact ⟨_, _, readLine_eq_line.mp hline⟩

theorem framed_shorter (h : Framed stream line rest) : rest.length < stream.length :=
  readLineLoop_shorter (readLine_eq_line.mpr h)

/-- A line inside whose text the readers slice, and that they get to. -/
def Panics (stream : Bytes) : Prop :=
  exists lines at_ line rest, Passes stream lines at_ ∧ Framed at_ line rest ∧ Splits line

def Ends (stream : Bytes) (lines : List Bytes) (line rest : Bytes) : Prop :=
  exists at_, Passes stream lines at_ ∧ Framed at_ line rest ∧ HasNumber line ∧ ¬ Continued line

theorem panics_cons_iff (h : Framed stream line rest) :
    Panics stream <-> Splits line ∨ HasNumber line ∧ Continued line ∧ Panics rest := by
  constructor
  · intro hpanics
    rcases hpanics with ⟨lines, at_, line', rest', hpasses, hline', hsplits⟩
    cases hpasses with
    | start =>
        rw [(framed_unique h hline').1]
        exact Or.inl hsplits
    | next hfirst hnumber hmore hrest =>
        rcases framed_unique h hfirst with ⟨hl, hr⟩
        subst hl hr
        exact Or.inr ⟨hnumber, hmore, _, at_, line', rest', hrest, hline', hsplits⟩
  · intro hcases
    rcases hcases with hsplits | ⟨hnumber, hmore, lines, at_, line', rest', hpasses, hrest⟩
    · exact ⟨[], stream, line, rest, .start stream, h, hsplits⟩
    · exact ⟨line :: lines, at_, line', rest', .next h hnumber hmore hpasses, hrest⟩

theorem readReplyLoop_none_iff : readReplyLoop text stream = none <-> Panics stream := by
  induction hlength : stream.length using Nat.strong_induction_on generalizing stream text with
  | _ n ih =>
      by_cases hframed : exists line rest, Framed stream line rest
      · rcases hframed with ⟨line, rest, hline⟩
        rcases readReplyLoop_line text hline with ⟨hsplit, herror, hnumber⟩
        rw [panics_cons_iff hline]
        by_cases hsplits : Splits line
        · exact ⟨fun _ => Or.inl hsplits, fun _ => hsplit hsplits⟩
        · by_cases hcode : HasNumber line
          · rcases hnumber hcode with ⟨text', hmore, hfinal⟩
            by_cases hcontinued : Continued line
            · rw [hmore hcontinued, ih _ (hlength ▸ framed_shorter hline) rfl]
              simp [hsplits, hcode, hcontinued]
            · rcases hfinal hcontinued with ⟨code, hok⟩
              rw [hok]
              simp [hsplits, hcontinued]
          · rcases herror hsplits hcode with ⟨e, he⟩
            rw [he]
            simp [hsplits, hcode]
      · simp only [not_exists] at hframed
        rcases readReplyLoop_end text hframed with ⟨e, he⟩
        rw [he]
        constructor
        · intro h
          cases h
        · intro h
          rcases h with ⟨lines, at_, line, rest, hpasses, hline, -⟩
          cases hpasses with
          | start => exact absurd hline (hframed _ _)
          | next hfirst _ _ _ => exact absurd hfirst (hframed _ _)

theorem panics_of_ehloLoop (h : ehloLoop caps stream = none) : Panics stream := by
  induction hlength : stream.length using Nat.strong_induction_on generalizing stream caps with
  | _ n ih =>
      rcases framed_of_ehloLoop h with ⟨line, rest, hline⟩
      rw [panics_cons_iff hline]
      rcases ehloLoop_line hline h with hsplits | ⟨hnumber, hmore, caps', hrest⟩
      · exact Or.inl hsplits
      · exact Or.inr ⟨hnumber, hmore, ih _ (hlength ▸ framed_shorter hline) hrest rfl⟩

theorem ends_cons_iff {lines : List Bytes} {last : Bytes} (h : Framed stream line rest) :
    Ends stream lines last stop <->
      lines = [] ∧ last = line ∧ stop = rest ∧ HasNumber line ∧ ¬ Continued line ∨
        HasNumber line ∧ Continued line ∧
          exists more, lines = line :: more ∧ Ends rest more last stop := by
  constructor
  · intro hends
    rcases hends with ⟨at_, hpasses, hlast, hnumber, hfinal⟩
    cases hpasses with
    | start =>
        rcases framed_unique h hlast with ⟨hl, hr⟩
        subst hl hr
        exact Or.inl ⟨rfl, rfl, rfl, hnumber, hfinal⟩
    | next hfirst hfirstNumber hmore hrest =>
        rcases framed_unique h hfirst with ⟨hl, hr⟩
        subst hl hr
        exact Or.inr ⟨hfirstNumber, hmore, _, rfl, at_, hrest, hlast, hnumber, hfinal⟩
  · intro hcases
    rcases hcases with ⟨hnil, hlast, hstop, hnumber, hfinal⟩ |
      ⟨hnumber, hmore, more, hlines, at_, hpasses, hrest⟩
    · subst hnil hlast hstop
      exact ⟨stream, .start stream, h, hnumber, hfinal⟩
    · subst hlines
      exact ⟨at_, .next h hnumber hmore hpasses, hrest⟩

theorem readReplyLoop_ok_iff :
    (exists reply, readReplyLoop text stream = some (.ok (reply, stop))) <->
      exists lines last, Ends stream lines last stop := by
  induction hlength : stream.length using Nat.strong_induction_on generalizing stream text with
  | _ n ih =>
      by_cases hframed : exists line rest, Framed stream line rest
      · rcases hframed with ⟨line, rest, hline⟩
        rcases readReplyLoop_line text hline with ⟨hsplit, herror, hnumber⟩
        simp only [ends_cons_iff hline]
        by_cases hcode : HasNumber line
        · rcases hnumber hcode with ⟨text', hmore, hfinal⟩
          by_cases hcontinued : Continued line
          · rw [hmore hcontinued, ih _ (hlength ▸ framed_shorter hline) rfl]
            constructor
            · intro h
              rcases h with ⟨lines, last, hends⟩
              exact ⟨_, last, Or.inr ⟨hcode, hcontinued, lines, rfl, hends⟩⟩
            · intro h
              rcases h with ⟨lines, last, hnone | ⟨-, -, more, -, hends⟩⟩
              · exact absurd hcontinued hnone.2.2.2.2
              · exact ⟨more, last, hends⟩
          · rcases hfinal hcontinued with ⟨code, hok⟩
            rw [hok]
            simp only [Option.some.injEq, Except.ok.injEq, Prod.mk.injEq]
            constructor
            · intro h
              rcases h with ⟨reply, -, hrest⟩
              exact ⟨[], line, Or.inl ⟨rfl, rfl, hrest.symm, hcode, hcontinued⟩⟩
            · intro h
              rcases h with ⟨lines, last, ⟨-, -, hstop, -⟩ | ⟨-, hmore, -⟩⟩
              · exact ⟨_, rfl, hstop.symm⟩
              · exact absurd hmore hcontinued
        · have hnone : ¬ exists reply, readReplyLoop text stream = some (.ok (reply, stop)) := by
            intro h
            rcases h with ⟨reply, hok⟩
            by_cases hsplits : Splits line
            · rw [hsplit hsplits] at hok
              cases hok
            · rcases herror hsplits hcode with ⟨e, he⟩
              rw [he] at hok
              cases hok
          simp [hnone, hcode]
      · simp only [not_exists] at hframed
        rcases readReplyLoop_end text hframed with ⟨e, he⟩
        rw [he]
        constructor
        · intro h
          rcases h with ⟨reply, hok⟩
          cases hok
        · intro h
          rcases h with ⟨lines, last, at_, hpasses, hline, -⟩
          cases hpasses with
          | start => exact absurd hline (hframed _ _)
          | next hfirst _ _ _ => exact absurd hfirst (hframed _ _)

theorem ends_of_beginsReply (h : BeginsReply stream stop) :
    exists lines last, Ends stream lines last stop := by
  induction h with
  | final hline hcode hfinal =>
      exact ⟨[], _, (ends_cons_iff hline).mpr
        (Or.inl ⟨rfl, rfl, rfl, Or.inl hcode, hfinal⟩)⟩
  | more hline hcode hmore _ ih =>
      rcases ih with ⟨lines, last, hends⟩
      exact ⟨_, last, (ends_cons_iff hline).mpr
        (Or.inr ⟨Or.inl hcode, hmore, lines, rfl, hends⟩)⟩

theorem not_hasSignedCode (h : HasCode line) : ¬ HasSignedCode line := by
  intro hsigned
  rcases h with ⟨a, b, c, more, hline, ha, -⟩
  rcases hsigned with ⟨b', c', more', hline', -⟩
  rw [hline, List.cons.injEq] at hline'
  rw [hline'.1] at ha
  exact absurd ha.1 (by decide)

theorem hasCode_of_not_signed (h : HasNumber line) (hsigned : ¬ HasSignedCode line) :
    HasCode line := by
  rcases h with hcode | hcode
  · exact hcode
  · exact absurd hcode hsigned

theorem hasCode_of_beginsReply {at_ last stop' : Bytes} {lines : List Bytes}
    (hpasses : Passes stream lines at_) (hlast : Framed at_ last stop)
    (hfinal : ¬ Continued last) (h : BeginsReply stream stop') :
    forall l, l ∈ lines ++ [last] -> HasCode l := by
  induction hpasses with
  | start stream =>
      intro l hl
      rw [List.nil_append, List.mem_singleton] at hl
      rw [hl]
      cases h with
      | final hline hcode _ =>
          rw [(framed_unique hlast hline).1]
          exact hcode
      | more hline _ hmore _ =>
          rw [(framed_unique hlast hline).1] at hfinal
          exact absurd hmore hfinal
  | next hfirst _ hmore _ ih =>
      cases h with
      | final hline _ hnot =>
          rw [(framed_unique hfirst hline).1] at hmore
          exact absurd hmore hnot
      | more hline hcode _ hnext =>
          rcases framed_unique hfirst hline with ⟨hl, hr⟩
          subst hl hr
          intro l hl
          rcases List.mem_cons.mp hl with heq | hmem
          · rw [heq]
            exact hcode
          · exact ih hlast hnext l hmem

theorem beginsReply_of_ends {at_ last : Bytes} {lines : List Bytes}
    (hpasses : Passes stream lines at_) (hlast : Framed at_ last stop)
    (hnumber : HasNumber last) (hfinal : ¬ Continued last)
    (hsigned : forall l, l ∈ lines ++ [last] -> ¬ HasSignedCode l) : BeginsReply stream stop := by
  induction hpasses with
  | start stream =>
      exact .final hlast (hasCode_of_not_signed hnumber (hsigned last List.mem_cons_self)) hfinal
  | next hfirst hfirstNumber hmore _ ih =>
      exact .more hfirst (hasCode_of_not_signed hfirstNumber (hsigned _ List.mem_cons_self)) hmore
        (ih hlast (List.forall_mem_cons.mp hsigned).2)

end Loops

/-!
## Every stream
-/

theorem wellSent_of_handled {stream : Bytes} (h : Handled stream) : WellSent stream := by
  intro lines at_ line rest hpasses hline
  constructor
  · intro hsplits
    exact h.readsReply (readReplyLoop_none_iff.mpr ⟨lines, at_, line, rest, hpasses, hline, hsplits⟩)
  · intro hnumber hfinal l hl
    have haccepted : exists reply, readReply stream = some (.ok (reply, rest)) :=
      readReplyLoop_ok_iff.mpr ⟨lines, line, at_, hpasses, hline, hnumber, hfinal⟩
    exact not_hasSignedCode
      (hasCode_of_beginsReply hpasses hline hfinal ((h.accepts rest).mp haccepted) l hl)

theorem handled_of_wellSent {stream : Bytes} (h : WellSent stream) : Handled stream := by
  have hpanics : ¬ Panics stream := by
    intro hpanics
    rcases hpanics with ⟨lines, at_, line, rest, hpasses, hline, hsplits⟩
    exact (h lines at_ line rest hpasses hline).1 hsplits
  constructor
  · intro hnone
    exact hpanics (readReplyLoop_none_iff.mp hnone)
  · intro sent hnone
    cases sent with
    | false => cases hnone
    | true => exact hpanics (panics_of_ehloLoop hnone)
  · intro rest
    constructor
    · intro haccepted
      rcases readReplyLoop_ok_iff.mp haccepted with
        ⟨lines, last, at_, hpasses, hlast, hnumber, hfinal⟩
      exact beginsReply_of_ends hpasses hlast hnumber hfinal
        ((h lines at_ last rest hpasses hlast).2 hnumber hfinal)
    · intro hbegins
      exact readReplyLoop_ok_iff.mpr (ends_of_beginsReply hbegins)

/-- A stream is read as the reply it begins with exactly when it is well sent. -/
theorem peer_reply_handled (stream : Bytes) : Handled stream <-> WellSent stream :=
  ⟨wellSent_of_handled, handled_of_wellSent⟩

/-!
One digit and one byte that is no UTF-8: the replacement character takes up offsets 1 to 3.
-/

theorem bad_byte_panics : ¬ forall stream, Handled stream := by
  intro h
  have hpanics : readReply [0x32, 0xFF, 0x0D, 0x0A] = none := by
    decide +kernel
  exact (h _).readsReply hpanics

end Reply
end Gateway
end Ephor
