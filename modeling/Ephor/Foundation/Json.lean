import Mathlib.Tactic.IntervalCases
import Ephor.Foundation.WebText

/-!
# JSON

`JSON.parse` and `JSON.stringify` on the values that they exchange.  The text is a
list of characters: what `JSON.stringify` writes holds no lone surrogate, since it
escapes those, and what a `TextDecoder` delivers holds none either.
-/

namespace Ephor
namespace Foundation
namespace Json

open WebText

/-- A number that `JSON.parse` can return. -/
inductive Number where
  | finite (value : Rat)
  | infinite (negative : Bool)
deriving DecidableEq

/-- The members of an object stand in the order in which they are enumerated. -/
inductive Value where
  | null
  | bool (b : Bool)
  | number (n : Number)
  | string (s : JsString)
  | array (items : List Value)
  | object (members : List (JsString × Value))

def digit (d : Nat) : Char :=
  Char.ofNat (0x30 + d)

/--
How the language reads a number and writes one: it rounds to sixty-four bits and
writes the shortest decimal that rounds back.  Numbers of one digit are written as that
digit, and every number starts with a digit or with a minus sign.
-/
structure Numerals where
  read : List Char -> Number
  write : Rat -> List Char
  read_digit : forall d : Nat, d < 10 -> read [digit d] = Number.finite d
  write_digit : forall d : Nat, d < 10 -> write d = [digit d]
  write_head : forall q, exists c rest, write q = c :: rest ∧ (c = '-' ∨ c.isDigit = true)

/-!
# Values
-/

/-- Reading a member; `none` is `undefined`, which every other value answers. -/
def Value.get (name : JsString) : Value -> Option Value
  | Value.object members => (members.find? fun member => member.1 == name).map Prod.snd
  | _ => none

def truthy : Option Value -> Bool
  | none => false
  | some Value.null => false
  | some (Value.bool b) => b
  | some (Value.number n) => n != Number.finite 0
  | some (Value.string s) => s != []
  | some (Value.array _) => true
  | some (Value.object _) => true

def asString : Option Value -> Option JsString
  | some (Value.string s) => some s
  | _ => none

def asNumber : Option Value -> Option Number
  | some (Value.number n) => some n
  | _ => none

def isTrue : Option Value -> Bool
  | some (Value.bool true) => true
  | _ => false

/-- `x ?? null`. -/
def orNull : Option Value -> Value
  | some v => v
  | none => Value.null

/-- An object literal: a member whose value is `undefined` is not written. -/
def literalObject (members : List (JsString × Option Value)) : Value :=
  Value.object (members.filterMap fun member => member.2.map fun v => (member.1, v))

/-- The names that count as array indices, which are enumerated first and by size. -/
def arrayIndex? (name : JsString) : Option Nat :=
  match name with
  | [] => none
  | u :: rest =>
      let n := name.foldl (fun n u => n * 10 + (u.toNat - 0x30)) 0
      if (u == 0x30 && rest != []) || !(name.all fun u => 0x30 <= u && u <= 0x39) ||
          2 ^ 32 - 1 <= n then none
      else some n

def precedes (name other : JsString) : Bool :=
  match arrayIndex? name, arrayIndex? other with
  | some n, some m => n < m
  | some _, none => true
  | none, _ => false

/-- Defining a member: one of the same name keeps its place. -/
def assign (name : JsString) (value : Value) :
    List (JsString × Value) -> List (JsString × Value)
  | [] => [(name, value)]
  | member :: rest =>
      if member.1 = name then (name, value) :: rest
      else if precedes name member.1 then (name, value) :: member :: rest
      else member :: assign name value rest

/-!
# `JSON.stringify`
-/

def hexDigit (d : Nat) : Char :=
  if d < 10 then digit d else Char.ofNat (0x61 + (d - 10))

def unicodeEscape (u : UInt16) : List Char :=
  ['\\', 'u', hexDigit (u.toNat / 4096), hexDigit (u.toNat / 256 % 16),
    hexDigit (u.toNat / 16 % 16), hexDigit (u.toNat % 16)]

def shortEscape (c : Char) : Option Char :=
  if c = '"' then some '"'
  else if c = '\\' then some '\\'
  else if c = '\x08' then some 'b'
  else if c = '\t' then some 't'
  else if c = '\n' then some 'n'
  else if c = '\x0C' then some 'f'
  else if c = '\r' then some 'r'
  else none

def quotePoint : CodePoint -> List Char
  | Sum.inl c =>
      match shortEscape c with
      | some e => ['\\', e]
      | none => if c.toNat < 0x20 then unicodeEscape (UInt16.ofNat c.toNat) else [c]
  | Sum.inr u => unicodeEscape u

def quote (s : JsString) : List Char :=
  '"' :: ((codePoints s).flatMap quotePoint ++ ['"'])

def writeNumber (numerals : Numerals) : Number -> List Char
  | Number.finite value => numerals.write value
  | Number.infinite _ => ['n', 'u', 'l', 'l']

section Stringify

variable (numerals : Numerals)

mutual

def stringify : Value -> List Char
  | Value.null => ['n', 'u', 'l', 'l']
  | Value.bool true => ['t', 'r', 'u', 'e']
  | Value.bool false => ['f', 'a', 'l', 's', 'e']
  | Value.number n => writeNumber numerals n
  | Value.string s => quote s
  | Value.array items => '[' :: ([','].intercalate (itemTexts items) ++ [']'])
  | Value.object members => '{' :: ([','].intercalate (memberTexts members) ++ ['}'])

def itemTexts : List Value -> List (List Char)
  | [] => []
  | v :: rest => stringify v :: itemTexts rest

def memberTexts : List (JsString × Value) -> List (List Char)
  | [] => []
  | (name, v) :: rest => (quote name ++ ':' :: stringify v) :: memberTexts rest

end

end Stringify

/-!
# Conversion to a string
-/

def toStringName : JsString :=
  ofText ['t', 'o', 'S', 't', 'r', 'i', 'n', 'g']

section ToText

variable (numerals : Numerals)

def numberText : Number -> List Char
  | Number.finite value => numerals.write value
  | Number.infinite true => ['-', 'I', 'n', 'f', 'i', 'n', 'i', 't', 'y']
  | Number.infinite false => ['I', 'n', 'f', 'i', 'n', 'i', 't', 'y']

mutual

/-- `String(v)`.  An object with a member `toString` of its own cannot be converted, since
no value of a JSON text is a function. -/
def toText : Value -> Option JsString
  | Value.null => some (ofText ['n', 'u', 'l', 'l'])
  | Value.bool true => some (ofText ['t', 'r', 'u', 'e'])
  | Value.bool false => some (ofText ['f', 'a', 'l', 's', 'e'])
  | Value.number n => some (ofText (numberText numerals n))
  | Value.string s => some s
  | Value.array items => (elementTexts items).map [0x2C].intercalate
  | Value.object members =>
      if members.any fun member => member.1 == toStringName then none
      else some (ofText ['[', 'o', 'b', 'j', 'e', 'c', 't', ' ', 'O', 'b', 'j', 'e', 'c',
        't', ']'])

/-- The elements of a joined array; `null` leaves its place empty. -/
def elementTexts : List Value -> Option (List JsString)
  | [] => some []
  | Value.null :: rest => (elementTexts rest).map fun texts => [] :: texts
  | v :: rest =>
      match toText v, elementTexts rest with
      | some text, some texts => some (text :: texts)
      | _, _ => none

end

def templateText : Option Value -> Option JsString
  | some v => toText numerals v
  | none => some (ofText ['u', 'n', 'd', 'e', 'f', 'i', 'n', 'e', 'd'])

end ToText

/-!
# `JSON.parse`
-/

def isSpace (c : Char) : Bool :=
  c == ' ' || c == '\t' || c == '\n' || c == '\r'

def skip (text : List Char) : List Char :=
  text.dropWhile isSpace

def hexValue (c : Char) : Option Nat :=
  if c.isDigit then some (c.toNat - 0x30)
  else if 0x61 <= c.toNat && c.toNat <= 0x66 then some (c.toNat - 0x61 + 10)
  else if 0x41 <= c.toNat && c.toNat <= 0x46 then some (c.toNat - 0x41 + 10)
  else none

def unescape (e : Char) : Option JsString :=
  if e = '"' || e = '\\' || e = '/' then some (units e)
  else if e = 'b' then some [0x08]
  else if e = 't' then some [0x09]
  else if e = 'n' then some [0x0A]
  else if e = 'f' then some [0x0C]
  else if e = 'r' then some [0x0D]
  else none

def before (front : Option JsString) (rest : Option (JsString × List Char)) :
    Option (JsString × List Char) :=
  match front, rest with
  | some u, some (s, text) => some (u ++ s, text)
  | _, _ => none

/-- Where the scan of a string stands: between elements, after a backslash, or before the
last `left + 1` digits of a unicode escape. -/
inductive Scan where
  | plain
  | escape
  | hex (left value : Nat)

def scanString : Scan -> List Char -> Option (JsString × List Char)
  | _, [] => none
  | Scan.plain, c :: text =>
      if c = '"' then some ([], text)
      else if c = '\\' then scanString Scan.escape text
      else if c.toNat < 0x20 then none
      else before (some (units c)) (scanString Scan.plain text)
  | Scan.escape, c :: text =>
      if c = 'u' then scanString (Scan.hex 3 0) text
      else before (unescape c) (scanString Scan.plain text)
  | Scan.hex left value, c :: text =>
      match hexValue c, left with
      | none, _ => none
      | some d, 0 =>
          before (some [UInt16.ofNat (value * 16 + d)]) (scanString Scan.plain text)
      | some d, left + 1 => scanString (Scan.hex left (value * 16 + d)) text

/-- A string after its opening quote, and the text after it. -/
def readString (text : List Char) : Option (JsString × List Char) :=
  scanString Scan.plain text

/-- The digits in front; there must be one at least. -/
def readDigits (text : List Char) : Option (List Char × List Char) :=
  match text.takeWhile Char.isDigit with
  | [] => none
  | digits => some (digits, text.dropWhile Char.isDigit)

def readInteger : List Char -> Option (List Char × List Char)
  | '0' :: rest => some (['0'], rest)
  | text => readDigits text

def readFraction : List Char -> Option (List Char × List Char)
  | '.' :: rest => (readDigits rest).map fun p => ('.' :: p.1, p.2)
  | text => some ([], text)

def readSigned : List Char -> Option (List Char × List Char)
  | '+' :: rest => (readDigits rest).map fun p => ('+' :: p.1, p.2)
  | '-' :: rest => (readDigits rest).map fun p => ('-' :: p.1, p.2)
  | text => readDigits text

def readExponent : List Char -> Option (List Char × List Char)
  | 'e' :: rest => (readSigned rest).map fun p => ('e' :: p.1, p.2)
  | 'E' :: rest => (readSigned rest).map fun p => ('E' :: p.1, p.2)
  | text => some ([], text)

def readMagnitude (text : List Char) : Option (List Char × List Char) := do
  let (integer, text) <- readInteger text
  let (fraction, text) <- readFraction text
  let (exponent, text) <- readExponent text
  return (integer ++ fraction ++ exponent, text)

def readNumber : List Char -> Option (List Char × List Char)
  | '-' :: rest => (readMagnitude rest).map fun p => ('-' :: p.1, p.2)
  | text => readMagnitude text

def readWord (word : List Char) (v : Value) (text : List Char) :
    Option (Value × List Char) :=
  if word.isPrefixOf text then some (v, text.drop word.length) else none

section Parse

variable (numerals : Numerals)

mutual

def readValue : Nat -> List Char -> Option (Value × List Char)
  | 0, _ => none
  | fuel + 1, text =>
      match skip text with
      | [] => none
      | c :: rest =>
          if c = '"' then
            (readString rest).map fun p => (Value.string p.1, p.2)
          else if c = '{' then
            match skip rest with
            | '}' :: rest => some (Value.object [], rest)
            | rest => readMembers fuel [] rest
          else if c = '[' then
            match skip rest with
            | ']' :: rest => some (Value.array [], rest)
            | rest => readItems fuel [] rest
          else if c = 'n' then readWord ['n', 'u', 'l', 'l'] Value.null (c :: rest)
          else if c = 't' then readWord ['t', 'r', 'u', 'e'] (Value.bool true) (c :: rest)
          else if c = 'f' then
            readWord ['f', 'a', 'l', 's', 'e'] (Value.bool false) (c :: rest)
          else
            (readNumber (c :: rest)).map fun p =>
              (Value.number (numerals.read p.1), p.2)

def readItems : Nat -> List Value -> List Char -> Option (Value × List Char)
  | 0, _, _ => none
  | fuel + 1, items, text =>
      match readValue fuel text with
      | none => none
      | some (v, text) =>
          match skip text with
          | ',' :: rest => readItems fuel (items ++ [v]) rest
          | ']' :: rest => some (Value.array (items ++ [v]), rest)
          | _ => none

def readMembers : Nat -> List (JsString × Value) -> List Char -> Option (Value × List Char)
  | 0, _, _ => none
  | fuel + 1, members, text =>
      match skip text with
      | '"' :: text =>
          match readString text with
          | none => none
          | some (name, text) =>
              match skip text with
              | ':' :: text =>
                  match readValue fuel text with
                  | none => none
                  | some (v, text) =>
                      match skip text with
                      | ',' :: rest => readMembers fuel (assign name v members) rest
                      | '}' :: rest => some (Value.object (assign name v members), rest)
                      | _ => none
              | _ => none
      | _ => none

end

/-- `JSON.parse`, which throws on anything that is not JSON.  A bracket costs two steps at
most, so the fuel suffices. -/
def parse (text : List Char) : Option Value :=
  match readValue numerals (2 * text.length + 2) text with
  | some (v, rest) => if skip rest = [] then some v else none
  | none => none

end Parse

/-!
# Strings read back
-/

theorem hexValue_hexDigit : forall d, d < 16 -> hexValue (hexDigit d) = some d := by
  decide

theorem scanString_hexDigit {d : Nat} (h : d < 16) (left value : Nat) (text : List Char) :
    scanString (Scan.hex (left + 1) value) (hexDigit d :: text) =
      scanString (Scan.hex left (value * 16 + d)) text := by
  simp only [scanString, hexValue_hexDigit d h]

theorem scanString_lastDigit {d : Nat} (h : d < 16) (value : Nat) (text : List Char) :
    scanString (Scan.hex 0 value) (hexDigit d :: text) =
      before (some [UInt16.ofNat (value * 16 + d)]) (readString text) := by
  simp only [scanString, hexValue_hexDigit d h, readString]

theorem readString_unicodeEscape (u : UInt16) (text : List Char) :
    readString (unicodeEscape u ++ text) = before (some [u]) (readString text) := by
  have hsize := u.toNat_lt
  have hsum : (((0 * 16 + u.toNat / 4096) * 16 + u.toNat / 256 % 16) * 16 +
      u.toNat / 16 % 16) * 16 + u.toNat % 16 = u.toNat := by omega
  simp only [unicodeEscape, List.cons_append, List.nil_append]
  rw [readString, scanString, if_neg (by decide), if_pos rfl, scanString, if_pos rfl,
    scanString_hexDigit (by omega), scanString_hexDigit (by omega),
    scanString_hexDigit (by omega), scanString_lastDigit (by omega), hsum,
    UInt16.ofNat_toNat]

theorem unescape_shortEscape {c e : Char} (h : shortEscape c = some e) :
    e ≠ 'u' ∧ unescape e = some (units c) := by
  rw [shortEscape] at h
  split_ifs at h
  all_goals
    cases h
    subst_vars
    decide

theorem ne_of_shortEscape_eq_none {c : Char} (h : shortEscape c = none) :
    c ≠ '"' ∧ c ≠ '\\' := by
  constructor
  · intro hc
    subst hc
    exact nomatch h
  · intro hc
    subst hc
    exact nomatch h

theorem readString_quotePoint (p : CodePoint) (text : List Char) :
    readString (quotePoint p ++ text) = before (some (pointUnits p)) (readString text) := by
  cases p with
  | inr u => exact readString_unicodeEscape u text
  | inl c =>
      rw [quotePoint, pointUnits]
      cases hshort : shortEscape c with
      | some e =>
          have hback := unescape_shortEscape hshort
          dsimp only
          rw [List.cons_append, List.singleton_append, readString, scanString,
            if_neg (by decide), if_pos rfl, scanString, if_neg hback.1, hback.2]
          rfl
      | none =>
          have hplain := ne_of_shortEscape_eq_none hshort
          dsimp only
          split
          case isTrue hcontrol =>
            have hunits : units c = [UInt16.ofNat c.toNat] := by
              rw [units, if_pos (by omega)]
            rw [readString_unicodeEscape, hunits]
          case isFalse hcontrol =>
            rw [List.singleton_append, readString, scanString, if_neg hplain.1,
              if_neg hplain.2, if_neg hcontrol]
            rfl

theorem readString_quotePoints (points : List CodePoint) (text : List Char) :
    readString (points.flatMap quotePoint ++ '"' :: text) =
      some (points.flatMap pointUnits, text) := by
  induction points with
  | nil => rfl
  | cons p points ih =>
      rw [List.flatMap_cons, List.append_assoc, readString_quotePoint, ih]
      rfl

theorem readString_quote (s : JsString) (text : List Char) :
    exists body, quote s ++ text = '"' :: body ∧ readString body = some (s, text) := by
  refine ⟨(codePoints s).flatMap quotePoint ++ '"' :: text, ?_, ?_⟩
  · rw [quote, List.cons_append, List.append_assoc]
    rfl
  · rw [readString_quotePoints, flatMap_codePoints]

theorem quote_append_inj {s s' : JsString} {text text' : List Char}
    (h : quote s ++ text = quote s' ++ text') : s = s' ∧ text = text' := by
  rcases readString_quote s text with ⟨body, hbody, hread⟩
  rcases readString_quote s' text' with ⟨body', hbody', hread'⟩
  rw [hbody, hbody'] at h
  rw [(List.cons.inj h).2, hread'] at hread
  have hpair := Option.some.inj hread
  exact ⟨(congrArg Prod.fst hpair).symm, (congrArg Prod.snd hpair).symm⟩

theorem eq_string_of_stringify {numerals : Numerals} {v : Value} {s : JsString}
    {text text' : List Char} (h : stringify numerals v ++ text = quote s ++ text') :
    v = Value.string s ∧ text = text' := by
  cases v with
  | string s' =>
      have hsame := quote_append_inj h
      exact ⟨congrArg Value.string hsame.1, hsame.2⟩
  | null | array items | object members => exact nomatch (List.cons.inj h).1
  | bool b => cases b <;> exact nomatch (List.cons.inj h).1
  | number n =>
      cases n with
      | infinite negative => exact nomatch (List.cons.inj h).1
      | finite value =>
          rcases numerals.write_head value with ⟨c, rest, hwrite, hc⟩
          change numerals.write value ++ text = _ at h
          rw [hwrite] at h
          rw [(List.cons.inj h).1] at hc
          exact absurd hc (by decide)

/-!
# Objects compared by their texts
-/

/-- What follows the first member of an object. -/
def tailText (numerals : Numerals) (members : List (JsString × Value)) : List Char :=
  members.flatMap (fun member => ',' :: (quote member.1 ++ ':' :: stringify numerals member.2)) ++
    ['}']

theorem tailText_cons (numerals : Numerals) (name : JsString) (v : Value)
    (rest : List (JsString × Value)) :
    tailText numerals ((name, v) :: rest) =
      ',' :: (quote name ++ ':' :: (stringify numerals v ++ tailText numerals rest)) := by
  simp only [tailText, List.flatMap_cons, List.cons_append, List.append_assoc]

theorem stringify_object (numerals : Numerals) (name : JsString) (v : Value)
    (rest : List (JsString × Value)) :
    stringify numerals (Value.object ((name, v) :: rest)) =
      '{' :: (quote name ++ ':' :: (stringify numerals v ++ tailText numerals rest)) := by
  rw [stringify]
  congr 1
  induction rest generalizing name v with
  | nil =>
      simp only [memberTexts, List.intercalate_singleton, tailText, List.flatMap_nil,
        List.append_assoc, List.cons_append, List.nil_append]
  | cons second rest ih =>
      have hrest := ih second.1 second.2
      rw [memberTexts, memberTexts, List.intercalate_cons_cons, <- memberTexts, tailText_cons,
        <- hrest]
      simp only [List.append_assoc, List.cons_append, List.nil_append]

theorem quote_colon_inj {name name' : JsString} {text text' : List Char}
    (h : quote name ++ ':' :: text = quote name' ++ ':' :: text') :
    name = name' ∧ text = text' := by
  rcases quote_append_inj h with ⟨hname, htext⟩
  exact ⟨hname, (List.cons.inj htext).2⟩

theorem tailText_string_inj {numerals : Numerals} {name name' : JsString} {v : Value}
    {s : JsString} {rest rest' : List (JsString × Value)}
    (h : tailText numerals ((name, v) :: rest) =
      tailText numerals ((name', Value.string s) :: rest')) :
    name = name' ∧ v = Value.string s ∧ tailText numerals rest = tailText numerals rest' := by
  rw [tailText_cons, tailText_cons] at h
  rcases quote_colon_inj (List.cons.inj h).2 with ⟨hname, hvalues⟩
  rcases eq_string_of_stringify hvalues with ⟨hv, hrest⟩
  exact ⟨hname, hv, hrest⟩

theorem tailText_name_inj {numerals : Numerals} {name name' : JsString} {v v' : Value}
    {rest rest' : List (JsString × Value)}
    (h : tailText numerals ((name, v) :: rest) = tailText numerals ((name', v') :: rest')) :
    name = name' := by
  rw [tailText_cons, tailText_cons] at h
  exact (quote_colon_inj (List.cons.inj h).2).1

/-!
# Objects read back

The objects that the sources exchange are flat: strings, `null` and small numbers under
names that are no array indices.
-/

def Delimits (text : List Char) : Prop :=
  exists rest, text = ',' :: rest ∨ text = '}' :: rest

/-- A value that is read back from its text, whatever member or end follows. -/
def ReadsBack (numerals : Numerals) (v : Value) : Prop :=
  forall fuel text, Delimits text ->
    readValue numerals (fuel + 1) (stringify numerals v ++ text) = some (v, text)

theorem skip_cons {c : Char} (h : isSpace c = false) (text : List Char) :
    skip (c :: text) = c :: text := by
  rw [skip, List.dropWhile_cons, h]
  rfl

theorem skip_quote (s : JsString) (text : List Char) : skip (quote s ++ text) = quote s ++ text :=
  skip_cons rfl _

theorem readsBack_string (numerals : Numerals) (s : JsString) :
    ReadsBack numerals (Value.string s) := by
  intro fuel text _
  rcases readString_quote s text with ⟨body, hbody, hread⟩
  rw [readValue, stringify, skip_quote, hbody]
  dsimp only
  rw [if_pos rfl, hread]
  rfl

theorem readsBack_null (numerals : Numerals) : ReadsBack numerals Value.null := by
  intro fuel text _
  rw [readValue, stringify, List.cons_append, skip_cons rfl]
  rfl

theorem readNumber_digit {d : Nat} (h : d < 10) {text : List Char} (htext : Delimits text) :
    readNumber (digit d :: text) = some ([digit d], text) := by
  rcases htext with ⟨rest, rfl | rfl⟩
  · interval_cases d <;> rfl
  · interval_cases d <;> rfl

theorem digit_plain : forall d, d < 10 ->
    isSpace (digit d) = false ∧ digit d ≠ '"' ∧ digit d ≠ '{' ∧ digit d ≠ '[' ∧
      digit d ≠ 'n' ∧ digit d ≠ 't' ∧ digit d ≠ 'f' := by
  decide

theorem readsBack_digit (numerals : Numerals) {d : Nat} (h : d < 10) :
    ReadsBack numerals (Value.number (Number.finite d)) := by
  intro fuel text htext
  rcases digit_plain d h with ⟨hspace, hquote, hbrace, hbracket, hn, ht, hf⟩
  rw [readValue, stringify, writeNumber, numerals.write_digit d h, List.singleton_append,
    skip_cons hspace]
  dsimp only
  rw [if_neg hquote, if_neg hbrace, if_neg hbracket, if_neg hn, if_neg ht, if_neg hf,
    readNumber_digit h htext]
  exact congrArg (fun n => some (Value.number n, text)) (numerals.read_digit d h)

theorem assign_of_notMem {name : JsString} {members : List (JsString × Value)} (v : Value)
    (hplain : arrayIndex? name = none) (hfresh : name ∉ members.map Prod.fst) :
    assign name v members = members ++ [(name, v)] := by
  induction members with
  | nil => rfl
  | cons member rest ih =>
      rw [List.map_cons, List.mem_cons, not_or] at hfresh
      have hprecedes : precedes name member.1 = false := by
        rw [precedes, hplain]
      rw [assign, if_neg (fun hsame => hfresh.1 hsame.symm), hprecedes, ih hfresh.2]
      rfl

theorem assign_of_nodup {name : JsString} {v : Value} {members rest : List (JsString × Value)}
    (hplain : arrayIndex? name = none)
    (hfresh : ((members ++ (name, v) :: rest).map Prod.fst).Nodup) :
    assign name v members = members ++ [(name, v)] := by
  apply assign_of_notMem v hplain
  intro hmem
  rw [List.map_append, List.nodup_append] at hfresh
  exact hfresh.2.2 name hmem name List.mem_cons_self rfl

theorem readMembers_member {numerals : Numerals} (fuel : Nat) (name : JsString) {v : Value}
    (members : List (JsString × Value)) (text : List Char) (hv : ReadsBack numerals v)
    (htext : Delimits text) :
    readMembers numerals (fuel + 2) members
        (quote name ++ ':' :: (stringify numerals v ++ text)) =
      match skip text with
      | ',' :: rest => readMembers numerals (fuel + 1) (assign name v members) rest
      | '}' :: rest => some (Value.object (assign name v members), rest)
      | _ => none := by
  rcases readString_quote name (':' :: (stringify numerals v ++ text)) with
    ⟨body, hbody, hread⟩
  rw [readMembers, skip_quote, hbody]
  simp only [hread, skip_cons (show isSpace ':' = false from rfl), hv fuel text htext]

theorem readMembers_texts {numerals : Numerals} (fuel : Nat)
    (members : List (JsString × Value)) (text : List Char) {first : JsString × Value}
    {rest : List (JsString × Value)}
    (hvalues : forall member, member ∈ first :: rest -> ReadsBack numerals member.2)
    (hplain : forall member, member ∈ first :: rest -> arrayIndex? member.1 = none)
    (hfresh : ((members ++ first :: rest).map Prod.fst).Nodup) :
    readMembers numerals (fuel + rest.length + 2) members
        ([','].intercalate (memberTexts numerals (first :: rest)) ++ '}' :: text) =
      some (Value.object (members ++ first :: rest), text) := by
  induction rest generalizing first members with
  | nil =>
      have hread := readMembers_member fuel first.1 members ('}' :: text)
        (hvalues first List.mem_cons_self) ⟨text, Or.inr rfl⟩
      rw [skip_cons rfl, assign_of_nodup (hplain first List.mem_cons_self) hfresh] at hread
      rw [memberTexts, memberTexts, List.intercalate_singleton, List.append_assoc]
      exact hread
  | cons second rest ih =>
      have hread := readMembers_member (fuel + rest.length + 1) first.1 members
        (',' :: ([','].intercalate (memberTexts numerals (second :: rest)) ++ '}' :: text))
        (hvalues first List.mem_cons_self) ⟨_, Or.inl rfl⟩
      rw [skip_cons rfl, assign_of_nodup (hplain first List.mem_cons_self) hfresh] at hread
      have hrest := ih (members ++ [first])
        (List.forall_mem_cons.mp hvalues).2
        (List.forall_mem_cons.mp hplain).2
        (by rw [List.append_assoc]; exact hfresh)
      rw [List.append_assoc] at hrest
      rw [memberTexts, memberTexts, List.intercalate_cons_cons, <- memberTexts]
      simp only [List.append_assoc, List.cons_append]
      exact hread.trans hrest

theorem length_memberTexts (numerals : Numerals) (members : List (JsString × Value)) :
    members.length <= ([','].intercalate (memberTexts numerals members)).length := by
  induction members with
  | nil => exact Nat.zero_le _
  | cons first rest ih =>
      cases rest with
      | nil =>
          rw [memberTexts, memberTexts, List.intercalate_singleton, quote]
          simp
      | cons second rest =>
          rw [memberTexts, memberTexts, List.intercalate_cons_cons, <- memberTexts]
          change (second :: rest).length <=
            ([','].intercalate (memberTexts numerals ((second.1, second.2) :: rest))).length at ih
          simp only [List.length_append, List.length_cons] at ih ⊢
          omega

theorem memberTexts_head (numerals : Numerals) (first : JsString × Value)
    (rest : List (JsString × Value)) (text : List Char) :
    exists body, [','].intercalate (memberTexts numerals (first :: rest)) ++ text =
      '"' :: body := by
  cases rest with
  | nil =>
      rw [memberTexts, memberTexts, List.intercalate_singleton]
      exact ⟨_, rfl⟩
  | cons second rest =>
      rw [memberTexts, memberTexts, List.intercalate_cons_cons]
      exact ⟨_, rfl⟩

theorem parse_stringify {numerals : Numerals} {members : List (JsString × Value)}
    (hvalues : forall member, member ∈ members -> ReadsBack numerals member.2)
    (hplain : forall member, member ∈ members -> arrayIndex? member.1 = none)
    (hfresh : (members.map Prod.fst).Nodup) :
    parse numerals (stringify numerals (Value.object members)) = some (Value.object members) := by
  cases members with
  | nil => rfl
  | cons first rest =>
      have hlength := length_memberTexts numerals (first :: rest)
      rcases memberTexts_head numerals first rest ['}'] with ⟨body, hbody⟩
      rw [parse, stringify, hbody, readValue, skip_cons rfl]
      dsimp only
      rw [if_neg (by decide), if_pos rfl, skip_cons rfl]
      have hfuel : exists fuel, 2 * ('{' :: '"' :: body).length + 1 = fuel + rest.length + 2 := by
        have hsize := congrArg List.length hbody
        simp only [List.length_append, List.length_cons] at hlength hsize ⊢
        exact ⟨2 * (body.length + 2) - 1 - rest.length, by omega⟩
      rcases hfuel with ⟨fuel, hfuel⟩
      have hread := readMembers_texts fuel [] [] hvalues hplain hfresh
      rw [hbody, <- hfuel] at hread
      change (match readMembers numerals (2 * ('{' :: '"' :: body).length + 1) []
          ('"' :: body) with
        | some (v, rest) => if skip rest = [] then some v else none
        | none => none) = _
      rw [hread]
      rfl

/-!
# Whole numbers

Up to 2^53 the language reads and writes whole numbers exactly, in plain decimal.
-/

def writeWhole (q : Rat) : List Char :=
  if q.num < 0 then '-' :: Nat.toDigits 10 q.num.natAbs else Nat.toDigits 10 q.num.natAbs

def wholeValue (digits : List Char) : Nat :=
  digits.foldl (fun n c => n * 10 + (c.toNat - 0x30)) 0

def readWhole : List Char -> Number
  | '-' :: digits => Number.finite (-wholeValue digits)
  | digits => Number.finite (wholeValue digits)

def wholeNumerals : Numerals where
  read := readWhole
  write := writeWhole
  read_digit := by
    intro d h
    interval_cases d <;> rfl
  write_digit := by
    intro d h
    interval_cases d <;> rfl
  write_head := by
    intro q
    rw [writeWhole]
    split
    · exact ⟨_, _, rfl, Or.inl rfl⟩
    · cases hdigits : Nat.toDigits 10 q.num.natAbs with
      | nil => exact absurd hdigits Nat.toDigits_ne_nil
      | cons c rest =>
          have hmem : c ∈ Nat.toDigits 10 q.num.natAbs := by
            rw [hdigits]
            exact List.mem_cons_self
          exact ⟨c, rest, rfl,
            Or.inr (Nat.isDigit_of_mem_toDigits (by decide) (by decide) hmem)⟩

end Json
end Foundation
end Ephor
