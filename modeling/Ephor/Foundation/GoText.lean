import Ephor.Foundation.Text

/-!
# Go strings

A Go string is a string of bytes that need not be UTF-8.  The functions of the package
`strings` that look at characters read every byte that starts no character as U+FFFD.
Lower case outside ASCII is a table of Unicode, which `lowerRune` stands for.
-/

namespace Ephor
namespace Foundation
namespace GoText

def lit (text : String) : Bytes :=
  Text.utf8 text.toList

/-- The characters that `range` yields, at most `fuel` of them. -/
def runesWithin : Nat -> Bytes -> List Char
  | 0, _ => []
  | _ + 1, [] => []
  | fuel + 1, b =>
      match Text.firstChar b with
      | some c => c :: runesWithin fuel (b.drop c.utf8Size)
      | none => Text.replacement :: runesWithin fuel (b.drop 1)

def runes (s : Bytes) : List Char :=
  runesWithin s.length s

def lowerByte (c : UInt8) : UInt8 :=
  if 0x41 <= c && c <= 0x5A then c + 0x20 else c

def upperByte (c : UInt8) : UInt8 :=
  if 0x61 <= c && c <= 0x7A then c - 0x20 else c

def toLower (lowerRune : Char -> Char) (s : Bytes) : Bytes :=
  if s.all fun c => c < 0x80 then
    s.map lowerByte
  else
    Text.utf8 ((runes s).map lowerRune)

/-- How many bytes the white space takes that the bytes start with. -/
def spaceLength (b : Bytes) : Nat :=
  match Text.firstChar b with
  | some c => if Text.isWhiteSpace c then c.utf8Size else 0
  | none => 0

/-- How many bytes the white space takes that the bytes end with; no white space is
longer than three bytes. -/
def endSpaceLength (b : Bytes) : Nat :=
  ([1, 2, 3].find? fun k => k <= b.length && spaceLength (b.drop (b.length - k)) == k).getD 0

def trimStart : Nat -> Bytes -> Bytes
  | 0, b => b
  | fuel + 1, b =>
      if spaceLength b = 0 then b else trimStart fuel (b.drop (spaceLength b))

def trimEnd : Nat -> Bytes -> Bytes
  | 0, b => b
  | fuel + 1, b =>
      if endSpaceLength b = 0 then b
      else trimEnd fuel (b.take (b.length - endSpaceLength b))

def trimSpace (s : Bytes) : Bytes :=
  trimEnd s.length (trimStart s.length s)

def trimSuffix (s ending : Bytes) : Bytes :=
  if ending.isSuffixOf s then s.take (s.length - ending.length) else s

/-- The lower case of a character among those that fold to an ASCII letter: next to its
capital, `s` has the long s and `k` the Kelvin sign. -/
def foldRune (c : Char) : Char :=
  if c = '\u017F' then 's' else if c = '\u212A' then 'k' else c.toLower

/-- `strings.EqualFold` with a word of lower-case ASCII letters. -/
def equalFoldWord (s : Bytes) (word : List Char) : Bool :=
  (runes s).map foldRune == word

/-- Where `c` stands last. -/
def lastIndexByte (s : Bytes) (c : UInt8) : Option Nat :=
  (s.reverse.idxOf? c).map fun i => s.length - 1 - i

/-- `net.SplitHostPort`, without the texts of its errors: the host and the port. -/
def splitHostPort (s : Bytes) : Option (Bytes × Bytes) := do
  -- The port follows the last colon.
  let i <- lastIndexByte s 0x3A
  let port := s.drop (i + 1)
  if s.head? = some 0x5B then
    -- A host in brackets: the first closing one stands right before that colon.
    let close <- s.idxOf? 0x5D
    if close + 1 ≠ i then none
    else if 0x5B ∈ s.drop 1 || 0x5D ∈ s.drop (close + 1) then none
    else some ((s.take close).drop 1, port)
  else if 0x3A ∈ s.take i then none
  else if 0x5B ∈ s || 0x5D ∈ s then none
  else some (s.take i, port)

end GoText
end Foundation
end Ephor
