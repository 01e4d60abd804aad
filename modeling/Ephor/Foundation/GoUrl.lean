import Mathlib.Data.List.TakeWhile
import Ephor.Foundation.Bytes

/-!
# URLs of Go

What `net/url` does with the path and the query of a URL.  The path is kept unescaped;
rendering escapes every byte that may not stand in a path, the question mark among them.
-/

namespace Ephor
namespace Foundation
namespace GoUrl

/-!
# Escapes
-/

def shouldEscape (c : UInt8) : Bool :=
  if (0x61 <= c && c <= 0x7A) || (0x41 <= c && c <= 0x5A) || (0x30 <= c && c <= 0x39) then
    false
  -- - _ . ~
  else if c ∈ [0x2D, 0x5F, 0x2E, 0x7E] then
    false
  -- $ & + , / : ; = ? @
  else if c ∈ [0x24, 0x26, 0x2B, 0x2C, 0x2F, 0x3A, 0x3B, 0x3D, 0x3F, 0x40] then
    c == 0x3F
  else
    true

def upperHex (n : UInt8) : UInt8 :=
  if n < 10 then 0x30 + n else 0x41 + (n - 10)

def unhex (c : UInt8) : Option UInt8 :=
  if 0x30 <= c && c <= 0x39 then some (c - 0x30)
  else if 0x61 <= c && c <= 0x66 then some (c - 0x61 + 10)
  else if 0x41 <= c && c <= 0x46 then some (c - 0x41 + 10)
  else none

def escapeByte (c : UInt8) : Bytes :=
  if shouldEscape c then [0x25, upperHex (c >>> 4), upperHex (c &&& 15)] else [c]

def escape (s : Bytes) : Bytes :=
  s.flatMap escapeByte

/-- `unescape` of a path, or of a part of a query, in which a plus sign is a space. -/
def unescape (query : Bool) : Bytes -> Option Bytes
  | [] => some []
  | c :: rest =>
      if c = 0x25 then
        match rest with
        | hi :: lo :: rest => do
            let h <- unhex hi
            let l <- unhex lo
            let s <- unescape query rest
            some ((h <<< 4 ||| l) :: s)
        | _ => none
      else
        (unescape query rest).map (List.cons (if query && c == 0x2B then 0x20 else c))

def validEncoded (s : Bytes) : Bool :=
  s.all fun c =>
    -- ! $ & ' ( ) * + , ; = : @ [ ] %
    c ∈ [0x21, 0x24, 0x26, 0x27, 0x28, 0x29, 0x2A, 0x2B, 0x2C, 0x3B, 0x3D, 0x3A, 0x40, 0x5B,
      0x5D, 0x25] || !shouldEscape c

/-!
# URLs
-/

structure Url where
  scheme : Bytes
  host : Bytes
  path : Bytes
  rawPath : Bytes
  forceQuery : Bool
deriving DecidableEq

/-- `setPath`: the path and the raw path of a path as it is written. -/
def setPath (p : Bytes) : Option (Bytes × Bytes) := do
  let path <- unescape false p
  return (path, if p = escape path then [] else p)

def escapedPath (u : Url) : Bytes :=
  if u.rawPath ≠ [] ∧ validEncoded u.rawPath = true ∧
      unescape false u.rawPath = some u.path then
    u.rawPath
  else if u.path = [0x2A] then
    [0x2A]
  else
    escape u.path

/-- What `String` renders after the host: the request target of the URL. -/
def target (u : Url) : Bytes :=
  escapedPath u ++ if u.forceQuery then [0x3F] else []

/-!
# Queries
-/

/-- `url.Values`: the values of a key are those that stand with it, in their order. -/
abbrev Values := List (Bytes × Bytes)

def get (q : Values) (key : Bytes) : Bytes :=
  ((q.find? fun entry => entry.1 == key).map Prod.snd).getD []

/-- `strings.Cut`: what stands before and after the first `c`. -/
def cut (c : UInt8) (s : Bytes) : Bytes × Bytes :=
  (s.takeWhile fun x => x != c, (s.dropWhile fun x => x != c).drop 1)

def parsePair (text : Bytes) : Option (Bytes × Bytes) :=
  if 0x3B ∈ text ∨ text = [] then
    none
  else do
    let key <- unescape true (cut 0x3D text).1
    let value <- unescape true (cut 0x3D text).2
    return (key, value)

/-- `ParseQuery`, for which a part that is not well formed is not there. -/
def parseQuery (query : Bytes) : Values :=
  (query.splitOn 0x26).filterMap parsePair

/-- The path and the query that a server reads in a request target. -/
def readTarget (text : Bytes) : Option (Bytes × Values) := do
  let path <- unescape false (cut 0x3F text).1
  return (path, parseQuery (cut 0x3F text).2)

/-!
# A rendered path is read back
-/

theorem forall_byte {p : UInt8 -> Prop} (h : forall n : Fin 256, p (UInt8.ofNat n.val))
    (c : UInt8) : p c := by
  have hc := h ⟨c.toNat, UInt8.toNat_lt c⟩
  rw [UInt8.ofNat_toNat] at hc
  exact hc

theorem unhex_upperHex (c : UInt8) : unhex (upperHex (c >>> 4)) = some (c >>> 4) ∧
    unhex (upperHex (c &&& 15)) = some (c &&& 15) ∧ (c >>> 4) <<< 4 ||| (c &&& 15) = c := by
  revert c
  apply forall_byte
  decide +kernel

theorem question_not_mem_escapeByte (c : UInt8) : 0x3F ∉ escapeByte c := by
  revert c
  apply forall_byte
  decide +kernel

theorem unescape_escapeByte (c : UInt8) (rest : Bytes) :
    unescape false (escapeByte c ++ rest) = (unescape false rest).map (List.cons c) := by
  unfold escapeByte
  split
  · rcases unhex_upperHex c with ⟨hhi, hlo, hboth⟩
    rw [List.cons_append, List.cons_append, List.cons_append, List.nil_append, unescape,
      if_pos rfl, hhi, hlo]
    simp only [Option.bind_eq_bind, Option.bind_some, hboth]
    cases unescape false rest with
    | none | some s => rfl
  · rename_i hplain
    have hpercent : c ≠ 0x25 := by
      intro heq
      rw [heq] at hplain
      exact hplain (by decide)
    rw [List.cons_append, List.nil_append, unescape.eq_def]
    dsimp only
    rw [if_neg hpercent]
    rfl

theorem unescape_escape (s : Bytes) : unescape false (escape s) = some s := by
  induction s with
  | nil => rfl
  | cons c s ih =>
      rw [escape, List.flatMap_cons, unescape_escapeByte, <- escape, ih]
      rfl

theorem question_not_mem_escape (s : Bytes) : 0x3F ∉ escape s := by
  intro h
  rcases List.mem_flatMap.mp h with ⟨c, _, hc⟩
  exact question_not_mem_escapeByte c hc

theorem bne_of_not_mem {c : UInt8} {s : Bytes} (h : c ∉ s) :
    forall x, x ∈ s -> (x != c) = true := by
  intro x hx
  rw [bne_iff_ne]
  intro heq
  rw [heq] at hx
  exact h hx

theorem cut_append {c : UInt8} {s : Bytes} (h : c ∉ s) (rest : Bytes) :
    cut c (s ++ c :: rest) = (s, rest) := by
  have hall := bne_of_not_mem h
  rw [cut, List.takeWhile_append_of_pos hall, List.dropWhile_append_of_pos hall]
  simp

theorem cut_of_not_mem {c : UInt8} {s : Bytes} (h : c ∉ s) : cut c s = (s, []) := by
  have hall := bne_of_not_mem h
  rw [cut, List.takeWhile_eq_self_iff.mpr hall, List.dropWhile_eq_nil_iff.mpr hall]
  rfl

theorem readTarget_escape (path : Bytes) (forceQuery : Bool) :
    readTarget (escape path ++ if forceQuery then [0x3F] else []) = some (path, []) := by
  have hcut : cut 0x3F (escape path ++ if forceQuery then [0x3F] else []) =
      (escape path, []) := by
    cases forceQuery with
    | false =>
        rw [if_neg Bool.false_ne_true, List.append_nil]
        exact cut_of_not_mem (question_not_mem_escape path)
    | true =>
        rw [if_pos rfl]
        exact cut_append (question_not_mem_escape path) []
  rw [readTarget, hcut, unescape_escape]
  rfl

end GoUrl
end Foundation
end Ephor
