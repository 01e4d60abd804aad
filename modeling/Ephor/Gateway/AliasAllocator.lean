import Ephor.Foundation.FiniteMap
import Ephor.Gateway.Inbound

/-!
# Aliases

The two stores of alternative addresses on a domain: `AliasAllocator` of
`pier-gateway/src/authz.rs`, with chosen names and names that are derived from a key, and
`GatewayAliasMap` of `pier-gateway/src/alias_map.rs`, with random tokens.  The digest behind a
derived name is a parameter, and so are the tokens that are drawn.
-/

namespace Ephor
namespace Gateway

open Foundation
open Foundation.Text

/-!
# Base 32
-/

def base32Lower : List Char :=
  "abcdefghijklmnopqrstuvwxyz234567".toList

def base32Letter (value : Nat) : Char :=
  base32Lower.getD (value % 32) 'a'

/-- What the bits so far and their number become with the next byte; whole groups of five are
written. -/
def base32Byte (state : Nat × Nat × List Char) (b : UInt8) : Nat × Nat × List Char :=
  let bits := (state.1 * 256 + b.toNat) % 2 ^ 32
  let nbits := state.2.1 + 8
  (bits, nbits % 5, state.2.2 ++
    (List.range (nbits / 5)).map fun i => base32Letter (bits / 2 ^ (nbits - 5 * (i + 1))))

def encodeBase32Lower (input : Bytes) : Str :=
  let (bits, nbits, out) := input.foldl base32Byte (0, 0, [])
  if 0 < nbits then out ++ [base32Letter (bits * 2 ^ (5 - nbits))] else out

theorem base32Letter_mem (value : Nat) : base32Letter value ∈ base32Lower := by
  have hletters : forall v, v < 32 -> base32Lower.getD v 'a' ∈ base32Lower := by decide
  exact hletters (value % 32) (Nat.mod_lt value (by decide))

theorem mem_encodeBase32Lower {input : Bytes} {c : Char} (h : c ∈ encodeBase32Lower input) :
    c ∈ base32Lower := by
  have hfold : forall (bytes : Bytes) (state : Nat × Nat × List Char),
      (forall x, x ∈ state.2.2 -> x ∈ base32Lower) ->
      forall x, x ∈ (bytes.foldl base32Byte state).2.2 -> x ∈ base32Lower := by
    intro bytes
    induction bytes with
    | nil => exact fun state hstate => hstate
    | cons b bytes ih =>
        intro state hstate
        apply ih
        intro x hx
        rcases List.mem_append.mp hx with hx | hx
        · exact hstate x hx
        · rcases List.mem_map.mp hx with ⟨i, -, hi⟩
          rw [<- hi]
          exact base32Letter_mem _
  have hletters := hfold input (0, 0, []) (fun x hx => absurd hx List.not_mem_nil)
  rw [encodeBase32Lower] at h
  dsimp only at h
  split at h
  · rcases List.mem_append.mp h with h | h
    · exact hletters c h
    · rw [List.mem_singleton.mp h]
      exact base32Letter_mem _
  · exact hletters c h

/-!
# Chosen and derived names
-/

inductive AliasError where
  | invalidLocalPart (name : Str)
  | containsDot (name : Str)
  | taken (name : Str)
  | reservedCollision (name : Str)
  | shadowsDirectoryIdentity (name : Str)
  | invalidGatewayDomain (domain : Str)
deriving DecidableEq

structure AliasAllocator where
  domain : Str
  vanity : FiniteMap Str Bytes
  reverse : List (Bytes × Str)
  reserved : Finset Str
deriving DecidableEq

def reservedAliasPrefix : Str :=
  "dmtap1-".toList

def maxVanityLen : Nat := 64

def isKeyDerivedForm (name : Str) : Bool :=
  match stripPrefix ['k'] name with
  | some rest => (utf8 rest).length == 16 && rest.all base32Lower.contains
  | none => false

def isValidVanityCharset (name : Str) : Bool :=
  !(name.isEmpty || maxVanityLen < (utf8 name).length) &&
    name.all fun c => c.isAlphanum || c == '-' || c == '_' || c == '+'

def isValidDnsLabel (label : Str) : Bool :=
  !(label.isEmpty || 63 < (utf8 label).length) &&
    !(label.head? == some '-' || label.getLast? == some '-') &&
    label.all fun c => c.isAlphanum || c == '-'

def isValidDnsDomain (domain : Str) : Bool :=
  !(domain.isEmpty || 253 < (utf8 domain).length) && (domain.splitOn '.').all isValidDnsLabel

def keyDerivedLocalpart (contentDigest : Bytes -> FixedBytes 32) (publicKey : Bytes) : Str :=
  'k' :: encodeBase32Lower ((contentDigest publicKey).toBytes.take 10)

namespace AliasAllocator

def forDomain (domain : Str) : Except AliasError AliasAllocator :=
  let d := lower (trim domain)
  if isValidDnsDomain d then
    Except.ok { domain := d, vanity := ∅, reverse := [], reserved := ∅ }
  else
    Except.error (AliasError.invalidGatewayDomain domain)

variable (a : AliasAllocator)

def qualify (name : Str) : Str :=
  name ++ '@' :: a.domain

def reserveLocalpart (name : Str) : AliasAllocator :=
  let lp := lower (trim name)
  { a with
    vanity := a.vanity.erase lp
    reverse := a.reverse.filter fun held => held.2 != lp
    reserved := insert lp a.reserved }

def reserveDirectoryAddress (email : Str) : AliasAllocator :=
  match rsplitOnce '@' email with
  | some (lp, dom) => if eqIgnoreCase (trim dom) a.domain then a.reserveLocalpart lp else a
  | none => a

def checkVanity (name : Str) : Except AliasError Str :=
  let lp := lower name
  if name.contains '.' then Except.error (AliasError.containsDot name)
  else if !isValidVanityCharset lp then Except.error (AliasError.invalidLocalPart name)
  else if reservedAliasPrefix.isPrefixOf lp || isKeyDerivedForm lp then
    Except.error (AliasError.reservedCollision name)
  else if lp ∈ a.reserved then Except.error (AliasError.shadowsDirectoryIdentity name)
  else Except.ok lp

/-- The key's first name, which it gives up. -/
def dropName (publicKey : Bytes) : AliasAllocator :=
  match a.reverse.find? fun held => held.1 == publicKey with
  | some held =>
      { a with
        reverse := a.reverse.eraseIdx (a.reverse.findIdx fun held => held.1 == publicKey)
        vanity := a.vanity.erase held.2 }
  | none => a

def allocateVanity (publicKey : Bytes) (name : Str) : Except AliasError Str × AliasAllocator :=
  match a.checkVanity name with
  | Except.error e => (Except.error e, a)
  | Except.ok lp =>
      match a.vanity.lookup lp with
      | some existing =>
          if existing = publicKey then (Except.ok (a.qualify lp), a)
          else (Except.error (AliasError.taken name), a)
      | none =>
          let a := a.dropName publicKey
          let a := { a with vanity := a.vanity.insert lp publicKey }
          let a := { a with reverse := a.reverse ++ [(publicKey, lp)] }
          (Except.ok (a.qualify lp), a)

def releaseVanity (publicKey : Bytes) : Option Str × AliasAllocator :=
  ((a.reverse.find? fun held => held.1 == publicKey).map fun held => a.qualify held.2,
    a.dropName publicKey)

/-- `resolve`: chosen names first, then the name of one of the registered keys. -/
def resolve (contentDigest : Bytes -> FixedBytes 32) (address : Str)
    (registeredKeys : List Bytes) : Option Bytes :=
  match rsplitOnce '@' (lower (trim address)) with
  | none => none
  | some (lp, dom) =>
      if dom = a.domain then
        (a.vanity.lookup lp).or
          (registeredKeys.find? fun k => keyDerivedLocalpart contentDigest k == lp)
      else
        none

end AliasAllocator

/-!
# Random tokens
-/

inductive AliasTarget where
  | native (localPart domain : Str)
  | identity (publicKey : Bytes)
deriving DecidableEq

structure AliasRow where
  target : AliasTarget
  correspondent : Option Str
  expiresAtMs : Option Nat
  oneTime : Bool
  burned : Bool
deriving DecidableEq

def AliasRow.isExpired (row : AliasRow) (nowMs : Nat) : Bool :=
  match row.expiresAtMs with
  | some expires => expires <= nowMs
  | none => false

def AliasRow.live (row : AliasRow) (nowMs : Nat) : Bool :=
  !(row.burned || row.isExpired nowMs)

abbrev GatewayAliasMap : Type :=
  FiniteMap Str AliasRow

namespace GatewayAliasMap

/-- `mint_row` with the bytes that are drawn: the first token that is not in use is taken, and as
long as there is none the drawing goes on. -/
def mintRow (rows : GatewayAliasMap) (row : AliasRow) (draws : List Bytes) :
    Option (Str × GatewayAliasMap) :=
  ((draws.map encodeBase32Lower).find? fun token => (rows.lookup token).isNone).map fun token =>
    (token, rows.insert token row)

def mintWith (rows : GatewayAliasMap) (target : AliasTarget) (correspondent : Option Str)
    (ttlMs : Option Nat) (oneTime : Bool) (nowMs : Nat) (draws : List Bytes) :
    Option (Str × GatewayAliasMap) :=
  mintRow rows
    { target := target
      correspondent := correspondent
      expiresAtMs := ttlMs.map fun ttl => min (nowMs + ttl) (2 ^ 64 - 1)
      oneTime := oneTime
      burned := false } draws

/-- `resolve`: a row that is missing, expired or burned is unmapped. -/
def resolve (rows : GatewayAliasMap) (token : Str) (nowMs : Nat) :
    Option AliasTarget × GatewayAliasMap :=
  match rows.lookup token with
  | none => (none, rows)
  | some row =>
      if row.live nowMs then
        (some row.target,
          if row.oneTime then rows.insert token { row with burned := true } else rows)
      else
        (none, rows)

def burn (rows : GatewayAliasMap) (token : Str) : Bool × GatewayAliasMap :=
  match rows.lookup token with
  | some row => (true, rows.insert token { row with burned := true })
  | none => (false, rows)

end GatewayAliasMap

end Gateway
end Ephor
