import Ephor.Server.Proxy

/-!
# Token grants

`staticTokenStore` of `tunnel/server/auth.go` with the revoked list of `revocation.go`.  The
store is built from a list of grants.  A token and the token before it share one entry by
pointer; here the entries are numbered, and the map from the digest of a token gives the number.
-/

namespace Ephor
namespace Server
namespace StaticTokens

open Foundation

abbrev Digest := FixedBytes 32

/-- The functions of Go's library that the store calls. -/
structure Library where
  lowerRune : Char -> Char
  sum256 : Bytes -> Digest

structure Grant where
  token : Bytes
  names : List Bytes
  accountID : Bytes
  previousToken : Bytes
  expiresAt : Int
deriving DecidableEq

structure GrantEntry where
  names : Finset Bytes
  account : Bytes
  expiresAt : Int
deriving DecidableEq

def GrantEntry.expired (e : GrantEntry) (now : Int) : Bool :=
  e.expiresAt ≠ 0 && e.expiresAt < now

inductive BuildError where
  | emptyToken (i : Nat)
  | noNames (i : Nat)
  | conflictingAccount (i : Nat)
  | conflictingExpiry (i : Nat)
  | invalidName (i : Nat)
  | previousEqualsToken (i : Nat)
  | previousBound (i : Nat)
  | noGrants
deriving DecidableEq

/-!
## The revoked list
-/

structure RevokedSpec where
  tokens : List Bytes
  names : List Bytes
  accounts : List Bytes

structure RevokedList where
  tokenHashes : List Digest
  names : List Bytes
  accounts : List Bytes

variable (L : Library)

def newRevokedList (spec : RevokedSpec) : RevokedList where
  tokenHashes := ((spec.tokens.map GoText.trimSpace).filter (· ≠ [])).map L.sum256
  names := (spec.names.map (Proxy.normalizeName L.lowerRune)).filter (· ≠ [])
  accounts := (spec.accounts.map GoText.trimSpace).filter (· ≠ [])

def RevokedList.isRevoked (r : RevokedList) (token name account : Bytes) : Bool :=
  let norm := Proxy.normalizeName L.lowerRune name
  let tok := GoText.trimSpace token
  (account ≠ [] && account ∈ r.accounts) || (norm ≠ [] && norm ∈ r.names) ||
    (tok ≠ [] && L.sum256 tok ∈ r.tokenHashes)

/-!
## Building the store
-/

def Grant.tok (g : Grant) : Bytes :=
  GoText.trimSpace g.token

def Grant.prev (g : Grant) : Bytes :=
  GoText.trimSpace g.previousToken

def Grant.account (g : Grant) : Bytes :=
  GoText.trimSpace g.accountID

/-- The store under construction; `next` is the number of the next entry. -/
structure Building where
  byHash : FiniteMap Digest Nat
  entries : Nat -> GrantEntry
  next : Nat

def Building.start : Building where
  byHash := ∅
  entries := fun _ => ⟨∅, [], 0⟩
  next := 0

def GrantEntry.bindAccount (i : Nat) (account : Bytes) (e : GrantEntry) :
    Except BuildError GrantEntry :=
  if account = [] then .ok e
  else if e.account ≠ [] ∧ e.account ≠ account then .error (.conflictingAccount i)
  else .ok { e with account := account }

def GrantEntry.bindExpiry (i : Nat) (expiresAt : Int) (e : GrantEntry) :
    Except BuildError GrantEntry :=
  if expiresAt = 0 then .ok e
  else if e.expiresAt ≠ 0 ∧ e.expiresAt ≠ expiresAt then .error (.conflictingExpiry i)
  else .ok { e with expiresAt := expiresAt }

def GrantEntry.addNames (i : Nat) : List Bytes -> GrantEntry -> Except BuildError GrantEntry
  | [], e => .ok e
  | name :: rest, e =>
      let norm := Proxy.normalizeName L.lowerRune name
      if norm = [] then .error (.invalidName i)
      else addNames i rest { e with names := insert norm e.names }

/-- The entry of the grant's token, with the account bound to it: a new one for a token that
has none. -/
def Building.openEntry (st : Building) (i : Nat) (g : Grant) :
    Except BuildError (Nat × GrantEntry) :=
  match st.byHash.lookup (L.sum256 g.tok) with
  | none => .ok (st.next, ⟨∅, g.account, 0⟩)
  | some id => do
      let e <- (st.entries id).bindAccount i g.account
      .ok (id, e)

def Building.put (st : Building) (h : Digest) (id : Nat) (e : GrantEntry) : Building where
  byHash := st.byHash.insert h id
  entries := Function.update st.entries id e
  next := max st.next (id + 1)

/-- The previous token's digest points at the same entry. -/
def Building.bindPrevious (st : Building) (i : Nat) (g : Grant) (id : Nat) :
    Except BuildError Building :=
  if g.prev = [] then .ok st
  else if g.prev = g.tok then .error (.previousEqualsToken i)
  else if (st.byHash.lookup (L.sum256 g.prev)).any (· ≠ id) then .error (.previousBound i)
  else .ok { st with byHash := st.byHash.insert (L.sum256 g.prev) id }

def Building.addGrant (st : Building) (i : Nat) (g : Grant) : Except BuildError Building :=
  if g.tok = [] then .error (.emptyToken i)
  else if g.names = [] then .error (.noNames i)
  else do
    let opened <- st.openEntry L i g
    let bound <- opened.2.bindExpiry i g.expiresAt
    let e <- bound.addNames L i g.names
    (st.put (L.sum256 g.tok) opened.1 e).bindPrevious L i g opened.1

def Building.addGrants (L : Library) : Nat -> List Grant -> Building -> Except BuildError Building
  | _, [], st => .ok st
  | i, g :: rest, st => do
      let st <- st.addGrant L i g
      addGrants L (i + 1) rest st

structure StaticTokenStore where
  byHash : FiniteMap Digest Nat
  entries : Nat -> GrantEntry
  revoked : RevokedList

def newStaticTokenStoreWithRevoked (grants : List Grant) (revoked : RevokedSpec) :
    Except BuildError StaticTokenStore := do
  let st <- Building.addGrants L 0 grants Building.start
  if FiniteMap.size st.byHash = 0 then .error .noGrants
  else .ok ⟨st.byHash, st.entries, newRevokedList L revoked⟩

/-!
## Authorizing
-/

inductive AuthError where
  | emptyToken
  | unknownToken
  | notAuthorized (name : Bytes)
  | expired
  | revoked
deriving DecidableEq

/-- The entry the digest points at; the source compares it with every digest in constant time. -/
def StaticTokenStore.matched (s : StaticTokenStore) (h : Digest) : Option GrantEntry :=
  (s.byHash.lookup h).map s.entries

def StaticTokenStore.authorize (s : StaticTokenStore) (now : Int) (token name : Bytes) :
    Except AuthError Bytes :=
  let token := GoText.trimSpace token
  if token = [] then .error .emptyToken
  else
    match s.matched (L.sum256 token) with
    | none => .error .unknownToken
    | some e =>
        if Proxy.normalizeName L.lowerRune name ∉ e.names then .error (.notAuthorized name)
        else if e.expired now then .error .expired
        else if s.revoked.isRevoked L token name e.account then .error .revoked
        else .ok e.account

end StaticTokens
end Server
end Ephor
