import Ephor.Foundation.FiniteMap
import Ephor.Foundation.GoText

/-!
# HTTP requests and header maps

Go's `http.Header`: the values of each header under the canonical form of its name.
`get` reads the first value, `set` replaces all of them and `del` removes the name.  A
request is what `http.Request.Write` writes and `http.ReadRequest` reads back, less the
body, which no modelled function looks at.
-/

namespace Ephor
namespace Foundation
namespace HttpHeader

/-- The bytes of a token, the ones that may stand in a header's name. -/
def isTokenByte (c : UInt8) : Bool :=
  (0x30 <= c && c <= 0x39) || (0x41 <= c && c <= 0x5A) || (0x61 <= c && c <= 0x7A) ||
    c ∈ GoText.lit "!#$%&'*+-.^_`|~"

/-- The letters in their canonical case: a capital one at the start and after a hyphen. -/
def canonicalCase : Bool -> Bytes -> Bytes
  | _, [] => []
  | capital, c :: rest =>
      (if capital then GoText.upperByte c else GoText.lowerByte c) ::
        canonicalCase (c == 0x2D) rest

/-- `CanonicalMIMEHeaderKey`: a name with a byte that no token has stays as it is. -/
def canonicalMIMEHeaderKey (name : Bytes) : Bytes :=
  if name.all isTokenByte then canonicalCase true name else name

abbrev Header := FiniteMap Bytes (List Bytes)

def get (h : Header) (name : Bytes) : Bytes :=
  ((h.lookup (canonicalMIMEHeaderKey name)).bind List.head?).getD []

def set (h : Header) (name value : Bytes) : Header :=
  h.insert (canonicalMIMEHeaderKey name) [value]

def del (h : Header) (name : Bytes) : Header :=
  h.erase (canonicalMIMEHeaderKey name)

def add (h : Header) (name value : Bytes) : Header :=
  h.insert (canonicalMIMEHeaderKey name)
    ((h.lookup (canonicalMIMEHeaderKey name)).getD [] ++ [value])

/-- The map that reading the lines of a message's head leaves. -/
def read (fields : List (Bytes × Bytes)) : Header :=
  fields.foldl (fun h field => add h field.1 field.2) ∅

def SameHeader (a b : Bytes) : Prop :=
  canonicalMIMEHeaderKey a = canonicalMIMEHeaderKey b

instance (a b : Bytes) : Decidable (SameHeader a b) :=
  inferInstanceAs (Decidable (canonicalMIMEHeaderKey a = canonicalMIMEHeaderKey b))

theorem lookup_set (h : Header) (name value key : Bytes) : (set h name value).lookup key =
      if key = canonicalMIMEHeaderKey name then some [value] else h.lookup key := by
  rw [set]
  split_ifs with hkey
  · rw [hkey, Finmap.lookup_insert]
  · exact Finmap.lookup_insert_of_ne _ hkey

theorem get_set_other {h : Header} {name other value : Bytes} (hne : ¬ SameHeader name other) :
    get (set h other value) name = get h name := by
  have hkey : canonicalMIMEHeaderKey name ≠ canonicalMIMEHeaderKey other := hne
  rw [get, lookup_set, if_neg hkey, get]

theorem lookup_foldl_del (names : List Bytes) (h : Header) (key : Bytes) :
    (names.foldl del h).lookup key =
      if exists name, name ∈ names ∧ key = canonicalMIMEHeaderKey name then none
      else h.lookup key := by
  induction names generalizing h with
  | nil => simp
  | cons first names ih =>
      rw [List.foldl_cons, ih, del]
      by_cases hkey : key = canonicalMIMEHeaderKey first
      · rw [hkey, Finmap.lookup_erase, ite_self, if_pos ⟨first, List.mem_cons_self, rfl⟩]
      · rw [Finmap.lookup_erase_ne hkey]
        simp [hkey]

theorem get_foldl_del (h : Header) (name : Bytes) (names : List Bytes) :
    get (names.foldl del h) name =
      if exists other, other ∈ names ∧ SameHeader name other then [] else get h name := by
  rw [get, lookup_foldl_del]
  change ((if exists other, other ∈ names ∧ SameHeader name other then none
    else h.lookup _).bind List.head?).getD [] = _
  split_ifs <;> rfl

/-!
## Requests
-/

structure Request where
  method : Bytes
  path : Bytes
  host : Bytes
  header : Header

/-- A request as the server receives it, with what it knows of the connection. -/
structure Inbound extends Request where
  remoteAddr : Bytes
  tls : Bool

/-- Whether the headers ask for a WebSocket.  The relay and the agent each have this
function. -/
def isWebSocketUpgrade (h : Header) : Bool :=
  GoText.equalFoldWord (get h (GoText.lit "Upgrade")) "websocket".toList &&
    ((get h (GoText.lit "Connection")).splitOn 0x2C).any fun token =>
      GoText.equalFoldWord (GoText.trimSpace token) "upgrade".toList

end HttpHeader
end Foundation
end Ephor
