import Mathlib.Logic.Function.Basic
import Ephor.Foundation.Transition
import Ephor.Foundation.WebUrl
import Ephor.Foundation.Json

/-!
# Endpoints

`client/src/endpoints.ts`: a cloud and a LAN endpoint are taken from what the host page injects,
from the build and from a cache in `localStorage`, probed with credentials and selected.  The
client runs in a document that was served over http or https and whose base is its location.
Strings are read as `URL` reads them, with lone surrogates replaced.  Whoever else may write to
the storage is an event of its own.  The listeners and the timeout of a probe are left out.
-/

namespace Ephor
namespace Client
namespace Endpoints

open Foundation
open Foundation.WebText
open Foundation.WebUrl

abbrev Str : Type :=
  List Char

def defaultLsKey : Str :=
  "vulos.relay-client.endpoints.v1".toList

def defaultHealthPath : Str :=
  ['/', 'a', 'p', 'i', '/', 'a', 'u', 't', 'h', '/', 's', 't', 'a', 't', 'u', 's']

def revalidateAfterMs : Int := 30000

def orElse (a b : Str) : Str :=
  if a = [] then b else a

structure EndpointPair where
  cloud : Str
  lan : Str
deriving DecidableEq

structure Environment where
  hosts : Hosts
  numerals : Json.Numerals
  location : Base
  /-- `window.__VULOS_ENDPOINTS__`. -/
  injected : Option EndpointPair
  viteCloudEndpoint : Str
  viteLanEndpoint : Str

structure LanCandidate where
  Endpoint : Str
  endpoint : Str
deriving DecidableEq

structure BackendTarget where
  Endpoint : Str
  endpoint : Str
  LANCandidate : Option LanCandidate
  lan_candidate : Option LanCandidate
deriving DecidableEq

structure ConfigureOptions where
  lsKeyPrefix : Option Str
  healthPath : Option Str
  allowedProbeHosts : Option (List Str)
deriving DecidableEq

structure State where
  lsKey : Str
  healthPath : Str
  allowedProbeHosts : List Str
  seededHosts : List Str
  pair : EndpointPair
  selected : Str
  selectedAt : Nat
  /-- The candidates of the selection in flight, and whether each may answer. -/
  selecting : Option (List (Str × Bool))
  localStorage : Str -> Option Str

def initial (localStorage : Str -> Option Str) : State where
  lsKey := defaultLsKey
  healthPath := defaultHealthPath
  allowedProbeHosts := []
  seededHosts := []
  pair := ⟨[], []⟩
  selected := []
  selectedAt := 0
  selecting := none
  localStorage := localStorage

def configure (opts : ConfigureOptions) (s : State) : State :=
  { s with
    lsKey := orElse (opts.lsKeyPrefix.getD []) s.lsKey
    healthPath := orElse (opts.healthPath.getD []) s.healthPath
    allowedProbeHosts := (opts.allowedProbeHosts.map fun hosts =>
      hosts.filter fun h => !h.isEmpty).getD s.allowedProbeHosts }

def hostMatches (host entry : Str) : Bool :=
  host == entry ||
    match entry with
    | '.' :: suffix => entry.isSuffixOf host || host == suffix
    | '*' :: '.' :: suffix => ('.' :: suffix).isSuffixOf host || host == suffix
    | _ => false

section Environment

variable (env : Environment)

def parseBase (base : Str) : Option Url :=
  if base = [] then none else parse env.hosts env.location base

def sameOrigin (u : Url) : Bool :=
  u.origin == env.location.url.origin

def isSafeEndpointScheme (base : Str) : Bool :=
  base == [] ||
    match parseBase env base with
    | some u => u.protocol == Scheme.https.name || sameOrigin env u
    | none => false

def sanitizeEndpoint (base : Str) : Str :=
  if isSafeEndpointScheme env base then base else []

def hostOf (base : Str) : List Str :=
  match parseBase env base with
  | some u => if u.host = [] then [] else [u.host]
  | none => []

def deployedHosts : List Str :=
  let injected := env.injected.getD ⟨[], []⟩
  hostOf env injected.cloud ++ hostOf env injected.lan ++ hostOf env env.viteCloudEndpoint ++
    hostOf env env.viteLanEndpoint

def configuredHosts (s : State) : List Str :=
  deployedHosts env ++ s.seededHosts

def isCredentialedProbeAllowed (s : State) (base : Str) : Bool :=
  base == [] ||
    match parseBase env base with
    | none => false
    | some u =>
        sameOrigin env u ||
          (u.protocol == Scheme.https.name &&
            ((!u.host.isEmpty && u.host == env.location.host) ||
              (configuredHosts env s).contains u.host ||
              s.allowedProbeHosts.any fun entry => hostMatches u.host entry))

/-!
# The cache
-/

def cloudName : JsString := ofText ['c', 'l', 'o', 'u', 'd']

def lanName : JsString := ofText ['l', 'a', 'n']

/-- A member of what was cached; only a string passes the check. -/
def cachedEndpoint (value : Json.Value) (name : JsString) : Str :=
  match value.get name with
  | some (Json.Value.string endpoint) => sanitizeEndpoint env ((codePoints endpoint).map scalar)
  | _ => []

def readCache (s : State) : Option EndpointPair :=
  match s.localStorage s.lsKey with
  | none => none
  | some raw =>
      if raw = [] then none
      else
        match Json.parse env.numerals raw with
        | some (Json.Value.object members) =>
            some ⟨cachedEndpoint env (Json.Value.object members) cloudName,
              cachedEndpoint env (Json.Value.object members) lanName⟩
        | some (Json.Value.array _) => some ⟨[], []⟩
        | _ => none

def cacheText (pair : EndpointPair) : Str :=
  Json.stringify env.numerals (Json.Value.object
    [(cloudName, Json.Value.string (ofText pair.cloud)),
      (lanName, Json.Value.string (ofText pair.lan))])

/-- The pair is kept, and cached unless it is empty. -/
def keepPair (pair : EndpointPair) (s : State) : State :=
  { s with
    pair := pair
    localStorage :=
      if pair.cloud = [] ∧ pair.lan = [] then s.localStorage
      else Function.update s.localStorage s.lsKey (some (cacheText env pair)) }

/-- The pair that `resolveEndpoints` finds. -/
def resolvedPair (s : State) : EndpointPair :=
  let injected := env.injected.getD ⟨[], []⟩
  let cached := (readCache env s).getD ⟨[], []⟩
  ⟨orElse injected.cloud (orElse env.viteCloudEndpoint cached.cloud),
    orElse injected.lan (orElse env.viteLanEndpoint cached.lan)⟩

def resolveEndpoints (s : State) : State :=
  keepPair env (resolvedPair env s) s

/-!
# Seeding
-/

def BackendTarget.cloud (target : BackendTarget) : Str :=
  orElse target.Endpoint target.endpoint

def BackendTarget.lan (target : BackendTarget) : Str :=
  match target.LANCandidate.or target.lan_candidate with
  | some candidate => orElse candidate.Endpoint candidate.endpoint
  | none => []

def seededPair (target : BackendTarget) (s : State) : EndpointPair :=
  let cached := (readCache env s).getD ⟨[], []⟩
  ⟨orElse target.cloud cached.cloud, orElse target.lan cached.lan⟩

def seedHost (base : Str) (seeded : List Str) : List Str :=
  seeded ++ (hostOf env base).filter fun host => !seeded.contains host

def seedFromResolveBackend (target : Option BackendTarget) (s : State) : State :=
  match target with
  | none => s
  | some target =>
      let pair := seededPair env target s
      { keepPair env pair s with
        seededHosts := seedHost env pair.lan (seedHost env pair.cloud s.seededHosts)
        selectedAt := 0 }

/-!
# Selecting
-/

/-- The URL that `probe` fetches with credentials, if it does. -/
def probe (s : State) (base : Str) : Option Str :=
  if base = [] then none
  else if isCredentialedProbeAllowed env s base then some (base ++ s.healthPath)
  else none

def candidates (pair : EndpointPair) : List Str :=
  ([pair.lan, pair.cloud].filter fun base => !base.isEmpty) ++ [[]]

def selects (s : State) (force : Bool) (now : Nat) : Bool :=
  !(!force && s.selectedAt != 0 && decide ((now : Int) - s.selectedAt < revalidateAfterMs)) &&
    s.selecting.isNone

def selectEndpoint (s : State) (force : Bool) (now : Nat) : State :=
  if selects s force now then
    let s := resolveEndpoints env s
    { s with selecting := some ((candidates s.pair).map fun base =>
        (base, base == [] || (probe env s base).isSome)) }
  else
    s

/-- The rest of `selectEndpoint`, with what answers each candidate. -/
def settle (s : State) (answers : List Bool) (now : Nat) : State :=
  match s.selecting with
  | none => s
  | some probed =>
      let winner := (probed.zip answers).find? fun candidate => candidate.1.2 && candidate.2
      { s with
        selected := (winner.map fun candidate => candidate.1.1).getD []
        selectedAt := now
        selecting := none }

inductive Event where
  | configure (opts : ConfigureOptions)
  | resolveEndpoints
  | seedFromResolveBackend (target : Option BackendTarget)
  | selectEndpoint (force : Bool) (now : Nat)
  | settle (answers : List Bool) (now : Nat)
  | invalidateEndpoint
  | store (key : Str) (value : Option Str)

def step (s : State) : Event -> State
  | Event.configure opts => configure opts s
  | Event.resolveEndpoints => resolveEndpoints env s
  | Event.seedFromResolveBackend target => seedFromResolveBackend env target s
  | Event.selectEndpoint force now => selectEndpoint env s force now
  | Event.settle answers now => settle s answers now
  | Event.invalidateEndpoint => { s with selectedAt := 0 }
  | Event.store key value =>
      { s with localStorage := Function.update s.localStorage key value }

def fetches (s : State) : Event -> List Str
  | Event.selectEndpoint force now =>
      if selects s force now then
        let s := resolveEndpoints env s
        (candidates s.pair).filterMap (probe env s)
      else
        []
  | _ => []

end Environment

end Endpoints
end Client
end Ephor
