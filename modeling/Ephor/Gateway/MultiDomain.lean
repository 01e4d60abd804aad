import Mathlib.Data.List.AList
import Ephor.Gateway.AliasAllocator

/-!
# Many domains

`MultiDomainGateway` of `pier-gateway/src/multidomain.rs`, with the directory of
`pier-gateway/src/directory.rs`: each served domain has recipients, aliases, blocked senders and
suspended users, and `route` finds where a recipient's mail goes.  The DKIM keys, the quotas and
the meter are left out: routing does not read them.
-/

namespace Ephor
namespace Gateway
namespace MultiDomain

open Foundation
open Foundation.Text

/-!
# Addresses
-/

/-- What `split_address` splits. -/
def bareAddress (addr : Str) : Str :=
  trim (trimBrackets (trim addr))

def splitAddress (addr : Str) : Option (Str × Str) :=
  match rsplitOnce '@' (bareAddress addr) with
  | none => none
  | some (localPart, domain) =>
      if localPart = [] ∨ domain = [] then none else some (lower localPart, lower domain)

def localPartOf (user : Str) : Str :=
  ((rsplitOnce '@' (trim user)).map Prod.fst).getD (trim user)

/-- `format!("{local}@{domain}")`. -/
def address (localPart domain : Str) : Str :=
  localPart ++ '@' :: domain

/-- `trim().to_ascii_lowercase()`. -/
def folded (text : Str) : Str :=
  lower (trim text)

/-!
# Tenants
-/

/-- `InMemoryDirectory`: the entries in the order of its table. -/
abbrev Directory : Type :=
  AList fun _ : Str => RecipientKey

/-- How a `HashMap` is iterated, which may differ from one time to the next. -/
structure Iteration where
  arrange : Nat -> List Bytes -> List Bytes
  perm : forall order keys, (arrange order keys).Perm keys

structure DomainTenant where
  domain : Str
  directory : Directory
  aliases : AliasAllocator
  random : GatewayAliasMap
  blockedSenders : Finset Str
  suspendedUsers : Finset Str

structure MultiDomainGateway where
  tenants : FiniteMap Str DomainTenant
  globalBlocked : Finset Str

inductive MultiDomainError where
  | invalidDomain (domain : Str)
  | domainExists (domain : Str)
  | noSuchDomain (domain : Str)
  | alias (error : AliasError)
deriving DecidableEq

inductive Recipient where
  | directory (key : RecipientKey)
  | alias (target : AliasTarget)
deriving DecidableEq

inductive RouteError where
  | noSuchDomain
  | senderBlocked
  | userSuspended
  | unmapped
deriving DecidableEq

def MultiDomainGateway.new : MultiDomainGateway where
  tenants := ∅
  globalBlocked := ∅

/-- A tenant as `add_domain` leaves it. -/
def DomainTenant.fresh (aliases : AliasAllocator) (domain : Str) : DomainTenant where
  domain := domain
  directory := ∅
  aliases := aliases
  random := ∅
  blockedSenders := ∅
  suspendedUsers := ∅

namespace MultiDomainGateway

variable (gw : MultiDomainGateway)

def addDomain (domain : Str) : Except MultiDomainError MultiDomainGateway :=
  let d := folded domain
  match AliasAllocator.forDomain d with
  | Except.error _ => Except.error (MultiDomainError.invalidDomain domain)
  | Except.ok aliases =>
      if (gw.tenants.lookup d).isSome then Except.error (MultiDomainError.domainExists d)
      else Except.ok { gw with tenants := gw.tenants.insert d (DomainTenant.fresh aliases d) }

def removeDomain (domain : Str) : Bool × MultiDomainGateway :=
  ((gw.tenants.lookup (folded domain)).isSome,
    { gw with tenants := gw.tenants.erase (folded domain) })

/-- `tenant_mut`, with what is done to the tenant. -/
def onTenant {α : Type} (domain : Str)
    (f : DomainTenant -> Except MultiDomainError (α × DomainTenant)) :
    Except MultiDomainError (α × MultiDomainGateway) :=
  match gw.tenants.lookup (folded domain) with
  | none => Except.error (MultiDomainError.noSuchDomain (folded domain))
  | some tenant => do
      let (result, tenant) <- f tenant
      Except.ok (result, { gw with tenants := gw.tenants.insert (folded domain) tenant })

def onAddress {α : Type} (email : Str)
    (f : DomainTenant -> Except MultiDomainError (α × DomainTenant)) :
    Except MultiDomainError (α × MultiDomainGateway) :=
  match splitAddress email with
  | none => Except.error (MultiDomainError.invalidDomain email)
  | some (_, domain) => gw.onTenant domain f

def addRecipient (email : Str) (key : RecipientKey) :
    Except MultiDomainError (Unit × MultiDomainGateway) :=
  gw.onAddress email fun tenant => Except.ok ((), { tenant with
    directory := tenant.directory.insert (folded email) key
    aliases := tenant.aliases.reserveDirectoryAddress email })

def removeRecipient (email : Str) : Except MultiDomainError (Bool × MultiDomainGateway) :=
  gw.onAddress email fun tenant =>
    Except.ok ((tenant.directory.lookup (folded email)).isSome,
      { tenant with directory := tenant.directory.erase (folded email) })

def allocateVanity (domain : Str) (publicKey : Bytes) (name : Str) :
    Except MultiDomainError (Str × MultiDomainGateway) :=
  gw.onTenant domain fun tenant =>
    match tenant.aliases.allocateVanity publicKey name with
    | (Except.error e, _) => Except.error (MultiDomainError.alias e)
    | (Except.ok bound, aliases) => Except.ok (bound, { tenant with aliases := aliases })

def revokeVanity (domain : Str) (publicKey : Bytes) :
    Except MultiDomainError (Option Str × MultiDomainGateway) :=
  gw.onTenant domain fun tenant =>
    let released := tenant.aliases.releaseVanity publicKey
    Except.ok (released.1, { tenant with aliases := released.2 })

/-- `mint_random_alias` with the bytes that are drawn; none while the drawing goes on. -/
def mintRandomAlias (domain : Str) (target : AliasTarget) (correspondent : Option Str)
    (ttlMs : Option Nat) (oneTime : Bool) (nowMs : Nat) (draws : List Bytes) :
    Except MultiDomainError (Option Str × MultiDomainGateway) :=
  gw.onTenant domain fun tenant =>
    match tenant.random.mintWith target correspondent ttlMs oneTime nowMs draws with
    | some (token, random) =>
        Except.ok (some (address token tenant.domain), { tenant with random := random })
    | none => Except.ok (none, tenant)

def burnRandomAlias (domain token : Str) : Except MultiDomainError (Bool × MultiDomainGateway) :=
  gw.onTenant domain fun tenant =>
    let burned := tenant.random.burn (((rsplitOnce '@' token).map Prod.fst).getD token)
    Except.ok (burned.1, { tenant with random := burned.2 })

def blockSender (domain sender : Str) : Except MultiDomainError (Unit × MultiDomainGateway) :=
  gw.onTenant domain fun tenant => Except.ok ((),
    { tenant with blockedSenders := insert (folded sender) tenant.blockedSenders })

def unblockSender (domain sender : Str) : Except MultiDomainError (Bool × MultiDomainGateway) :=
  gw.onTenant domain fun tenant => Except.ok (decide (folded sender ∈ tenant.blockedSenders),
    { tenant with blockedSenders := tenant.blockedSenders.erase (folded sender) })

def blockSenderGlobal (sender : Str) : MultiDomainGateway :=
  { gw with globalBlocked := insert (folded sender) gw.globalBlocked }

def unblockSenderGlobal (sender : Str) : Bool × MultiDomainGateway :=
  (decide (folded sender ∈ gw.globalBlocked),
    { gw with globalBlocked := gw.globalBlocked.erase (folded sender) })

def suspendUser (domain user : Str) : Except MultiDomainError (Unit × MultiDomainGateway) :=
  gw.onTenant domain fun tenant => Except.ok ((),
    { tenant with suspendedUsers := insert (lower (localPartOf user)) tenant.suspendedUsers })

def unsuspendUser (domain user : Str) : Except MultiDomainError (Bool × MultiDomainGateway) :=
  gw.onTenant domain fun tenant =>
    Except.ok (decide (lower (localPartOf user) ∈ tenant.suspendedUsers),
      { tenant with suspendedUsers := tenant.suspendedUsers.erase (lower (localPartOf user)) })

end MultiDomainGateway

/-!
# Routing
-/

/-- The parameters of `route`, and the order in which its tenant's directory is iterated. -/
structure RouteCall where
  sender : Str
  rcpt : Str
  nowMs : Nat
  order : Nat
deriving DecidableEq

section Route

variable (contentDigest : Bytes -> FixedBytes 32) (iteration : Iteration)

/-- What `route` does with a tenant that it found. -/
def DomainTenant.route (tenant : DomainTenant) (localPart domain : Str) (call : RouteCall) :
    Except RouteError Recipient × DomainTenant :=
  if folded call.sender ∈ tenant.blockedSenders then
    (Except.error RouteError.senderBlocked, tenant)
  else if localPart ∈ tenant.suspendedUsers then
    (Except.error RouteError.userSuspended, tenant)
  else
    let clean := address localPart domain
    match tenant.directory.lookup (folded clean) with
    | some key => (Except.ok (Recipient.directory key), tenant)
    | none =>
        let resolved := tenant.random.resolve localPart call.nowMs
        match resolved.1 with
        | some target =>
            (Except.ok (Recipient.alias target), { tenant with random := resolved.2 })
        | none =>
            let registered := iteration.arrange call.order
              (tenant.directory.entries.map fun entry => entry.2.ik)
            match tenant.aliases.resolve contentDigest clean registered with
            | some publicKey =>
                (Except.ok (Recipient.alias (AliasTarget.identity publicKey)), tenant)
            | none => (Except.error RouteError.unmapped, tenant)

def MultiDomainGateway.route (gw : MultiDomainGateway) (call : RouteCall) :
    Except RouteError Recipient × MultiDomainGateway :=
  match splitAddress call.rcpt with
  | none => (Except.error RouteError.noSuchDomain, gw)
  | some (localPart, domain) =>
      if folded call.sender ∈ gw.globalBlocked then (Except.error RouteError.senderBlocked, gw)
      else
        match gw.tenants.lookup domain with
        | none => (Except.error RouteError.noSuchDomain, gw)
        | some tenant =>
            let routed := tenant.route contentDigest iteration localPart domain call
            (routed.1, { gw with tenants := gw.tenants.insert domain routed.2 })

/-!
# Runs
-/

inductive Event where
  | addDomain (domain : Str)
  | removeDomain (domain : Str)
  | addRecipient (email : Str) (key : RecipientKey)
  | removeRecipient (email : Str)
  | allocateVanity (domain : Str) (publicKey : Bytes) (name : Str)
  | revokeVanity (domain : Str) (publicKey : Bytes)
  | mintRandomAlias (domain : Str) (target : AliasTarget) (correspondent : Option Str)
      (ttlMs : Option Nat) (oneTime : Bool) (nowMs : Nat) (draws : List Bytes)
  | burnRandomAlias (domain token : Str)
  | blockSender (domain sender : Str)
  | unblockSender (domain sender : Str)
  | blockSenderGlobal (sender : Str)
  | unblockSenderGlobal (sender : Str)
  | suspendUser (domain user : Str)
  | unsuspendUser (domain user : Str)
  | route (call : RouteCall)

/-- The gateway after an operation; one that is refused leaves it as it was. -/
def kept {α : Type} (gw : MultiDomainGateway)
    (result : Except MultiDomainError (α × MultiDomainGateway)) : MultiDomainGateway :=
  match result with
  | Except.ok (_, next) => next
  | Except.error _ => gw

def step (gw : MultiDomainGateway) : Event -> MultiDomainGateway
  | Event.addDomain domain =>
      match gw.addDomain domain with
      | Except.ok next => next
      | Except.error _ => gw
  | Event.removeDomain domain => (gw.removeDomain domain).2
  | Event.addRecipient email key => kept gw (gw.addRecipient email key)
  | Event.removeRecipient email => kept gw (gw.removeRecipient email)
  | Event.allocateVanity domain publicKey name =>
      kept gw (gw.allocateVanity domain publicKey name)
  | Event.revokeVanity domain publicKey => kept gw (gw.revokeVanity domain publicKey)
  | Event.mintRandomAlias domain target correspondent ttlMs oneTime nowMs draws =>
      kept gw (gw.mintRandomAlias domain target correspondent ttlMs oneTime nowMs draws)
  | Event.burnRandomAlias domain token => kept gw (gw.burnRandomAlias domain token)
  | Event.blockSender domain sender => kept gw (gw.blockSender domain sender)
  | Event.unblockSender domain sender => kept gw (gw.unblockSender domain sender)
  | Event.blockSenderGlobal sender => gw.blockSenderGlobal sender
  | Event.unblockSenderGlobal sender => (gw.unblockSenderGlobal sender).2
  | Event.suspendUser domain user => kept gw (gw.suspendUser domain user)
  | Event.unsuspendUser domain user => kept gw (gw.unsuspendUser domain user)
  | Event.route call => (gw.route contentDigest iteration call).2

end Route

end MultiDomain
end Gateway
end Ephor
