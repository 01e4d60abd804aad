import Ephor.Foundation.Transition
import Ephor.Gateway.MultiDomain

/-!
# What routing promises

A book keeps what the operators of the served domains decided: who receives mail under which
address, who is suspended, who is blocked.  It reads every address as `split_address` does, so two
spellings of an address are one entry.  Routing is lawful when it does what the book says.  The
gateway keeps its own tables under other spellings: the directory and the blocked senders without
the removal of angle brackets, the suspended users by local part, and the aliases not under their
owner at all.
-/

namespace Ephor
namespace Gateway
namespace MultiDomain

open Foundation
open Foundation.Text
open Foundation.Transition
open MultiDomainGateway

/-!
# Spellings
-/

/-- What all spellings of an address have in common. -/
def canonical (addr : Str) : Str :=
  match splitAddress addr with
  | some (localPart, domain) => address localPart domain
  | none => folded addr

/-- The user that `suspend_user` is meant to suspend. -/
def userNamed (user : Str) : Str :=
  match splitAddress user with
  | some (localPart, _) => localPart
  | none => lower (localPartOf user)

theorem folded_folded (text : Str) : folded (folded text) = folded text := by
  rw [folded, folded, <- lower_trim, lower_lower, trim_trim]

theorem lower_trimBrackets (addr : Str) :
    lower (trimBrackets addr) = trimBrackets (lower addr) := by
  have hcomp : forall {x : Char}, x.toNat < 65 -> (· == x) ∘ Char.toLower = (· == x) := by
    intro x hx
    funext c
    exact Bool.eq_iff_iff.mpr (by simpa using toLower_eq_iff hx)
  exact map_dropEnds (hcomp (by decide)) (hcomp (by decide)) addr

theorem bareAddress_folded (addr : Str) : bareAddress (folded addr) = lower (bareAddress addr) := by
  rw [bareAddress, bareAddress, folded, <- lower_trim, trim_trim, <- lower_trimBrackets, lower_trim]

theorem splitAddress_folded (addr : Str) : splitAddress (folded addr) = splitAddress addr := by
  have hsplit : rsplitOnce '@' (bareAddress (folded addr)) = (rsplitOnce '@' (bareAddress addr)).map
      fun parts => (lower parts.1, lower parts.2) := by
    rw [bareAddress_folded]
    exact rsplitOnce_map (fun c => toLower_eq_iff (by decide)) _
  have hnil : forall text : Str, lower text = [] <-> text = [] := fun text => List.map_eq_nil_iff
  rw [splitAddress, splitAddress, hsplit]
  cases rsplitOnce '@' (bareAddress addr) with
  | none => rfl
  | some parts =>
      rw [Option.map_some]
      simp only [hnil, lower_lower]

theorem canonical_folded (addr : Str) : canonical (folded addr) = canonical addr := by
  rw [canonical, canonical, splitAddress_folded, folded_folded]

variable {addr localPart email d : Str} {α : Type}

theorem canonical_of_split {domain : Str} (h : splitAddress addr = some (localPart, domain)) :
    canonical addr = address localPart domain := by
  rw [canonical, h]

theorem splitAddress_eq_some {domain : Str} (h : splitAddress addr = some (localPart, domain)) :
    exists parts, rsplitOnce '@' (bareAddress addr) = some parts ∧ localPart = lower parts.1 ∧
      domain = lower parts.2 := by
  rw [splitAddress] at h
  cases hparts : rsplitOnce '@' (bareAddress addr) with
  | none =>
      rw [hparts] at h
      cases h
  | some parts =>
      rw [hparts] at h
      have h : (if parts.1 = [] ∨ parts.2 = [] then none
          else some (lower parts.1, lower parts.2)) = some (localPart, domain) := h
      split at h
      · cases h
      · cases h
        exact ⟨parts, rfl, rfl, rfl⟩

theorem lower_domain {domain : Str} (h : splitAddress addr = some (localPart, domain)) :
    lower domain = domain := by
  rcases splitAddress_eq_some h with ⟨parts, _, _, hdomain⟩
  rw [hdomain, lower_lower]

theorem at_not_mem_domain {domain : Str} (h : splitAddress addr = some (localPart, domain)) :
    '@' ∉ domain := by
  rcases splitAddress_eq_some h with ⟨parts, hparts, _, hdomain⟩
  intro hmem
  rw [hdomain] at hmem
  rcases List.mem_map.mp hmem with ⟨c, hc, hat⟩
  rw [(toLower_eq_iff (by decide)).mp hat] at hc
  exact not_mem_of_rsplitOnce hparts hc

theorem address_eq_lower {domain : Str} (h : splitAddress addr = some (localPart, domain)) :
    address localPart domain = lower (bareAddress addr) := by
  rcases splitAddress_eq_some h with ⟨parts, hparts, hlocal, hdomain⟩
  have hat : '@'.toLower = '@' := (toLower_eq_iff (by decide)).mpr rfl
  rw [rsplitOnce_eq_some hparts, address, hlocal, hdomain, lower, lower, lower, List.map_append,
    List.map_cons, hat]

theorem folded_address {domain : Str} (h : splitAddress addr = some (localPart, domain)) :
    folded (address localPart domain) = address localPart domain := by
  rw [address_eq_lower h, folded, <- lower_trim, lower_lower, bareAddress, trim_trim]

theorem rsplitOnce_address {domain : Str} (h : splitAddress addr = some (localPart, domain)) :
    rsplitOnce '@' (address localPart domain) = some (localPart, domain) :=
  rsplitOnce_cons localPart (at_not_mem_domain h)

theorem address_inj {a b domain : Str} (h : address a domain = address b domain) : a = b :=
  List.append_cancel_right h

/-!
# The book
-/

structure DomainBook where
  recipient : Str -> Option RecipientKey
  suspended : Finset Str
  blocked : Finset Str

structure Book where
  domains : Str -> Option DomainBook
  blocked : Finset Str

def DomainBook.blank : DomainBook where
  recipient := fun _ => none
  suspended := ∅
  blocked := ∅

def Book.empty : Book where
  domains := fun _ => none
  blocked := ∅

/-- A change to the page of a domain, if the domain is served. -/
def Book.amend (book : Book) (domain : Str) (f : DomainBook -> DomainBook) : Book :=
  { book with
    domains := Function.update book.domains (folded domain)
      ((book.domains (folded domain)).map f) }

def Book.enter (book : Book) (email : Str) (key : Option RecipientKey) : Book :=
  match splitAddress email with
  | some (localPart, domain) => book.amend domain fun page =>
      { page with recipient := Function.update page.recipient localPart key }
  | none => book

def Book.note (book : Book) : Event -> Book
  | Event.addDomain domain =>
      if isValidDnsDomain (folded domain) && (book.domains (folded domain)).isNone then
        { book with
          domains := Function.update book.domains (folded domain) (some DomainBook.blank) }
      else
        book
  | Event.removeDomain domain =>
      { book with domains := Function.update book.domains (folded domain) none }
  | Event.addRecipient email key => book.enter email (some key)
  | Event.removeRecipient email => book.enter email none
  | Event.blockSender domain sender => book.amend domain fun page =>
      { page with blocked := insert (canonical sender) page.blocked }
  | Event.unblockSender domain sender => book.amend domain fun page =>
      { page with blocked := page.blocked.erase (canonical sender) }
  | Event.blockSenderGlobal sender =>
      { book with blocked := insert (canonical sender) book.blocked }
  | Event.unblockSenderGlobal sender =>
      { book with blocked := book.blocked.erase (canonical sender) }
  | Event.suspendUser domain user => book.amend domain fun page =>
      { page with suspended := insert (userNamed user) page.suspended }
  | Event.unsuspendUser domain user => book.amend domain fun page =>
      { page with suspended := page.suspended.erase (userNamed user) }
  | _ => book

/-- What reaches the user with this key and address: the key, an alias of it, or an alias of the
address. -/
def Belongs (key : Option RecipientKey) (user domain : Str) : Recipient -> Prop
  | Recipient.directory k => key = some k
  | Recipient.alias (AliasTarget.identity publicKey) => key.map RecipientKey.ik = some publicKey
  | Recipient.alias (AliasTarget.native l d) => splitAddress (address l d) = some (user, domain)

/-- No mail of a suspended user, none from a blocked sender, and for everyone else the key that was
recorded last. -/
structure Lawful (book : Book) (call : RouteCall) (result : Except RouteError Recipient) :
    Prop where
  suspended : forall domain page user target, book.domains domain = some page ->
    user ∈ page.suspended -> result = Except.ok target ->
      ¬ Belongs (page.recipient user) user domain target
  blocked : forall localPart domain page target,
    splitAddress call.rcpt = some (localPart, domain) -> book.domains domain = some page ->
      canonical call.sender ∈ book.blocked ∨ canonical call.sender ∈ page.blocked ->
        result ≠ Except.ok target
  delivered : forall localPart domain page key,
    splitAddress call.rcpt = some (localPart, domain) -> book.domains domain = some page ->
      page.recipient localPart = some key -> localPart ∉ page.suspended ->
        canonical call.sender ∉ book.blocked -> canonical call.sender ∉ page.blocked ->
          result = Except.ok (Recipient.directory key)

def Event.domain : Event -> Option Str
  | Event.addDomain domain => some (folded domain)
  | Event.removeDomain domain => some (folded domain)
  | Event.addRecipient email _ => (splitAddress email).map fun parts => folded parts.2
  | Event.removeRecipient email => (splitAddress email).map fun parts => folded parts.2
  | Event.allocateVanity domain _ _ => some (folded domain)
  | Event.revokeVanity domain _ => some (folded domain)
  | Event.mintRandomAlias domain _ _ _ _ _ _ => some (folded domain)
  | Event.burnRandomAlias domain _ => some (folded domain)
  | Event.blockSender domain _ => some (folded domain)
  | Event.unblockSender domain _ => some (folded domain)
  | Event.blockSenderGlobal _ => none
  | Event.unblockSenderGlobal _ => none
  | Event.suspendUser domain _ => some (folded domain)
  | Event.unsuspendUser domain _ => some (folded domain)
  | Event.route call => (splitAddress call.rcpt).map Prod.snd

section Law

variable (contentDigest : Bytes -> FixedBytes 32) (iteration : Iteration)

/-- A run in which every call of `route` is lawful, and no operation that names a domain changes
what is routed for another. -/
structure RoutesLawfully (events : List Event) : Prop where
  lawful : forall before call rest, events = before ++ Event.route call :: rest ->
    Lawful (before.foldl Book.note Book.empty) call
      ((after (step contentDigest iteration) new before).route
        contentDigest iteration call).1
  isolated : forall before e rest domain call, events = before ++ e :: rest ->
    e.domain = some domain ->
    (forall localPart, splitAddress call.rcpt ≠ some (localPart, domain)) ->
      ((after (step contentDigest iteration) new (before ++ [e])).route
          contentDigest iteration call).1 =
        ((after (step contentDigest iteration) new before).route
          contentDigest iteration call).1

/-!
# When it keeps them
-/

/-- What a tenant's tables have for a local part, one after the other. -/
def DomainTenant.named (tenant : DomainTenant) (localPart domain : Str) (nowMs : Nat) :
    List Recipient :=
  (tenant.directory.lookup (address localPart domain)).toList.map Recipient.directory ++
  ((tenant.random.lookup localPart).filter fun row => row.live nowMs).toList.map (fun row =>
    Recipient.alias row.target) ++
  (tenant.aliases.vanity.lookup localPart).toList.map (fun publicKey =>
    Recipient.alias (AliasTarget.identity publicKey)) ++
  ((tenant.directory.entries.map fun entry => entry.2.ik).filter fun publicKey =>
    keyDerivedLocalpart contentDigest publicKey = localPart).map (fun publicKey =>
      Recipient.alias (AliasTarget.identity publicKey))

/-- Trimmed and in small letters the address is already `local@domain`. -/
def Plain (addr : Str) : Prop :=
  folded addr = canonical addr

/-- An address that the directory files under the key that `route` looks up. -/
def PlainEmail (email : Str) : Prop :=
  forall localPart domain, splitAddress email = some (localPart, domain) ->
    Plain email ∧ trim domain = domain

/-- A call of `route` that no other spelling and no other name gets past the tables. -/
def PlainCall (gw : MultiDomainGateway) (call : RouteCall) : Prop :=
  forall localPart domain tenant, splitAddress call.rcpt = some (localPart, domain) ->
    gw.tenants.lookup domain = some tenant ->
      (canonical call.sender ∈ gw.globalBlocked ∨
        canonical call.sender ∈ tenant.blockedSenders -> Plain call.sender) ∧
      (localPart ∉ tenant.suspendedUsers ->
        forall d other user target, gw.tenants.lookup d = some other ->
          user ∈ other.suspendedUsers ->
            target ∈ tenant.named contentDigest localPart domain call.nowMs ->
              ¬ Belongs (other.directory.lookup (address user d)) user d target)

def Plainly (gw : MultiDomainGateway) : Event -> Prop
  | Event.addRecipient email _ => PlainEmail email
  | Event.removeRecipient email => PlainEmail email
  | Event.blockSender _ sender => Plain sender
  | Event.unblockSender _ sender => Plain sender
  | Event.blockSenderGlobal sender => Plain sender
  | Event.unblockSenderGlobal sender => Plain sender
  | Event.suspendUser _ user => lower (localPartOf user) = userNamed user
  | Event.unsuspendUser _ user => lower (localPartOf user) = userNamed user
  | Event.route call => PlainCall contentDigest gw call
  | _ => True

/-!
# What an operation changes
-/

def tenantAfter {α : Type} (tenant : DomainTenant)
    (result : Except MultiDomainError (α × DomainTenant)) : DomainTenant :=
  match result with
  | Except.ok (_, next) => next
  | Except.error _ => tenant

variable {contentDigest iteration} {gw : MultiDomainGateway} {book : Book}

theorem lookup_onTenant (domain : Str)
    (f : DomainTenant -> Except MultiDomainError (α × DomainTenant)) (d : Str) :
    (kept gw (gw.onTenant domain f)).tenants.lookup d =
      if d = folded domain then
        (gw.tenants.lookup d).map fun tenant => tenantAfter tenant (f tenant)
      else
        gw.tenants.lookup d := by
  rw [onTenant]
  cases htenant : gw.tenants.lookup (folded domain) with
  | none =>
      show gw.tenants.lookup d = _
      split
      · rename_i hd
        rw [hd, htenant]
        rfl
      · rfl
  | some tenant =>
      simp only
      cases hresult : f tenant with
      | error e =>
          show gw.tenants.lookup d = _
          split
          · rename_i hd
            rw [hd, htenant, Option.map_some, hresult]
            rfl
          · rfl
      | ok result =>
          show (gw.tenants.insert (folded domain) result.2).lookup d = _
          split
          · rename_i hd
            rw [hd, htenant, Option.map_some, hresult, Finmap.lookup_insert]
            rfl
          · rename_i hd
            exact Finmap.lookup_insert_of_ne _ hd

theorem globalBlocked_onTenant (domain : Str)
    (f : DomainTenant -> Except MultiDomainError (α × DomainTenant)) :
    (kept gw (gw.onTenant domain f)).globalBlocked = gw.globalBlocked := by
  rw [onTenant]
  cases gw.tenants.lookup (folded domain) with
  | none => rfl
  | some tenant =>
      simp only
      cases f tenant with
      | error e | ok result => rfl

theorem kept_onAddress {domain : Str} (h : splitAddress email = some (localPart, domain))
    (f : DomainTenant -> Except MultiDomainError (α × DomainTenant)) :
    kept gw (gw.onAddress email f) = kept gw (gw.onTenant domain f) := by
  rw [onAddress, h]

theorem kept_onAddress_of_none (h : splitAddress email = none)
    (f : DomainTenant -> Except MultiDomainError (α × DomainTenant)) :
    kept gw (gw.onAddress email f) = gw := by
  rw [onAddress, h]
  rfl

/-- Nothing changes but the tenant of the named domain, or without one the blocked senders. -/
structure Confined (named : Option Str) (gw gw' : MultiDomainGateway) : Prop where
  tenants : forall d, named ≠ some d -> gw'.tenants.lookup d = gw.tenants.lookup d
  globalBlocked : forall domain, named = some domain -> gw'.globalBlocked = gw.globalBlocked

theorem confined_rfl (named : Option Str) (gw : MultiDomainGateway) : Confined named gw gw :=
  ⟨fun _ _ => rfl, fun _ _ => rfl⟩

theorem confined_insert (domain : Str) (tenant : DomainTenant) :
    Confined (some domain) gw { gw with tenants := gw.tenants.insert domain tenant } :=
  ⟨fun _ h => Finmap.lookup_insert_of_ne _ fun hd => h (congrArg some hd.symm), fun _ _ => rfl⟩

theorem confined_onTenant (domain : Str)
    (f : DomainTenant -> Except MultiDomainError (α × DomainTenant)) :
    Confined (some (folded domain)) gw (kept gw (gw.onTenant domain f)) where
  tenants := by
    intro d h
    rw [lookup_onTenant, if_neg]
    intro hd
    exact h (congrArg some hd.symm)
  globalBlocked := fun _ _ => globalBlocked_onTenant domain f

theorem confined_onAddress (email : Str)
    (f : DomainTenant -> Except MultiDomainError (α × DomainTenant)) :
    Confined ((splitAddress email).map fun parts => folded parts.2) gw
      (kept gw (gw.onAddress email f)) := by
  cases hsplit : splitAddress email with
  | none =>
      rw [kept_onAddress_of_none hsplit]
      exact confined_rfl _ gw
  | some parts =>
      rw [kept_onAddress hsplit]
      exact confined_onTenant parts.2 f

theorem addDomain_cases (domain : Str) :
    ((isValidDnsDomain (folded domain) && (gw.tenants.lookup (folded domain)).isNone) = false ∧
      step contentDigest iteration gw (Event.addDomain domain) = gw) ∨
    ((isValidDnsDomain (folded domain) && (gw.tenants.lookup (folded domain)).isNone) = true ∧
      exists aliases, step contentDigest iteration gw (Event.addDomain domain) =
        { gw with
          tenants := gw.tenants.insert (folded domain)
            (DomainTenant.fresh aliases (folded domain)) }) := by
  have hfolded : lower (trim (folded domain)) = folded domain := folded_folded domain
  rw [step, addDomain, AliasAllocator.forDomain, hfolded]
  cases isValidDnsDomain (folded domain) with
  | false => exact Or.inl ⟨rfl, rfl⟩
  | true =>
      cases gw.tenants.lookup (folded domain) with
      | none => exact Or.inr ⟨rfl, _, rfl⟩
      | some tenant => exact Or.inl ⟨rfl, rfl⟩

variable {call : RouteCall}

def Answers (rows : GatewayAliasMap) (token : Str) (nowMs : Nat) : Prop :=
  exists row, rows.lookup token = some row ∧ row.live nowMs = true

theorem resolve_cases (rows : GatewayAliasMap) (token : Str) (nowMs : Nat) :
    (exists row, rows.lookup token = some row ∧ row.live nowMs = true ∧
      rows.resolve token nowMs = (some row.target,
        if row.oneTime then rows.insert token { row with burned := true } else rows)) ∨
    (Not (Answers rows token nowMs) ∧ rows.resolve token nowMs = (none, rows)) := by
  rw [GatewayAliasMap.resolve, Answers]
  cases hrow : rows.lookup token with
  | none => exact Or.inr ⟨fun ⟨_, h, _⟩ => (nomatch h), rfl⟩
  | some row =>
      cases hlive : row.live nowMs with
      | true => exact Or.inl ⟨row, rfl, hlive, by simp only [hlive, if_true]⟩
      | false =>
          refine Or.inr ⟨fun ⟨other, h, hother⟩ => ?_, by simp [hlive]⟩
          cases h
          exact Bool.false_ne_true (hlive.symm.trans hother)

structure DomainTenant.Open (tenant : DomainTenant) (localPart : Str) (call : RouteCall) :
    Prop where
  sender : folded call.sender ∉ tenant.blockedSenders
  user : localPart ∉ tenant.suspendedUsers

section Tenant

variable (contentDigest iteration) (tenant : DomainTenant) (domain : Str) (call : RouteCall)

inductive Routed (localPart : Str) : Except RouteError Recipient × DomainTenant -> Prop
  | refused (e : RouteError) : Routed localPart (Except.error e, tenant)
  | directory {key : RecipientKey} (hopen : tenant.Open localPart call)
      (hkey : tenant.directory.lookup (folded (address localPart domain)) = some key) :
      Routed localPart (Except.ok (Recipient.directory key), tenant)
  | random {row : AliasRow} (hopen : tenant.Open localPart call)
      (hnone : tenant.directory.lookup (folded (address localPart domain)) = none)
      (hrow : tenant.random.lookup localPart = some row)
      (hlive : row.live call.nowMs = true) :
      Routed localPart (Except.ok (Recipient.alias row.target),
        { tenant with
          random := if row.oneTime then tenant.random.insert localPart { row with burned := true }
            else tenant.random })
  | named {publicKey : Bytes} (hopen : tenant.Open localPart call)
      (hnone : tenant.directory.lookup (folded (address localPart domain)) = none)
      (hdead : Not (Answers tenant.random localPart call.nowMs))
      (hkey : tenant.aliases.resolve contentDigest (address localPart domain)
        (iteration.arrange call.order (tenant.directory.entries.map fun entry => entry.2.ik)) =
          some publicKey) :
      Routed localPart (Except.ok (Recipient.alias (AliasTarget.identity publicKey)), tenant)

theorem routed (localPart : Str) {result : Except RouteError Recipient × DomainTenant}
    (h : tenant.route contentDigest iteration localPart domain call = result) :
    Routed contentDigest iteration tenant domain call localPart result := by
  rw [<- h, DomainTenant.route]
  split
  · exact Routed.refused _
  · rename_i hsender
    split
    · exact Routed.refused _
    · rename_i huser
      simp only
      split
      · rename_i key hkey
        exact Routed.directory ⟨hsender, huser⟩ hkey
      · rename_i hnone
        rcases resolve_cases tenant.random localPart call.nowMs with
          ⟨row, hrow, hlive, hresolve⟩ | ⟨hdead, hresolve⟩
        · rw [hresolve]
          exact Routed.random ⟨hsender, huser⟩ hnone hrow hlive
        · rw [hresolve]
          simp only
          split
          · rename_i publicKey hkey
            exact Routed.named ⟨hsender, huser⟩ hnone hdead hkey
          · exact Routed.refused _

end Tenant

theorem route_served {domain : Str} {tenant : DomainTenant}
    (hsplit : splitAddress call.rcpt = some (localPart, domain))
    (hsender : folded call.sender ∉ gw.globalBlocked)
    (htenant : gw.tenants.lookup domain = some tenant) :
    gw.route contentDigest iteration call =
      ((tenant.route contentDigest iteration localPart domain call).1,
        { gw with
          tenants := gw.tenants.insert domain
            (tenant.route contentDigest iteration localPart domain call).2 }) := by
  simp only [route, hsplit, if_neg hsender, htenant]

theorem route_cases (call : RouteCall) :
    (exists e, gw.route contentDigest iteration call = (Except.error e, gw)) ∨
      exists localPart domain tenant, splitAddress call.rcpt = some (localPart, domain) ∧
        folded call.sender ∉ gw.globalBlocked ∧ gw.tenants.lookup domain = some tenant := by
  rw [route]
  cases hsplit : splitAddress call.rcpt with
  | none => exact Or.inl ⟨_, rfl⟩
  | some parts =>
      by_cases hsender : folded call.sender ∈ gw.globalBlocked
      · exact Or.inl ⟨RouteError.senderBlocked, by simp only [if_pos hsender]⟩
      · cases htenant : gw.tenants.lookup parts.2 with
        | none => exact Or.inl ⟨RouteError.noSuchDomain, by simp only [if_neg hsender, htenant]⟩
        | some tenant => exact Or.inr ⟨parts.1, parts.2, tenant, rfl, hsender, htenant⟩

theorem confined_step (gw : MultiDomainGateway) (e : Event) :
    Confined e.domain gw (step contentDigest iteration gw e) := by
  cases e with
  | addDomain domain =>
      rcases addDomain_cases domain with ⟨_, hsame⟩ | ⟨_, aliases, hadded⟩
      · rw [hsame]
        exact confined_rfl _ gw
      · rw [hadded]
        exact confined_insert _ _
  | removeDomain domain =>
      exact ⟨fun _ h => Finmap.lookup_erase_ne fun hd => h (congrArg some hd.symm), fun _ _ => rfl⟩
  | addRecipient email key | removeRecipient email => exact confined_onAddress email _
  | allocateVanity domain publicKey name | revokeVanity domain publicKey
  | burnRandomAlias domain token | blockSender domain sender | unblockSender domain sender
  | suspendUser domain user | unsuspendUser domain user => exact confined_onTenant domain _
  | mintRandomAlias domain target correspondent ttlMs oneTime nowMs draws =>
      exact confined_onTenant domain _
  | blockSenderGlobal sender | unblockSenderGlobal sender =>
      exact ⟨fun _ _ => rfl, fun _ h => nomatch h⟩
  | route call =>
      rcases route_cases call with
        ⟨error, hsame⟩ | ⟨localPart, domain, tenant, hsplit, hsender, htenant⟩
      · rw [step, hsame]
        exact confined_rfl _ gw
      · rw [step, route_served hsplit hsender htenant, Event.domain, hsplit]
        exact confined_insert _ _

theorem lookup_after_of_ne {events : List Event} (h : forall e, e ∈ events -> e.domain ≠ some d) :
    (after (step contentDigest iteration) gw events).tenants.lookup d = gw.tenants.lookup d := by
  refine invariant_of_mem (fun gw' : MultiDomainGateway =>
    gw'.tenants.lookup d = gw.tenants.lookup d) ?_ rfl
  exact fun gw' e he hsame => ((confined_step gw' e).tenants d (h e he)).trans hsame

theorem route_congr {gw' : MultiDomainGateway} (hglobal : gw'.globalBlocked = gw.globalBlocked)
    (htenant : forall localPart domain, splitAddress call.rcpt = some (localPart, domain) ->
      gw'.tenants.lookup domain = gw.tenants.lookup domain) :
    (gw'.route contentDigest iteration call).1 = (gw.route contentDigest iteration call).1 := by
  rw [route, route, hglobal]
  cases hsplit : splitAddress call.rcpt with
  | none => rfl
  | some parts =>
      simp only [htenant parts.1 parts.2 hsplit]
      split
      · rfl
      · cases gw.tenants.lookup parts.2 with
        | none | some tenant => rfl

theorem route_step_of_ne {e : Event} {domain : Str} (hdomain : e.domain = some domain)
    (hother : forall localPart, splitAddress call.rcpt ≠ some (localPart, domain)) :
    ((step contentDigest iteration gw e).route contentDigest iteration call).1 =
      (gw.route contentDigest iteration call).1 := by
  have hconfined : Confined e.domain gw (step contentDigest iteration gw e) := confined_step gw e
  apply route_congr (hconfined.globalBlocked domain hdomain)
  intro localPart d hsplit
  apply hconfined.tenants
  rw [hdomain]
  intro hd
  injection hd with hd
  exact hother localPart (hd ▸ hsplit)

/-!
# The gateway keeps the book
-/

/-- A tenant whose tables say what the page of its domain says. -/
structure Records (domain : Str) (page : DomainBook) (tenant : DomainTenant) : Prop where
  recipient : forall localPart,
    tenant.directory.lookup (address localPart domain) = page.recipient localPart
  suspended : tenant.suspendedUsers = page.suspended
  blocked : tenant.blockedSenders = page.blocked
  plain : forall sender, sender ∈ tenant.blockedSenders -> canonical sender = sender

structure Refines (book : Book) (gw : MultiDomainGateway) : Prop where
  domains : forall domain,
    Option.Rel (Records domain) (book.domains domain) (gw.tenants.lookup domain)
  blocked : gw.globalBlocked = book.blocked
  plain : forall sender, sender ∈ gw.globalBlocked -> canonical sender = sender

theorem refines_new : Refines Book.empty new where
  domains := fun _ => Option.Rel.none
  blocked := rfl
  plain := fun sender h => absurd h (Finset.notMem_empty sender)

theorem Records.congr {domain : Str} {page : DomainBook} {tenant other : DomainTenant}
    (h : Records domain page tenant) (hdirectory : other.directory = tenant.directory)
    (hsuspended : other.suspendedUsers = tenant.suspendedUsers)
    (hblocked : other.blockedSenders = tenant.blockedSenders) : Records domain page other where
  recipient := by
    rw [hdirectory]
    exact h.recipient
  suspended := hsuspended.trans h.suspended
  blocked := hblocked.trans h.blocked
  plain := by
    rw [hblocked]
    exact h.plain

theorem rel_update {domain : Str} {page : Option DomainBook}
    {pages : Str -> Option DomainBook} {tenants tenants' : FiniteMap Str DomainTenant}
    (h : forall d, Option.Rel (Records d) (pages d) (tenants.lookup d))
    (hat : Option.Rel (Records domain) page (tenants'.lookup domain))
    (hother : forall d, d ≠ domain -> tenants'.lookup d = tenants.lookup d) (d : Str) :
    Option.Rel (Records d) (Function.update pages domain page d) (tenants'.lookup d) := by
  by_cases hd : d = domain
  · rw [hd, Function.update_self]
    exact hat
  · rw [Function.update_of_ne hd, hother d hd]
    exact h d

theorem rel_map {domain : Str} {page : Option DomainBook} {tenant : Option DomainTenant}
    {g : DomainBook -> DomainBook} {f : DomainTenant -> DomainTenant}
    (hrecords : forall page tenant, Records domain page tenant ->
      Records domain (g page) (f tenant))
    (h : Option.Rel (Records domain) page tenant) :
    Option.Rel (Records domain) (page.map g) (tenant.map f) := by
  cases h with
  | some hpage => exact Option.Rel.some (hrecords _ _ hpage)
  | none => exact Option.Rel.none

theorem refines_amend {domain : Str} {g : DomainBook -> DomainBook}
    {f : DomainTenant -> Except MultiDomainError (α × DomainTenant)}
    (hrecords : forall page tenant, Records (folded domain) page tenant ->
      Records (folded domain) (g page) (tenantAfter tenant (f tenant))) (h : Refines book gw) :
    Refines (book.amend domain g) (kept gw (gw.onTenant domain f)) where
  domains := by
    apply rel_update h.domains
    · rw [lookup_onTenant, if_pos rfl]
      exact rel_map hrecords (h.domains (folded domain))
    · intro d hd
      rw [lookup_onTenant, if_neg hd]
  blocked := (globalBlocked_onTenant domain f).trans h.blocked
  plain := by
    rw [globalBlocked_onTenant]
    exact h.plain

theorem refines_aliases {domain : Str}
    {f : DomainTenant -> Except MultiDomainError (α × DomainTenant)}
    (hsame : forall tenant, (tenantAfter tenant (f tenant)).directory = tenant.directory ∧
      (tenantAfter tenant (f tenant)).suspendedUsers = tenant.suspendedUsers ∧
      (tenantAfter tenant (f tenant)).blockedSenders = tenant.blockedSenders)
    (h : Refines book gw) : Refines book (kept gw (gw.onTenant domain f)) := by
  have hamend : book.amend domain id = book := by
    rw [Book.amend, Option.map_id, id, Function.update_eq_self]
  rw [<- hamend]
  apply refines_amend _ h
  intro page tenant hpage
  rcases hsame tenant with ⟨hdirectory, hsuspended, hblocked⟩
  exact hpage.congr hdirectory hsuspended hblocked

theorem isNone_of_rel {domain : Str} {page : Option DomainBook} {tenant : Option DomainTenant}
    (h : Option.Rel (Records domain) page tenant) : page.isNone = tenant.isNone := by
  cases h with
  | some _ | none => rfl

theorem refines_addDomain (domain : Str) (h : Refines book gw) :
    Refines (book.note (Event.addDomain domain))
      (step contentDigest iteration gw (Event.addDomain domain)) := by
  rw [Book.note, isNone_of_rel (h.domains (folded domain))]
  rcases addDomain_cases domain with ⟨hrefused, hsame⟩ | ⟨hadmitted, aliases, hadded⟩
  · rw [hsame, hrefused]
    exact h
  · rw [hadded, hadmitted, if_pos rfl]
    refine ⟨?_, h.blocked, h.plain⟩
    apply rel_update h.domains
    · rw [Finmap.lookup_insert]
      apply Option.Rel.some
      exact ⟨fun _ => rfl, rfl, rfl, fun sender hmem => absurd hmem (Finset.notMem_empty sender)⟩
    · intro d hd
      exact Finmap.lookup_insert_of_ne _ hd

theorem refines_removeDomain (domain : Str) (h : Refines book gw) :
    Refines (book.note (Event.removeDomain domain))
      (step contentDigest iteration gw (Event.removeDomain domain)) := by
  refine ⟨?_, h.blocked, h.plain⟩
  apply rel_update h.domains
  · have hgone : (gw.tenants.erase (folded domain)).lookup (folded domain) = none :=
      Finmap.lookup_erase _ _
    exact hgone.symm ▸ Option.Rel.none
  · intro d hd
    exact Finmap.lookup_erase_ne hd

theorem refines_enter {key : Option RecipientKey}
    {f : DomainTenant -> Except MultiDomainError (α × DomainTenant)}
    (hsame : forall tenant, (tenantAfter tenant (f tenant)).suspendedUsers = tenant.suspendedUsers ∧
      (tenantAfter tenant (f tenant)).blockedSenders = tenant.blockedSenders)
    (hentry : forall tenant,
      (tenantAfter tenant (f tenant)).directory.lookup (folded email) = key ∧
      forall addr, addr ≠ folded email ->
        (tenantAfter tenant (f tenant)).directory.lookup addr = tenant.directory.lookup addr)
    (hplain : PlainEmail email) (h : Refines book gw) :
    Refines (book.enter email key) (kept gw (gw.onAddress email f)) := by
  rw [Book.enter]
  cases hsplit : splitAddress email with
  | none =>
      rw [kept_onAddress_of_none hsplit]
      exact h
  | some parts =>
      rcases hplain parts.1 parts.2 hsplit with ⟨hemail, htrim⟩
      have hemail : folded email = address parts.1 parts.2 :=
        hemail.trans (canonical_of_split hsplit)
      have hdomain : folded parts.2 = parts.2 := by
        rw [folded, htrim]
        exact lower_domain hsplit
      rw [kept_onAddress hsplit]
      apply refines_amend _ h
      intro page tenant hpage
      rw [hdomain] at hpage ⊢
      rcases hentry tenant with ⟨hat, hother⟩
      rw [hemail] at hat hother
      refine ⟨?_, (hsame tenant).1.trans hpage.suspended, (hsame tenant).2.trans hpage.blocked, ?_⟩
      · intro localPart
        show _ = Function.update page.recipient parts.1 key localPart
        by_cases hlocal : localPart = parts.1
        · rw [hlocal, Function.update_self, hat]
        · rw [Function.update_of_ne hlocal, hother _ fun heq => hlocal (address_inj heq)]
          exact hpage.recipient localPart
      · rw [(hsame tenant).2]
        exact hpage.plain

theorem plain_insert {senders : Finset Str} {sender : Str} (hplain : Plain sender)
    (h : forall s, s ∈ senders -> canonical s = s) :
    forall s, s ∈ insert (folded sender) senders -> canonical s = s := by
  intro s hs
  rcases Finset.mem_insert.mp hs with hnew | hold
  · rw [hnew, canonical_folded]
    exact hplain.symm
  · exact h s hold

theorem route_keeps (tenant : DomainTenant) (localPart domain : Str) (call : RouteCall) :
    (tenant.route contentDigest iteration localPart domain call).2.directory = tenant.directory ∧
      (tenant.route contentDigest iteration localPart domain call).2.suspendedUsers =
        tenant.suspendedUsers ∧
      (tenant.route contentDigest iteration localPart domain call).2.blockedSenders =
        tenant.blockedSenders := by
  generalize hrouted : tenant.route contentDigest iteration localPart domain call = result
  cases routed _ _ _ _ _ _ hrouted with
  | refused e | directory hopen hkey | random hopen hnone hrow hlive
  | named hopen hnone hdead hkey => exact ⟨rfl, rfl, rfl⟩

theorem refines_route (call : RouteCall) (h : Refines book gw) :
    Refines book (step contentDigest iteration gw (Event.route call)) := by
  rw [step]
  rcases route_cases call with
    ⟨error, hsame⟩ | ⟨localPart, domain, tenant, hsplit, hsender, htenant⟩
  · rw [hsame]
    exact h
  · rw [route_served hsplit hsender htenant]
    refine ⟨?_, h.blocked, h.plain⟩
    rcases route_keeps tenant localPart domain call with ⟨hdirectory, hsuspended, hblocked⟩
    intro d
    by_cases hd : d = domain
    · have hpage := h.domains domain
      rw [htenant] at hpage
      rw [hd, Finmap.lookup_insert]
      revert hpage
      generalize book.domains domain = page
      intro hpage
      cases hpage with
      | some hpage => exact Option.Rel.some (hpage.congr hdirectory hsuspended hblocked)
    · rw [Finmap.lookup_insert_of_ne _ hd]
      exact h.domains d

theorem refines_step (book : Book) (gw : MultiDomainGateway) (e : Event) (h : Refines book gw)
    (hplain : Plainly contentDigest gw e) :
    Refines (book.note e) (step contentDigest iteration gw e) := by
  cases e with
  | addDomain domain => exact refines_addDomain domain h
  | removeDomain domain => exact refines_removeDomain domain h
  | addRecipient email key =>
      rw [step, addRecipient, Book.note]
      apply refines_enter _ _ hplain h
      · intro tenant
        exact ⟨rfl, rfl⟩
      · intro tenant
        exact ⟨AList.lookup_insert _, fun addr hne => AList.lookup_insert_ne hne⟩
  | removeRecipient email =>
      rw [step, removeRecipient, Book.note]
      apply refines_enter _ _ hplain h
      · intro tenant
        exact ⟨rfl, rfl⟩
      · intro tenant
        exact ⟨AList.lookup_erase _ _, fun addr hne => AList.lookup_erase_ne hne⟩
  | allocateVanity domain publicKey name =>
      apply refines_aliases _ h
      intro tenant
      rcases tenant.aliases.allocateVanity publicKey name with ⟨e | bound, aliases⟩
      · exact ⟨rfl, rfl, rfl⟩
      · exact ⟨rfl, rfl, rfl⟩
  | revokeVanity domain publicKey | burnRandomAlias domain token =>
      apply refines_aliases _ h
      intro tenant
      exact ⟨rfl, rfl, rfl⟩
  | mintRandomAlias domain target correspondent ttlMs oneTime nowMs draws =>
      apply refines_aliases _ h
      intro tenant
      cases tenant.random.mintWith target correspondent ttlMs oneTime nowMs draws with
      | none | some minted => exact ⟨rfl, rfl, rfl⟩
  | blockSender domain sender =>
      have hplain : folded sender = canonical sender := hplain
      apply refines_amend _ h
      intro page tenant hpage
      refine ⟨hpage.recipient, hpage.suspended, ?_, plain_insert hplain hpage.plain⟩
      show insert (folded sender) tenant.blockedSenders = insert (canonical sender) page.blocked
      rw [hplain, hpage.blocked]
  | unblockSender domain sender =>
      have hplain : folded sender = canonical sender := hplain
      apply refines_amend _ h
      intro page tenant hpage
      refine ⟨hpage.recipient, hpage.suspended, ?_,
        fun s hs => hpage.plain s (Finset.mem_of_mem_erase hs)⟩
      show tenant.blockedSenders.erase (folded sender) = page.blocked.erase (canonical sender)
      rw [hplain, hpage.blocked]
  | blockSenderGlobal sender =>
      have hplain : folded sender = canonical sender := hplain
      refine ⟨h.domains, ?_, plain_insert hplain h.plain⟩
      show insert (folded sender) gw.globalBlocked = insert (canonical sender) book.blocked
      rw [hplain, h.blocked]
  | unblockSenderGlobal sender =>
      have hplain : folded sender = canonical sender := hplain
      refine ⟨h.domains, ?_, fun s hs => h.plain s (Finset.mem_of_mem_erase hs)⟩
      show gw.globalBlocked.erase (folded sender) = book.blocked.erase (canonical sender)
      rw [hplain, h.blocked]
  | suspendUser domain user =>
      have hplain : lower (localPartOf user) = userNamed user := hplain
      apply refines_amend _ h
      intro page tenant hpage
      refine ⟨hpage.recipient, ?_, hpage.blocked, hpage.plain⟩
      show insert (lower (localPartOf user)) tenant.suspendedUsers =
        insert (userNamed user) page.suspended
      rw [hplain, hpage.suspended]
  | unsuspendUser domain user =>
      have hplain : lower (localPartOf user) = userNamed user := hplain
      apply refines_amend _ h
      intro page tenant hpage
      refine ⟨hpage.recipient, ?_, hpage.blocked, hpage.plain⟩
      show tenant.suspendedUsers.erase (lower (localPartOf user)) =
        page.suspended.erase (userNamed user)
      rw [hplain, hpage.suspended]
  | route call => exact refines_route call h

/-!
# Lawful runs
-/

theorem refines_after {events : List Event} (h : Refines book gw)
    (hmeet : StepsMeet (step contentDigest iteration) (Plainly contentDigest) gw events) :
    Refines (events.foldl Book.note book) (after (step contentDigest iteration) gw events) := by
  induction events generalizing book gw with
  | nil => exact h
  | cons e rest ih => exact ih (refines_step book gw e h hmeet.1) hmeet.2

theorem named_directory {tenant : DomainTenant} {domain : Str} {nowMs : Nat}
    {key : RecipientKey} (h : tenant.directory.lookup (address localPart domain) = some key) :
    Recipient.directory key ∈ tenant.named contentDigest localPart domain nowMs := by
  rw [DomainTenant.named, h]
  simp

theorem named_random {tenant : DomainTenant} (domain : Str) {nowMs : Nat} {row : AliasRow}
    (hrow : tenant.random.lookup localPart = some row) (hlive : row.live nowMs = true) :
    Recipient.alias row.target ∈ tenant.named contentDigest localPart domain nowMs := by
  rw [DomainTenant.named, hrow, Option.filter_some, if_pos hlive]
  simp

theorem named_alias {tenant : DomainTenant} {domain : Str} {nowMs : Nat}
    {registered : List Bytes} {publicKey : Bytes}
    (hsplit : splitAddress addr = some (localPart, domain))
    (hregistered : registered.Perm (tenant.directory.entries.map fun entry => entry.2.ik))
    (h : tenant.aliases.resolve contentDigest (address localPart domain) registered =
      some publicKey) :
    Recipient.alias (AliasTarget.identity publicKey) ∈
      tenant.named contentDigest localPart domain nowMs := by
  have hclean : lower (trim (address localPart domain)) = address localPart domain :=
    folded_address hsplit
  rw [AliasAllocator.resolve, hclean, rsplitOnce_address hsplit] at h
  simp only at h
  split at h
  · rw [DomainTenant.named]
    rcases Option.or_eq_some_iff.mp h with hvanity | ⟨_, hderived⟩
    · rw [hvanity]
      simp
    · have hmem := hregistered.mem_iff.mp (List.mem_of_find?_eq_some hderived)
      have hname := List.find?_some hderived
      apply List.mem_append_right
      apply List.mem_map_of_mem
      exact List.mem_filter.mpr ⟨hmem, by simpa using hname⟩
  · cases h

theorem named_of_route {tenant : DomainTenant} {domain : Str} {target : Recipient}
    (hsplit : splitAddress call.rcpt = some (localPart, domain))
    (h : (tenant.route contentDigest iteration localPart domain call).1 = Except.ok target) :
    folded call.sender ∉ tenant.blockedSenders ∧ localPart ∉ tenant.suspendedUsers ∧
      target ∈ tenant.named contentDigest localPart domain call.nowMs := by
  revert h
  generalize hrouted : tenant.route contentDigest iteration localPart domain call = result
  cases routed _ _ _ _ _ _ hrouted with
  | refused e => exact fun h => nomatch h
  | directory hopen hkey =>
      intro h
      cases h
      refine ⟨hopen.sender, hopen.user, named_directory ?_⟩
      rw [<- hkey]
      exact congrArg (fun addr => tenant.directory.lookup addr) (folded_address hsplit).symm
  | random hopen hnone hrow hlive =>
      intro h
      cases h
      exact ⟨hopen.sender, hopen.user, named_random domain hrow hlive⟩
  | named hopen hnone hdead hkey =>
      intro h
      cases h
      exact ⟨hopen.sender, hopen.user, named_alias hsplit (iteration.perm _ _) hkey⟩

theorem route_directory {tenant : DomainTenant} {domain : Str} {key : RecipientKey}
    (hsplit : splitAddress call.rcpt = some (localPart, domain))
    (hsender : folded call.sender ∉ tenant.blockedSenders)
    (huser : localPart ∉ tenant.suspendedUsers)
    (hkey : tenant.directory.lookup (address localPart domain) = some key) :
    (tenant.route contentDigest iteration localPart domain call).1 =
      Except.ok (Recipient.directory key) := by
  have hfiled : tenant.directory.lookup (folded (address localPart domain)) = some key :=
    (congrArg (fun addr => tenant.directory.lookup addr) (folded_address hsplit)).trans hkey
  rw [DomainTenant.route, if_neg hsender, if_neg huser]
  simp only [hfiled]

theorem Refines.tenant {domain : Str} {page : DomainBook} (h : Refines book gw)
    (hpage : book.domains domain = some page) :
    exists tenant, gw.tenants.lookup domain = some tenant ∧ Records domain page tenant := by
  have hdomain := h.domains domain
  rw [hpage] at hdomain
  revert hdomain
  generalize gw.tenants.lookup domain = tenant
  intro hdomain
  cases hdomain with
  | some hrecords => exact ⟨_, rfl, hrecords⟩

theorem served_of_route {target : Recipient}
    (h : (gw.route contentDigest iteration call).1 = Except.ok target) :
    exists localPart domain tenant, splitAddress call.rcpt = some (localPart, domain) ∧
      folded call.sender ∉ gw.globalBlocked ∧ gw.tenants.lookup domain = some tenant ∧
      (tenant.route contentDigest iteration localPart domain call).1 = Except.ok target := by
  rcases route_cases call with
    ⟨error, hsame⟩ | ⟨localPart, domain, tenant, hsplit, hsender, htenant⟩
  · rw [hsame] at h
    cases h
  · rw [route_served hsplit hsender htenant] at h
    exact ⟨localPart, domain, tenant, hsplit, hsender, htenant, h⟩

theorem folded_not_mem {senders : Finset Str} {sender : Str}
    (hplain : forall s, s ∈ senders -> canonical s = s) (h : canonical sender ∉ senders) :
    folded sender ∉ senders := by
  intro hmem
  apply h
  rw [<- canonical_folded, hplain _ hmem]
  exact hmem

theorem lawful_route (h : Refines book gw) (hplain : PlainCall contentDigest gw call) :
    Lawful book call (gw.route contentDigest iteration call).1 := by
  constructor
  · intro d page user target hpage huser htarget
    rcases served_of_route htarget with ⟨localPart, domain, tenant, hsplit, _, htenant, hrouted⟩
    rcases named_of_route hsplit hrouted with ⟨_, hlocal, hnamed⟩
    rcases h.tenant hpage with ⟨other, hother, hrecords⟩
    rw [<- hrecords.recipient user]
    rw [<- hrecords.suspended] at huser
    exact (hplain localPart domain tenant hsplit htenant).2 hlocal d other user target hother huser
      hnamed
  · intro localPart domain page target hsplit hpage hblocked htarget
    rcases served_of_route htarget with ⟨_, _, tenant, hsplit', hglobal, htenant, hrouted⟩
    rw [hsplit] at hsplit'
    cases hsplit'
    rcases h.tenant hpage with ⟨other, hother, hrecords⟩
    rw [htenant] at hother
    cases hother
    rw [<- h.blocked, <- hrecords.blocked] at hblocked
    have hsender := (hplain localPart domain tenant hsplit htenant).1 hblocked
    rw [<- hsender] at hblocked
    rcases hblocked with hall | hhere
    · exact hglobal hall
    · exact (named_of_route hsplit hrouted).1 hhere
  · intro localPart domain page key hsplit hpage hkey huser hglobal hlocal
    rcases h.tenant hpage with ⟨tenant, htenant, hrecords⟩
    rw [<- h.blocked] at hglobal
    rw [<- hrecords.blocked] at hlocal
    rw [<- hrecords.suspended] at huser
    rw [route_served hsplit (folded_not_mem h.plain hglobal) htenant]
    exact route_directory hsplit (folded_not_mem hrecords.plain hlocal) huser
      ((hrecords.recipient localPart).trans hkey)

theorem routesLawfully_of_plainly (contentDigest : Bytes -> FixedBytes 32) (iteration : Iteration)
    (events : List Event)
    (h : StepsMeet (step contentDigest iteration) (Plainly contentDigest) new
      events) :
    RoutesLawfully contentDigest iteration events := by
  constructor
  · intro before call rest hevents
    rw [hevents] at h
    rcases stepsMeet_of_append h with ⟨hbefore, hcall⟩
    exact lawful_route (refines_after refines_new hbefore) hcall.1
  · intro before e rest domain call _ hdomain hother
    rw [after_append]
    exact route_step_of_ne hdomain hother

end Law

def Iteration.inOrder : Iteration where
  arrange := fun _ keys => keys
  perm := fun _ keys => List.Perm.refl keys

/-- No key of the runs below is looked up by its derived name. -/
def noDigest (_ : Bytes) : FixedBytes 32 :=
  FixedBytes.zero 32

def annesKey : RecipientKey := ⟨[1], [2]⟩

/-- A call of `route` for a recipient on the domain of the runs below. -/
def routeFrom (sender rcpt : String) : RouteCall :=
  ⟨sender.toList, rcpt.toList, 0, 0⟩

def servedRun : List Event :=
  [Event.addDomain "a.b".toList, Event.addRecipient "Ann@a.b".toList annesKey]

def plainRun : List Event :=
  servedRun ++
    [Event.blockSender "a.b".toList "Spam@c.d".toList,
      Event.route (routeFrom "bob@c.d" "<ann@A.b>"),
      Event.route (routeFrom "spam@C.d" "<ann@A.b>"),
      Event.suspendUser "a.b".toList "ann@a.b".toList,
      Event.route (routeFrom "bob@c.d" "<ann@A.b>")]

def gatewayAfter (events : List Event) : MultiDomainGateway :=
  after (step noDigest Iteration.inOrder) new events

theorem plainCall_of_unsuspended (events : List Event) {call : RouteCall}
    (hserved : forall e, e ∈ events -> e.domain = some "a.b".toList)
    (hnone : ((gatewayAfter events).tenants.lookup "a.b".toList).map DomainTenant.suspendedUsers =
      some ∅)
    (hsender : Plain call.sender) : PlainCall noDigest (gatewayAfter events) call := by
  intro localPart domain tenant _ _
  refine ⟨fun _ => hsender, ?_⟩
  intro _ d other user target hother huser _
  have hd : d = "a.b".toList := by
    by_contra hd
    have hnever : forall e, e ∈ events -> e.domain ≠ some d := by
      intro e he hdomain
      rw [hserved e he] at hdomain
      injection hdomain with hdomain
      exact hd hdomain.symm
    rw [gatewayAfter, lookup_after_of_ne hnever] at hother
    cases hother
  rw [hd] at hother
  rw [hother, Option.map_some] at hnone
  injection hnone with hnone
  rw [hnone] at huser
  exact absurd huser (Finset.notMem_empty user)

theorem plainCall_of_suspended (events : List Event) {call : RouteCall} (localPart domain : Str)
    (users : Finset Str) (hsplit : splitAddress call.rcpt = some (localPart, domain))
    (hlookup : ((gatewayAfter events).tenants.lookup domain).map DomainTenant.suspendedUsers =
      some users)
    (huser : localPart ∈ users) (hsender : Plain call.sender) :
    PlainCall noDigest (gatewayAfter events) call := by
  intro l d tenant hread htenant
  rw [hsplit] at hread
  cases hread
  rw [htenant, Option.map_some] at hlookup
  injection hlookup with hlookup
  refine ⟨fun _ => hsender, ?_⟩
  intro hnot
  rw [hlookup] at hnot
  exact absurd huser hnot

theorem plainRun_plain :
    StepsMeet (step noDigest Iteration.inOrder) (Plainly noDigest) new plainRun := by
  have hbob : Plain "bob@c.d".toList := by
    unfold Plain
    decide +kernel
  have hspam : Plain "spam@C.d".toList := by
    unfold Plain
    decide +kernel
  refine ⟨trivial, ?_, ?_, ?_, ?_, ?_, ?_, trivial⟩
  · intro localPart domain hsplit
    have hann : splitAddress "Ann@a.b".toList = some ("ann".toList, "a.b".toList) := by
      decide +kernel
    rw [hann] at hsplit
    cases hsplit
    refine ⟨?_, by decide +kernel⟩
    unfold Plain
    decide +kernel
  · show folded _ = canonical _
    decide +kernel
  · exact plainCall_of_unsuspended (plainRun.take 3) (by decide +kernel)
      (by decide +kernel) hbob
  · exact plainCall_of_unsuspended (plainRun.take 4) (by decide +kernel)
      (by decide +kernel) hspam
  · show lower _ = userNamed _
    decide +kernel
  · exact plainCall_of_suspended (plainRun.take 6) "ann".toList "a.b".toList {"ann".toList}
      (by decide +kernel) (by decide +kernel) (by decide +kernel) hbob

theorem routesLawfully_plainRun : RoutesLawfully noDigest Iteration.inOrder plainRun :=
  routesLawfully_of_plainly noDigest Iteration.inOrder plainRun plainRun_plain

/-!
# Other spellings and other names
-/

section Unlawful

variable {book : Book} {call : RouteCall} {result : Except RouteError Recipient}

theorem not_lawful_of_suspended {user domain : Str} {key : Option RecipientKey} {target : Recipient}
    (hpage : ((book.domains domain).map fun page =>
      (decide (user ∈ page.suspended), page.recipient user)) = some (true, key))
    (hresult : result = Except.ok target) (hbelongs : Belongs key user domain target) :
    ¬ Lawful book call result := by
  intro h
  rcases Option.map_eq_some_iff.mp hpage with ⟨page, hdomain, hpair⟩
  injection hpair with huser hkey
  apply h.suspended domain page user target hdomain (of_decide_eq_true huser) hresult
  rw [hkey]
  exact hbelongs

theorem not_lawful_of_blocked {localPart domain : Str} {target : Recipient}
    (hsplit : splitAddress call.rcpt = some (localPart, domain))
    (hpage : ((book.domains domain).map fun page =>
      decide (canonical call.sender ∈ page.blocked)) = some true)
    (hresult : result = Except.ok target) : ¬ Lawful book call result := by
  intro h
  rcases Option.map_eq_some_iff.mp hpage with ⟨page, hdomain, hsender⟩
  exact h.blocked localPart domain page target hsplit hdomain
    (Or.inr (of_decide_eq_true hsender)) hresult

theorem not_lawful_of_undelivered {localPart domain : Str} {key : RecipientKey}
    (hsplit : splitAddress call.rcpt = some (localPart, domain))
    (hpage : ((book.domains domain).map fun page => (page.recipient localPart,
      decide (localPart ∈ page.suspended), decide (canonical call.sender ∈ page.blocked))) =
        some (some key, false, false))
    (hglobal : canonical call.sender ∉ book.blocked)
    (hresult : result ≠ Except.ok (Recipient.directory key)) : ¬ Lawful book call result := by
  intro h
  rcases Option.map_eq_some_iff.mp hpage with ⟨page, hdomain, hparts⟩
  injection hparts with hkey hparts
  injection hparts with huser hsender
  exact hresult (h.delivered localPart domain page key hsplit hdomain hkey
    (of_decide_eq_false huser) hglobal (of_decide_eq_false hsender))

theorem not_routesLawfully {before : List Event}
    (h : ¬ Lawful (before.foldl Book.note Book.empty) call
      ((gatewayAfter before).route noDigest Iteration.inOrder call).1) :
    ¬ RoutesLawfully noDigest Iteration.inOrder (before ++ [Event.route call]) := by
  intro hrun
  exact h (hrun.lawful before call [] rfl)

end Unlawful

def aliasedRun : List Event :=
  servedRun ++
    [Event.allocateVanity "a.b".toList annesKey.ik "cat".toList,
      Event.suspendUser "a.b".toList "ann@a.b".toList]

def bracketedRun : List Event :=
  servedRun ++ [Event.blockSender "a.b".toList "spam@c.d".toList]

def misspelledRun : List Event :=
  servedRun ++ [Event.suspendUser "a.b".toList "<ann@a.b>".toList]

def misfiledRun : List Event :=
  [Event.addDomain "a.b".toList, Event.addRecipient "<ann@a.b>".toList annesKey]

theorem not_routesLawfully_spelled :
    ¬ RoutesLawfully noDigest Iteration.inOrder
      (aliasedRun ++ [Event.route (routeFrom "bob@c.d" "cat@a.b")]) ∧
    ¬ RoutesLawfully noDigest Iteration.inOrder
      (bracketedRun ++ [Event.route (routeFrom "<spam@c.d>" "ann@a.b")]) ∧
    ¬ RoutesLawfully noDigest Iteration.inOrder
      (misspelledRun ++ [Event.route (routeFrom "bob@c.d" "ann@a.b")]) ∧
    ¬ RoutesLawfully noDigest Iteration.inOrder
      (misfiledRun ++ [Event.route (routeFrom "bob@c.d" "ann@a.b")]) := by
  refine ⟨?_, ?_, ?_, ?_⟩
  · apply not_routesLawfully
    apply @not_lawful_of_suspended _ _ _ "ann".toList "a.b".toList (some annesKey)
      (Recipient.alias (AliasTarget.identity annesKey.ik))
    · decide +kernel
    · decide +kernel
    · rfl
  · apply not_routesLawfully
    apply @not_lawful_of_blocked _ _ _ "ann".toList "a.b".toList (Recipient.directory annesKey)
    · decide +kernel
    · decide +kernel
    · decide +kernel
  · apply not_routesLawfully
    apply @not_lawful_of_suspended _ _ _ "ann".toList "a.b".toList (some annesKey)
      (Recipient.directory annesKey)
    · decide +kernel
    · decide +kernel
    · rfl
  · apply not_routesLawfully
    apply @not_lawful_of_undelivered _ _ _ "ann".toList "a.b".toList annesKey
    · decide +kernel
    · decide +kernel
    · decide +kernel
    · decide +kernel

end MultiDomain
end Gateway
end Ephor
