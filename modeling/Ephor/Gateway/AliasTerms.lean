import Ephor.Gateway.RoutingLaw

/-!
# The terms of a random alias

A random alias is minted with terms: how long it lives, whose mail it takes, and whether it is
used up by its first message.  `route` takes the token in any spelling, `burn_random_alias` only
as it was minted, and nobody asks for the scope.  The terms are kept in a run whose burns are
spelled as minted and whose other correspondents are stopped before the row is read.
-/

namespace Ephor
namespace Gateway
namespace MultiDomain

open Foundation
open Foundation.Text
open Foundation.Transition

/-- The arguments of `mint_random_alias`, and the token that is drawn. -/
structure Terms where
  domain : Str
  token : Str
  target : AliasTarget
  correspondent : Option Str
  ttlMs : Option Nat
  oneTime : Bool
  nowMs : Nat
  draws : List Bytes

variable (t : Terms)

def Terms.mint : Event :=
  Event.mintRandomAlias t.domain t.target t.correspondent t.ttlMs t.oneTime t.nowMs t.draws

def Terms.row : AliasRow where
  target := t.target
  correspondent := t.correspondent
  expiresAtMs := t.ttlMs.map fun ttl => min (t.nowMs + ttl) (2 ^ 64 - 1)
  oneTime := t.oneTime
  burned := false

def MultiDomainGateway.row (gw : MultiDomainGateway) : Option AliasRow :=
  (gw.tenants.lookup (folded t.domain)).bind fun tenant => tenant.random.lookup t.token

/-- The call is for the alias, as `route` reads its recipient. -/
def Terms.For (call : RouteCall) : Prop :=
  splitAddress call.rcpt = some (t.token, folded t.domain)

/-- The name in a token that may be qualified, as `route` would read it. -/
def spelledToken (text : Str) : Str :=
  lower (((rsplitOnce '@' (bareAddress text)).map Prod.fst).getD (bareAddress text))

def Terms.Burns : Event -> Prop
  | Event.burnRandomAlias domain text =>
      folded domain = folded t.domain ∧ spelledToken text = t.token
  | _ => False

/-- The token is drawn no second time. -/
def Terms.Fresh : Event -> Prop
  | Event.mintRandomAlias _ _ _ _ _ _ draws => t.token ∉ draws.map encodeBase32Lower
  | _ => True

section Law

variable (contentDigest : Bytes -> FixedBytes 32) (iteration : Iteration)

def Returns (gw : MultiDomainGateway) (call : RouteCall) : Prop :=
  t.For call ∧
    (gw.route contentDigest iteration call).1 = Except.ok (Recipient.alias t.target)

/-- What the terms promise of a call after the operations that follow the minting. -/
structure Honoured (gw : MultiDomainGateway) (before : List Event) (call : RouteCall) :
    Prop where
  expiry : forall ttl, t.ttlMs = some ttl -> call.nowMs < t.nowMs + ttl
  unburned : forall e, e ∈ before -> Not (t.Burns e)
  scope : forall c, t.correspondent = some c -> folded call.sender = folded c
  once : t.oneTime = true -> forall early first rest,
    before = early ++ Event.route first :: rest ->
      Not (Returns t contentDigest iteration
        (after (step contentDigest iteration) gw early) first)

structure KeepsTerms (gw : MultiDomainGateway) (events : List Event) : Prop where
  honoured : forall before call rest, events = before ++ Event.route call :: rest ->
    Returns t contentDigest iteration (after (step contentDigest iteration) gw before) call ->
      Honoured t contentDigest iteration gw before call
  refused : forall before call rest e, events = before ++ Event.route call :: rest ->
    ((after (step contentDigest iteration) gw before).route contentDigest iteration call).1 =
        Except.error e ->
      (after (step contentDigest iteration) gw (before ++ [Event.route call])).row t =
        (after (step contentDigest iteration) gw before).row t

/-- A burn names the token as it was minted; a call for which the row answers is the
correspondent's, and no chosen or derived name takes the place of a row that does not answer. -/
def Minds (gw : MultiDomainGateway) : Event -> Prop
  | Event.burnRandomAlias domain text => t.Burns (Event.burnRandomAlias domain text) ->
      ((rsplitOnce '@' text).map Prod.fst).getD text = t.token
  | Event.route call => t.For call -> folded call.sender ∉ gw.globalBlocked ->
      forall tenant, gw.tenants.lookup (folded t.domain) = some tenant ->
        tenant.Open t.token call ->
        tenant.directory.lookup (folded (address t.token (folded t.domain))) = none ->
          (Answers tenant.random t.token call.nowMs ->
            forall c, t.correspondent = some c -> folded call.sender = folded c) ∧
          (Not (Answers tenant.random t.token call.nowMs) ->
            forall key, t.target = AliasTarget.identity key ->
              tenant.aliases.resolve contentDigest (address t.token (folded t.domain))
                (iteration.arrange call.order
                  (tenant.directory.entries.map fun entry => entry.2.ik)) ≠ some key)
  | _ => True

end Law

/-!
# What becomes of a row
-/

def Later (old new : Option AliasRow) : Prop :=
  forall row, new = some row -> exists before, old = some before ∧
    row = { before with burned := row.burned } ∧ (before.burned = true -> row.burned = true)

variable {t} {contentDigest : Bytes -> FixedBytes 32} {iteration : Iteration}

variable {gw : MultiDomainGateway} {call : RouteCall}

theorem later_refl (row : Option AliasRow) : Later row row :=
  fun row h => ⟨row, h, rfl, id⟩

theorem later_none (row : Option AliasRow) : Later row none := by
  intro row h
  cases h

theorem later_burned {rows : GatewayAliasMap} {name : Str} {row : AliasRow}
    (h : rows.lookup name = some row) (token : Str) :
    Later (rows.lookup token)
      (Finmap.lookup token (rows.insert name { row with burned := true })) := by
  by_cases hname : token = name
  · rw [hname, h, Finmap.lookup_insert]
    intro new hnew
    cases hnew
    exact ⟨row, rfl, rfl, fun _ => rfl⟩
  · rw [Finmap.lookup_insert_of_ne _ hname]
    exact later_refl _

theorem later_onTenant {α : Type} {domain : Str}
    {f : DomainTenant -> Except MultiDomainError (α × DomainTenant)}
    (h : forall tenant, Later (tenant.random.lookup t.token)
      ((tenantAfter tenant (f tenant)).random.lookup t.token)) :
    Later (gw.row t) ((kept gw (gw.onTenant domain f)).row t) := by
  rw [MultiDomainGateway.row, MultiDomainGateway.row, lookup_onTenant]
  split
  · cases gw.tenants.lookup (folded t.domain) with
    | none => exact later_refl none
    | some tenant => exact h tenant
  · exact later_refl _

theorem later_onAddress {α : Type} {email : Str}
    {f : DomainTenant -> Except MultiDomainError (α × DomainTenant)}
    (h : forall tenant, (tenantAfter tenant (f tenant)).random = tenant.random) :
    Later (gw.row t) ((kept gw (gw.onAddress email f)).row t) := by
  cases hsplit : splitAddress email with
  | none =>
      rw [kept_onAddress_of_none hsplit]
      exact later_refl _
  | some parts =>
      rw [kept_onAddress hsplit]
      exact later_onTenant fun tenant => by
        rw [h tenant]
        exact later_refl _

theorem later_route (tenant : DomainTenant) (localPart domain : Str) (call : RouteCall)
    (token : Str) : Later (tenant.random.lookup token)
      ((tenant.route contentDigest iteration localPart domain call).2.random.lookup token) := by
  generalize hrouted : tenant.route contentDigest iteration localPart domain call = result
  cases routed _ _ _ _ _ _ hrouted with
  | refused e | directory hopen hkey | named hopen hnone hdead hkey => exact later_refl _
  | random hopen hnone hrow hlive =>
      simp only
      split
      · exact later_burned hrow token
      · exact later_refl _

theorem later_step {e : Event} (hfresh : t.Fresh e) :
    Later (gw.row t) ((step contentDigest iteration gw e).row t) := by
  cases e with
  | addDomain domain =>
      rcases addDomain_cases domain with ⟨_, hsame⟩ | ⟨_, aliases, hadded⟩
      · rw [hsame]
        exact later_refl _
      · rw [hadded, MultiDomainGateway.row, MultiDomainGateway.row]
        by_cases hd : folded t.domain = folded domain
        · rw [hd, Finmap.lookup_insert]
          exact later_none _
        · rw [Finmap.lookup_insert_of_ne _ hd]
          exact later_refl _
  | removeDomain domain =>
      show Later _ ((Finmap.lookup (folded t.domain) (gw.tenants.erase (folded domain))).bind _)
      by_cases hd : folded t.domain = folded domain
      · rw [hd, Finmap.lookup_erase]
        exact later_none _
      · rw [Finmap.lookup_erase_ne hd]
        exact later_refl _
  | addRecipient email key | removeRecipient email => exact later_onAddress fun _ => rfl
  | allocateVanity domain publicKey name =>
      apply later_onTenant
      intro tenant
      rcases tenant.aliases.allocateVanity publicKey name with ⟨e | bound, aliases⟩
      · exact later_refl _
      · exact later_refl _
  | revokeVanity domain publicKey | blockSender domain sender | unblockSender domain sender
  | suspendUser domain user | unsuspendUser domain user =>
      exact later_onTenant fun _ => later_refl _
  | mintRandomAlias domain target correspondent ttlMs oneTime nowMs draws =>
      apply later_onTenant
      intro tenant
      rw [GatewayAliasMap.mintWith, GatewayAliasMap.mintRow]
      cases hdrawn : (draws.map encodeBase32Lower).find? fun token =>
          (tenant.random.lookup token).isNone with
      | none => exact later_refl _
      | some token =>
          have hne : t.token ≠ token := by
            intro heq
            exact hfresh (heq ▸ List.mem_of_find?_eq_some hdrawn)
          show Later _ (Finmap.lookup t.token (Finmap.insert token _ tenant.random))
          rw [Finmap.lookup_insert_of_ne _ hne]
          exact later_refl _
  | burnRandomAlias domain text =>
      apply later_onTenant
      intro tenant
      rw [GatewayAliasMap.burn]
      cases hrow : tenant.random.lookup (((rsplitOnce '@' text).map Prod.fst).getD text) with
      | none => exact later_refl _
      | some row => exact later_burned hrow t.token
  | blockSenderGlobal sender => exact later_refl _
  | unblockSenderGlobal sender => exact later_refl _
  | route call =>
      rw [step]
      rcases route_cases call with
        ⟨error, hsame⟩ | ⟨localPart, domain, tenant, hsplit, hsender, htenant⟩
      · rw [hsame]
        exact later_refl _
      · rw [route_served hsplit hsender htenant, MultiDomainGateway.row, MultiDomainGateway.row]
        by_cases hd : folded t.domain = domain
        · rw [hd, htenant, Finmap.lookup_insert]
          exact later_route tenant localPart domain call t.token
        · rw [Finmap.lookup_insert_of_ne _ hd]
          exact later_refl _

theorem Later.trans {a b c : Option AliasRow} (h : Later a b) (hnext : Later b c) : Later a c := by
  intro row hrow
  rcases hnext row hrow with ⟨between, hbetween, hsame, hburned⟩
  rcases h between hbetween with ⟨before, hbefore, hold, hearlier⟩
  refine ⟨before, hbefore, ?_, fun hb => hburned (hearlier hb)⟩
  rw [hsame, hold]

theorem later_after {events : List Event} (hfresh : forall e, e ∈ events -> t.Fresh e) :
    Later (gw.row t) ((after (step contentDigest iteration) gw events).row t) := by
  refine invariant_of_mem (fun gw' : MultiDomainGateway =>
    Later (gw.row t) (gw'.row t)) ?_ (later_refl _)
  exact fun gw' e he hlater => hlater.trans (later_step (hfresh e he))

theorem row_mint (hnew : gw.row t = none)
    (hrow : ((step contentDigest iteration gw t.mint).row t).isSome) :
    (step contentDigest iteration gw t.mint).row t = some t.row := by
  revert hrow
  rw [Terms.mint, step, MultiDomainGateway.row, MultiDomainGateway.mintRandomAlias,
    lookup_onTenant, if_pos rfl]
  rw [MultiDomainGateway.row] at hnew
  cases htenant : gw.tenants.lookup (folded t.domain) with
  | none =>
      intro hrow
      cases hrow
  | some tenant =>
      rw [htenant] at hnew
      change tenant.random.lookup t.token = none at hnew
      rw [Option.map_some, Option.bind_some, GatewayAliasMap.mintWith, GatewayAliasMap.mintRow]
      cases (t.draws.map encodeBase32Lower).find? fun token =>
          (tenant.random.lookup token).isNone with
      | none =>
          intro hrow
          change (tenant.random.lookup t.token).isSome = true at hrow
          rw [hnew] at hrow
          cases hrow
      | some token =>
          intro hrow
          change (Finmap.lookup t.token (tenant.random.insert token t.row)).isSome = true at hrow
          show Finmap.lookup t.token (tenant.random.insert token t.row) = some t.row
          by_cases htoken : t.token = token
          · rw [htoken, Finmap.lookup_insert]
          · rw [Finmap.lookup_insert_of_ne _ htoken, hnew] at hrow
            cases hrow

/-!
# What a call does with the row
-/

theorem live_of_returns (hminds : Minds t contentDigest iteration gw (Event.route call))
    (h : Returns t contentDigest iteration gw call) :
    (forall c, t.correspondent = some c -> folded call.sender = folded c) ∧
      exists row, gw.row t = some row ∧ row.live call.nowMs = true ∧
        (row.oneTime = true -> (step contentDigest iteration gw (Event.route call)).row t =
          some { row with burned := true }) := by
  rcases h with ⟨hfor, hreturns⟩
  rcases @route_cases contentDigest iteration gw call with
    ⟨error, hsame⟩ | ⟨localPart, domain, tenant, hsplit, hsender, htenant⟩
  · rw [hsame] at hreturns
    cases hreturns
  · cases Option.some.inj (hsplit.symm.trans hfor)
    have hserved : gw.route contentDigest iteration call = _ :=
      route_served hsplit hsender htenant
    rw [hserved] at hreturns
    generalize hrouted : tenant.route contentDigest iteration t.token (folded t.domain) call =
      result at hserved hreturns
    cases routed _ _ _ _ _ _ hrouted with
    | refused e | directory hopen hkey => cases hreturns
    | named hopen hnone hdead hkey =>
        injection hreturns with htarget
        injection htarget with htarget
        exact absurd hkey
          ((hminds hfor hsender tenant htenant hopen hnone).2 hdead _ htarget.symm)
    | @random row hopen hnone hrow hlive =>
        refine ⟨(hminds hfor hsender tenant htenant hopen hnone).1 ⟨row, hrow, hlive⟩, row, ?_,
          hlive, ?_⟩
        · rw [MultiDomainGateway.row, htenant]
          exact hrow
        · intro hone
          rw [step, hserved, MultiDomainGateway.row, Finmap.lookup_insert]
          simp only [hone, if_true, Option.bind_some]
          exact Finmap.lookup_insert _

theorem row_refused {e : RouteError}
    (h : (gw.route contentDigest iteration call).1 = Except.error e) :
    (gw.route contentDigest iteration call).2.row t = gw.row t := by
  rcases @route_cases contentDigest iteration gw call with
    ⟨error, hsame⟩ | ⟨localPart, domain, tenant, hsplit, hsender, htenant⟩
  · rw [hsame]
  · rw [route_served hsplit hsender htenant] at h ⊢
    generalize hrouted : tenant.route contentDigest iteration localPart domain call = result at h ⊢
    cases routed _ _ _ _ _ _ hrouted with
    | refused e =>
        rw [MultiDomainGateway.row, MultiDomainGateway.row]
        by_cases hd : folded t.domain = domain
        · rw [hd, htenant, Finmap.lookup_insert]
        · rw [Finmap.lookup_insert_of_ne _ hd]
    | directory hopen hkey | named hopen hnone hdead hkey | random hopen hnone hrow hlive => cases h

theorem later_burn {e : Event} (hminds : Minds t contentDigest iteration gw e)
    (hburns : t.Burns e) (h : Later (some t.row) (gw.row t)) :
    Later (some { t.row with burned := true }) ((step contentDigest iteration gw e).row t) := by
  cases e with
  | burnRandomAlias domain text =>
      have hname := hminds hburns
      rw [step, MultiDomainGateway.row, MultiDomainGateway.burnRandomAlias, lookup_onTenant,
        if_pos hburns.1.symm]
      rw [MultiDomainGateway.row] at h
      cases htenant : gw.tenants.lookup (folded t.domain) with
      | none => exact later_none _
      | some tenant =>
          rw [htenant] at h
          change Later (some t.row) (tenant.random.lookup t.token) at h
          rw [hname, Option.map_some, Option.bind_some, GatewayAliasMap.burn]
          cases hrow : tenant.random.lookup t.token with
          | none =>
              show Later _ (tenant.random.lookup t.token)
              rw [hrow]
              exact later_none _
          | some row =>
              show Later _ (Finmap.lookup t.token (tenant.random.insert t.token _))
              rw [Finmap.lookup_insert]
              rcases h row hrow with ⟨before, hbefore, hsame, _⟩
              intro new hnew
              cases hnew
              cases hbefore
              exact ⟨_, rfl, by rw [hsame], fun _ => rfl⟩
  | _ => exact hburns.elim

theorem not_live_of_burned {row : AliasRow} {nowMs : Nat}
    (h : Later (some { t.row with burned := true }) (some row)) : row.live nowMs ≠ true := by
  rcases h row rfl with ⟨before, hbefore, _, hburned⟩
  cases hbefore
  rw [AliasRow.live, hburned rfl]
  exact Bool.false_ne_true

theorem keepsTerms_of_minds {events : List Event} (hgw : Later (some t.row) (gw.row t))
    (hfresh : forall e, e ∈ events -> t.Fresh e)
    (hmeet : StepsMeet (step contentDigest iteration) (Minds t contentDigest iteration) gw events) :
    KeepsTerms t contentDigest iteration gw events := by
  have hminds : forall before e rest, events = before ++ e :: rest ->
      Minds t contentDigest iteration (after (step contentDigest iteration) gw before) e := by
    intro before e rest hevents
    rw [hevents] at hmeet
    exact (stepsMeet_of_append hmeet).2.1
  -- The row after some of the operations is the one that was minted, perhaps burned.
  have hrows : forall before rest, events = before ++ rest -> Later (some t.row)
      ((after (step contentDigest iteration) gw before).row t) := by
    intro before rest hevents
    exact hgw.trans (later_after fun e he => hfresh e (hevents ▸ List.mem_append_left rest he))
  -- Once it is burned by one of them, no later call has the target from it.
  have hdead : forall early e middle call rest,
      events = early ++ e :: (middle ++ Event.route call :: rest) ->
      Later (some { t.row with burned := true })
        ((step contentDigest iteration (after (step contentDigest iteration) gw early) e).row t) ->
      Not (Returns t contentDigest iteration
        (after (step contentDigest iteration) gw (early ++ e :: middle)) call) := by
    intro early e middle call rest hevents hburned hreturns
    have hsplit : events = (early ++ e :: middle) ++ Event.route call :: rest := by
      rw [hevents, List.append_assoc, List.cons_append]
    rcases live_of_returns (hminds _ _ rest hsplit) hreturns with ⟨_, row, hat, hlive, _⟩
    apply not_live_of_burned (t := t) _ hlive
    rw [<- hat, after_append]
    apply hburned.trans
    apply later_after
    intro x hx
    apply hfresh
    rw [hsplit]
    exact List.mem_append_left _ (List.mem_append_right _ (List.mem_cons_of_mem e hx))
  refine ⟨?_, fun before call rest e _ herror => ?_⟩
  · intro before call rest hevents hreturns
    rcases live_of_returns (hminds _ _ rest hevents) hreturns with ⟨hscope, row, hat, hlive, _⟩
    rcases hrows before _ hevents row hat with ⟨minted, hminted, hsame, _⟩
    cases hminted
    refine ⟨?_, ?_, hscope, ?_⟩
    · intro ttl httl
      rw [hsame, AliasRow.live, Bool.not_eq_true', Bool.or_eq_false_iff] at hlive
      have hexpiry := hlive.2
      rw [AliasRow.isExpired, Terms.row, httl] at hexpiry
      have hlt : Not (min (t.nowMs + ttl) (2 ^ 64 - 1) <= call.nowMs) :=
        of_decide_eq_false hexpiry
      omega
    · intro e he hburns
      rcases List.append_of_mem he with ⟨early, middle, hbefore⟩
      rw [hbefore, List.append_assoc, List.cons_append] at hevents
      rw [hbefore] at hreturns
      exact hdead early e middle call rest hevents
        (later_burn (hminds _ _ _ hevents) hburns (hrows early _ hevents)) hreturns
    · intro hone early first middle hbefore hfirst
      rw [hbefore, List.append_assoc, List.cons_append] at hevents
      rw [hbefore] at hreturns
      refine hdead early _ middle call rest hevents ?_ hreturns
      rcases live_of_returns (hminds _ _ _ hevents) hfirst with ⟨_, used, hused, _, honce⟩
      rcases hrows early _ hevents used hused with ⟨minted, hminted, hrow, _⟩
      cases hminted
      rw [honce (by rw [hrow]; exact hone), hrow]
      exact later_refl _
  · rw [after_append]
    exact row_refused herror

/--
In a run after the minting of a fresh token in which burns name it as minted and the calls its
row answers are its correspondent's, a call returns the target before the expiry, after no burn,
for the correspondent alone and once if the alias is for one message; a refused call changes no
row.
-/
theorem alias_keeps_its_terms (t : Terms) (contentDigest : Bytes -> FixedBytes 32)
    (iteration : Iteration) (gw : MultiDomainGateway) (events : List Event)
    (hnew : gw.row t = none) (hrow : ((step contentDigest iteration gw t.mint).row t).isSome)
    (hfresh : forall e, e ∈ events -> t.Fresh e)
    (hmeet : StepsMeet (step contentDigest iteration) (Minds t contentDigest iteration)
      (step contentDigest iteration gw t.mint) events) :
    KeepsTerms t contentDigest iteration (step contentDigest iteration gw t.mint) events := by
  apply keepsTerms_of_minds _ hfresh hmeet
  rw [row_mint hnew hrow]
  exact later_refl _

def shopTerms : Terms where
  domain := "a.b".toList
  token := encodeBase32Lower (List.replicate 16 0)
  target := AliasTarget.native "ann".toList "c.d".toList
  correspondent := some "shop@c.d".toList
  ttlMs := some 10
  oneTime := false
  nowMs := 0
  draws := [List.replicate 16 0]

def callFrom (sender : String) : RouteCall :=
  ⟨sender.toList, address shopTerms.token shopTerms.domain, 5, 0⟩

def shopRun : List Event :=
  [Event.route (callFrom "Shop@c.d"),
    Event.burnRandomAlias "a.b".toList (address shopTerms.token "A.b".toList),
    Event.route (callFrom "shop@c.d")]

theorem shop_alias_keeps_its_terms : KeepsTerms shopTerms noDigest Iteration.inOrder
    (step noDigest Iteration.inOrder (gatewayAfter [Event.addDomain "a.b".toList])
      shopTerms.mint) shopRun := by
  have hroute : forall (gw : MultiDomainGateway) sender,
      folded (callFrom sender).sender = folded "shop@c.d".toList ->
      Minds shopTerms noDigest Iteration.inOrder gw (Event.route (callFrom sender)) := by
    intro gw sender hsender _ _ tenant _ _ _
    refine ⟨fun _ c hc => ?_, fun _ key hkey => (nomatch hkey)⟩
    cases hc
    exact hsender
  apply alias_keeps_its_terms
  · decide +kernel
  · decide +kernel
  · intro e he
    simp only [shopRun, List.mem_cons, List.not_mem_nil, or_false] at he
    rcases he with rfl | rfl | rfl
    · trivial
    · trivial
    · trivial
  · refine ⟨hroute _ _ (by decide), ?_, hroute _ _ (by decide), trivial⟩
    intro _
    decide +kernel

theorem terms_are_not_enforced :
    Not (KeepsTerms shopTerms noDigest Iteration.inOrder
      (step noDigest Iteration.inOrder (gatewayAfter [Event.addDomain "a.b".toList])
        shopTerms.mint) [Event.route (callFrom "spam@c.d")]) ∧
    Not (KeepsTerms shopTerms noDigest Iteration.inOrder
      (step noDigest Iteration.inOrder (gatewayAfter [Event.addDomain "a.b".toList])
        shopTerms.mint)
      [Event.burnRandomAlias "a.b".toList (shopTerms.token.map Char.toUpper),
        Event.route (callFrom "shop@c.d")]) := by
  have hfor : forall sender, shopTerms.For (callFrom sender) := by
    intro sender
    show splitAddress (address shopTerms.token shopTerms.domain) = _
    decide +kernel
  constructor
  · intro h
    have hscope := (h.honoured [] _ [] rfl ⟨hfor _, by decide +kernel⟩).scope _ rfl
    revert hscope
    decide
  · intro h
    have hunburned := (h.honoured [_] _ [] rfl ⟨hfor _, by decide +kernel⟩).unburned
    apply hunburned _ List.mem_cons_self
    constructor
    · rfl
    · decide +kernel

end MultiDomain
end Gateway
end Ephor
