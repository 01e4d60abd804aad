import Ephor.Client.Endpoints

/-!
# Where the session cookie goes

The hosts that a credentialed probe may reach: the document's own, those of the deployment,
those that a backend target named, and those that the embedding page allows.  The cache is not
among the sources, and anyone may write to it.
-/

namespace Ephor
namespace Client
namespace Endpoints

open Foundation
open Foundation.WebText
open Foundation.WebUrl
open Foundation.Transition

variable (env : Environment)

def BackendTarget.hosts (target : BackendTarget) : List Str :=
  hostOf env target.cloud ++ hostOf env target.lan

def Event.named : Event -> List Str
  | Event.seedFromResolveBackend (some target) => target.hosts env
  | _ => []

/-- A URL at the document's origin, or at a trusted host over https. -/
def Trusted (named : List Str) (allowed : List Str) (u : Url) : Prop :=
  u.origin = env.location.url.origin ∨
    u.protocol = Scheme.https.name ∧
      (u.host = env.location.host ∨ u.host ∈ deployedHosts env ∨ u.host ∈ named ∨
        exists entry, entry ∈ allowed ∧ hostMatches u.host entry = true)

instance (named allowed : List Str) (u : Url) : Decidable (Trusted env named allowed u) :=
  inferInstanceAs (Decidable (_ ∨ _))

/-- Every fetch of the run that goes over http or https goes to a trusted place. -/
def CookiesKept (s : State) (events : List Event) : Prop :=
  forall before e later, events = before ++ e :: later ->
    forall url, url ∈ fetches env (after (step env) s before) e ->
      forall u, parse env.hosts env.location url = some u -> Scheme.ofName u.protocol ≠ none ->
        Trusted env (before.flatMap (Event.named env))
          (after (step env) s before).allowedProbeHosts u

def Known (s : State) (host : Str) : Prop :=
  host = env.location.host ∨ host ∈ configuredHosts env s

/--
The health path stays; a target is completed from the cache only with endpoints of known hosts;
and no endpoint is probed that is just a slash.
-/
def Careful (s : State) : Event -> Prop
  | Event.configure opts => orElse (opts.healthPath.getD []) defaultHealthPath = defaultHealthPath
  | Event.seedFromResolveBackend (some target) =>
      (target.cloud = [] -> forall host, host ∈ hostOf env (seededPair env target s).cloud ->
        Known env s host) ∧
      (target.lan = [] -> forall host, host ∈ hostOf env (seededPair env target s).lan ->
        Known env s host)
  | Event.selectEndpoint force now =>
      selects s force now = true -> forall base, base ∈ candidates (resolvedPair env s) ->
        bareSlash env.location base = false
  | _ => True

instance (s : State) (host : Str) : Decidable (Known env s host) :=
  inferInstanceAs (Decidable (_ ∨ _))

instance decidableCareful (s : State) : forall e, Decidable (Careful env s e)
  | Event.configure _ => inferInstanceAs (Decidable (_ = _))
  | Event.seedFromResolveBackend (some _) =>
      inferInstanceAs (Decidable ((_ -> forall host, host ∈ _ -> _) ∧
        (_ -> forall host, host ∈ _ -> _)))
  | Event.seedFromResolveBackend none => inferInstanceAs (Decidable True)
  | Event.selectEndpoint _ _ =>
      inferInstanceAs (Decidable (_ -> forall base, base ∈ _ -> _))
  | Event.resolveEndpoints => inferInstanceAs (Decidable True)
  | Event.settle _ _ => inferInstanceAs (Decidable True)
  | Event.invalidateEndpoint => inferInstanceAs (Decidable True)
  | Event.store _ _ => inferInstanceAs (Decidable True)

/-- The seeded hosts are the document's, deployed ones or named ones. -/
structure Seeded (named : List Str) (s : State) : Prop where
  healthPath : s.healthPath = defaultHealthPath
  hosts : forall host, host ∈ s.seededHosts ->
    host = env.location.host ∨ host ∈ deployedHosts env ∨ host ∈ named

variable {env}

theorem plainPath_default : PlainPath defaultHealthPath where
  slash := ⟨'a', _, rfl, rfl⟩
  plain := by
    have hplain : defaultHealthPath.all (fun c => !isBlank c) = true := by
      decide
    intro c hc
    simpa using List.all_eq_true.mp hplain c hc

/-!
# One probe
-/

variable {named : List Str} {s : State}

theorem trusted_of_allowed (h : Seeded env named s) {base : Str} (hbase : base ≠ [])
    (hallowed : isCredentialedProbeAllowed env s base = true) :
    exists u, parse env.hosts env.location base = some u ∧
      Trusted env named s.allowedProbeHosts u := by
  rw [isCredentialedProbeAllowed, parseBase, if_neg hbase, beq_false_of_ne hbase, Bool.false_or]
    at hallowed
  cases hparse : parse env.hosts env.location base with
  | none =>
      simp only [hparse] at hallowed
      cases hallowed
  | some u =>
      refine ⟨u, rfl, ?_⟩
      simp only [hparse, Bool.or_eq_true, Bool.and_eq_true, List.contains_iff_mem, List.any_eq_true]
        at hallowed
      rcases hallowed with hsame | ⟨hhttps, (⟨_, hown⟩ | hconfigured) | hentry⟩
      · exact Or.inl (eq_of_beq hsame)
      · exact Or.inr ⟨eq_of_beq hhttps, Or.inl (eq_of_beq hown)⟩
      · refine Or.inr ⟨eq_of_beq hhttps, ?_⟩
        rcases List.mem_append.mp hconfigured with hdeployed | hseeded
        · exact Or.inr (Or.inl hdeployed)
        · rcases h.hosts u.host hseeded with hown | hdeployed | hnamed
          · exact Or.inl hown
          · exact Or.inr (Or.inl hdeployed)
          · exact Or.inr (Or.inr (Or.inl hnamed))
      · exact Or.inr ⟨eq_of_beq hhttps, Or.inr (Or.inr (Or.inr hentry))⟩

theorem trusted_of_probe (h : Seeded env named s) {base url : Str}
    (hbare : bareSlash env.location base = false) (hprobe : probe env s base = some url)
    {u : Url} (hu : parse env.hosts env.location url = some u)
    (hhttp : Scheme.ofName u.protocol ≠ none) : Trusted env named s.allowedProbeHosts u := by
  rw [probe] at hprobe
  split at hprobe
  · cases hprobe
  · rename_i hbase
    split at hprobe
    · rename_i hallowed
      injection hprobe with hurl
      rcases trusted_of_allowed h hbase hallowed with ⟨v, hv, htrusted⟩
      rw [<- hurl, h.healthPath] at hu
      rcases parse_append plainPath_default hv hbare hu with heq | ⟨_, hother⟩
      · rw [heq]
        exact htrusted
      · exact absurd hother hhttp
    · cases hprobe

/-!
# One step
-/

theorem seeded_mono {more : List Str} (h : Seeded env named s) : Seeded env (named ++ more) s := by
  refine ⟨h.healthPath, ?_⟩
  intro host hhost
  rcases h.hosts host hhost with hown | hdeployed | hnamed
  · exact Or.inl hown
  · exact Or.inr (Or.inl hdeployed)
  · exact Or.inr (Or.inr (List.mem_append_left more hnamed))

theorem mem_seedHost {base host : Str} {seeded : List Str} (h : host ∈ seedHost env base seeded) :
    host ∈ seeded ∨ host ∈ hostOf env base := by
  rcases List.mem_append.mp h with hold | hnew
  · exact Or.inl hold
  · exact Or.inr (List.mem_of_mem_filter hnew)

theorem allowed_of_known (h : Seeded env named s) {host : Str} (hknown : Known env s host) :
    host = env.location.host ∨ host ∈ deployedHosts env ∨ host ∈ named := by
  rcases hknown with hown | hconfigured
  · exact Or.inl hown
  · rcases List.mem_append.mp hconfigured with hdeployed | hseeded
    · exact Or.inr (Or.inl hdeployed)
    · exact h.hosts host hseeded

theorem orElse_of_ne {a : Str} (h : a ≠ []) (b : Str) : orElse a b = a :=
  if_neg h

theorem seeded_seed (h : Seeded env named s) {target : BackendTarget}
    (hcareful : Careful env s (Event.seedFromResolveBackend target)) :
    Seeded env (named ++ target.hosts env) (seedFromResolveBackend env target s) := by
  refine ⟨h.healthPath, ?_⟩
  intro host hhost
  have hside : forall {side other : Str}, (side = [] -> forall host, host ∈ hostOf env
      (orElse side other) -> Known env s host) -> host ∈ hostOf env (orElse side other) ->
      (host ∈ hostOf env side -> host ∈ target.hosts env) ->
      host = env.location.host ∨ host ∈ deployedHosts env ∨ host ∈ named ++ target.hosts env := by
    intro side other hknown hmem hnamed
    by_cases hempty : side = []
    · rcases allowed_of_known h (hknown hempty host hmem) with hown | hdeployed | hold
      · exact Or.inl hown
      · exact Or.inr (Or.inl hdeployed)
      · exact Or.inr (Or.inr (List.mem_append_left _ hold))
    · rw [orElse_of_ne hempty] at hmem
      exact Or.inr (Or.inr (List.mem_append_right _ (hnamed hmem)))
  rcases mem_seedHost hhost with hmore | hlan
  · rcases mem_seedHost hmore with hold | hcloud
    · exact (seeded_mono h).hosts host hold
    · exact hside hcareful.1 hcloud fun hmem => List.mem_append_left _ hmem
  · exact hside hcareful.2 hlan fun hmem => List.mem_append_right _ hmem

theorem seeded_step (h : Seeded env named s) {e : Event} (hcareful : Careful env s e) :
    Seeded env (named ++ e.named env) (step env s e) := by
  cases e with
  | configure opts =>
      refine ⟨?_, (seeded_mono h).hosts⟩
      change orElse (opts.healthPath.getD []) s.healthPath = defaultHealthPath
      rw [h.healthPath]
      exact hcareful
  | seedFromResolveBackend target =>
      cases target with
      | none => exact seeded_mono h
      | some target => exact seeded_seed h hcareful
  | selectEndpoint force now =>
      have hmono : Seeded env (named ++ []) s := seeded_mono h
      change Seeded env _ (selectEndpoint env s force now)
      rw [selectEndpoint]
      split
      · exact ⟨hmono.healthPath, hmono.hosts⟩
      · exact hmono
  | settle answers now =>
      have hmono : Seeded env (named ++ []) s := seeded_mono h
      change Seeded env _ (settle s answers now)
      rw [settle]
      split
      · exact hmono
      · exact ⟨hmono.healthPath, hmono.hosts⟩
  | resolveEndpoints | invalidateEndpoint | store key value =>
      exact ⟨h.healthPath, (seeded_mono h).hosts⟩

theorem trusted_fetches (h : Seeded env named s) {e : Event} (hcareful : Careful env s e)
    {url : Str} (hurl : url ∈ fetches env s e) {u : Url}
    (hu : parse env.hosts env.location url = some u) (hhttp : Scheme.ofName u.protocol ≠ none) :
    Trusted env named s.allowedProbeHosts u := by
  cases e with
  | selectEndpoint force now =>
      rw [fetches] at hurl
      split at hurl
      · rename_i hselects
        rcases List.mem_filterMap.mp hurl with ⟨base, hbase, hprobe⟩
        have hresolved : Seeded env named (resolveEndpoints env s) := ⟨h.healthPath, h.hosts⟩
        exact trusted_of_probe hresolved (hcareful hselects base hbase) hprobe hu hhttp
      · cases hurl
  | configure opts | seedFromResolveBackend target | settle answers now | resolveEndpoints
  | invalidateEndpoint | store key value => cases hurl

/-!
# Runs
-/

theorem seeded_after (h : Seeded env named s) {events : List Event}
    (hcareful : StepsMeet (step env) (Careful env) s events) :
    Seeded env (named ++ events.flatMap (Event.named env)) (after (step env) s events) := by
  induction events generalizing s named with
  | nil =>
      rw [List.flatMap_nil, List.append_nil]
      exact h
  | cons e events ih =>
      rw [List.flatMap_cons, <- List.append_assoc]
      exact ih (seeded_step h hcareful.1) hcareful.2

theorem seeded_initial (localStorage : Str -> Option Str) :
    Seeded env [] (initial localStorage) where
  healthPath := rfl
  hosts := fun _ hhost => nomatch hhost

/-- In every careful run the cookie goes to trusted places only. -/
theorem cookiesKept_of_careful (localStorage : Str -> Option Str) {events : List Event}
    (hcareful : StepsMeet (step env) (Careful env) (initial localStorage) events) :
    CookiesKept env (initial localStorage) events := by
  intro before e later hevents url hurl u hu hhttp
  rw [hevents] at hcareful
  rcases stepsMeet_of_append hcareful with ⟨hbefore, hlater⟩
  have hseeded := seeded_after (seeded_initial localStorage) hbefore
  rw [List.nil_append] at hseeded
  exact trusted_fetches hseeded hlater.1 hurl hu hhttp

/-!
# A deployment
-/

def asciiHosts : Hosts where
  parse := fun text => if text.any isBlank then none else some (Text.lower text)
  parse_blank := by
    intro text c hc hblank
    exact if_pos (List.any_eq_true.mpr ⟨c, hc, hblank⟩)
  other := fun _ _ => none

def bareDeployment : Environment where
  hosts := asciiHosts
  numerals := Json.wholeNumerals
  location := ⟨Scheme.https, "app.vulos.org".toList⟩
  injected := none
  viteCloudEndpoint := []
  viteLanEndpoint := []

def holding (pair : EndpointPair) (key : Str) : Option Str :=
  if key = defaultLsKey then some (cacheText bareDeployment pair) else none

def cloudTarget : BackendTarget where
  Endpoint := "https://box.vulos.org".toList
  endpoint := []
  LANCandidate := none
  lan_candidate := none

def fullTarget : BackendTarget :=
  { cloudTarget with LANCandidate := some ⟨"https://box.lan.vulos.org".toList, []⟩ }

/-- A poisoned cache does not matter to a full target. -/
theorem cookiesKept_full :
    CookiesKept bareDeployment (initial (holding ⟨[], "https://evil.example".toList⟩))
      [Event.selectEndpoint false 1, Event.settle [false, true] 2,
        Event.seedFromResolveBackend fullTarget, Event.selectEndpoint false 3] :=
  cookiesKept_of_careful _ (by decide)

/--
A cached LAN endpoint is trusted like the target that does not name it, and a cached slash sends
the cookie to the host that the health path names.
-/
theorem not_cookiesKept_poisoned :
    Not (CookiesKept bareDeployment (initial (holding ⟨[], "https://evil.example".toList⟩))
      [Event.seedFromResolveBackend cloudTarget, Event.selectEndpoint false 1]) ∧
    Not (CookiesKept bareDeployment (initial (holding ⟨[], ['/']⟩))
      [Event.selectEndpoint false 1]) := by
  constructor
  · intro h
    have htrusted := h [Event.seedFromResolveBackend cloudTarget] (Event.selectEndpoint false 1) []
      rfl "https://evil.example/api/auth/status".toList (by decide)
      (httpUrl Scheme.https "evil.example".toList) (by decide) (by decide)
    exact absurd htrusted (by decide)
  · intro h
    have htrusted := h [] (Event.selectEndpoint false 1) [] rfl "//api/auth/status".toList
      (by decide) (httpUrl Scheme.https "api".toList) (by decide) (by decide)
    exact absurd htrusted (by decide)

end Endpoints
end Client
end Ephor
