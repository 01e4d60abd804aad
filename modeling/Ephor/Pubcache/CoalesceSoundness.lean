import Ephor.Foundation.Transition
import Ephor.Pubcache.Coalesce

/-!
# No call fails for another one

The invariant of the shared fetches says of every call what its result rests on, and of a
waiting call that its leader's result may be shared.  A run in which no shared fetch ends
with the cancelled context of its leader keeps it.
-/

namespace Ephor
namespace Pubcache

open Foundation
open Foundation.GoUrl (Url)
open Foundation.Transition (after StepsMeet)

namespace Fetcher

/-!
# The invariant
-/

/-- What the result of the fetch of `source` rests on, for a call with this suffix. -/
def Supported (s : Fetcher) (source : Nat) (call : DoCall) (result : Outcome) : Prop :=
  (forall fetched, result = Except.ok fetched -> s.Obtained source call.suffix fetched) ∧
    (result = Except.error FetchError.context -> call.cancelled = true) ∧
    forall e, result = Except.error e -> e ≠ FetchError.context ->
      s.AllFailed source call.suffix s.upstreams

/-- The call has come past the section under the lock, and not to wait. -/
def led (pc : DoPc) : Bool :=
  match pc with
  | DoPc.enter => false
  | DoPc.waiting _ => false
  | _ => true

def leads (pc : DoPc) : Bool :=
  match pc with
  | DoPc.returned _ _ => false
  | _ => led pc

/-- A leader whose result, if it has one, may be shared. -/
def Shareable (pc : DoPc) : Prop :=
  led pc = true ∧ ended pc ≠ some (Except.error FetchError.context)

def CallOk (s : Fetcher) (c : Nat) (call : DoCall) : Prop :=
  match call.pc with
  | DoPc.enter => True
  | DoPc.acquiring => True
  | DoPc.waiting leader => exists lead, s.calls.lookup leader = some lead ∧
      lead.coalesceKey = call.coalesceKey ∧ lead.suffix = call.suffix ∧ Shareable lead.pc
  | DoPc.trying rest => exists tried, s.upstreams = tried ++ rest ∧
      s.AllFailed c call.suffix tried
  | DoPc.publishing result => s.Supported c call result
  | DoPc.removing result => s.Supported c call result
  | DoPc.returned source result => exists lead, s.calls.lookup source = some lead ∧
      lead.coalesceKey = call.coalesceKey ∧ lead.suffix = call.suffix ∧
        s.Supported source call result

def Settled (c : Nat) (pc : DoPc) (result : Outcome) : Prop :=
  pc = DoPc.removing result ∨ pc = DoPc.returned c result

structure Inv (s : Fetcher) : Prop where
  calls : forall c call, s.calls.lookup c = some call -> s.CallOk c call
  flight : forall key leader, s.flight.lookup key = some leader -> key ≠ "" ∧
    exists lead, s.calls.lookup leader = some lead ∧ lead.coalesceKey = key ∧
      leads lead.pc = true
  done : forall leader result, s.done.lookup leader = some result ->
    exists lead, s.calls.lookup leader = some lead ∧ Settled leader lead.pc result

theorem inv_init (upstreams : List Url) (maxInflight : Int) : (init upstreams maxInflight).Inv where
  calls := fun c call h => by
    cases h
  flight := fun key leader h => by
    cases h
  done := fun leader result h => by
    cases h

/-!
# What a step keeps
-/

variable {s s' : Fetcher} {c : Nat} {call call' : DoCall} {result : Outcome}

theorem leads_of_flight (hs : s.Inv) (hcall : s.calls.lookup c = some call) {key : String}
    (hflight : s.flight.lookup key = some c) :
    key ≠ "" ∧ call.coalesceKey = key ∧ leads call.pc = true := by
  rcases hs.flight key c hflight with ⟨hne, lead, hlead, hkey, hleads⟩
  cases hcall.symm.trans hlead
  exact ⟨hne, hkey, hleads⟩

theorem settled_of_done (hs : s.Inv) (hcall : s.calls.lookup c = some call)
    (hdone : s.done.lookup c = some result) : Settled c call.pc result := by
  rcases hs.done c result hdone with ⟨lead, hlead, hsettled⟩
  cases hcall.symm.trans hlead
  exact hsettled

theorem supported_context (hcancelled : call.cancelled = true) (source : Nat) :
    s.Supported source call (Except.error FetchError.context) := by
  refine ⟨?_, fun _ => hcancelled, ?_⟩
  · intro fetched hfetched
    cases hfetched
  · intro e herror hne
    injection herror with herror
    exact absurd herror.symm hne

theorem waitedFor_of_lookup {d : Nat} (h : s.calls.lookup d = some call)
    (hpc : call.pc = DoPc.waiting c) : s.waitedFor c = true := by
  refine FiniteMap.any_eq_true.mpr ⟨d, call, h, ?_⟩
  rw [beq_iff_eq]
  exact hpc

/-- The calls of a state go on in the next one, and what was tried stays tried. -/
structure Grows (s s' : Fetcher) : Prop where
  upstreams : s'.upstreams = s.upstreams
  attempts : forall attempt, attempt ∈ s.attempts -> attempt ∈ s'.attempts
  calls : forall c call, s.calls.lookup c = some call -> exists call',
    s'.calls.lookup c = some call' ∧ call'.coalesceKey = call.coalesceKey ∧
      call'.suffix = call.suffix ∧
        (s.waitedFor c = true -> Shareable call.pc -> Shareable call'.pc)

theorem allFailed_grows (hgrows : s.Grows s') {source : Nat} {suffix : Bytes} {bases : List Url}
    (h : s.AllFailed source suffix bases) : s'.AllFailed source suffix bases := by
  intro base hbase
  rcases h base hbase with ⟨detail, hmem⟩
  exact ⟨detail, hgrows.attempts _ hmem⟩

theorem supported_grows (hgrows : s.Grows s') {source : Nat}
    (hsuffix : call'.suffix = call.suffix)
    (hcancelled : call.cancelled = true -> call'.cancelled = true)
    (h : s.Supported source call result) : s'.Supported source call' result := by
  refine ⟨?_, fun hcontext => hcancelled (h.2.1 hcontext), ?_⟩
  · intro fetched hok
    rcases h.1 fetched hok with ⟨base, hbase, hmem⟩
    rw [<- hgrows.upstreams] at hbase
    rw [<- hsuffix] at hmem
    exact ⟨base, hbase, hgrows.attempts _ hmem⟩
  · intro e herror hne
    rw [hsuffix, hgrows.upstreams]
    exact allFailed_grows hgrows (h.2.2 e herror hne)

/-- A call that stands where it stood, at most cancelled since then. -/
structure Stays (call call' : DoCall) : Prop where
  coalesceKey : call'.coalesceKey = call.coalesceKey
  suffix : call'.suffix = call.suffix
  cancelled : call.cancelled = true -> call'.cancelled = true
  pc : call'.pc = call.pc

theorem stays_refl (call : DoCall) : Stays call call :=
  ⟨rfl, rfl, id, rfl⟩

theorem callOk_grows (hgrows : s.Grows s') {d : Nat} (hlookup : s.calls.lookup d = some call)
    (hstays : Stays call call') (h : s.CallOk d call) : s'.CallOk d call' := by
  unfold CallOk at h ⊢
  rw [hstays.pc]
  have hsupported : forall source result, s.Supported source call result ->
      s'.Supported source call' result :=
    fun source result => supported_grows hgrows hstays.suffix hstays.cancelled
  cases hpc : call.pc with
  | enter | acquiring => trivial
  | waiting leader =>
      rw [hpc] at h
      rcases h with ⟨lead, hlead, hkey, hsuffix, hshare⟩
      rcases hgrows.calls leader lead hlead with ⟨lead', hlead', hkey', hsuffix', hkeep⟩
      refine ⟨lead', hlead', ?_, ?_, hkeep (waitedFor_of_lookup hlookup hpc) hshare⟩
      · rw [hkey', hkey, hstays.coalesceKey]
      · rw [hsuffix', hsuffix, hstays.suffix]
  | trying rest =>
      rw [hpc] at h
      rcases h with ⟨tried, htried, hfailed⟩
      refine ⟨tried, hgrows.upstreams.trans htried, ?_⟩
      rw [hstays.suffix]
      exact allFailed_grows hgrows hfailed
  | publishing result | removing result =>
      rw [hpc] at h
      exact hsupported d result h
  | returned source result =>
      rw [hpc] at h
      rcases h with ⟨lead, hlead, hkey, hsuffix, hresult⟩
      rcases hgrows.calls source lead hlead with ⟨lead', hlead', hkey', hsuffix', _⟩
      refine ⟨lead', hlead', ?_, ?_, hsupported source result hresult⟩
      · rw [hkey', hkey, hstays.coalesceKey]
      · rw [hsuffix', hsuffix, hstays.suffix]

structure Moves (s s' : Fetcher) (c : Nat) (call call' : DoCall) : Prop where
  upstreams : s'.upstreams = s.upstreams
  attempts : forall attempt, attempt ∈ s.attempts -> attempt ∈ s'.attempts
  calls : s'.calls = s.calls.insert c call'
  coalesceKey : call'.coalesceKey = call.coalesceKey
  suffix : call'.suffix = call.suffix
  share : s.waitedFor c = true -> Shareable call.pc -> Shareable call'.pc

theorem lookup_moves_of_ne {d : Nat} (h : s.Moves s' c call call') (hne : d ≠ c) :
    s'.calls.lookup d = s.calls.lookup d := by
  rw [h.calls, Finmap.lookup_insert_of_ne _ hne]

theorem lookup_moves_self (h : s.Moves s' c call call') : s'.calls.lookup c = some call' := by
  rw [h.calls, Finmap.lookup_insert]

theorem grows_of_moves (hcall : s.calls.lookup c = some call) (h : s.Moves s' c call call') :
    s.Grows s' := by
  refine ⟨h.upstreams, h.attempts, ?_⟩
  intro d other hother
  by_cases hd : d = c
  · rw [hd, hcall] at hother
    injection hother with hother
    rw [hd, <- hother]
    exact ⟨call', lookup_moves_self h, h.coalesceKey, h.suffix, h.share⟩
  · exact ⟨other, (lookup_moves_of_ne h hd).trans hother, rfl, rfl, fun _ hshare => hshare⟩

theorem inv_of_moves (hs : s.Inv) (hcall : s.calls.lookup c = some call)
    (h : s.Moves s' c call call') (hok : s'.CallOk c call')
    (hflight : forall key leader, s'.flight.lookup key = some leader ->
      (leader = c ∧ key ≠ "" ∧ call.coalesceKey = key ∧ leads call'.pc = true) ∨
        (leader ≠ c ∧ s.flight.lookup key = some leader))
    (hdone : forall leader result, s'.done.lookup leader = some result ->
      (leader = c ∧ Settled c call'.pc result) ∨
        (leader ≠ c ∧ s.done.lookup leader = some result)) : s'.Inv := by
  have hgrows := grows_of_moves hcall h
  constructor
  · intro d other hother
    by_cases hd : d = c
    · rw [hd, lookup_moves_self h] at hother
      injection hother with hother
      rw [hd, <- hother]
      exact hok
    · rw [lookup_moves_of_ne h hd] at hother
      exact callOk_grows hgrows hother (stays_refl other) (hs.calls d other hother)
  · intro key leader hleader
    rcases hflight key leader hleader with ⟨hc, hne, hkey, hleads⟩ | ⟨hne, hold⟩
    · rw [hc]
      exact ⟨hne, call', lookup_moves_self h, h.coalesceKey.trans hkey, hleads⟩
    · rw [lookup_moves_of_ne h hne]
      exact hs.flight key leader hold
  · intro leader result hresult
    rcases hdone leader result hresult with ⟨hc, hsettled⟩ | ⟨hne, hold⟩
    · rw [hc]
      exact ⟨call', lookup_moves_self h, hsettled⟩
    · rw [lookup_moves_of_ne h hne]
      exact hs.done leader result hold

theorem inv_of_moves_kept (hs : s.Inv) (hcall : s.calls.lookup c = some call)
    (h : s.Moves s' c call call') (hmaps : s'.flight = s.flight ∧ s'.done = s.done)
    (hok : s'.CallOk c call')
    (hleads : call.coalesceKey ≠ "" -> leads call.pc = true -> leads call'.pc = true)
    (hsettled : forall result, Settled c call.pc result -> Settled c call'.pc result) :
    s'.Inv := by
  refine inv_of_moves hs hcall h hok ?_ ?_
  · intro key leader hleader
    rw [hmaps.1] at hleader
    by_cases hc : leader = c
    · rcases leads_of_flight hs hcall (hc ▸ hleader) with ⟨hne, hkey, hlead⟩
      refine Or.inl ⟨hc, hne, hkey, hleads ?_ hlead⟩
      rw [hkey]
      exact hne
    · exact Or.inr ⟨hc, hleader⟩
  · intro leader result hresult
    rw [hmaps.2] at hresult
    by_cases hc : leader = c
    · exact Or.inl ⟨hc, hsettled result (settled_of_done hs hcall (hc ▸ hresult))⟩
    · exact Or.inr ⟨hc, hresult⟩

/-!
# Steps
-/

/-- A state that differs from another one in what no invariant of a call reads. -/
structure Beside (s t : Fetcher) : Prop where
  upstreams : t.upstreams = s.upstreams
  calls : t.calls = s.calls
  attempts : forall attempt, attempt ∈ s.attempts -> attempt ∈ t.attempts

theorem moves_goto {t : Fetcher} (h : s.Beside t) (c : Nat) (call : DoCall) (pc : DoPc)
    (hshare : s.waitedFor c = true -> Shareable call.pc -> Shareable pc) :
    s.Moves (t.goto c call pc) c call { call with pc := pc } where
  upstreams := h.upstreams
  attempts := h.attempts
  calls := congrArg (fun calls : FiniteMap Nat DoCall => calls.insert c _) h.calls
  coalesceKey := rfl
  suffix := rfl
  share := hshare

theorem beside_refl (s : Fetcher) : s.Beside s :=
  ⟨rfl, rfl, fun _ h => h⟩

theorem beside_record (s : Fetcher) (attempt : Attempt) : s.Beside (s.record attempt).release :=
  ⟨rfl, rfl, fun _ h => List.mem_append_left _ h⟩

theorem share_of_not_led {pc : DoPc} (pc' : DoPc) (h : led pc = false) (hshare : Shareable pc) :
    Shareable pc' := by
  have hled := hshare.1
  rw [h] at hled
  cases hled

theorem settled_ended {pc : DoPc} (h : Settled c pc result) :
    ended pc = some result ∧ led pc = true := by
  rcases h with hpc | hpc
  · rw [hpc]
    exact ⟨rfl, rfl⟩
  · rw [hpc]
    exact ⟨rfl, rfl⟩

theorem not_settled {pc pc' : DoPc} (h : ended pc = none) (result : Outcome)
    (hsettled : Settled c pc result) : Settled c pc' result := by
  have hended := (settled_ended hsettled).1
  rw [h] at hended
  cases hended

theorem inv_cancel (hs : s.Inv) (hcall : s.calls.lookup c = some call) :
    (s.setCall c { call with cancelled := true }).Inv := by
  have hmoves : s.Moves (s.setCall c { call with cancelled := true }) c call
      { call with cancelled := true } :=
    ⟨rfl, fun _ h => h, rfl, rfl, rfl, fun _ hshare => hshare⟩
  refine inv_of_moves_kept hs hcall hmoves ⟨rfl, rfl⟩ ?_ (fun _ h => h) fun _ h => h
  exact callOk_grows (grows_of_moves hcall hmoves) hcall ⟨rfl, rfl, fun _ => rfl, rfl⟩
    (hs.calls c call hcall)

theorem inv_finish {t : Fetcher} (hs : s.Inv) (hcall : s.calls.lookup c = some call)
    (hbeside : s.Beside t) (hmaps : t.flight = s.flight ∧ t.done = s.done)
    (hended : ended call.pc = none) (hresult : t.Supported c call result)
    (hshare : s.waitedFor c = true -> result ≠ Except.error FetchError.context) :
    (t.finish c call result).Inv := by
  have hkeep : forall pc, led pc = true -> ended pc = some result ->
      s.waitedFor c = true -> Shareable call.pc -> Shareable pc := by
    intro pc hled hpc hwaited _
    refine ⟨hled, ?_⟩
    rw [hpc]
    intro heq
    injection heq with heq
    exact hshare hwaited heq
  unfold finish
  split
  · rename_i hkey
    have hmoves := moves_goto hbeside c call (DoPc.returned c result)
      (hkeep _ rfl rfl)
    refine inv_of_moves_kept hs hcall hmoves hmaps ?_ (fun hne => absurd hkey hne)
      (not_settled hended)
    exact ⟨_, lookup_moves_self hmoves, rfl, rfl, hresult⟩
  · have hmoves := moves_goto hbeside c call (DoPc.publishing result) (hkeep _ rfl rfl)
    exact inv_of_moves_kept hs hcall hmoves hmaps hresult (fun _ _ => rfl) (not_settled hended)

theorem ne_of_flight (hs : s.Inv) (hcall : s.calls.lookup c = some call)
    (hnotLeads : leads call.pc = false) {key : String} {leader : Nat}
    (hflight : s.flight.lookup key = some leader) : leader ≠ c := by
  intro heq
  have hleads := (leads_of_flight hs hcall (heq ▸ hflight)).2.2
  rw [hnotLeads] at hleads
  cases hleads

theorem inv_enter (hs : s.Inv) (hcall : s.calls.lookup c = some call)
    (hpc : call.pc = DoPc.enter)
    (hguard : forall leader, s.flight.lookup call.coalesceKey = some leader ->
      s.mayJoin call leader = true) : (s.enter c call).Inv := by
  have hnotLed : led call.pc = false := by rw [hpc]; rfl
  have hended : ended call.pc = none := by rw [hpc]; rfl
  have hnotLeads : leads call.pc = false := by rw [hpc]; rfl
  have hleads : forall pc', call.coalesceKey ≠ "" -> leads call.pc = true -> leads pc' = true := by
    intro pc' _ htrue
    rw [hnotLeads] at htrue
    cases htrue
  have hmoves : forall (t : Fetcher) (pc : DoPc), s.Beside t ->
      s.Moves (t.goto c call pc) c call { call with pc := pc } :=
    fun t pc hbeside => moves_goto hbeside c call pc fun _ => share_of_not_led pc hnotLed
  unfold enter
  split
  · rename_i hupstreams
    have hreturn := hmoves s (DoPc.returned c (Except.error FetchError.notServed))
      (beside_refl s)
    refine inv_of_moves_kept hs hcall hreturn ⟨rfl, rfl⟩ ?_ (hleads _) (not_settled hended)
    refine ⟨_, lookup_moves_self hreturn, rfl, rfl, ?_, ?_, ?_⟩
    · intro fetched hok
      cases hok
    · intro hcontext
      cases hcontext
    · intro e _ _ base hbase
      change base ∈ s.upstreams at hbase
      rw [hupstreams] at hbase
      cases hbase
  · split
    · exact inv_of_moves_kept hs hcall (hmoves s DoPc.acquiring (beside_refl s)) ⟨rfl, rfl⟩
        trivial (hleads _) (not_settled hended)
    · rename_i hkey
      cases hflight : s.flight.lookup call.coalesceKey with
      | some leader =>
          have hwait := hmoves s (DoPc.waiting leader) (beside_refl s)
          refine inv_of_moves_kept hs hcall hwait ⟨rfl, rfl⟩ ?_ (hleads _) (not_settled hended)
          rcases hs.flight _ leader hflight with ⟨_, lead, hlead, hleadKey, hleadPc⟩
          have hne := ne_of_flight hs hcall hnotLeads hflight
          have hjoin := hguard leader hflight
          rw [mayJoin, hlead] at hjoin
          dsimp only at hjoin
          rw [Bool.and_eq_true, beq_iff_eq, bne_iff_ne] at hjoin
          refine ⟨lead, (lookup_moves_of_ne hwait hne).trans hlead, hleadKey, hjoin.1, ?_,
            hjoin.2⟩
          revert hleadPc
          cases lead.pc with
          | returned source result => intro hfalse; cases hfalse
          | enter | waiting leader | acquiring | trying rest | publishing result
          | removing result => exact id
      | none =>
          refine inv_of_moves hs hcall
            (hmoves { s with flight := s.flight.insert call.coalesceKey c } DoPc.acquiring
              ⟨rfl, rfl, fun _ h => h⟩) trivial ?_ ?_
          · intro key leader hleader
            rcases FiniteMap.lookup_insert_eq_some.mp hleader with ⟨hk, hl⟩ | ⟨_, hold⟩
            · rw [hk]
              exact Or.inl ⟨hl, hkey, rfl, rfl⟩
            · exact Or.inr ⟨ne_of_flight hs hcall hnotLeads hold, hold⟩
          · intro leader result hresult
            refine Or.inr ⟨?_, hresult⟩
            intro heq
            have hsome := (settled_ended (settled_of_done hs hcall (heq ▸ hresult))).1
            rw [hended] at hsome
            cases hsome

theorem inv_acquire (hs : s.Inv) (hcall : s.calls.lookup c = some call)
    (hpc : call.pc = DoPc.acquiring) :
    ({ s with inflight := s.inflight + 1 }.goto c call (DoPc.trying s.upstreams)).Inv := by
  have hended : ended call.pc = none := by rw [hpc]; rfl
  have hmoves := moves_goto
    (show s.Beside { s with inflight := s.inflight + 1 } from ⟨rfl, rfl, fun _ h => h⟩) c call
    (DoPc.trying s.upstreams) fun _ _ => ⟨rfl, fun heq => by cases heq⟩
  refine inv_of_moves_kept hs hcall hmoves ⟨rfl, rfl⟩ ?_ (fun _ _ => rfl) (not_settled hended)
  exact ⟨[], rfl, fun base hbase => absurd hbase List.not_mem_nil⟩

theorem inv_tryOne (hs : s.Inv) (hcall : s.calls.lookup c = some call) {base : Url}
    {rest : List Url} (hpc : call.pc = DoPc.trying (base :: rest))
    {outcome : Except String Fetched}
    (hguard : forall detail, outcome = Except.error detail -> call.cancelled = true ->
      s.waitedFor c = false) : (s.tryOne c call base rest outcome).Inv := by
  have hended : ended call.pc = none := by rw [hpc]; rfl
  have hok := hs.calls c call hcall
  rw [CallOk, hpc] at hok
  rcases hok with ⟨tried, htried, hfailed⟩
  have hbase : base ∈ s.upstreams := by
    rw [htried]
    exact List.mem_append_right tried List.mem_cons_self
  have hnew : forall attempt : Attempt, attempt ∈ (s.record attempt).attempts :=
    fun attempt => List.mem_append_right _ List.mem_cons_self
  have hold : forall (attempt : Attempt) (a : Attempt), a ∈ s.attempts ->
      a ∈ (s.record attempt).attempts := fun attempt a h => List.mem_append_left _ h
  unfold tryOne answered
  cases outcome with
  | ok fetched =>
      refine inv_finish hs hcall (beside_record s _) ⟨rfl, rfl⟩ hended ⟨?_, ?_, ?_⟩ ?_
      · intro fetched' hfetched
        cases hfetched
        exact ⟨base, hbase, hnew _⟩
      · intro hcontext
        cases hcontext
      · intro e herror
        cases herror
      · intro _ heq
        cases heq
  | error detail =>
      have hfailed' : (s.record ⟨c, upstreamURL base call.suffix, Except.error detail⟩).AllFailed c
          call.suffix (tried ++ [base]) := by
        intro b hb
        rcases List.mem_append.mp hb with hb | hb
        · rcases hfailed b hb with ⟨d, hd⟩
          exact ⟨d, hold _ _ hd⟩
        · rw [List.mem_singleton.mp hb]
          exact ⟨detail, hnew _⟩
      dsimp only
      split
      · rename_i hcancelled
        apply inv_finish hs hcall (beside_record s _) ⟨rfl, rfl⟩ hended
          (supported_context hcancelled c)
        intro hwaited
        rw [hguard detail rfl hcancelled] at hwaited
        cases hwaited
      · cases rest with
        | nil =>
            refine inv_finish hs hcall (beside_record s _) ⟨rfl, rfl⟩ hended ⟨?_, ?_, ?_⟩ ?_
            · intro fetched hfetched
              cases hfetched
            · intro hcontext
              injection hcontext with hcontext
              cases hcontext
            · intro e _ _
              change AllFailed _ c call.suffix s.upstreams
              rw [htried]
              exact hfailed'
            · intro _ heq
              injection heq with heq
              cases heq
        | cons next rest =>
            have hmoves := moves_goto
              (show s.Beside (s.record ⟨c, upstreamURL base call.suffix, Except.error detail⟩) from
                ⟨rfl, rfl, hold _⟩) c call (DoPc.trying (next :: rest)) fun _ _ =>
                ⟨rfl, fun heq => by cases heq⟩
            refine inv_of_moves_kept hs hcall hmoves ⟨rfl, rfl⟩ ?_ (fun _ _ => rfl)
              (not_settled hended)
            refine ⟨tried ++ [base], ?_, hfailed'⟩
            change s.upstreams = _
            rw [htried, List.append_assoc]
            rfl

theorem inv_giveUp_acquiring (hs : s.Inv) (hcall : s.calls.lookup c = some call)
    (hpc : call.pc = DoPc.acquiring) (hcancelled : call.cancelled = true)
    (hguard : s.waitedFor c = false) : (s.finish c call (Except.error FetchError.context)).Inv := by
  have hended : ended call.pc = none := by rw [hpc]; rfl
  apply inv_finish hs hcall (beside_refl s) ⟨rfl, rfl⟩ hended (supported_context hcancelled c)
  intro hwaited
  rw [hguard] at hwaited
  cases hwaited

theorem inv_giveUp_waiting (hs : s.Inv) {leader : Nat} (hcall : s.calls.lookup c = some call)
    (hpc : call.pc = DoPc.waiting leader) (hcancelled : call.cancelled = true) :
    (s.goto c call (DoPc.returned c (Except.error FetchError.context))).Inv := by
  have hended : ended call.pc = none := by rw [hpc]; rfl
  have hnotLed : led call.pc = false := by rw [hpc]; rfl
  have hmoves := moves_goto (beside_refl s) c call
    (DoPc.returned c (Except.error FetchError.context)) fun _ => share_of_not_led _ hnotLed
  refine inv_of_moves_kept hs hcall hmoves ⟨rfl, rfl⟩ ?_ ?_ (not_settled hended)
  · exact ⟨_, lookup_moves_self hmoves, rfl, rfl, supported_context hcancelled c⟩
  · intro _ hleads
    rw [hpc] at hleads
    cases hleads

theorem inv_publish (hs : s.Inv) (hcall : s.calls.lookup c = some call)
    (hpc : call.pc = DoPc.publishing result) :
    ({ s with done := s.done.insert c result }.goto c call (DoPc.removing result)).Inv := by
  have hok := hs.calls c call hcall
  rw [CallOk, hpc] at hok
  have hmoves := moves_goto
    (show s.Beside { s with done := s.done.insert c result } from ⟨rfl, rfl, fun _ h => h⟩) c call
    (DoPc.removing result) (fun _ hshare => by rw [hpc] at hshare; exact hshare)
  refine inv_of_moves hs hcall hmoves hok ?_ ?_
  · intro key leader hleader
    by_cases hc : leader = c
    · rcases leads_of_flight hs hcall (hc ▸ hleader) with ⟨hne, hkey, _⟩
      exact Or.inl ⟨hc, hne, hkey, rfl⟩
    · exact Or.inr ⟨hc, hleader⟩
  · intro leader other hother
    rcases FiniteMap.lookup_insert_eq_some.mp hother with ⟨hl, hr⟩ | ⟨hne, hold⟩
    · rw [hr]
      exact Or.inl ⟨hl, Or.inl rfl⟩
    · exact Or.inr ⟨hne, hold⟩

theorem inv_remove (hs : s.Inv) (hcall : s.calls.lookup c = some call)
    (hpc : call.pc = DoPc.removing result) :
    ({ s with flight := s.flight.erase call.coalesceKey }.goto c call
      (DoPc.returned c result)).Inv := by
  have hok := hs.calls c call hcall
  rw [CallOk, hpc] at hok
  have hmoves := moves_goto
    (show s.Beside { s with flight := s.flight.erase call.coalesceKey } from
      ⟨rfl, rfl, fun _ h => h⟩) c call (DoPc.returned c result)
    (fun _ hshare => by rw [hpc] at hshare; exact hshare)
  refine inv_of_moves hs hcall hmoves ⟨_, lookup_moves_self hmoves, rfl, rfl, hok⟩ ?_ ?_
  · intro key leader hleader
    rcases FiniteMap.lookup_erase_eq_some.mp hleader with ⟨hkey, hold⟩
    refine Or.inr ⟨?_, hold⟩
    intro hc
    exact hkey (leads_of_flight hs hcall (hc ▸ hold)).2.1.symm
  · intro leader other hother
    by_cases hc : leader = c
    · have hended := (settled_ended (settled_of_done hs hcall (hc ▸ hother))).1
      rw [hpc] at hended
      cases hended
      exact Or.inl ⟨hc, Or.inr rfl⟩
    · exact Or.inr ⟨hc, hother⟩

theorem inv_receive (hs : s.Inv) {leader : Nat} (hcall : s.calls.lookup c = some call)
    (hpc : call.pc = DoPc.waiting leader) (hdone : s.done.lookup leader = some result) :
    (s.goto c call (DoPc.returned leader result)).Inv := by
  have hended : ended call.pc = none := by rw [hpc]; rfl
  have hnotLed : led call.pc = false := by rw [hpc]; rfl
  have hok := hs.calls c call hcall
  rw [CallOk, hpc] at hok
  rcases hok with ⟨lead, hlead, hkey, hsuffix, hshare⟩
  rcases hs.done leader result hdone with ⟨lead', hlead', hsettled⟩
  rw [hlead] at hlead'
  injection hlead' with hlead'
  rw [<- hlead'] at hsettled
  have hne : leader ≠ c := by
    intro heq
    rw [heq, hcall] at hlead
    injection hlead with hlead
    have hled := hshare.1
    rw [<- hlead, hnotLed] at hled
    cases hled
  have hresult : result ≠ Except.error FetchError.context := by
    intro heq
    apply hshare.2
    rw [(settled_ended hsettled).1, heq]
  have hsupported : s.Supported leader lead result := by
    have hleadOk := hs.calls leader lead hlead
    rw [CallOk] at hleadOk
    rcases hsettled with hleadPc | hleadPc
    · rw [hleadPc] at hleadOk
      exact hleadOk
    · rw [hleadPc] at hleadOk
      rcases hleadOk with ⟨_, _, _, _, hsupported⟩
      exact hsupported
  have hmoves := moves_goto (beside_refl s) c call (DoPc.returned leader result)
    fun _ => share_of_not_led _ hnotLed
  refine inv_of_moves_kept hs hcall hmoves ⟨rfl, rfl⟩ ?_ ?_ (not_settled hended)
  · refine ⟨lead, (lookup_moves_of_ne hmoves hne).trans hlead, hkey, hsuffix, ?_,
      fun heq => absurd heq hresult, ?_⟩
    · intro fetched hfetched
      have hobtained := hsupported.1 fetched hfetched
      rw [hsuffix] at hobtained
      exact hobtained
    · intro e herror hcontext
      have hfailed := hsupported.2.2 e herror hcontext
      rw [hsuffix] at hfailed
      exact hfailed
  · intro _ hleads
    rw [hpc] at hleads
    cases hleads

theorem inv_arrive (hs : s.Inv) (hnew : s.calls.lookup c = none) (coalesceKey : String)
    (suffix : Bytes) : (s.setCall c ⟨coalesceKey, suffix, false, DoPc.enter⟩).Inv := by
  have hother : forall d call, s.calls.lookup d = some call ->
      (s.setCall c ⟨coalesceKey, suffix, false, DoPc.enter⟩).calls.lookup d = some call := by
    intro d call hcall
    have hne : d ≠ c := by
      intro heq
      rw [heq, hnew] at hcall
      cases hcall
    exact (Finmap.lookup_insert_of_ne _ hne).trans hcall
  have hgrows : s.Grows (s.setCall c ⟨coalesceKey, suffix, false, DoPc.enter⟩) :=
    ⟨rfl, fun _ h => h, fun d call hcall =>
      ⟨call, hother d call hcall, rfl, rfl, fun _ hshare => hshare⟩⟩
  constructor
  · intro d call hcall
    rcases FiniteMap.lookup_insert_eq_some.mp hcall with ⟨_, heq⟩ | ⟨_, hold⟩
    · rw [heq]
      trivial
    · exact callOk_grows hgrows hold (stays_refl call) (hs.calls d call hold)
  · intro key leader hleader
    rcases hs.flight key leader hleader with ⟨hne, lead, hlead, hrest⟩
    exact ⟨hne, lead, hother leader lead hlead, hrest⟩
  · intro leader result hresult
    rcases hs.done leader result hresult with ⟨lead, hlead, hsettled⟩
    exact ⟨lead, hother leader lead hlead, hsettled⟩

theorem not_waitedFor_of_shares {cancelled waited : Bool}
    (h : (!(cancelled && waited)) = true) (hcancelled : cancelled = true) : waited = false := by
  rw [hcancelled, Bool.true_and, Bool.not_eq_true'] at h
  exact h

theorem inv_act (hs : s.Inv) (hcall : s.calls.lookup c = some call) (action : Action)
    (hguard : s.shares (Event.act c action) = true) : (s.act c call action).Inv := by
  rw [shares, hcall] at hguard
  dsimp only at hguard
  unfold act
  cases action with
  | cancel => exact inv_cancel hs hcall
  | enter =>
      cases hpc : call.pc with
      | enter =>
          rw [hpc] at hguard
          apply inv_enter hs hcall hpc
          intro leader hleader
          dsimp only at hguard
          rw [hleader] at hguard
          exact hguard
      | _ => exact hs
  | acquire =>
      cases hpc : call.pc with
      | acquiring =>
          dsimp only
          split
          · exact inv_acquire hs hcall hpc
          · exact hs
      | _ => exact hs
  | answer outcome =>
      cases hpc : call.pc with
      | trying bases =>
          cases bases with
          | nil => exact hs
          | cons base rest =>
              apply inv_tryOne hs hcall hpc
              intro detail houtcome
              rw [hpc, houtcome] at hguard
              exact not_waitedFor_of_shares hguard
      | _ => exact hs
  | giveUp =>
      cases hpc : call.pc with
      | acquiring =>
          rw [hpc] at hguard
          dsimp only
          split
          · rename_i hcancelled
            exact inv_giveUp_acquiring hs hcall hpc hcancelled
              (not_waitedFor_of_shares hguard hcancelled)
          · exact hs
      | waiting leader =>
          dsimp only
          split
          · rename_i hcancelled
            exact inv_giveUp_waiting hs hcall hpc hcancelled
          · exact hs
      | _ => exact hs
  | publish =>
      cases hpc : call.pc with
      | publishing result => exact inv_publish hs hcall hpc
      | _ => exact hs
  | remove =>
      cases hpc : call.pc with
      | removing result => exact inv_remove hs hcall hpc
      | _ => exact hs
  | receive =>
      cases hpc : call.pc with
      | waiting leader =>
          dsimp only
          split
          · rename_i result hdone
            exact inv_receive hs hcall hpc hdone
          · exact hs
      | _ => exact hs

theorem inv_step (hs : s.Inv) (e : Event) (hguard : s.shares e = true) : (s.step e).Inv := by
  unfold step
  cases e with
  | arrive c coalesceKey suffix =>
      dsimp only
      split
      · exact hs
      · rename_i hnew
        exact inv_arrive hs (Option.not_isSome_iff_eq_none.mp hnew) coalesceKey suffix
  | act c action =>
      dsimp only
      split
      · exact hs
      · rename_i call hcall
        exact inv_act hs hcall action hguard

/-!
# Over a run
-/

theorem noLeak_of_inv (hs : s.Inv) : s.NoLeak := by
  intro c call source result hcall hpc
  have hok := hs.calls c call hcall
  rw [CallOk, hpc] at hok
  rcases hok with ⟨lead, hlead, hkey, _, hsupported⟩
  refine ⟨⟨lead, hlead, hkey⟩, ?_, hsupported.1⟩
  intro e herror hcancelled
  apply hsupported.2.2 e herror
  intro hcontext
  rw [hcontext] at herror
  rw [hsupported.2.1 herror] at hcancelled
  cases hcancelled

/--
Whatever the order of the calls, the answers and the cancellations: where no shared fetch
ends with the cancelled context of its leader, and calls join flights for their own suffix,
no call gets an error from another call's cancellation, and every body was fetched for the
suffix of the call that returns it.
-/
theorem coalescing_over_runs {upstreams : List Url} {maxInflight : Int} {events : List Event}
    (h : StepsMeet step (fun s e => s.shares e = true) (init upstreams maxInflight) events)
    (past rest : List Event) (hevents : events = past ++ rest) :
    (after step (init upstreams maxInflight) past).NoLeak := by
  rw [hevents] at h
  have hstep : forall (s : Fetcher) (e : Event), s.Inv -> s.shares e = true -> (s.step e).Inv :=
    fun s e hs hguard => inv_step hs e hguard
  exact noLeak_of_inv (Transition.invariant_after hstep (inv_init upstreams maxInflight)
    (Transition.stepsMeet_of_append h).1)

def sharedFetch : List Event :=
  [Event.arrive 0 "chunk:k" [0x2F], Event.arrive 1 "chunk:k" [0x2F],
    Event.act 0 Action.enter, Event.act 1 Action.enter, Event.act 0 Action.acquire,
    Event.act 0 (Action.answer (Except.ok ([1], []))), Event.act 0 Action.publish,
    Event.act 1 Action.receive]

theorem coalescing_over_sharedFetch :
    (after step (init [plainBase] 1) sharedFetch).NoLeak ∧
      ((after step (init [plainBase] 1) sharedFetch).calls.lookup 1).map DoCall.pc =
        some (DoPc.returned 0 (Except.ok ([1], []))) :=
  ⟨coalescing_over_runs
    (show StepsMeet step (fun s e => s.shares e = true) (init [plainBase] 1) sharedFetch by
      decide +kernel) sharedFetch [] (List.append_nil _).symm, by decide +kernel⟩

def cancelledLeader : List Event :=
  [Event.arrive 0 "chunk:k" [0x2F], Event.arrive 1 "chunk:k" [0x2F],
    Event.act 0 Action.enter, Event.act 1 Action.enter, Event.act 0 Action.cancel,
    Event.act 0 Action.giveUp, Event.act 0 Action.publish, Event.act 1 Action.receive]

/-- A follower that was not cancelled returns the error of its leader's context, with no
upstream asked at all. -/
theorem cancelledLeader_leaks :
    Not (forall (upstreams : List Url) (maxInflight : Int) (events : List Event),
      (after step (init upstreams maxInflight) events).NoLeak) := by
  intro h
  have hleak := h [plainBase] 1 cancelledLeader
  have hcall : (after step (init [plainBase] 1) cancelledLeader).calls.lookup 1 =
      some ⟨"chunk:k", [0x2F], false,
        DoPc.returned 0 (Except.error FetchError.context)⟩ := by decide +kernel
  have hfailed := (hleak 1 _ 0 _ hcall rfl).2.1 _ rfl rfl plainBase
  have hnone : (after step (init [plainBase] 1) cancelledLeader).attempts = [] := by
    decide +kernel
  have hbase : plainBase ∈ (after step (init [plainBase] 1) cancelledLeader).upstreams := by
    decide +kernel
  rcases hfailed hbase with ⟨detail, hmem⟩
  rw [hnone] at hmem
  cases hmem

end Fetcher

end Pubcache
end Ephor
