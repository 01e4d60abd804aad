import Ephor.Client.Signaling

/-!
# The first signing key of a peer

A key is imported only while none is stored for its sender, but the import is awaited and
its end does not look again.  Two imports for one sender that overlap both store their key,
and the later one wins.  Where overlapping imports bring the same key, the first key stays
for good and every signature of its peer is checked with it.
-/

namespace Ephor
namespace Client
namespace Signaling

open Foundation
open Foundation.WebText
open Foundation.Json
open Foundation.Transition

variable {Key : Type}

def carriedKey (p : Value) : Option Value :=
  if isJoin p then truthyMember p depositPubKeyName
  else if isFrame p then truthyMember p pubKeyName
  else none

def Call.imports (env : Environment Key) : Call Key -> Option (JsString × Key)
  | Call.signal sender _ stage => (stage.imported env).map fun key => (sender, key)
  | _ => none

/-- A suspended call brings no other key for the sender. -/
def Call.Agrees (env : Environment Key) (sender : JsString) (key : Key) (call : Call Key) :
    Prop :=
  forall other, other ∈ call.imports env -> other.1 = sender -> other.2 = key

/-- The imported key is the one that every import in flight for the sender brings. -/
def ImportsAgree (env : Environment Key) (s : State Key) : Event -> Prop
  | Event.arrive sender p =>
      addressed env p = true -> s.registry.peerKeys sender = none ->
        forall raw, raw ∈ carriedKey p -> forall key, key ∈ importPeerKey env raw ->
          forall i, i < s.started -> forall call, call ∈ s.calls i ->
            call.Agrees env sender key
  | _ => True

def Call.uses : Call Key -> Option (JsString × Key)
  | Call.signal sender _ (Stage.checkPreKey preKey _) => some (sender, preKey.under)
  | Call.signal sender _ (Stage.checkJoin key) => some (sender, key)
  | Call.signal sender _ (Stage.checkFrame key) => some (sender, key)
  | Call.deposit peer _ (DepositStage.checkingClaim _ _ (some (preKey, _))) =>
      some (peer, preKey.under)
  | Call.relayCheck sender _ _ key => some (sender, key)
  | _ => none

/-- What holds of the suspended calls and of the keys while imports agree. -/
structure KeysAgree (env : Environment Key) (s : State Key) : Prop where
  numbered : forall i, s.started <= i -> s.calls i = none
  joins : forall i sender p raw,
    s.calls i = some (Call.signal sender p (Stage.importJoinKey raw)) -> isJoin p = true
  imports : forall i call peer key, s.calls i = some call ->
    call.imports env = some (peer, key) ->
      s.registry.peerKeys peer = none ∨ s.registry.peerKeys peer = some key
  agree : forall i j call call' peer key key', s.calls i = some call -> s.calls j = some call' ->
    call.imports env = some (peer, key) -> call'.imports env = some (peer, key') -> key = key'
  uses : forall i call peer key, s.calls i = some call -> call.uses = some (peer, key) ->
    s.registry.peerKeys peer = some key
  verified : forall peer key, (peer, key) ∈ s.verified -> s.registry.peerKeys peer = some key

theorem KeysAgree.bound {env : Environment Key} {s : State Key} (h : KeysAgree env s) {i : Nat}
    {call : Call Key} (hcall : s.calls i = some call) : i < s.started := by
  apply Nat.lt_of_not_le
  intro hle
  rw [h.numbered i hle] at hcall
  exact nomatch hcall

theorem keysAgree_initial (env : Environment Key) : KeysAgree env State.initial where
  numbered := fun _ _ => rfl
  joins := fun _ _ _ _ h => nomatch h
  imports := fun _ _ _ _ h => nomatch h
  agree := fun _ _ _ _ _ _ _ h => nomatch h
  uses := fun _ _ _ _ h => nomatch h
  verified := fun _ _ h => nomatch h

/-!
# One step

A step replaces one suspended call, stores the key of that call's import and records the
key of its check.
-/

/-- What the new call of a step must bring. -/
structure CallFits (env : Environment Key) (s : State Key) (i : Nat)
    (keys : JsString -> Option Key) (call : Call Key) : Prop where
  joins : forall sender p raw, call = Call.signal sender p (Stage.importJoinKey raw) ->
    isJoin p = true
  imports : forall peer key, call.imports env = some (peer, key) ->
    (keys peer = none ∨ keys peer = some key) ∧
      forall j other key', j ≠ i -> s.calls j = some other ->
        other.imports env = some (peer, key') -> key' = key
  uses : forall peer key, call.uses = some (peer, key) -> keys peer = some key

/-- A step that replaces call `i` by `next`, stores `imported` for `sender` and records
nothing but keys that are stored. -/
structure KeyTurn (env : Environment Key) (s s' : State Key) (i : Nat)
    (next : Option (Call Key)) (sender : JsString) (imported : Option Key) : Prop where
  calls : s'.calls = Function.update s.calls i next
  keys : s'.registry.peerKeys = storeKey s.registry.peerKeys sender imported
  brought : forall key, imported = some key ->
    exists call, s.calls i = some call ∧ call.imports env = some (sender, key)
  fits : forall call, next = some call -> CallFits env s i s'.registry.peerKeys call
  verified : forall peer key, (peer, key) ∈ s'.verified ->
    (peer, key) ∈ s.verified ∨ s.registry.peerKeys peer = some key
  started : s.started <= s'.started
  bound : i < s'.started

variable {peer : JsString} {key : Key} {p : Value} {stage : Stage Key}

namespace KeyTurn

variable {env : Environment Key} {s s' : State Key} {i : Nat} {next : Option (Call Key)}
  {sender : JsString} {imported : Option Key}

theorem keeps (h : KeysAgree env s) (hturn : KeyTurn env s s' i next sender imported)
    (hkey : s.registry.peerKeys peer = some key) : s'.registry.peerKeys peer = some key := by
  rw [hturn.keys]
  cases imported with
  | none => exact hkey
  | some new =>
      by_cases hpeer : peer = sender
      · subst hpeer
        rcases hturn.brought new rfl with ⟨call, hcall, himports⟩
        rcases h.imports i call peer new hcall himports with hnone | hsome
        · rw [hkey] at hnone
          exact nomatch hnone
        · rw [hkey] at hsome
          rw [storeKey, Function.update_self, hsome]
      · rw [storeKey, Function.update_of_ne hpeer]
        exact hkey

theorem keeps_imports (h : KeysAgree env s) (hturn : KeyTurn env s s' i next sender imported)
    {j : Nat} {call : Call Key} (hcall : s.calls j = some call)
    (himports : call.imports env = some (peer, key)) :
    s'.registry.peerKeys peer = none ∨ s'.registry.peerKeys peer = some key := by
  rcases h.imports j call peer key hcall himports with hnone | hsome
  · rw [hturn.keys]
    cases imported with
    | none => exact Or.inl hnone
    | some new =>
        by_cases hpeer : peer = sender
        · subst hpeer
          rcases hturn.brought new rfl with ⟨mine, hmine, hbrought⟩
          rw [storeKey, Function.update_self,
            h.agree j i call mine peer key new hcall hmine himports hbrought]
          exact Or.inr rfl
        · rw [storeKey, Function.update_of_ne hpeer]
          exact Or.inl hnone
  · exact Or.inr (keeps h hturn hsome)

theorem call_cases (hturn : KeyTurn env s s' i next sender imported) {j : Nat}
    {call : Call Key} (hcall : s'.calls j = some call) :
    (j = i ∧ next = some call) ∨ (j ≠ i ∧ s.calls j = some call) := by
  rw [hturn.calls] at hcall
  by_cases hj : j = i
  · rw [hj, Function.update_self] at hcall
    exact Or.inl ⟨hj, hcall⟩
  · rw [Function.update_of_ne hj] at hcall
    exact Or.inr ⟨hj, hcall⟩

theorem keysAgree (h : KeysAgree env s) (hturn : KeyTurn env s s' i next sender imported) :
    KeysAgree env s' where
  numbered := by
    intro j hj
    have hne : j ≠ i := Nat.ne_of_gt (Nat.lt_of_lt_of_le hturn.bound hj)
    rw [hturn.calls, Function.update_of_ne hne]
    exact h.numbered j (hturn.started.trans hj)
  joins := by
    intro j sender' p raw hcall
    rcases hturn.call_cases hcall with ⟨_, hnext⟩ | ⟨_, hold⟩
    · exact (hturn.fits _ hnext).joins sender' p raw rfl
    · exact h.joins j sender' p raw hold
  imports := by
    intro j call peer key hcall himports
    rcases hturn.call_cases hcall with ⟨_, hnext⟩ | ⟨_, hold⟩
    · exact ((hturn.fits call hnext).imports peer key himports).1
    · exact keeps_imports h hturn hold himports
  agree := by
    intro j k call call' peer key key' hcall hcall' himports himports'
    rcases hturn.call_cases hcall with ⟨hj, hnext⟩ | ⟨hj, hold⟩
    · rcases hturn.call_cases hcall' with ⟨hk, hnext'⟩ | ⟨hk, hold'⟩
      · rw [hnext] at hnext'
        cases hnext'
        rw [himports] at himports'
        cases himports'
        rfl
      · exact (((hturn.fits call hnext).imports peer key himports).2 k call' key' hk hold'
          himports').symm
    · rcases hturn.call_cases hcall' with ⟨hk, hnext'⟩ | ⟨hk, hold'⟩
      · exact ((hturn.fits call' hnext').imports peer key' himports').2 j call key hj hold
          himports
      · exact h.agree j k call call' peer key key' hold hold' himports himports'
  uses := by
    intro j call peer key hcall huses
    rcases hturn.call_cases hcall with ⟨_, hnext⟩ | ⟨_, hold⟩
    · exact (hturn.fits call hnext).uses peer key huses
    · exact keeps h hturn (h.uses j call peer key hold huses)
  verified := by
    intro peer key hmem
    rcases hturn.verified peer key hmem with hold | hkey
    · exact keeps h hturn (h.verified peer key hold)
    · exact keeps h hturn hkey

end KeyTurn

theorem callFits_of_reached {env : Environment Key} {s : State Key} {i : Nat} {r : Registry Key}
    {sender : JsString} (hreached : Reached r sender p stage)
    (hagree : forall key, stage.imported env = some key -> forall j other key', j ≠ i ->
      s.calls j = some other -> other.imports env = some (sender, key') -> key' = key) :
    CallFits env s i r.peerKeys (Call.signal sender p stage) := by
  constructor
  · intro sender' p' raw hcall
    cases hreached <;> exact nomatch hcall
  · intro peer key himports
    rcases Option.map_eq_some_iff.mp himports with ⟨new, hnew, hpair⟩
    cases hpair
    cases hreached with
    | importFrameKey hkey _ _ => exact ⟨Or.inl hkey, hagree key hnew⟩
    | checkPreKey _ _ | checkJoin _ | checkFrame _ => exact nomatch hnew
  · intro peer key huses
    cases hreached with
    | importFrameKey _ _ _ => exact nomatch huses
    | checkPreKey hkey _ | checkJoin hkey | checkFrame hkey =>
        cases huses
        exact hkey

theorem others_agree {env : Environment Key} {s : State Key} (h : KeysAgree env s)
    {sender : JsString} {raw : Value} (hguard : ImportsAgree env s (Event.arrive sender p))
    (haddressed : addressed env p = true) (hnone : s.registry.peerKeys sender = none)
    (hcarried : carriedKey p = some raw) (hkey : importPeerKey env raw = some key) {j : Nat}
    {other : Call Key} {key' : Key} (hother : s.calls j = some other)
    (himports : other.imports env = some (sender, key')) : key' = key := by
  exact hguard haddressed hnone raw hcarried key hkey j (h.bound hother) other hother _ himports
    rfl

theorem keyTurn_arrive {env : Environment Key} {s : State Key} (h : KeysAgree env s)
    {sender : JsString} (hguard : ImportsAgree env s (Event.arrive sender p)) :
    KeyTurn env s (step env s (Event.arrive sender p)) s.started
      ((start env s.registry sender p).2.call sender p) sender none := by
  rw [step_arrive]
  refine ⟨rfl, start_peerKeys s.registry sender p, (fun _ hnone => nomatch hnone), ?_,
    fun _ _ hmem => Or.inl hmem, Nat.le_succ _, Nat.lt_succ_self _⟩
  intro call hcall
  cases hnext : (start env s.registry sender p).2 with
  | dispatch key | drop => rw [hnext] at hcall; exact nomatch hcall
  | suspend stage =>
      rw [hnext] at hcall
      cases hcall
      rcases reached_start hnext with ⟨haddressed, ⟨raw, rfl, hnone, hjoin, hraw⟩ | hreached⟩
      · have hcarried : carriedKey p = some raw := by
          rw [carriedKey, if_pos hjoin, hraw]
        constructor
        · intro sender' p' raw' hsame
          cases hsame
          exact hjoin
        · intro peer key himports
          rcases Option.map_eq_some_iff.mp himports with ⟨new, hnew, hpair⟩
          cases hpair
          refine ⟨Or.inl ?_, ?_⟩
          · rw [start_peerKeys]
            exact hnone
          · intro j other key' _ hother hthem
            exact others_agree h hguard haddressed hnone hcarried hnew hother hthem
        · intro peer key huses
          exact nomatch huses
      · apply callFits_of_reached hreached
        intro key himported j other key' _ hother hthem
        cases hreached with
        | importFrameKey hkey hframe hraw =>
            rw [start_peerKeys] at hkey
            have hcarried : carriedKey p = truthyMember p pubKeyName := by
              rw [carriedKey, not_isJoin_of_isFrame hframe, if_neg (fun hfalse => nomatch hfalse), if_pos hframe]
            exact others_agree h hguard haddressed hkey (hcarried.trans hraw) himported hother
              hthem
        | checkPreKey _ _ | checkJoin _ | checkFrame _ => exact nomatch himported

theorem uses_of_verifiedUnder {env : Environment Key} {sender : JsString}
    (h : verifiedUnder env sender p stage = some key) :
    (Call.signal sender p stage).uses = some (sender, key) := by
  cases stage with
  | importJoinKey raw | importFrameKey raw => exact nomatch h
  | checkPreKey preKey pubBytes =>
      rw [verifiedUnder] at h
      split at h
      · cases h
        rfl
      · exact nomatch h
  | checkJoin key' | checkFrame key' =>
      rcases Option.bind_eq_some_iff.mp h with ⟨sig, _, hkey⟩
      split at hkey
      · cases hkey
        rfl
      · exact nomatch hkey

theorem resume_imports {env : Environment Key} {s : State Key} (h : KeysAgree env s) {i : Nat}
    {sender : JsString} {next : Stage Key}
    (hcall : s.calls i = some (Call.signal sender p stage)) {now : Int}
    (hnext : (resume env now s.registry sender p stage).2 = Next.suspend next) :
    next.imported env = none := by
  have hreached := reached_resume hnext
  cases hreached with
  | checkPreKey _ _ | checkJoin _ | checkFrame _ => rfl
  | importFrameKey hkey hframe hraw =>
      rw [resume_peerKeys] at hkey
      have hstored : forall key, (Call.signal sender p stage).uses = some (sender, key) ->
          stage.imported env = none -> False := by
        intro key huses himported
        have hold := h.uses i _ sender key hcall huses
        rw [himported, storeKey, hold] at hkey
        cases hkey
      cases stage with
      | importJoinKey raw =>
          rw [not_isFrame_of_isJoin (h.joins i sender p raw hcall)] at hframe
          cases hframe
      | checkPreKey preKey pubBytes => exact (hstored preKey.under rfl rfl).elim
      | checkJoin key | checkFrame key => exact (hstored key rfl rfl).elim
      | importFrameKey raw =>
          cases himported : importPeerKey env raw with
          | some key =>
              rw [Stage.imported, himported, storeKey, Function.update_self] at hkey
              cases hkey
          | none =>
              simp only [resume, himported, withVerifyKey] at hnext
              split at hnext <;> cases hnext

theorem keyTurn_resume {env : Environment Key} {s : State Key} (h : KeysAgree env s) {i : Nat}
    (m : Moment) {sender : JsString} (hcall : s.calls i = some (Call.signal sender p stage)) :
    KeyTurn env s (step env s (Event.resume i m)) i
      ((resume env m.now s.registry sender p stage).2.call sender p) sender
      (stage.imported env) := by
  rw [step_resume_signal env m hcall]
  refine ⟨rfl, resume_peerKeys m.now s.registry sender p stage, ?_, ?_, ?_, Nat.le_refl _,
    h.bound hcall⟩
  · intro key himported
    refine ⟨_, hcall, ?_⟩
    rw [Call.imports, himported]
    rfl
  · intro call hnew
    cases hnext : (resume env m.now s.registry sender p stage).2 with
    | dispatch key | drop => rw [hnext] at hnew; exact nomatch hnew
    | suspend next =>
        rw [hnext] at hnew
        cases hnew
        apply callFits_of_reached (reached_resume hnext)
        intro key himported
        rw [resume_imports h hcall hnext] at himported
        exact nomatch himported
  · intro peer key hmem
    rcases List.mem_append.mp hmem with hold | hnew
    · exact Or.inl hold
    · rcases Option.map_eq_some_iff.mp (Option.mem_toList.mp hnew) with ⟨used, hused, hpair⟩
      cases hpair
      exact Or.inr (h.uses i _ sender key hcall (uses_of_verifiedUnder hused))

theorem keyTurn_deposit {env : Environment Key} {s : State Key} (h : KeysAgree env s) {i : Nat}
    (m : Moment) {plaintext : Bytes} {stage : DepositStage Key}
    (hcall : s.calls i = some (Call.deposit peer plaintext stage)) :
    exists next, KeyTurn env s (step env s (Event.resume i m)) i next peer none := by
  rcases step_resume_deposit env m hcall with ⟨r, next, sealed, key, hturn, hstep⟩
  rw [hstep]
  refine ⟨next.map (Call.deposit peer plaintext), rfl, ?_, (fun _ hnone => nomatch hnone), ?_,
    ?_, Nat.le_refl _, h.bound hcall⟩
  · cases hturn <;> rfl
  · intro call hnew
    rcases Option.map_eq_some_iff.mp hnew with ⟨after, hafter, rfl⟩
    refine ⟨fun _ _ _ hsame => ?_, fun _ _ himports => ?_, ?_⟩
    · exact nomatch hsame
    · exact nomatch himports
    · intro other used huses
      cases hturn with
      | unknown _ | claimed _ _ _ | verified _ _ | refused _ _ _ => exact nomatch hafter
      | boxed _ | ensured box =>
          cases hafter
          exact nomatch huses
      | checking box claim spk =>
          cases hafter
          cases hclaimed : claimedPreKey s.registry peer spk with
          | none =>
              rw [hclaimed] at huses
              exact nomatch huses
          | some found =>
              rw [hclaimed] at huses
              cases huses
              exact (claimedPreKey_eq_some hclaimed).1
  · intro other used hmem
    rcases List.mem_append.mp hmem with hold | hnew
    · exact Or.inl hold
    · rcases Option.map_eq_some_iff.mp (Option.mem_toList.mp hnew) with ⟨under, hunder, hpair⟩
      cases hpair
      cases hturn with
      | verified hvalid oneTime =>
          cases hunder
          exact Or.inr (h.uses i _ peer _ hcall rfl)
      | _ => exact nomatch hunder

theorem keyTurn_step {env : Environment Key} {s : State Key} (h : KeysAgree env s) {e : Event}
    (hguard : ImportsAgree env s e) :
    step env s e = s ∨
      exists i next sender imported, KeyTurn env s (step env s e) i next sender imported := by
  cases e with
  | arrive sender p => exact Or.inr ⟨_, _, _, _, keyTurn_arrive h hguard⟩
  | deposit peer plaintext =>
      refine Or.inr ⟨s.started, _, peer, none, rfl, rfl, (fun _ hnone => by cases hnone), ?_,
        fun _ _ hmem => Or.inl hmem, Nat.le_succ _, Nat.lt_succ_self _⟩
      intro call hcall
      cases hcall
      refine ⟨fun _ _ _ hsame => ?_, fun _ _ himports => ?_, fun _ _ huses => ?_⟩
      · cases hsame
      · cases himports
      · cases huses
  | checkDeposit sender message sig =>
      refine Or.inr ⟨s.started, _, sender, none, rfl, rfl, (fun _ hnone => by cases hnone), ?_,
        fun _ _ hmem => Or.inl hmem, Nat.le_succ _, Nat.lt_succ_self _⟩
      intro call hcall
      rcases Option.map_eq_some_iff.mp hcall with ⟨key, hkey, rfl⟩
      refine ⟨fun _ _ _ hsame => ?_, fun _ _ himports => ?_, fun _ _ huses => ?_⟩
      · cases hsame
      · cases himports
      · cases huses
        exact hkey
  | resume i m =>
      cases hcall : s.calls i with
      | none =>
          rw [step, hcall]
          exact Or.inl rfl
      | some call =>
          cases call with
          | signal sender p stage => exact Or.inr ⟨_, _, _, _, keyTurn_resume h m hcall⟩
          | deposit peer plaintext stage =>
              rcases keyTurn_deposit h m hcall with ⟨next, hturn⟩
              exact Or.inr ⟨_, _, _, _, hturn⟩
          | relayCheck sender message sig key =>
              rw [step_resume_relayCheck env m hcall]
              refine Or.inr ⟨i, none, sender, none, rfl, rfl, (fun _ hnone => by cases hnone),
                (fun _ hnone => by cases hnone), ?_, Nat.le_refl _, h.bound hcall⟩
              intro peer used hmem
              rcases List.mem_append.mp hmem with hold | hnew
              · exact Or.inl hold
              · split at hnew
                · cases List.mem_singleton.mp hnew
                  exact Or.inr (h.uses i _ sender key hcall rfl)
                · cases hnew

theorem keysAgree_step {env : Environment Key} (s : State Key) (e : Event)
    (h : KeysAgree env s) (hguard : ImportsAgree env s e) : KeysAgree env (step env s e) := by
  rcases keyTurn_step h hguard with hsame | ⟨i, next, sender, imported, hturn⟩
  · rw [hsame]
    exact h
  · exact hturn.keysAgree h

/-!
# Runs
-/

theorem peerKeys_after {env : Environment Key} {s : State Key} {events : List Event}
    (h : KeysAgree env s) (hmeet : StepsMeet (step env) (ImportsAgree env) s events)
    (hkey : s.registry.peerKeys peer = some key) :
    (after (step env) s events).registry.peerKeys peer = some key := by
  induction events generalizing s with
  | nil => exact hkey
  | cons e rest ih =>
      apply ih (keysAgree_step s e h hmeet.1) hmeet.2
      rcases keyTurn_step h hmeet.1 with hsame | ⟨i, next, sender, imported, hturn⟩
      · rw [hsame]
        exact hkey
      · exact hturn.keeps h hkey


/--
In a run in which overlapping imports for one sender bring one key, a key that is stored
for a peer stays, and it is the one that every successful check of the peer's frames,
prekeys and deposits uses.
-/
theorem firstKey_of_importsAgree (env : Environment Key) {events more : List Event}
    (hmeet : StepsMeet (step env) (ImportsAgree env) State.initial (events ++ more))
    {peer : JsString} {key : Key}
    (hstored : (after (step env) State.initial events).registry.peerKeys peer = some key) :
    (after (step env) State.initial (events ++ more)).registry.peerKeys peer = some key ∧
      forall used, (peer, used) ∈ (after (step env) State.initial (events ++ more)).verified ->
        used = key := by
  have hsplit := stepsMeet_of_append hmeet
  have hthen := invariant_after keysAgree_step (keysAgree_initial env) hsplit.1
  have hend := invariant_after keysAgree_step (keysAgree_initial env) hmeet
  have hkept : (after (step env) State.initial (events ++ more)).registry.peerKeys peer =
      some key := by
    rw [after_append]
    exact peerKeys_after hthen hsplit.2 hstored
  refine ⟨hkept, ?_⟩
  intro used hused
  have hsame := hend.verified peer used hused
  rw [hkept] at hsame
  exact (Option.some.inj hsame).symm

/-!
# Two imports at once
-/

instance (env : Environment Bytes) (sender : JsString) (key : Bytes) (call : Call Bytes) :
    Decidable (call.Agrees env sender key) :=
  inferInstanceAs (Decidable (forall other, other ∈ call.imports env -> _))

instance (env : Environment Bytes) (s : State Bytes) :
    forall e, Decidable (ImportsAgree env s e)
  | Event.arrive sender p =>
      inferInstanceAs (Decidable (addressed env p = true -> s.registry.peerKeys sender = none ->
        forall raw, raw ∈ carriedKey p -> forall key, key ∈ importPeerKey env raw ->
          forall i, i < s.started -> forall call, call ∈ s.calls i ->
            call.Agrees env sender key))
  | Event.deposit _ _ => inferInstanceAs (Decidable True)
  | Event.checkDeposit _ _ _ => inferInstanceAs (Decidable True)
  | Event.resume _ _ => inferInstanceAs (Decidable True)

def keyedOffer (key : Bytes) : Value :=
  signedFrame (sampleEnvironment true) key samplePeer
    [(typeName, Value.string offerType), (nonceName, Value.string (ofText ['n'])),
      (tsName, Value.number (Number.finite 5)), (pubKeyName, Value.string (btoa key))]

theorem settledJoin_wins :
    (after (step (sampleEnvironment true)) State.initial
      ([Event.arrive samplePeer (keyedJoin samplePoint), Event.resume 0 (sampleMoment 5)] ++
        [Event.arrive samplePeer (keyedOffer otherPoint), Event.resume 1 (sampleMoment 5)])
      ).registry.peerKeys samplePeer = some samplePoint := by
  have hmeet : StepsMeet (step (sampleEnvironment true)) (ImportsAgree (sampleEnvironment true))
      State.initial
      ([Event.arrive samplePeer (keyedJoin samplePoint), Event.resume 0 (sampleMoment 5)] ++
        [Event.arrive samplePeer (keyedOffer otherPoint), Event.resume 1 (sampleMoment 5)]) := by
    decide +kernel
  have hstored : (after (step (sampleEnvironment true)) State.initial
      [Event.arrive samplePeer (keyedJoin samplePoint), Event.resume 0 (sampleMoment 5)]
      ).registry.peerKeys samplePeer = some samplePoint := by
    decide +kernel
  exact (firstKey_of_importsAgree (sampleEnvironment true) hmeet hstored).1

def racingImports : List Event :=
  [Event.arrive samplePeer (keyedJoin samplePoint), Event.arrive samplePeer (keyedOffer otherPoint),
    Event.resume 0 (sampleMoment 5), Event.resume 1 (sampleMoment 5),
    Event.resume 1 (sampleMoment 5)]

/-- The join's key is stored first; the offer replaces it and is verified under its own. -/
theorem overlapping_import_replaces :
    (after (step (sampleEnvironment true)) State.initial (racingImports.take 3)
      ).registry.peerKeys samplePeer = some samplePoint ∧
    (after (step (sampleEnvironment true)) State.initial racingImports
      ).registry.peerKeys samplePeer = some otherPoint ∧
    (after (step (sampleEnvironment true)) State.initial racingImports).verified =
      [(samplePeer, otherPoint)] := by
  decide +kernel

end Signaling
end Client
end Ephor
