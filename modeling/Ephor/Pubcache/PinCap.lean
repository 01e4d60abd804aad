import Ephor.Foundation.Transition
import Ephor.Pubcache.PinLoad

/-!
# The cap on one pin

The loop of `pin` compares the running total with the cap where it stores an object, but not
where it finds one that another pin holds already.  A committed record is within the cap
exactly when the objects found on the way would have passed the same comparison.
-/

namespace Ephor
namespace Pubcache

open Foundation
open Foundation.Transition

/-!
# Sizes
-/

/-- The body of an object that is not held: the one in hand, or what the source answers. -/
def freshBody (src : Source) (i : Nat) (want : Want) : Bytes :=
  match want.body, src.answer i with
  | some body, _ => body
  | none, Except.ok body => body.getD []
  | none, Except.error _ => []

def wantSize (w : World) (src : Source) (i : Nat) (want : Want) : Int :=
  (w.store.objects.lookup want.key).getD (freshBody src i want).length

/-- Every held object of the set fits under the cap when its turn comes. -/
def HeldFit (cap : Int) (w : World) (src : Source) : Nat -> Int -> List Want -> Prop
  | _, _, [] => True
  | i, total, want :: rest =>
      (want.key ∈ w.store.objects -> total + wantSize w src i want <= cap) ∧
        HeldFit cap w src (i + 1) (total + wantSize w src i want) rest

def sizeOf (w : World) (key : String) : Int :=
  (w.store.objects.lookup key).getD 0

/-- What the loop has gathered is held, and its total is that of the recorded sizes. -/
structure Weighs (w : World) (objects : List String) (total : Int) : Prop where
  held : forall k, k ∈ objects -> k ∈ w.store.objects
  total_eq : total = (objects.map (sizeOf w)).sum

/-!
# The loop
-/

/-- What one iteration of the loop does to the total and to the sizes. -/
structure Secures (src : Source) (i : Nat) (want : Want) (p p' : PinProgress) : Prop where
  pinBytes_eq : p'.pinBytes = p.pinBytes + wantSize p.world src i want
  config_eq : p'.world.store.config = p.world.store.config
  lookup_self : p'.world.store.objects.lookup want.key = some (wantSize p.world src i want)
  lookup_other : forall k, k ≠ want.key ->
    p'.world.store.objects.lookup k = p.world.store.objects.lookup k
  capped : want.key ∉ p.world.store.objects -> 0 < p.world.store.config.maxPinBytes ->
    p'.pinBytes <= p.world.store.config.maxPinBytes

theorem checkBudget_capped {config : PinConfig} {addr : Addr} {pinBytes total n : Int}
    (h : checkBudget config addr pinBytes total n = Except.ok ())
    (hcap : 0 < config.maxPinBytes) : pinBytes + n <= config.maxPinBytes := by
  unfold checkBudget at h
  split at h
  · exact nomatch h
  · split at h
    · exact nomatch h
    · rename_i hwithin
      exact Int.not_lt.mp fun hover => hwithin ⟨hcap, hover⟩

variable {src : Source} {io : PinIo} {i : Nat} {p p' : PinProgress} {w : World}

section Gate

variable {blake3 : Bytes -> Digest}

theorem secures_storeObject {want : Want} (hfree : p.world.store.objects.lookup want.key = none)
    (h : storeObject blake3 io want (freshBody src i want) p = (Except.ok (), p')) :
    Secures src i want p p' := by
  have hsize : wantSize p.world src i want = (freshBody src i want).length := by
    rw [wantSize, hfree]
    rfl
  unfold storeObject at h
  split at h
  · exact nomatch h
  · dsimp only at h
    split at h
    · exact nomatch h
    · rename_i hbudget
      split at h
      · exact nomatch h
      · injection h with _ hp
        subst hp
        constructor
        · exact congrArg (fun n => p.pinBytes + n) hsize.symm
        · rfl
        · rw [hsize]
          exact Finmap.lookup_insert _
        · intro k hk
          exact Finmap.lookup_insert_of_ne _ hk
        · intro _ hcap
          exact checkBudget_capped hbudget hcap

theorem secures_gatherObject {root : Addr} {want : Want}
    (h : gatherObject blake3 src io root i want p = (Except.ok (), p')) :
    Secures src i want p p' := by
  unfold gatherObject at h
  split at h
  · rename_i sz hheld
    have hsize : wantSize p.world src i want = sz := by
      rw [wantSize, hheld]
      rfl
    injection h with _ hp
    subst hp
    constructor
    · exact congrArg (fun n => p.pinBytes + n) hsize.symm
    · rfl
    · rw [hsize]
      exact hheld
    · exact fun _ _ => rfl
    · intro hnot _
      exact absurd (mem_objects_iff.mpr ⟨sz, hheld⟩) hnot
  · rename_i hfree
    have hnot : objectKey want.kind want.addr ∉ p.world.store.objects :=
      Finmap.lookup_eq_none.mp hfree
    split at h
    · rename_i body hbody
      have hfresh : freshBody src i want = body := by
        rw [freshBody, hbody]
      exact secures_storeObject hfree (hfresh ▸ h)
    · rename_i hbody
      rw [callSource_of_not_mem hnot] at h
      split at h
      · exact nomatch h
      · rename_i body w heq
        injection heq with hanswer hw
        subst hw
        have hfresh : freshBody src i want = body.getD [] := by
          rw [freshBody, hbody, hanswer]
        exact secures_storeObject hfree (hfresh ▸ h)

theorem weighs_secures {want : Want} (h : Secures src i want p p')
    (hp : Weighs p.world p.objects p.pinBytes) :
    Weighs p'.world (p.objects ++ [want.key]) p'.pinBytes := by
  have hsame : forall k, k ∈ p.objects ->
      p'.world.store.objects.lookup k = p.world.store.objects.lookup k := by
    intro k hk
    by_cases heq : k = want.key
    · rcases mem_objects_iff.mp (hp.held k hk) with ⟨sz, hsz⟩
      rw [heq] at hsz ⊢
      rw [h.lookup_self, wantSize, hsz]
      rfl
    · exact h.lookup_other k heq
  constructor
  · intro k hk
    cases List.mem_append.mp hk with
    | inl hold =>
        rw [mem_objects_iff, hsame k hold]
        exact mem_objects_iff.mp (hp.held k hold)
    | inr hnew =>
        rw [List.mem_singleton.mp hnew]
        exact mem_objects_iff.mpr ⟨_, h.lookup_self⟩
  · have hold : p.objects.map (sizeOf p'.world) = p.objects.map (sizeOf p.world) := by
      apply List.map_congr_left
      intro k hk
      rw [sizeOf, hsame k hk, sizeOf]
    have hnew : sizeOf p'.world want.key = wantSize p.world src i want := by
      rw [sizeOf, h.lookup_self]
      rfl
    rw [List.map_append, List.sum_append, hold, <- hp.total_eq, h.pinBytes_eq, List.map_singleton,
      List.sum_singleton, hnew]

theorem weighs_gather {root : Addr} {set : List Want}
    (h : gather blake3 src io root i set p = (Except.ok (), p'))
    (hp : Weighs p.world p.objects p.pinBytes) : Weighs p'.world p'.objects p'.pinBytes := by
  induction set generalizing i p with
  | nil =>
      injection h with _ heq
      exact heq ▸ hp
  | cons want rest ih =>
      unfold gather at h
      split at h
      · exact nomatch h
      · rename_i p1 hstep
        apply ih h
        rw [gatherObject_objects hstep]
        exact weighs_secures (secures_gatherObject hstep) hp

theorem wantSize_nonneg (hsizes : forall k sz, w.store.objects.lookup k = some sz -> 0 <= sz)
    (src : Source) (i : Nat) (want : Want) : 0 <= wantSize w src i want := by
  rw [wantSize]
  cases hkey : w.store.objects.lookup want.key with
  | none => exact Int.natCast_nonneg _
  | some sz => exact hsizes _ sz hkey

/-- A finished loop is within the cap exactly when the held objects fit; the sizes are those
of the world `w0` in which it started. -/
theorem gather_capped_iff {w0 : World}
    (hsizes : forall k sz, w0.store.objects.lookup k = some sz -> 0 <= sz) {cap : Int}
    (hcap : 0 < cap) {root : Addr} {set : List Want}
    (h : gather blake3 src io root i set p = (Except.ok (), p'))
    (hconfig : p.world.store.config.maxPinBytes = cap) (hdistinct : (set.map Want.key).Nodup)
    (hsame : forall want, want ∈ set ->
      p.world.store.objects.lookup want.key = w0.store.objects.lookup want.key) :
    p.pinBytes <= p'.pinBytes ∧
      (p.pinBytes <= cap -> (p'.pinBytes <= cap ↔ HeldFit cap w0 src i p.pinBytes set)) := by
  induction set generalizing i p with
  | nil =>
      injection h with _ heq
      subst heq
      exact ⟨Int.le_refl _, fun hp => iff_of_true hp trivial⟩
  | cons want rest ih =>
      unfold gather at h
      split at h
      · exact nomatch h
      · rename_i p1 hstep
        have hsecures := secures_gatherObject hstep
        rcases List.nodup_cons.mp hdistinct with ⟨hnew, hrest⟩
        have hhere := hsame want List.mem_cons_self
        have hsize : wantSize p.world src i want = wantSize w0 src i want := by
          rw [wantSize, hhere, wantSize]
        have htotal : p1.pinBytes = p.pinBytes + wantSize w0 src i want := by
          rw [hsecures.pinBytes_eq, hsize]
        have hnonneg := wantSize_nonneg hsizes src i want
        have hlater : forall other, other ∈ rest ->
            p1.world.store.objects.lookup other.key = w0.store.objects.lookup other.key := by
          intro other hother
          have hne : other.key ≠ want.key :=
            fun heq => hnew (heq ▸ List.mem_map_of_mem hother)
          rw [hsecures.lookup_other _ hne]
          exact hsame other (List.mem_cons_of_mem _ hother)
        rcases ih h ((congrArg PinConfig.maxPinBytes hsecures.config_eq).trans hconfig) hrest
          hlater with ⟨hle, hiff⟩
        refine ⟨by omega, ?_⟩
        intro hp
        rw [HeldFit, <- htotal]
        by_cases hheld : want.key ∈ w0.store.objects
        · constructor
          · intro hfinal
            have hmiddle : p1.pinBytes <= cap := by omega
            exact ⟨fun _ => hmiddle, (hiff hmiddle).mp hfinal⟩
          · intro hfit
            exact (hiff (hfit.1 hheld)).mpr hfit.2
        · have hnotHeld : want.key ∉ p.world.store.objects := by
            rw [<- Finmap.lookup_eq_none, hhere]
            exact Finmap.lookup_eq_none.mpr hheld
          have hmiddle := hsecures.capped hnotHeld (hconfig ▸ hcap)
          rw [hconfig] at hmiddle
          rw [hiff hmiddle]
          exact (and_iff_right fun hmem => absurd hmem hheld).symm

/-!
# One call
-/

structure PinCall where
  src : Source
  io : PinIo
  kind : Kind
  addr : Addr
  owner : String

/-- A record that a call has committed, and the state that the call returns in. -/
structure Commit where
  record : PinRecord
  world : World

/-- The record names distinct objects, and its bytes are their total size. -/
def Commit.Weighed (c : Commit) : Prop :=
  c.record.objects.Nodup ∧ c.record.bytes = (c.record.objects.map (sizeOf c.world)).sum

section Call

variable (blake3 : Bytes -> Digest)

def PinCall.result (call : PinCall) (w : World) : Except PinError PinRecord × World :=
  pin blake3 call.src call.io call.kind call.addr call.owner w

def PinCall.step (w : World) (call : PinCall) : World :=
  (call.result blake3 w).2

def PinCall.Succeeds (w : World) (call : PinCall) : Prop :=
  exists record, (call.result blake3 w).1 = Except.ok record

def PinCall.commits (w : World) (call : PinCall) : List Commit :=
  match w.store.pins.lookup (objectKey call.kind call.addr), call.result blake3 w with
  | none, (Except.ok record, w') => [⟨record, w'⟩]
  | _, _ => []

/--
Whenever the loop would find an object of the pin that is held already, the object still fits
under the cap.
-/
def PinCall.HeldFits (w : World) (call : PinCall) : Prop :=
  w.store.pins.lookup (objectKey call.kind call.addr) = none ->
    forall rootBody set,
      (callSource blake3 call.src 0 call.kind call.addr w).1 = Except.ok rootBody ->
      wantSet blake3 call.kind call.addr rootBody = Except.ok set ->
        HeldFit w.store.config.maxPinBytes
          (callSource blake3 call.src 0 call.kind call.addr w).2 call.src 1 0 set

end Call

theorem finishPin_eq_ok {kind : Kind} {addr : Addr} {owner : String}
    {outcome : Except PinError Unit} {record : PinRecord}
    (h : finishPin io kind addr owner (outcome, p) = (Except.ok record, w)) :
    outcome = Except.ok () ∧ record = pinRecord kind addr owner io.now p ∧
      w = committed record p := by
  cases outcome with
  | error e => cases congrArg Prod.fst h
  | ok u =>
      cases hfail : io.writeIndex with
      | some text =>
          simp only [finishPin, hfail] at h
          cases congrArg Prod.fst h
      | none =>
          simp only [finishPin, hfail] at h
          injection h with hrecord hw
          cases hrecord
          exact ⟨rfl, rfl, hw.symm⟩

theorem result_of_committed {w' : World} {call : PinCall} {record : PinRecord}
    (hnew : w.store.pins.lookup (objectKey call.kind call.addr) = none)
    (h : call.result blake3 w = (Except.ok record, w')) :
    exists rootBody set p,
      (callSource blake3 call.src 0 call.kind call.addr w).1 = Except.ok rootBody ∧
      wantSet blake3 call.kind call.addr rootBody = Except.ok set ∧
      gather blake3 call.src call.io call.addr 1 set
        ⟨(callSource blake3 call.src 0 call.kind call.addr w).2, [], [], 0⟩ =
          (Except.ok (), p) ∧
      record = pinRecord call.kind call.addr call.owner call.io.now p ∧
      w'.store.objects = p.world.store.objects := by
  unfold PinCall.result pin at h
  rw [hnew] at h
  dsimp only at h
  split at h
  · exact nomatch congrArg Prod.fst h
  · split at h
    · exact nomatch congrArg Prod.fst h
    · rename_i rootBody w0 hcall
      split at h
      · exact nomatch congrArg Prod.fst h
      · rename_i set hset
        rw [hcall]
        cases hgather : gather blake3 call.src call.io call.addr 1 set ⟨w0, [], [], 0⟩ with
        | mk outcome p =>
            rw [hgather] at h
            rcases finishPin_eq_ok h with ⟨houtcome, hrecord, hw⟩
            refine ⟨rootBody, set, p, rfl, hset, ?_, hrecord, ?_⟩
            · rw [houtcome] at hgather
              exact hgather
            · rcases committed_store record p with ⟨_, hstore⟩
              rw [hw, hstore]

theorem commits_capped_iff (hsettled : Settled w) (hcap : 0 < w.store.config.maxPinBytes)
    {call : PinCall} (hsucceeds : call.Succeeds blake3 w) :
    (forall c, c ∈ call.commits blake3 w -> c.Weighed) ∧
      ((forall c, c ∈ call.commits blake3 w ->
          c.record.bytes <= w.store.config.maxPinBytes) ↔ call.HeldFits blake3 w) := by
  cases hroot : w.store.pins.lookup (objectKey call.kind call.addr) with
  | some existing =>
      have hnone : call.commits blake3 w = [] := by
        rw [PinCall.commits, hroot]
      rw [hnone]
      refine ⟨fun c hc => (nomatch hc), iff_of_true (fun c hc => (nomatch hc)) ?_⟩
      intro hnew
      exact nomatch hroot.symm.trans hnew
  | none =>
      rcases hsucceeds with ⟨record, hrecord⟩
      have hresult : call.result blake3 w = (Except.ok record, (call.result blake3 w).2) :=
        Prod.ext hrecord rfl
      have hcommits : call.commits blake3 w = [⟨record, (call.result blake3 w).2⟩] := by
        rw [PinCall.commits, hroot, hresult]
      rcases result_of_committed hroot hresult with
        ⟨rootBody, set, p, hbody, hset, hgather, hmade, hobjects⟩
      have hsource := settled_callSource blake3 call.src 0 call.kind call.addr hsettled
      have hweighs : Weighs p.world p.objects p.pinBytes :=
        weighs_gather hgather ⟨fun _ hk => (nomatch hk), rfl⟩
      have hgathered := gather_objects hgather
      rw [List.nil_append] at hgathered
      have hsizes : sizeOf (call.result blake3 w).2 = sizeOf p.world := by
        funext k
        rw [sizeOf, hobjects, sizeOf]
      have hcapped := (gather_capped_iff (fun _ _ hobj => hsource.size_nonneg hobj) hcap hgather
        (congrArg PinConfig.maxPinBytes
          (callSource_bytes_le blake3 call.src 0 call.kind call.addr hsettled).2)
        (wantSet_nodup hset) (fun _ _ => rfl)).2 (Int.le_of_lt hcap)
      have hbytes : record.bytes = p.pinBytes := congrArg PinRecord.bytes hmade
      have hnamed : record.objects = p.objects := congrArg PinRecord.objects hmade
      rw [hcommits]
      constructor
      · intro c hc
        rw [List.mem_singleton.mp hc, Commit.Weighed]
        dsimp only
        rw [hnamed, hbytes, hsizes]
        refine ⟨?_, hweighs.total_eq⟩
        rw [hgathered]
        exact wantSet_nodup hset
      · constructor
        · intro hall hnew rootBody' set' hbody' hset'
          cases hbody.symm.trans hbody'
          cases hset.symm.trans hset'
          apply hcapped.mp
          rw [<- hbytes]
          exact hall _ (List.mem_singleton.mpr rfl)
        · intro hfits c hc
          rw [List.mem_singleton.mp hc]
          dsimp only
          rw [hbytes]
          exact hcapped.mpr (hfits hroot rootBody set hbody hset)

/-!
# Runs of calls
-/

variable (blake3) in
/--
In a run of successful calls every record that is committed weighs what it says; and all of
them are within the cap exactly when in every call the held objects fit.
-/
theorem committed_within_cap_iff (w : World) (hsettled : Settled w)
    (hcap : 0 < w.store.config.maxPinBytes) (calls : List PinCall)
    (hsucceed : StepsMeet (PinCall.step blake3) (PinCall.Succeeds blake3) w calls) :
    (forall c, c ∈ emitted (PinCall.step blake3) (PinCall.commits blake3) w calls ->
      c.Weighed) ∧
      ((forall c, c ∈ emitted (PinCall.step blake3) (PinCall.commits blake3) w calls ->
          c.record.bytes <= w.store.config.maxPinBytes) ↔
        StepsMeet (PinCall.step blake3) (PinCall.HeldFits blake3) w calls) := by
  induction calls generalizing w with
  | nil => exact ⟨fun c hc => (nomatch hc), iff_of_true (fun c hc => (nomatch hc)) trivial⟩
  | cons call rest ih =>
      have hconfig : (PinCall.step blake3 w call).store.config = w.store.config :=
        pin_config blake3 _ _ _ _ _ hsettled
      rcases commits_capped_iff hsettled hcap hsucceed.1 with ⟨hweighed, hcapped⟩
      rcases ih (PinCall.step blake3 w call) (settled_pin blake3 _ _ _ _ _ hsettled)
        (hconfig ▸ hcap) hsucceed.2 with ⟨hrestWeighed, hrestCapped⟩
      rw [hconfig] at hrestCapped
      simp only [emitted, List.mem_append, or_imp, forall_and, StepsMeet]
      exact ⟨⟨hweighed, hrestWeighed⟩, and_congr hcapped hrestCapped⟩

end Gate

/-!
# Two manifests with a common chunk
-/

def pinOf (chunks : List Addr) (bodies : List Bytes) : PinCall where
  src :=
    { consults := false
      read := fun _ => ⟨false, none⟩
      answer := fun i => Except.ok
        ((sampleManifest (rootOf chunks) chunks [0x01] :: [] :: bodies)[i]?) }
  io := ⟨fun _ => none, none, 0⟩
  kind := Kind.manifest
  addr := rootOf chunks
  owner := "alice"

def pinB : PinCall :=
  pinOf [chunkB] [asciiBytes "b"]

def pinAB : PinCall :=
  pinOf [chunkA, chunkB] [asciiBytes "a", asciiBytes "b"]

def cappedWorld : World :=
  (load ⟨1048576, 116, 0, 0⟩ ⟨none, none⟩ ⟨∅, IndexFile.absent⟩).2

theorem reachable_cappedWorld : Reachable blake3OfAB cappedWorld :=
  @Reachable.loaded blake3OfAB ⟨1048576, 116, 0, 0⟩ ⟨none, none⟩
    ⟨∅, IndexFile.absent⟩ cappedWorld trivial rfl

theorem succeeds_of_isOk {blake3 : Bytes -> Digest} {call : PinCall}
    (h : (call.result blake3 w).1.isOk = true) : call.Succeeds blake3 w := by
  cases hresult : (call.result blake3 w).1 with
  | error e =>
      rw [hresult] at h
      exact nomatch h
  | ok record => exact ⟨record, hresult⟩

/-- The first pin alone commits 81 bytes, the weight of what it names. -/
theorem pinB_within_cap :
    (emitted (PinCall.step blake3OfAB) (PinCall.commits blake3OfAB) cappedWorld
        [pinB]).map (fun c => c.record.bytes) = [81] ∧
      forall c, c ∈ emitted (PinCall.step blake3OfAB) (PinCall.commits blake3OfAB) cappedWorld
        [pinB] -> c.Weighed := by
  constructor
  · decide +kernel
  · exact (committed_within_cap_iff blake3OfAB cappedWorld
      (settled_of_reachable reachable_cappedWorld) (by decide) [pinB]
      ⟨succeeds_of_isOk (by decide +kernel), trivial⟩).1

/-- The manifest of both chunks takes 115 bytes and each chunk one; the second chunk is held
by the first pin. -/
theorem pinAB_over_cap :
    Reachable blake3OfAB cappedWorld ∧ cappedWorld.store.config.maxPinBytes = 116 ∧
      StepsMeet (PinCall.step blake3OfAB) (PinCall.Succeeds blake3OfAB) cappedWorld
        [pinB, pinAB] ∧
      (emitted (PinCall.step blake3OfAB) (PinCall.commits blake3OfAB) cappedWorld
        [pinB, pinAB]).map (fun c => c.record.bytes) = [81, 117] := by
  refine ⟨reachable_cappedWorld, rfl, ⟨?_, ?_, trivial⟩, by decide +kernel⟩
  · exact succeeds_of_isOk (by decide +kernel)
  · exact succeeds_of_isOk (by decide +kernel)

end Pubcache
end Ephor
