import Ephor.Pubcache.PinMachine
import Ephor.Pubcache.PinLoad

/-!
# A pin in flight

What `quarantine` may do to the objects that a running pin has secured.  The
objects it wrote are pending, and safe.  Those it found are kept by the pins that
name them, and a quarantine may drop those pins.
-/

namespace Ephor
namespace Pubcache

open Foundation
open InFlight
open Transition

section Gate

variable {blake3 : Bytes -> Digest}

/-!
# What a step of the pin can do

The commit is what matters here, so the steps that give up or come after it are
one case.
-/

inductive PinTask.Moves (blake3 : Bytes -> Digest) (t : PinTask) (w : World) :
    PinTask -> World -> Prop where
  | ended {t' : PinTask} {w' : World} :
      t'.pc.ending = true -> Moves blake3 t w t' w'
  | admitted :
      t.pc = PinPc.start -> Moves blake3 t w (t.goto PinPc.resolveRoot) w
  | planned {rootBody : Option Bytes} {set : List Want} :
      t.pc = PinPc.resolveRoot ->
      wantSet blake3 t.kind t.addr rootBody = Except.ok set ->
      Moves blake3 t w (t.goto (PinPc.next set)) w
  | waited {pc : PinPc} {w' : World} {want : Want} {rest : List Want} :
      t.pc.todo = want :: rest -> pc.todo = want :: rest ->
      w'.store = w.store -> Moves blake3 t w (t.goto pc) w'
  | secured {t' : PinTask} {w' : World} {want : Want} {rest : List Want} :
      t.pc.todo = want :: rest -> t'.pc = PinPc.next rest ->
      t'.objects = t.objects ++ [want.key] ->
      (forall key, key ∈ w'.store.objects <->
        key = want.key ∨ key ∈ w.store.objects) ->
      Moves blake3 t w t' w'

variable (blake3) in
theorem PinTask.moves_advance (env : PinEnv) (t : PinTask) (w : World) :
    PinTask.Moves blake3 t w (t.advance blake3 env w).1 (t.advance blake3 env w).2 := by
  unfold PinTask.advance
  cases hpc : t.pc with
  | start =>
      dsimp only
      split
      · exact Moves.ended rfl
      · split
        · exact Moves.ended rfl
        · exact Moves.admitted hpc
  | resolveRoot =>
      dsimp only
      split
      · exact Moves.ended rfl
      · split
        · exact Moves.ended rfl
        · rename_i hset
          exact Moves.planned hpc hset
  | check want rest =>
      have htodo : t.pc.todo = want :: rest := congrArg PinPc.todo hpc
      dsimp only
      split
      · rename_i sz hsz
        refine Moves.secured htodo rfl rfl ?_
        intro key
        constructor
        · exact Or.inr
        · intro hkey
          rcases hkey with hkey | hkey
          · rw [hkey]
            exact mem_objects_iff.mpr ⟨sz, hsz⟩
          · exact hkey
      · split
        · exact Moves.waited htodo rfl rfl
        · exact Moves.waited htodo rfl rfl
  | fetch want rest | write want rest body =>
      have htodo : t.pc.todo = want :: rest := congrArg PinPc.todo hpc
      dsimp only
      split
      · exact Moves.ended rfl
      · exact Moves.waited htodo rfl rfl
  | gate want rest body =>
      have htodo : t.pc.todo = want :: rest := congrArg PinPc.todo hpc
      dsimp only
      split
      · exact Moves.ended rfl
      · split
        · exact Moves.ended rfl
        · exact Moves.waited htodo rfl rfl
  | account want rest body =>
      have htodo : t.pc.todo = want :: rest := congrArg PinPc.todo hpc
      refine Moves.secured htodo rfl rfl ?_
      intro key
      exact FiniteMap.mem_insert_iff
  | commit =>
      dsimp only
      split
      · exact Moves.ended rfl
      · exact Moves.ended rfl
  | uncommit text | rollback e | release result => exact Moves.ended rfl
  | done result =>
      apply Moves.ended
      dsimp only
      rw [hpc]
      rfl

/-!
# The objects of the record are distinct
-/

/-- No object is secured twice: what is secured and what is left are distinct. -/
structure PinTask.Planned (t : PinTask) : Prop where
  unresolved : t.pc = PinPc.start ∨ t.pc = PinPc.resolveRoot -> t.objects = []
  distinct : t.pc.ending = false ->
    (t.objects ++ t.pc.todo.map Want.key).Nodup

theorem PinTask.planned_init (kind : Kind) (addr : Addr) (owner : String) :
    (PinTask.init kind addr owner).Planned :=
  ⟨fun _ => rfl, fun _ => List.nodup_nil⟩

theorem PinPc.next_ne (wants : List Want) :
    Not (PinPc.next wants = PinPc.start ∨ PinPc.next wants = PinPc.resolveRoot) := by
  intro h
  cases wants <;> rcases h with h | h <;> cases h

theorem PinPc.not_unresolved {pc : PinPc} {want : Want} {rest : List Want}
    (htodo : pc.todo = want :: rest) : Not (pc = PinPc.start ∨ pc = PinPc.resolveRoot) := by
  intro h
  rcases h with h | h <;> rw [h] at htodo <;> cases htodo

theorem PinPc.not_ending {pc : PinPc} {want : Want} {rest : List Want}
    (htodo : pc.todo = want :: rest) : pc.ending = false := by
  cases pc <;> first | rfl | cases htodo

theorem PinTask.ending_moves {t t' : PinTask} {w w' : World}
    (h : PinTask.Moves blake3 t w t' w') (hend : t.pc.ending = true) : t'.pc.ending = true := by
  cases h with
  | ended h => exact h
  | admitted hpc | planned hpc _ =>
      rw [hpc] at hend
      cases hend
  | waited htodo _ _ | secured htodo _ _ _ =>
      rw [PinPc.not_ending htodo] at hend
      cases hend

theorem PinTask.planned_moves {t t' : PinTask} {w w' : World}
    (h : PinTask.Moves blake3 t w t' w') (hplanned : t.Planned) : t'.Planned := by
  cases h with
  | ended hend =>
      constructor
      · intro hpc
        rcases hpc with hpc | hpc <;> rw [hpc] at hend <;> cases hend
      · intro hnot
        rw [hend] at hnot
        cases hnot
  | admitted hpc =>
      have hnone : t.objects = [] := hplanned.unresolved (Or.inl hpc)
      constructor
      · intro _
        exact hnone
      · intro _
        change (t.objects ++ []).Nodup
        rw [hnone]
        exact List.nodup_nil
  | planned hpc hset =>
      have hnone : t.objects = [] := hplanned.unresolved (Or.inr hpc)
      constructor
      · intro _
        exact hnone
      · intro _
        change (t.objects ++ (PinPc.next _).todo.map Want.key).Nodup
        rw [hnone, PinPc.todo_next]
        exact wantSet_nodup hset
  | waited htodo htodo' hstore =>
      rename_i pc want rest
      constructor
      · intro hpc
        exact absurd hpc (PinPc.not_unresolved htodo')
      · intro _
        have hdistinct := hplanned.distinct (PinPc.not_ending htodo)
        rw [htodo] at hdistinct
        change (t.objects ++ pc.todo.map Want.key).Nodup
        rw [htodo']
        exact hdistinct
  | secured htodo hpc hobjects _ =>
      constructor
      · intro hpc'
        rw [hpc] at hpc'
        exact absurd hpc' (PinPc.next_ne _)
      · intro _
        have hdistinct := hplanned.distinct (PinPc.not_ending htodo)
        rw [htodo, List.map_cons] at hdistinct
        rw [hpc, hobjects, PinPc.todo_next, List.append_assoc]
        exact hdistinct

/-!
# Quarantines that spare the objects of the pin
-/

namespace InFlight

/--
The condition on a quarantine: the bad object is not one of those the pin has
secured, and each of those is pending, or named by a pin that survives.
-/
def QuarantineSpares (s : InFlight) : PinEvent -> Prop
  | PinEvent.pin _ => True
  | PinEvent.quarantine _ badKey =>
      forall key, key ∈ s.task.objects ->
        key ≠ badKey ∧ (s.world.store.dropPins badKey).live key = true

instance decidableQuarantineSpares (s : InFlight) (e : PinEvent) :
    Decidable (s.QuarantineSpares e) :=
  match e with
  | PinEvent.pin _ => inferInstanceAs (Decidable True)
  | PinEvent.quarantine _ badKey =>
      inferInstanceAs (Decidable (forall key, key ∈ s.task.objects ->
        key ≠ badKey ∧ (s.world.store.dropPins badKey).live key = true))

/-- Every object the pin has secured is in `objects`, until the pin ends. -/
def Secured (s : InFlight) : Prop :=
  s.task.pc.ending = true ∨
    forall key, key ∈ s.task.objects -> key ∈ s.world.store.objects

/-- Some object the pin has secured is gone, or the pin has ended. -/
def Lost (s : InFlight) : Prop :=
  s.task.pc.ending = true ∨
    exists key, key ∈ s.task.objects ∧ key ∉ s.world.store.objects

theorem mem_objects_quarantine {failure : Option String} {badKey key : String} {w : World} :
    key ∈ (Pubcache.quarantine failure badKey w).store.objects <->
      key ∈ w.store.objects ∧ key ≠ badKey ∧
        (w.store.dropPins badKey).live key = true := by
  unfold Pubcache.quarantine
  rw [writeIndexLocked_store, mem_objects_reclaim, PinStore.mem_objects_dropObject]
  have hlive : ((w.store.dropPins badKey).dropObject badKey).live key =
      (w.store.dropPins badKey).live key := by
    simp only [PinStore.live, PinStore.pins_dropObject, PinStore.pending_dropObject]
  rw [hlive]
  constructor
  · intro h
    exact ⟨h.1.2, h.1.1, h.2⟩
  · intro h
    exact ⟨⟨h.2.1, h.1⟩, h.2.2⟩

variable {s : InFlight} {e : PinEvent}

theorem secured_step (h : s.Secured) (hspares : s.QuarantineSpares e) :
    (s.step blake3 e).Secured := by
  cases e with
  | quarantine failure badKey =>
      rcases h with hend | hheld
      · exact Or.inl hend
      · apply Or.inr
        intro key hkey
        exact mem_objects_quarantine.mpr ⟨hheld key hkey, hspares key hkey⟩
  | pin env =>
      have hmoves := PinTask.moves_advance blake3 env s.task s.world
      rcases h with hend | hheld
      · exact Or.inl (PinTask.ending_moves hmoves hend)
      · unfold Secured step
        dsimp only
        generalize s.task.advance blake3 env s.world = next at hmoves
        rcases next with ⟨t', w'⟩
        dsimp only at hmoves
        cases hmoves with
        | ended hend => exact Or.inl hend
        | admitted _ | planned _ _ => exact Or.inr hheld
        | waited _ _ hstore =>
            apply Or.inr
            intro key hkey
            rw [hstore]
            exact hheld key hkey
        | secured _ _ hobjects hmem =>
            apply Or.inr
            intro key hkey
            rw [hobjects] at hkey
            apply (hmem key).mpr
            rcases List.mem_append.mp hkey with hold | hnew
            · exact Or.inr (hheld key hold)
            · exact Or.inl (List.mem_singleton.mp hnew)

theorem lost_step (hplanned : s.task.Planned) (h : s.Lost) : (s.step blake3 e).Lost := by
  cases e with
  | quarantine failure badKey =>
      rcases h with hend | ⟨key, hkey, hgone⟩
      · exact Or.inl hend
      · apply Or.inr
        refine ⟨key, hkey, ?_⟩
        intro hmem
        exact hgone (mem_objects_quarantine.mp hmem).1
  | pin env =>
      have hmoves := PinTask.moves_advance blake3 env s.task s.world
      rcases h with hend | ⟨key, hkey, hgone⟩
      · exact Or.inl (PinTask.ending_moves hmoves hend)
      · unfold Lost step
        dsimp only
        generalize s.task.advance blake3 env s.world = next at hmoves
        rcases next with ⟨t', w'⟩
        dsimp only at hmoves
        cases hmoves with
        | ended hend => exact Or.inl hend
        | admitted _ | planned _ _ => exact Or.inr ⟨key, hkey, hgone⟩
        | waited _ _ hstore =>
            apply Or.inr
            refine ⟨key, hkey, ?_⟩
            rw [hstore]
            exact hgone
        | secured htodo _ hobjects hmem =>
            apply Or.inr
            refine ⟨key, ?_, ?_⟩
            · rw [hobjects]
              exact List.mem_append_left _ hkey
            · intro hback
              rcases (hmem key).mp hback with hnew | hold
              · -- the object being secured would be one secured before
                have hdistinct := hplanned.distinct (PinPc.not_ending htodo)
                rw [htodo, List.map_cons] at hdistinct
                exact (List.nodup_append.mp hdistinct).2.2 key hkey key
                  (hnew ▸ List.mem_cons_self) rfl
              · exact hgone hold

theorem lost_of_not_spares (h : Not (s.QuarantineSpares e)) : (s.step blake3 e).Lost := by
  cases e with
  | pin env => exact absurd trivial h
  | quarantine failure badKey =>
      apply Or.inr
      by_contra hnone
      apply h
      intro key hkey
      by_contra hunsafe
      apply hnone
      refine ⟨key, hkey, ?_⟩
      intro hmem
      exact hunsafe (mem_objects_quarantine.mp hmem).2

theorem planned_step (h : s.task.Planned) : (s.step blake3 e).task.Planned := by
  cases e with
  | quarantine failure badKey => exact h
  | pin env =>
      exact PinTask.planned_moves (PinTask.moves_advance blake3 env s.task s.world) h

theorem secured_iff_stepsMeet {kind : Kind} {addr : Addr} {owner : String}
    {w : World} {events : List PinEvent}
    (hcommit : (after (step blake3) (init kind addr owner w) events).task.pc = PinPc.commit) :
    (forall key,
      key ∈ (after (step blake3) (init kind addr owner w)
        events).task.objects ->
      key ∈ (after (step blake3) (init kind addr owner w)
        events).world.store.objects) <->
      Transition.StepsMeet (step blake3) QuarantineSpares
        (init kind addr owner w) events := by
  constructor
  · intro hheld
    have hplanned : (init kind addr owner w).task.Planned :=
      PinTask.planned_init kind addr owner
    rcases stepsMeet_or_after (fun s e => planned_step)
      (fun s e => lost_step) (fun s e _ => lost_of_not_spares) events hplanned with
      hmeet | hend | ⟨key, hkey, hgone⟩
    · exact hmeet
    · rw [hcommit] at hend
      cases hend
    · exact absurd (hheld key hkey) hgone
  · intro hmeet
    have hinit : (init kind addr owner w).Secured := by
      apply Or.inr
      intro key hkey
      cases hkey
    rcases invariant_after (fun s e => secured_step) hinit hmeet with
      hend | hheld
    · rw [hcommit] at hend
      cases hend
    · exact hheld

end InFlight

/-!
# The record that a pin returns
-/

theorem PinTask.advance_args (env : PinEnv) (t : PinTask) (w : World) :
    (t.advance blake3 env w).1.kind = t.kind ∧ (t.advance blake3 env w).1.addr = t.addr := by
  unfold PinTask.advance
  cases t.pc with
  | start | resolveRoot | check want rest | gate want rest body =>
      dsimp only
      split
      · exact ⟨rfl, rfl⟩
      · split <;> exact ⟨rfl, rfl⟩
  | fetch want rest | write want rest body | commit =>
      dsimp only
      split <;> exact ⟨rfl, rfl⟩
  | account want rest body | uncommit text | rollback e | release result | done result =>
      exact ⟨rfl, rfl⟩

/-- The pin is through with this record, up to releasing its claims. -/
def PinPc.returns (pc : PinPc) (rec : PinRecord) : Prop :=
  pc = PinPc.release (Except.ok rec) ∨ pc = PinPc.done (Except.ok rec)

theorem PinTask.returns_advance {env : PinEnv} {t : PinTask} {w : World}
    {rec : PinRecord} (h : (t.advance blake3 env w).1.pc.returns rec) :
    t.pc.returns rec ∨
      (t.pc = PinPc.start ∧
        w.store.pins.lookup (objectKey t.kind t.addr) = some rec) ∨
      (t.pc = PinPc.commit ∧ rec = t.record env.now w ∧
        (t.advance blake3 env w).2 =
          (commitPin none (t.record env.now w) w).2) := by
  unfold PinTask.advance at h ⊢
  cases hpc : t.pc with
  | start =>
      rw [hpc] at h
      dsimp only at h
      split at h
      · rename_i existing hexisting
        rcases h with h | h
        · cases h
        · injection h with h
          injection h with h
          exact Or.inr (Or.inl ⟨rfl, h ▸ hexisting⟩)
      · split at h <;> rcases h with h | h <;> cases h
  | resolveRoot =>
      rw [hpc] at h
      dsimp only at h
      split at h
      · rcases h with h | h <;> cases h
      · split at h
        · rcases h with h | h <;> cases h
        · rename_i set _
          cases set <;> rcases h with h | h <;> cases h
  | check want rest =>
      rw [hpc] at h
      dsimp only at h
      split at h
      · cases rest <;> rcases h with h | h <;> cases h
      · split at h <;> rcases h with h | h <;> cases h
  | fetch want rest | write want rest body =>
      rw [hpc] at h
      dsimp only at h
      split at h <;> rcases h with h | h <;> cases h
  | gate want rest body =>
      rw [hpc] at h
      dsimp only at h
      split at h
      · rcases h with h | h <;> cases h
      · split at h <;> rcases h with h | h <;> cases h
  | account want rest body =>
      rw [hpc] at h
      cases rest <;> rcases h with h | h <;> cases h
  | commit =>
      rw [hpc] at h
      dsimp only at h ⊢
      cases hfailure : env.failure with
      | some text =>
          rw [hfailure] at h
          rcases h with h | h <;> cases h
      | none =>
          rw [hfailure] at h
          rcases h with h | h
          · injection h with h
            injection h with h
            exact Or.inr (Or.inr ⟨rfl, h.symm, rfl⟩)
          · cases h
  | uncommit text | rollback e =>
      rw [hpc] at h
      rcases h with h | h <;> cases h
  | release result =>
      rw [hpc] at h
      rcases h with h | h
      · cases h
      · injection h with h
        exact Or.inl (Or.inl (congrArg PinPc.release h))
  | done result =>
      rw [hpc] at h
      exact Or.inl (hpc ▸ h)

namespace InFlight

variable (blake3) in
theorem after_args (s : InFlight) (events : List PinEvent) :
    (after (step blake3) s events).task.kind = s.task.kind ∧
      (after (step blake3) s events).task.addr = s.task.addr := by
  induction events generalizing s with
  | nil => exact ⟨rfl, rfl⟩
  | cons e rest ih =>
      rcases ih (s.step blake3 e) with ⟨hkind, haddr⟩
      cases e with
      | quarantine failure badKey => exact ⟨hkind, haddr⟩
      | pin env =>
          rcases PinTask.advance_args env s.task s.world with ⟨hkind', haddr'⟩
          exact ⟨hkind.trans hkind', haddr.trans haddr'⟩

/--
Where a run gets the record that it returns: it finds it held in its first step,
or it inserts it in a commit that reaches the index.
-/
def Obtains (blake3 : Bytes -> Digest) (s : InFlight) (env : PinEnv)
    (rec : PinRecord) : Prop :=
  (s.task.pc = PinPc.start ∧
      s.world.store.pins.lookup (objectKey s.task.kind s.task.addr) = some rec) ∨
    (s.task.pc = PinPc.commit ∧ rec = s.task.record env.now s.world ∧
      (s.step blake3 (PinEvent.pin env)).world = (commitPin none rec s.world).2)

theorem obtains_of_returns {s0 : InFlight} {events : List PinEvent}
    {rec : PinRecord} (hstart : s0.task.pc = PinPc.start)
    (h : (after (step blake3) s0 events).task.pc.returns rec) :
    exists before env rest, events = before ++ PinEvent.pin env :: rest ∧
      (after (step blake3) s0 before).Obtains blake3 env rec := by
  induction events using List.reverseRecOn with
  | nil =>
      change s0.task.pc.returns rec at h
      rw [hstart] at h
      rcases h with h | h <;> cases h
  | append_singleton events e ih =>
      have hmore (hreturned : (after (step blake3) s0
          events).task.pc.returns rec) :
          exists before env rest,
            events ++ [e] = before ++ PinEvent.pin env :: rest ∧
            (after (step blake3) s0 before).Obtains blake3 env rec := by
        rcases ih hreturned with ⟨before, env, rest, hevents, hobtains⟩
        refine ⟨before, env, rest ++ [e], ?_, hobtains⟩
        rw [hevents, List.append_assoc, List.cons_append]
      rw [after_append] at h
      cases e with
      | quarantine failure badKey => exact hmore h
      | pin env =>
          rcases PinTask.returns_advance h with hbefore | hfound | ⟨hpc, hrec, hw⟩
          · exact hmore hbefore
          · exact ⟨events, env, [], rfl, Or.inl hfound⟩
          · refine ⟨events, env, [], rfl, Or.inr ⟨hpc, hrec, ?_⟩⟩
            rw [hrec]
            exact hw

def run (blake3 : Bytes -> Digest) (kind : Kind) (addr : Addr) (owner : String)
    (w : World) (events : List PinEvent) : InFlight :=
  after (step blake3) (init kind addr owner w) events

end InFlight

/--
A pin that returns a record has either found it held, or inserts it; and where it
inserts it, every object that the record names is in `objects` at that moment if
and only if every quarantine before it has spared the objects already secured.
-/
theorem pin_record_held_iff_quarantines_spare (blake3 : Bytes -> Digest) (w : World)
    (kind : Kind) (addr : Addr) (owner : String) (events : List PinEvent)
    (rec : PinRecord)
    (h : (run blake3 kind addr owner w events).task.pc =
      PinPc.done (Except.ok rec)) :
    exists before env rest, events = before ++ PinEvent.pin env :: rest ∧
      (((run blake3 kind addr owner w before).task.pc = PinPc.start ∧
          (run blake3 kind addr owner w before).world.store.pins.lookup
            (objectKey kind addr) = some rec) ∨
        ((run blake3 kind addr owner w before).task.pc = PinPc.commit ∧
          (run blake3 kind addr owner w
            (before ++ [PinEvent.pin env])).world.store.pins.lookup
              (objectKey kind addr) = some rec ∧
          ((forall key, key ∈ rec.objects ->
              key ∈ (run blake3 kind addr owner w
                (before ++ [PinEvent.pin env])).world.store.objects) <->
            Transition.StepsMeet (step blake3) InFlight.QuarantineSpares
              (init kind addr owner w) before))) := by
  rcases obtains_of_returns rfl (Or.inr h) with
    ⟨before, env, rest, hevents, hobtains⟩
  rcases after_args blake3 (init kind addr owner w) before with
    ⟨hkind, haddr⟩
  refine ⟨before, env, rest, hevents, ?_⟩
  rcases hobtains with ⟨hpc, hfound⟩ | ⟨hpc, hrec, hworld⟩
  · apply Or.inl
    refine ⟨hpc, ?_⟩
    rw [hkind, haddr] at hfound
    exact hfound
  · apply Or.inr
    have hafter : (run blake3 kind addr owner w
        (before ++ [PinEvent.pin env])).world =
        (commitPin none rec
          (run blake3 kind addr owner w before).world).2 := by
      unfold run
      rw [after_append]
      exact hworld
    have hroot : rec.rootKey = objectKey kind addr := by
      rw [hrec]
      change objectKey _ _ = _
      rw [hkind, haddr]
      rfl
    refine ⟨hpc, ?_, ?_⟩
    · rw [hafter, <- hroot]
      exact Finmap.lookup_insert _
    · rw [hafter, hrec]
      exact secured_iff_stepsMeet hpc

def rottedWorld : World :=
  (load ⟨1048576, 0, 0, 0⟩ ⟨none, none⟩ rottedDirectory).2

/-- A step in which the source answers `a` and every write succeeds. -/
def answerA : PinEnv where
  answer := Except.ok (some (asciiBytes "a"))
  failure := none
  now := 0

def recordA (owner : String) : PinRecord :=
  ⟨"chunk", chunkA.string, owner, [objectKey Kind.chunk chunkA], 1, 0⟩

theorem reachable_rottedWorld : Reachable blake3OfAB rottedWorld := by
  have hdistinct : DistinctIndex rottedDirectory.index :=
    List.nodup_singleton _
  have hload : load ⟨1048576, 0, 0, 0⟩ ⟨none, none⟩ rottedDirectory =
      (Except.ok (), rottedWorld) := rfl
  exact Reachable.loaded hdistinct hload

def atCommit : World :=
  ((((init Kind.chunk chunkA "bob" rottedWorld).step blake3OfAB
    (PinEvent.pin answerA)).step blake3OfAB (PinEvent.pin answerA)).step blake3OfAB
      (PinEvent.pin answerA)).world

def quarantineAtCommit (badKey : String) : List PinEvent :=
  [PinEvent.pin answerA, PinEvent.pin answerA, PinEvent.pin answerA,
    PinEvent.quarantine none badKey]

theorem quarantineAtCommit_spares :
    (run blake3OfAB Kind.chunk chunkA "bob" rottedWorld
      (quarantineAtCommit (objectKey Kind.chunk rottedRoot) ++
        [PinEvent.pin answerA, PinEvent.pin answerA])).task.pc =
          PinPc.done (Except.ok (recordA "bob")) ∧
    Transition.StepsMeet (step blake3OfAB) InFlight.QuarantineSpares
      (init Kind.chunk chunkA "bob" rottedWorld)
      (quarantineAtCommit (objectKey Kind.chunk rottedRoot)) := by
  decide +kernel

/-- A quarantine of an object that no pin names leaves the chunk in place. -/
theorem pinA_held_after_sparing_quarantine :
    Transition.StepsMeet (step blake3OfAB) InFlight.QuarantineSpares
      (init Kind.chunk chunkA "bob" rottedWorld)
      (quarantineAtCommit (objectKey Kind.chunk rottedRoot)) ∧
    exists before env rest,
      quarantineAtCommit (objectKey Kind.chunk rottedRoot) ++
          [PinEvent.pin answerA, PinEvent.pin answerA] =
        before ++ PinEvent.pin env :: rest ∧
      (((run blake3OfAB Kind.chunk chunkA "bob" rottedWorld
            before).task.pc = PinPc.start ∧
          (run blake3OfAB Kind.chunk chunkA "bob" rottedWorld
            before).world.store.pins.lookup (objectKey Kind.chunk chunkA) =
              some (recordA "bob")) ∨
        ((run blake3OfAB Kind.chunk chunkA "bob" rottedWorld
            before).task.pc = PinPc.commit ∧
          (run blake3OfAB Kind.chunk chunkA "bob" rottedWorld
            (before ++ [PinEvent.pin env])).world.store.pins.lookup
              (objectKey Kind.chunk chunkA) = some (recordA "bob") ∧
          ((forall key, key ∈ (recordA "bob").objects ->
              key ∈ (run blake3OfAB Kind.chunk chunkA "bob" rottedWorld
                (before ++ [PinEvent.pin env])).world.store.objects) <->
            Transition.StepsMeet (step blake3OfAB)
              InFlight.QuarantineSpares
              (init Kind.chunk chunkA "bob" rottedWorld) before))) :=
  ⟨quarantineAtCommit_spares.2,
    pin_record_held_iff_quarantines_spare blake3OfAB rottedWorld Kind.chunk chunkA
      "bob" (quarantineAtCommit (objectKey Kind.chunk rottedRoot) ++
        [PinEvent.pin answerA, PinEvent.pin answerA]) (recordA "bob")
      quarantineAtCommit_spares.1⟩

/-- The quarantine is what a read of its object does in this state. -/
def InFlight.QuarantineOfRead (blake3 : Bytes -> Digest) (s : InFlight) :
    PinEvent -> Prop
  | PinEvent.pin _ => True
  | PinEvent.quarantine failure badKey =>
      exists kind addr, badKey = objectKey kind addr ∧
        get blake3 ⟨false, failure⟩ kind addr s.world =
          (none, Pubcache.quarantine failure badKey s.world)

theorem get_of_rotted {io : GetIo} {kind : Kind} {addr : Addr} {w : World}
    {sz : Int} {body : Bytes} {e : Error}
    (hheld : w.store.objects.lookup (objectKey kind addr) = some sz) (hread : io.readFails = false)
    (hfile : w.disk.file (objectKey kind addr) = some body)
    (hunseen : objectKey kind addr ∉ w.store.verified)
    (hbad : verify blake3 kind addr body = Except.error e) :
    get blake3 io kind addr w = (none, quarantine io.writeIndex (objectKey kind addr) w) := by
  have hmem : objectKey kind addr ∈ w.store.objects :=
    mem_objects_iff.mpr ⟨sz, hheld⟩
  unfold get
  simp only [hread, hfile, hbad, if_pos hmem, if_neg hunseen, Bool.false_eq_true,
    if_false]

/--
While the pin of the chunk `a` is at its commit, a read of the rotted manifest
drops the manifest's pin and with it the chunk, which only that pin named.  The
pin returns a record whose object is gone.
-/
theorem pinA_commits_reclaimed_chunk :
    Reachable blake3OfAB rottedWorld ∧
    Transition.StepsMeet (step blake3OfAB)
      (InFlight.QuarantineOfRead blake3OfAB)
      (init Kind.chunk chunkA "bob" rottedWorld)
      (quarantineAtCommit (objectKey Kind.manifest rottedRoot)) ∧
    (run blake3OfAB Kind.chunk chunkA "bob" rottedWorld
      (quarantineAtCommit (objectKey Kind.manifest rottedRoot) ++
        [PinEvent.pin answerA, PinEvent.pin answerA])).task.pc =
          PinPc.done (Except.ok (recordA "bob")) ∧
    (run blake3OfAB Kind.chunk chunkA "bob" rottedWorld
      (quarantineAtCommit (objectKey Kind.manifest rottedRoot))).task.pc =
        PinPc.commit ∧
    objectKey Kind.chunk chunkA ∈ (recordA "bob").objects ∧
    objectKey Kind.chunk chunkA ∉
      (run blake3OfAB Kind.chunk chunkA "bob" rottedWorld
        (quarantineAtCommit (objectKey Kind.manifest rottedRoot) ++
          [PinEvent.pin answerA])).world.store.objects := by
  have hrotted : atCommit.store.objects.lookup (objectKey Kind.manifest rottedRoot) = some 0 ∧
      objectKey Kind.manifest rottedRoot ∉ atCommit.store.verified ∧
      atCommit.disk.file (objectKey Kind.manifest rottedRoot) = some [] := by
    decide +kernel
  rcases hrotted with ⟨hmanifest, hunseen, hfile⟩
  have hbad : exists e, verify blake3OfAB Kind.manifest rottedRoot [] =
      Except.error e := ⟨_, rfl⟩
  rcases hbad with ⟨e, hbad⟩
  have hread : get blake3OfAB ⟨false, none⟩ Kind.manifest rottedRoot atCommit =
      (none, quarantine none (objectKey Kind.manifest rottedRoot) atCommit) :=
    get_of_rotted hmanifest rfl hfile hunseen hbad
  refine ⟨reachable_rottedWorld, ?_, by decide +kernel⟩
  exact ⟨True.intro, True.intro, True.intro,
    ⟨Kind.manifest, rottedRoot, rfl, hread⟩, True.intro⟩

end Gate

end Pubcache
end Ephor
