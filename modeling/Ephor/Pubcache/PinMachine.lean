import Ephor.Foundation.Transition
import Ephor.Pubcache.PinInvariant

/-!
# The machine of a pin

`pin` holds `opMu` to its end, but takes `mu` for short sections only, and a read
that meets a bad object runs `quarantine` between any two of them.  The machine
here takes `pin` one section, one call of the source or one write at a time, with
quarantines anywhere between.  Left alone it computes the sequential `pin`.
-/

namespace Ephor
namespace Pubcache

open Foundation

/-!
# The sections of a pin
-/

/-- Where a pin stands; the loop states carry the objects not yet secured. -/
inductive PinPc where
  | start
  | resolveRoot
  | check (want : Want) (rest : List Want)
  | fetch (want : Want) (rest : List Want)
  | gate (want : Want) (rest : List Want) (body : Bytes)
  | write (want : Want) (rest : List Want) (body : Bytes)
  | account (want : Want) (rest : List Want) (body : Bytes)
  | commit
  | uncommit (text : String)
  | rollback (e : PinError)
  | release (result : Except PinError PinRecord)
  | done (result : Except PinError PinRecord)
deriving DecidableEq

namespace PinPc

/-- The head of the loop, over the objects that are left. -/
def next : List Want -> PinPc
  | [] => commit
  | want :: rest => check want rest

/-- The objects the loop has not secured yet. -/
def todo : PinPc -> List Want
  | check want rest => want :: rest
  | fetch want rest => want :: rest
  | gate want rest _ => want :: rest
  | write want rest _ => want :: rest
  | account want rest _ => want :: rest
  | _ => []

/-- The states from which the commit can no longer be reached. -/
def ending : PinPc -> Bool
  | uncommit _ => true
  | rollback _ => true
  | release _ => true
  | done _ => true
  | _ => false

theorem todo_next (wants : List Want) : (next wants).todo = wants := by
  cases wants <;> rfl

end PinPc

/-- A running `pin`: its arguments, where it stands, and its local variables. -/
structure PinTask where
  kind : Kind
  addr : Addr
  owner : String
  pc : PinPc
  wrote : List String
  objects : List String
  pinBytes : Int

structure PinEnv where
  answer : Except String (Option Bytes)
  failure : Option String
  now : Int

namespace PinTask

def init (kind : Kind) (addr : Addr) (owner : String) : PinTask where
  kind := kind
  addr := addr
  owner := owner
  pc := PinPc.start
  wrote := []
  objects := []
  pinBytes := 0

def goto (t : PinTask) (pc : PinPc) : PinTask :=
  { t with pc := pc }

/-- The local variables after an object has been found or stored. -/
def secure (t : PinTask) (want : Want) (rest : List Want) (n : Int) : PinTask :=
  { t with
    pc := PinPc.next rest
    objects := t.objects ++ [want.key]
    pinBytes := t.pinBytes + n }

def record (t : PinTask) (now : Int) (w : World) : PinRecord :=
  pinRecord t.kind t.addr t.owner now ⟨w, t.wrote, t.objects, t.pinBytes⟩

/-- One section, one call of the source, or one write of `pin`. -/
def advance (blake3 : Bytes -> Digest) (env : PinEnv) (t : PinTask) (w : World) :
    PinTask × World :=
  match t.pc with
  | PinPc.start =>
      match w.store.pins.lookup (objectKey t.kind t.addr) with
      | some existing => (t.goto (PinPc.done (Except.ok existing)), w)
      | none =>
          if 0 < w.store.config.maxPins ∧
              w.store.config.maxPins <= w.store.pins.size then
            (t.goto (PinPc.done (Except.error (PinError.budget
              (s!"already holding {w.store.pins.size} pins " ++
                s!"(max {w.store.config.maxPins})")))), w)
          else
            (t.goto PinPc.resolveRoot, w)
  | PinPc.resolveRoot =>
      match env.answer with
      | Except.error text =>
          (t.goto (PinPc.done (Except.error (PinError.source text))), w)
      | Except.ok rootBody =>
          match wantSet blake3 t.kind t.addr rootBody with
          | Except.error e =>
              (t.goto (PinPc.done (Except.error (PinError.manifest e))), w)
          | Except.ok set => (t.goto (PinPc.next set), w)
  | PinPc.check want rest =>
      match w.store.objects.lookup want.key with
      | some sz => (t.secure want rest sz, w)
      | none =>
          match want.body with
          | some body => (t.goto (PinPc.gate want rest body), w)
          | none => (t.goto (PinPc.fetch want rest), w)
  | PinPc.fetch want rest =>
      match env.answer with
      | Except.error text =>
          (t.goto (PinPc.rollback
            (PinError.chunk t.addr.string want.addr.string text)), w)
      | Except.ok body => (t.goto (PinPc.gate want rest (body.getD [])), w)
  | PinPc.gate want rest body =>
      match verify blake3 want.kind want.addr body with
      | Except.error e =>
          (t.goto (PinPc.rollback (PinError.unverified want.addr.string e)), w)
      | Except.ok () =>
          match checkBudget w.store.config want.addr t.pinBytes w.store.bytes
              body.length with
          | Except.error e => (t.goto (PinPc.rollback e), w)
          | Except.ok () => (t.goto (PinPc.write want rest body), w)
  | PinPc.write want rest body =>
      match env.failure with
      | some text => (t.goto (PinPc.rollback (PinError.writeObject text)), w)
      | none =>
          (t.goto (PinPc.account want rest body),
            { w with disk := w.disk.writeObject want.key body })
  | PinPc.account want rest body =>
      ({ t.secure want rest body.length with wrote := t.wrote ++ [want.key] },
        { w with store := w.store.recordObject want.key body.length })
  | PinPc.commit =>
      match commitPin env.failure (t.record env.now w) w with
      | (Except.error text, w') => (t.goto (PinPc.uncommit text), w')
      | (Except.ok (), w') =>
          (t.goto (PinPc.release (Except.ok (t.record env.now w))), w')
  | PinPc.uncommit text =>
      (t.goto (PinPc.rollback (PinError.persistIndex text)),
        deletePin (objectKey t.kind t.addr) w)
  | PinPc.rollback e =>
      (t.goto (PinPc.release (Except.error e)), Pubcache.rollback t.wrote w)
  | PinPc.release result =>
      (t.goto (PinPc.done result), releasePending t.wrote w)
  | PinPc.done _ => (t, w)

end PinTask

/-!
# The machine
-/

/-- The one running pin and the world it shares with the readers. -/
structure InFlight where
  task : PinTask
  world : World

inductive PinEvent where
  | pin (env : PinEnv)
  | quarantine (failure : Option String) (badKey : String)

namespace InFlight

def init (kind : Kind) (addr : Addr) (owner : String) (w : World) : InFlight :=
  ⟨PinTask.init kind addr owner, w⟩

def step (blake3 : Bytes -> Digest) (s : InFlight) : PinEvent -> InFlight
  | PinEvent.pin env =>
      ⟨(s.task.advance blake3 env s.world).1, (s.task.advance blake3 env s.world).2⟩
  | PinEvent.quarantine failure badKey =>
      { s with world := Pubcache.quarantine failure badKey s.world }

end InFlight

/-!
# The sequential pin is a run

Left alone, the machine computes `pin`.
-/

namespace PinTask

/-- What the next step of a pin is given: the source has answered for the root and for each object
that is secured. -/
def env (src : Source) (io : PinIo) (t : PinTask) : PinEnv where
  answer := src.answer (if t.pc = PinPc.resolveRoot then 0 else t.objects.length + 1)
  failure :=
    match t.pc with
    | PinPc.write want _ _ => io.writeObject want.key
    | _ => io.writeIndex
  now := io.now

end PinTask

section Gate

variable {blake3 : Bytes -> Digest} {src : Source} {io : PinIo}

namespace InFlight

variable (blake3 src io) in
/-- A step of the pin, and nothing else. -/
def alone (s : InFlight) : InFlight :=
  s.step blake3 (PinEvent.pin (s.task.env src io))

variable (blake3 src io) in
def Leads (s s' : InFlight) : Prop :=
  exists n, (alone blake3 src io)^[n] s = s'

theorem leads_trans {s s' s'' : InFlight} (h : Leads blake3 src io s s')
    (h' : Leads blake3 src io s' s'') : Leads blake3 src io s s'' := by
  rcases h with ⟨n, hn⟩
  rcases h' with ⟨m, hm⟩
  refine ⟨m + n, ?_⟩
  rw [Function.iterate_add_apply, hn, hm]

theorem leads_step {s s' : InFlight} (h : alone blake3 src io s = s') :
    Leads blake3 src io s s' :=
  ⟨1, h⟩

/-- A pin at the given place, with the local variables of the sequential loop. -/
def place (t : PinTask) (pc : PinPc) (p : PinProgress) : InFlight where
  task :=
    { t with pc := pc, wrote := p.wrote, objects := p.objects, pinBytes := p.pinBytes }
  world := p.world

/-- Where an iteration of the sequential loop leaves the machine. -/
def afterIteration (t : PinTask) (rest : List Want) :
    Except PinError Unit × PinProgress -> InFlight
  | (Except.ok (), p) => place t (PinPc.next rest) p
  | (Except.error e, p) => place t (PinPc.rollback e) p

theorem leads_storeObject (t : PinTask) (want : Want) (rest : List Want) (body : Bytes)
    (p : PinProgress) :
    Leads blake3 src io (place t (PinPc.gate want rest body) p)
      (afterIteration t rest (storeObject blake3 io want body p)) := by
  unfold storeObject
  cases hverify : verify blake3 want.kind want.addr body with
  | error e =>
      apply leads_step
      simp only [alone, step, place, PinTask.advance, hverify]
      rfl
  | ok u =>
      dsimp only
      cases hbudget : checkBudget p.world.store.config want.addr p.pinBytes
          p.world.store.bytes body.length with
      | error e =>
          apply leads_step
          simp only [alone, step, place, PinTask.advance, hverify, hbudget]
          rfl
      | ok u =>
          have hgate : Leads blake3 src io (place t (PinPc.gate want rest body) p)
              (place t (PinPc.write want rest body) p) := by
            apply leads_step
            simp only [alone, step, place, PinTask.advance, hverify, hbudget]
            rfl
          apply leads_trans hgate
          cases hwrite : io.writeObject want.key with
          | some text =>
              apply leads_step
              simp only [alone, step, place, PinTask.env, PinTask.advance, hwrite]
              rfl
          | none =>
              have hwritten : Leads blake3 src io (place t (PinPc.write want rest body) p)
                  (place t (PinPc.account want rest body)
                    { p with world :=
                      { p.world with disk := p.world.disk.writeObject want.key body } }) := by
                apply leads_step
                simp only [alone, step, place, PinTask.env, PinTask.advance, hwrite]
                rfl
              exact leads_trans hwritten (leads_step rfl)

theorem callSource_of_not_consults (hsrc : src.consults = false) (i : Nat) (kind : Kind)
    (addr : Addr) (w : World) : callSource blake3 src i kind addr w = (src.answer i, w) := by
  unfold callSource
  rw [hsrc]
  rfl

theorem leads_gatherObject (hsrc : src.consults = false) (t : PinTask) (want : Want)
    (rest : List Want) (p : PinProgress) :
    Leads blake3 src io (place t (PinPc.check want rest) p)
      (afterIteration t rest
        (gatherObject blake3 src io t.addr (p.objects.length + 1) want p)) := by
  unfold gatherObject
  cases hheld : p.world.store.objects.lookup want.key with
  | some sz =>
      apply leads_step
      simp only [alone, step, place, PinTask.advance, hheld]
      rfl
  | none =>
      cases hbody : want.body with
      | some body =>
          have hcheck : Leads blake3 src io (place t (PinPc.check want rest) p)
              (place t (PinPc.gate want rest body) p) := by
            apply leads_step
            simp only [alone, step, place, PinTask.advance, hheld, hbody]
            rfl
          exact leads_trans hcheck (leads_storeObject t want rest body p)
      | none =>
          have hcheck : Leads blake3 src io (place t (PinPc.check want rest) p)
              (place t (PinPc.fetch want rest) p) := by
            apply leads_step
            simp only [alone, step, place, PinTask.advance, hheld, hbody]
            rfl
          apply leads_trans hcheck
          dsimp only
          rw [callSource_of_not_consults hsrc]
          cases hanswer : src.answer (p.objects.length + 1) with
          | error text =>
              apply leads_step
              simp [alone, step, place, PinTask.env, PinTask.advance, hanswer]
              rfl
          | ok body =>
              have hfetch : Leads blake3 src io (place t (PinPc.fetch want rest) p)
                  (place t (PinPc.gate want rest (body.getD [])) p) := by
                apply leads_step
                simp [alone, step, place, PinTask.env, PinTask.advance, hanswer]
                rfl
              exact leads_trans hfetch (leads_storeObject t want rest (body.getD []) p)

theorem leads_gather (hsrc : src.consults = false) (t : PinTask) (wants : List Want)
    (p : PinProgress) :
    Leads blake3 src io (place t (PinPc.next wants) p)
      (afterIteration t [] (gather blake3 src io t.addr (p.objects.length + 1) wants p)) := by
  induction wants generalizing p with
  | nil => exact ⟨0, rfl⟩
  | cons want rest ih =>
      have hhead := @leads_gatherObject blake3 src io hsrc t want rest p
      unfold gather
      cases hstep : gatherObject blake3 src io t.addr (p.objects.length + 1) want p with
      | mk result p' =>
          rw [hstep] at hhead
          cases result with
          | error e => exact hhead
          | ok u =>
              have hrest := ih p'
              rw [gatherObject_objects hstep, List.length_append] at hrest
              exact leads_trans hhead hrest

variable (blake3 src io) in
/-- The machine is done, with this result and in this world. -/
def Finishes (s : InFlight) (result : Except PinError PinRecord × World) : Prop :=
  exists s', Leads blake3 src io s s' ∧ s'.task.pc = PinPc.done result.1 ∧ s'.world = result.2

theorem finishes_finishPin (t : PinTask) (loop : Except PinError Unit × PinProgress) :
    Finishes blake3 src io (afterIteration t [] loop)
      (finishPin io t.kind t.addr t.owner loop) := by
  rcases loop with ⟨result, p⟩
  cases result with
  | error e => exact ⟨_, ⟨2, rfl⟩, rfl, rfl⟩
  | ok u =>
      cases hwrite : io.writeIndex with
      | some text =>
          have hcommit : Leads blake3 src io (afterIteration t [] (Except.ok u, p))
              (place t (PinPc.uncommit text)
                { p with world := (commitPin (some text)
                  (pinRecord t.kind t.addr t.owner io.now p) p.world).2 }) := by
            apply leads_step
            simp only [alone, step, afterIteration, place, PinPc.next, PinTask.env,
              PinTask.advance, hwrite]
            rfl
          refine ⟨_, leads_trans hcommit ⟨3, rfl⟩, ?_, ?_⟩
          all_goals
            unfold finishPin
            rw [hwrite]
            rfl
      | none =>
          have hcommit : Leads blake3 src io (afterIteration t [] (Except.ok u, p))
              (place t (PinPc.release (Except.ok (pinRecord t.kind t.addr t.owner io.now p)))
                { p with world := (commitPin none
                  (pinRecord t.kind t.addr t.owner io.now p) p.world).2 }) := by
            apply leads_step
            simp only [alone, step, afterIteration, place, PinPc.next, PinTask.env,
              PinTask.advance, hwrite]
            rfl
          refine ⟨_, leads_trans hcommit ⟨1, rfl⟩, ?_, ?_⟩
          all_goals
            unfold finishPin
            rw [hwrite]
            rfl

end InFlight

/-- Left to itself, with the answers of the source, the results of the writes and the clock of the
sequential `pin`, the machine computes what that does. -/
theorem finishes_pin (hsrc : src.consults = false) (kind : Kind) (addr : Addr) (owner : String)
    (w : World) :
    (InFlight.init kind addr owner w).Finishes blake3 src io
      (pin blake3 src io kind addr owner w) := by
  unfold pin
  cases hheld : w.store.pins.lookup (objectKey kind addr) with
  | some existing =>
      refine ⟨_, InFlight.leads_step rfl, ?_, ?_⟩ <;>
        simp [InFlight.alone, InFlight.step, InFlight.init, PinTask.init, PinTask.advance, hheld,
          PinTask.goto]
  | none =>
      dsimp only
      split
      · rename_i hfull
        refine ⟨_, InFlight.leads_step rfl, ?_, ?_⟩ <;>
          simp [InFlight.alone, InFlight.step, InFlight.init, PinTask.init, PinTask.advance, hheld,
            PinTask.goto, hfull]
      · rename_i hroom
        let t := PinTask.init kind addr owner
        let p : PinProgress := ⟨w, [], [], 0⟩
        have hstart : InFlight.Leads blake3 src io (InFlight.init kind addr owner w)
            (InFlight.place t PinPc.resolveRoot p) := by
          apply InFlight.leads_step
          simp [InFlight.alone, InFlight.step, InFlight.init, t, PinTask.init, PinTask.advance,
            hheld, PinTask.goto, hroom, InFlight.place, p]
        rw [InFlight.callSource_of_not_consults hsrc]
        cases hanswer : src.answer 0 with
        | error text =>
            refine ⟨_, InFlight.leads_trans hstart (InFlight.leads_step rfl), ?_, ?_⟩ <;>
              simp [InFlight.alone, InFlight.step, InFlight.place, t, p, PinTask.env,
                PinTask.advance, PinTask.goto, hanswer]
        | ok rootBody =>
            dsimp only
            cases hset : wantSet blake3 kind addr rootBody with
            | error e =>
                refine ⟨_, InFlight.leads_trans hstart (InFlight.leads_step rfl), ?_, ?_⟩ <;>
                  simp [InFlight.alone, InFlight.step, InFlight.place, t, p, PinTask.init,
                    PinTask.env, PinTask.advance, PinTask.goto, hanswer, hset]
            | ok set =>
                have hloop : InFlight.Leads blake3 src io (InFlight.place t PinPc.resolveRoot p)
                    (InFlight.place t (PinPc.next set) p) := by
                  apply InFlight.leads_step
                  simp [InFlight.alone, InFlight.step, InFlight.place, t, p, PinTask.init,
                    PinTask.env, PinTask.advance, PinTask.goto, hanswer, hset]
                have hgather := @InFlight.leads_gather blake3 src io hsrc t set p
                rcases @InFlight.finishes_finishPin blake3 src io t
                  (gather blake3 src io addr 1 set p) with ⟨s', hlead, hpc, hworld⟩
                exact ⟨s', InFlight.leads_trans hstart (InFlight.leads_trans hloop
                  (InFlight.leads_trans hgather hlead)), hpc, hworld⟩

def noBytes : Source :=
  ⟨false, fun _ => ⟨false, none⟩, fun _ => Except.ok none⟩

def emptyWorld : World :=
  ⟨PinStore.empty ⟨0, 0, 0, 0⟩, ⟨∅, IndexFile.absent⟩⟩

/-- The empty chunk is pinned. -/
theorem pin_finishes_with_empty_chunk :
    exists record, (InFlight.init Kind.chunk (hashBytes (fun _ => FixedBytes.zero 32) []) "alice"
      emptyWorld).Finishes (fun _ => FixedBytes.zero 32) noBytes ⟨fun _ => none, none, 7⟩
      (Except.ok record, (pin (fun _ => FixedBytes.zero 32) noBytes ⟨fun _ => none, none, 7⟩
        Kind.chunk (hashBytes (fun _ => FixedBytes.zero 32) []) "alice" emptyWorld).2) :=
  ⟨_, finishes_pin rfl _ _ _ _⟩

end Gate

end Pubcache
end Ephor
