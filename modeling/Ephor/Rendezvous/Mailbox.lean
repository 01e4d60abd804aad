import Ephor.Rendezvous.Queue

/-!
# What a recipient picks up

A pickup shows what was deposited for its key, in order, without what has expired
and without what an ack named after it was deposited.  Sweeps, refused deposits and
everything that happens under other keys cannot be told from the answer.
-/

namespace Ephor
namespace Rendezvous

open Foundation
open Foundation.GoTime

inductive QueueOp where
  | deposit (source target : String) (payload : Bytes) (ttl : Duration) (now : Int)
      (random : FixedBytes 10)
  | pickup (key : String) (now : Int)
  | ack (key : String) (ids : List String) (now : Int)
deriving DecidableEq

namespace QueueOp

def now : QueueOp -> Int
  | deposit _ _ _ _ now _ => now
  | pickup _ now => now
  | ack _ _ now => now

def names (key id : String) : QueueOp -> Bool
  | ack key' ids _ => decide (key' = key ∧ id ∈ ids)
  | _ => false

end QueueOp

namespace Queue

def step (q : Queue) : QueueOp -> Queue
  | QueueOp.deposit source target payload ttl now random =>
      (q.deposit source target payload ttl now random).2
  | QueueOp.pickup key now => (q.pickup key now).2
  | QueueOp.ack key ids _ => (q.ack key ids).2

def accepted (q : Queue) : QueueOp -> Option Blob
  | QueueOp.deposit source target payload ttl now random =>
      match (q.deposit source target payload ttl now random).1 with
      | DepositResult.ok id => some ⟨id, source, target, payload, now, add now ttl⟩
      | _ => none
  | _ => none

def history (q : Queue) (ops : List QueueOp) : List (QueueOp × Option Blob) :=
  Transition.emitted step (fun q op => [(op, q.accepted op)]) q ops

end Queue

/-- One accepted deposit of the history, seen at a later time. -/
def outstandingAt (key : String) (now : Int) (later : List (QueueOp × Option Blob)) :
    Option Blob -> List Blob
  | some b =>
      if b.target = key ∧ b.live now = true ∧
          later.any (fun e => e.1.names key b.id) = false then [b]
      else []
  | none => []

/--
The blobs that were deposited for the key, are live now, and were not named by an
ack for the key after their deposit.
-/
def outstanding (key : String) (now : Int) : List (QueueOp × Option Blob) -> List Blob
  | [] => []
  | e :: later => outstandingAt key now later e.2 ++ outstanding key now later

theorem outstanding_snoc (key : String) (now : Int)
    (before : List (QueueOp × Option Blob)) (e : QueueOp × Option Blob) :
    outstanding key now (before ++ [e]) =
      (outstanding key now before).filter (fun b => !e.1.names key b.id) ++
        outstandingAt key now [] e.2 := by
  induction before with
  | nil => simp [outstanding]
  | cons first later ih =>
      have hfirst : outstandingAt key now (later ++ [e]) first.2 =
          (outstandingAt key now later first.2).filter
            (fun b => !e.1.names key b.id) := by
        cases first.2 with
        | none => rfl
        | some b =>
            rw [outstandingAt, outstandingAt, List.any_append, List.any_cons, List.any_nil,
              Bool.or_false]
            cases hnamed : e.1.names key b.id with
            | true =>
                rw [Bool.or_true, if_neg (fun h => Bool.noConfusion h.2.2)]
                split
                · simp [hnamed]
                · rfl
            | false =>
                rw [Bool.or_false]
                split
                · simp [hnamed]
                · rfl
      rw [List.cons_append, outstanding, ih, hfirst, outstanding, List.filter_append,
        List.append_assoc]

namespace Queue

/-- What a pickup at the time would see of the key's list. -/
def seen (q : Queue) (key : String) (now : Int) : List Blob :=
  (q.pending key).filter (Blob.live now)

theorem live_of_le {t now : Int} (h : t <= now) {b : Blob} (hb : b.live now = true) :
    b.live t = true :=
  decide_eq_true (Int.lt_of_le_of_lt h (of_decide_eq_true hb))

theorem seen_sweepLocked (q : Queue) (key : String) {t now : Int} (h : t <= now) :
    (q.sweepLocked t).seen key now = q.seen key now := by
  unfold seen
  rcases pending_sweepLocked q t key with hsame | hswept
  · rw [hsame]
  · rw [hswept, List.filter_filter]
    apply List.filter_congr
    intro b _
    cases hb : b.live now with
    | false => rfl
    | true => rw [live_of_le h hb, Bool.and_true]

theorem seen_deposit (q : Queue) (source target : String) (payload : Bytes)
    (ttl : Duration) {t now : Int} (random : FixedBytes 10) (h : t <= now) (key : String) :
    (q.deposit source target payload ttl t random).2.seen key now =
      q.seen key now ++ outstandingAt key now []
        (q.accepted (QueueOp.deposit source target payload ttl t random)) := by
  have hswept := seen_sweepLocked q key h
  rcases deposit_cases q source target payload ttl t random with
    ⟨res, hres, hdeposit⟩ | ⟨bytes, hdeposit⟩
  · have hnone : q.accepted (QueueOp.deposit source target payload ttl t random) =
        none := by
      have hanswer : (q.deposit source target payload ttl t random).1 = res := by
        rcases hdeposit with hdeposit | hdeposit <;> rw [hdeposit]
      rw [accepted, hanswer]
      cases res with
      | ok id => exact absurd rfl (hres id)
      | _ => rfl
    rw [hnone, outstandingAt, List.append_nil]
    rcases hdeposit with hdeposit | hdeposit
    · rw [hdeposit]
    · rw [hdeposit]
      exact hswept
  · have hsome : q.accepted (QueueOp.deposit source target payload ttl t random) =
        some (newBlob source target payload ttl t random) := by
      rw [accepted, hdeposit]
      rfl
    rw [hsome, hdeposit, <- hswept, outstandingAt]
    unfold seen pending
    dsimp only
    by_cases heq : target = key
    · rw [<- heq, Finmap.lookup_insert, Option.getD_some, List.filter_append]
      congr 1
      cases hlive : Blob.live now (newBlob source target payload ttl t random) with
      | true =>
          rw [if_pos ⟨rfl, rfl, rfl⟩]
          simp [hlive]
      | false => simp [hlive]
    · rw [Finmap.lookup_insert_of_ne _ (Ne.symm heq),
        if_neg (fun hcase => heq hcase.1), List.append_nil]

theorem seen_ack (q : Queue) (key key' : String) (ids : List String) (t now : Int) :
    (q.ack key ids).2.seen key' now =
      (q.seen key' now).filter
        (fun b => !(QueueOp.ack key ids t).names key' b.id) := by
  unfold seen
  rw [pending_ack]
  split
  · rename_i heq
    rw [List.filter_filter, List.filter_filter]
    apply List.filter_congr
    intro b _
    simp [QueueOp.names, heq, Bool.and_comm]
  · rename_i hne
    rw [List.filter_filter]
    apply List.filter_congr
    intro b _
    simp [QueueOp.names, hne]

/-- The lists and the history say the same about every later pickup. -/
def Agrees (now : Int) (q : Queue) (h : List (QueueOp × Option Blob)) : Prop :=
  forall key, q.seen key now = outstanding key now h

theorem agrees_step {now : Int} (q : Queue) (h : List (QueueOp × Option Blob))
    (op : QueueOp) (hq : Agrees now q h) (hclock : op.now <= now) :
    Agrees now (q.step op) (h ++ [(op, q.accepted op)]) := by
  intro key
  rw [outstanding_snoc, <- hq key]
  cases op with
  | deposit source target payload ttl t random =>
      have hkeep : (q.seen key now).filter (fun b =>
          !(QueueOp.deposit source target payload ttl t random).names key b.id) =
            q.seen key now :=
        List.filter_eq_self.mpr (fun _ _ => rfl)
      rw [hkeep]
      exact seen_deposit q source target payload ttl random hclock key
  | pickup key' t =>
      have hkeep : (q.seen key now).filter (fun b =>
          !(QueueOp.pickup key' t).names key b.id) = q.seen key now :=
        List.filter_eq_self.mpr (fun _ _ => rfl)
      rw [hkeep]
      exact (seen_sweepLocked q key hclock).trans (List.append_nil _).symm
  | ack key' ids t =>
      exact (seen_ack q key' key ids t now).trans (List.append_nil _).symm

theorem agrees_newQueue (caps : QueueCaps) (now : Int) : Agrees now (newQueue caps) [] := by
  intro key
  rfl

theorem agrees_history (caps : QueueCaps) {ops : List QueueOp} {now : Int}
    (hclock : forall op, op ∈ ops -> op.now <= now) :
    Agrees now (Transition.after step (newQueue caps) ops) (history (newQueue caps) ops) := by
  have hrun := Transition.invariant_emitted agrees_step (agrees_newQueue caps now)
    (Transition.stepsMeet_of_forall (fun op hop _ => hclock op hop) (newQueue caps))
  rw [List.nil_append] at hrun
  exact hrun

theorem decode_view (b : Blob) : Base64.decode b.view.payload.toList = some b.payload := by
  unfold Blob.view encodeToString
  rw [String.toList_ofList]
  exact Base64.decode_encode b.payload

/--
A pickup after any run answers with the outstanding blobs of its key, in the
order of their deposits, and each view decodes to the payload that was deposited.
-/
theorem pickup_outstanding (caps : QueueCaps) (ops : List QueueOp) (key : String)
    (now : Int) (hclock : forall op, op ∈ ops -> op.now <= now) :
    ((Transition.after step (newQueue caps) ops).pickup key now).1 =
        (outstanding key now (history (newQueue caps) ops)).map Blob.view ∧
      forall b, b ∈ outstanding key now (history (newQueue caps) ops) ->
        b.view.source = b.source ∧
          Base64.decode b.view.payload.toList = some b.payload := by
  constructor
  · have hagrees := agrees_history caps hclock key
    rw [<- seen_sweepLocked _ key (Int.le_refl now)] at hagrees
    rw [<- hagrees]
    rfl
  · intro b _
    exact ⟨rfl, decode_view b⟩

/-!
# An ack ahead of its blob
-/

def smallCaps : QueueCaps where
  maxBlobBytes := 1024
  maxPerKeyBlobs := 8
  maxPerKeyBytes := 8192
  maxKeys := 16
  sweepEvery := minute

def zeroDeposit (now : Int) : QueueOp :=
  QueueOp.deposit "alice" "bob" [1, 2, 3] minute now (FixedBytes.zero 10)

def zeroID : String :=
  newBlobID 5 (FixedBytes.zero 10)

theorem pickup_of_two_deposits :
    ((Transition.after step (newQueue smallCaps)
        [zeroDeposit 5, QueueOp.ack "bob" [zeroID] 6, zeroDeposit 2000000]).pickup
          "bob" 3000000).1.length = 1 ∧
      ((Transition.after step (newQueue smallCaps)
        [zeroDeposit 5, QueueOp.ack "bob" [zeroID] 6, zeroDeposit 2000000]).pickup
          "bob" 3000000).1 =
        (outstanding "bob" 3000000 (history (newQueue smallCaps)
          [zeroDeposit 5, QueueOp.ack "bob" [zeroID] 6, zeroDeposit 2000000])).map
            Blob.view := by
  constructor
  · decide +kernel
  · exact (pickup_outstanding smallCaps _ "bob" 3000000 (by decide)).1

/-- The accepted deposits of the key whose id no ack of the run names. -/
def neverNamed (key : String) (now : Int) (h : List (QueueOp × Option Blob)) : List Blob :=
  (h.filterMap Prod.snd).filter fun b =>
    decide (b.target = key) && b.live now && !h.any (fun e => e.1.names key b.id)

theorem pickup_of_blob_acked_early :
    ((Transition.after step (newQueue smallCaps)
        [QueueOp.ack "bob" [zeroID] 4, zeroDeposit 5]).pickup "bob" 6).1.map
          BlobView.id = [zeroID] ∧
      (neverNamed "bob" 6 (history (newQueue smallCaps)
        [QueueOp.ack "bob" [zeroID] 4, zeroDeposit 5])) = [] := by
  decide +kernel

end Queue

end Rendezvous
end Ephor
