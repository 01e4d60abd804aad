import Ephor.Server.Metering
import Mathlib.Algebra.Order.BigOperators.Group.List
import Mathlib.Algebra.Order.Ring.Int

/-!
# Usage is reported exactly once

Usage that was added is pending, or in a batch.  A batch is held, by a flush or by
the retry list, until its report comes back without an error, and then the control
plane has applied it.  So what was added is what the control plane applied, what is
pending, and what is in the batches that are held and not applied yet.

The counters are machine integers.  The accounts are exact as long as none of them
overflows: the counts of a pending delta and the sequence of the report ids.
-/

namespace Ephor
namespace Server

open Foundation
open Transition

/-!
# What is counted
-/

def Event.adds (q : Quantity) (account : String) : Event -> Int
  | Event.addBytes accountID n =>
      if accountID = account ∧ accountID ≠ "" ∧ 0 < n ∧ q = Quantity.bytes then n.toInt
      else 0
  | Event.addSession accountID =>
      if accountID = account ∧ accountID ≠ "" ∧ q = Quantity.sessions then 1 else 0
  | _ => 0

def added (q : Quantity) (account : String) (events : List Event) : Int :=
  (events.map (Event.adds q account)).sum

def itemsFor (q : Quantity) (account : String) (items : List UsageItem) : Int :=
  ((items.filter fun i => i.accountID = account).map fun i => (i.get q).toInt).sum

def PendingReport.countFor (q : Quantity) (account : String) (b : PendingReport) : Int :=
  itemsFor q account b.items

namespace Meter

def pendingOf (m : Meter) (account : String) : MeterDelta :=
  (m.pending.lookup account).getD ⟨0, 0⟩

def HasRoom (m : Meter) (account : String) : Prop :=
  m.pending.lookup account = none -> FiniteMap.size m.pending < m.maxAccounts

instance (m : Meter) (account : String) : Decidable (m.HasRoom account) :=
  inferInstanceAs (Decidable (_ -> _))

end Meter

namespace FlushStage

def batches : FlushStage -> List PendingReport
  | takeRetry => []
  | drain batches => batches
  | assign batches _ => batches
  | report batches failed => batches ++ failed
  | done => []

/-- The items that the flush has drained and not put in a batch yet. -/
def loose : FlushStage -> List UsageItem
  | assign _ newItems => newItems
  | _ => []

/-- Putting back what failed does not push a batch off the retry list. -/
def WithinBounds (m : Meter) : FlushStage -> Prop
  | report [] failed => m.retry.length + failed.length <= m.maxRetryBatches
  | _ => True

/-- The next report id does not wrap the sequence. -/
def NoOverflow (m : Meter) : FlushStage -> Prop
  | assign _ _ => m.seq.toNat + 1 < 2 ^ 64
  | _ => True

instance (m : Meter) (stage : FlushStage) : Decidable (stage.WithinBounds m) :=
  match stage with
  | report [] _ => inferInstanceAs (Decidable (_ <= _))
  | report (_ :: _) _ => inferInstanceAs (Decidable True)
  | assign _ _ => inferInstanceAs (Decidable True)
  | takeRetry => inferInstanceAs (Decidable True)
  | drain _ => inferInstanceAs (Decidable True)
  | done => inferInstanceAs (Decidable True)

instance (m : Meter) (stage : FlushStage) : Decidable (stage.NoOverflow m) :=
  match stage with
  | assign _ _ => inferInstanceAs (Decidable (_ < _))
  | report _ _ => inferInstanceAs (Decidable True)
  | takeRetry => inferInstanceAs (Decidable True)
  | drain _ => inferInstanceAs (Decidable True)
  | done => inferInstanceAs (Decidable True)

end FlushStage

namespace System

/-- The bounds on the pending accounts and on the retry list are not reached. -/
def WithinBounds (s : System) : Event -> Prop
  | Event.addBytes accountID n =>
      accountID ≠ "" -> 0 < n -> s.meter.HasRoom accountID
  | Event.addSession accountID => accountID ≠ "" -> s.meter.HasRoom accountID
  | Event.flush id _ =>
      forall stage, stage ∈ s.flushes.lookup id -> stage.WithinBounds s.meter
  | _ => True

/-- No 64-bit counter overflows: a pending count, or the sequence of the report ids. -/
def NoOverflow (s : System) : Event -> Prop
  | Event.addBytes accountID n =>
      (s.meter.pendingOf accountID).bytes.toInt + n.toInt < 2 ^ 63
  | Event.addSession accountID =>
      (s.meter.pendingOf accountID).sessions.toInt + 1 < 2 ^ 63
  | Event.flush id _ =>
      forall stage, stage ∈ s.flushes.lookup id -> stage.NoOverflow s.meter
  | _ => True

instance (s : System) (e : Event) : Decidable (s.WithinBounds e) :=
  match e with
  | Event.addBytes _ _ => inferInstanceAs (Decidable (_ -> _ -> _))
  | Event.addSession _ => inferInstanceAs (Decidable (_ -> _))
  | Event.flush id _ =>
      inferInstanceAs (Decidable (forall stage, stage ∈ s.flushes.lookup id -> _))
  | Event.startFlush _ => inferInstanceAs (Decidable True)
  | Event.late _ => inferInstanceAs (Decidable True)

instance (s : System) (e : Event) : Decidable (s.NoOverflow e) :=
  match e with
  | Event.addBytes _ _ => inferInstanceAs (Decidable (_ < _))
  | Event.addSession _ => inferInstanceAs (Decidable (_ < _))
  | Event.flush id _ =>
      inferInstanceAs (Decidable (forall stage, stage ∈ s.flushes.lookup id -> _))
  | Event.startFlush _ => inferInstanceAs (Decidable True)
  | Event.late _ => inferInstanceAs (Decidable True)

/-- The sum of `f` over the batches in the retry list and in the flushes. -/
def heldSum (s : System) (f : PendingReport -> Int) : Int :=
  (s.meter.retry.map f).sum +
    FiniteMap.sumBy (fun _ stage => (stage.batches.map f).sum) s.flushes

def HasApplied (s : System) (b : PendingReport) : Prop :=
  b.id ∈ s.applied.map PendingReport.id

instance (s : System) (b : PendingReport) : Decidable (s.HasApplied b) :=
  inferInstanceAs (Decidable (_ ∈ _))

def appliedFor (s : System) (q : Quantity) (account : String) : Int :=
  (s.applied.map (PendingReport.countFor q account)).sum

/-- What is drained but not applied: held batches, and items without a batch yet. -/
def unappliedFor (s : System) (q : Quantity) (account : String) : Int :=
  s.heldSum (fun b => if s.HasApplied b then 0 else b.countFor q account) +
    FiniteMap.sumBy (fun _ stage => itemsFor q account stage.loose) s.flushes

structure Accounted (s : System) (events : List Event) : Prop where
  counts : forall q account,
    ((s.meter.pendingOf account).get q).toInt +
        FiniteMap.sumBy (fun _ stage => itemsFor q account stage.loose) s.flushes +
        (s.created.map (PendingReport.countFor q account)).sum =
      added q account events
  held : forall f, s.heldSum f + (s.settled.map f).sum = (s.created.map f).sum
  ids : s.created.map PendingReport.id =
    (List.range s.created.length).map fun i =>
      Meter.reportID s.meter.popID s.meter.bootID (i + 1)
  seq : s.meter.seq.toNat = s.created.length
  sent : forall b, b ∈ s.sent -> b ∈ s.created
  applied : forall b, b ∈ s.applied -> b ∈ s.created
  settled : forall b, b ∈ s.settled -> s.HasApplied b
  once : (s.applied.map PendingReport.id).Nodup

theorem accounted_start (popID bootID : String) : Accounted (start popID bootID) [] := by
  refine ⟨?_, ?_, rfl, rfl, ?_, ?_, ?_, List.nodup_nil⟩
  · intro q account
    cases q <;> rfl
  · intro f
    rfl
  · intro b hb
    cases hb
  · intro b hb
    cases hb
  · intro b hb
    cases hb

end System

/-!
# Adding
-/

theorem added_snoc (q : Quantity) (account : String) (events : List Event) (e : Event) :
    added q account (events ++ [e]) = added q account events + e.adds q account := by
  simp [added]

namespace Meter

theorem count_of_room {m : Meter} {account : String} (h : m.HasRoom account)
    (f : MeterDelta -> MeterDelta) :
    m.count account f =
      { m with pending := m.pending.insert account (f (m.pendingOf account)) } := by
  unfold count pendingOf
  cases hd : m.pending.lookup account with
  | some d => rfl
  | none =>
      dsimp only
      rw [if_neg (Nat.not_le.mpr (h hd))]
      rfl

theorem pendingOf_insert (m : Meter) (account account' : String) (d : MeterDelta) :
    pendingOf { m with pending := m.pending.insert account d } account' =
      if account = account' then d else m.pendingOf account' := by
  unfold pendingOf
  split
  · rename_i heq
    rw [heq, Finmap.lookup_insert]
    rfl
  · rename_i hne
    rw [Finmap.lookup_insert_of_ne _ (Ne.symm hne)]

end Meter

theorem toInt_add_of_lt {a b : Int64} (hb : 0 <= b.toInt)
    (h : a.toInt + b.toInt < 2 ^ 63) : (a + b).toInt = a.toInt + b.toInt := by
  have hlow := Int64.le_toInt a
  rw [Int64.toInt_add]
  apply Int.bmod_eq_of_le
  · omega
  · omega

variable {b : PendingReport} {s : System} {events : List Event} {id : Nat} {n : Int64}

namespace System

theorem accounted_count (h : Accounted s events) {accountID : String}
    (hroom : s.meter.HasRoom accountID) (f : MeterDelta -> MeterDelta) (e : Event)
    (hf : forall q, ((f (s.meter.pendingOf accountID)).get q).toInt =
      ((s.meter.pendingOf accountID).get q).toInt + e.adds q accountID)
    (hother : forall q account, accountID ≠ account -> e.adds q account = 0) :
    Accounted { s with meter := s.meter.count accountID f } (events ++ [e]) := by
  rw [Meter.count_of_room hroom]
  refine ⟨?_, h.held, h.ids, h.seq, h.sent, h.applied, h.settled, h.once⟩
  intro q account
  have hcounts := h.counts q account
  rw [added_snoc]
  dsimp only
  rw [Meter.pendingOf_insert]
  split
  · rename_i heq
    rw [<- heq] at hcounts ⊢
    rw [hf q]
    omega
  · rename_i hne
    rw [hother q account hne]
    omega

theorem accounted_of_no_add (h : Accounted s events) {e : Event}
    (he : forall q account, e.adds q account = 0) : Accounted s (events ++ [e]) := by
  refine ⟨?_, h.held, h.ids, h.seq, h.sent, h.applied, h.settled, h.once⟩
  intro q account
  rw [added_snoc, he, add_zero]
  exact h.counts q account

theorem accounted_addBytes (h : Accounted s events) (accountID : String) (n : Int64)
    (hroom : s.WithinBounds (Event.addBytes accountID n))
    (hsmall : s.NoOverflow (Event.addBytes accountID n)) :
    Accounted { s with meter := s.meter.addBytes accountID n }
      (events ++ [Event.addBytes accountID n]) := by
  unfold Meter.addBytes
  split
  · rename_i hskip
    apply accounted_of_no_add h
    intro q account
    apply if_neg
    intro hcase
    rcases hskip with hempty | hneg
    · exact hcase.2.1 hempty
    · exact Int64.not_lt.mpr hneg hcase.2.2.1
  · rename_i hcounts
    have hname : accountID ≠ "" := fun heq => hcounts (Or.inl heq)
    have hpos : 0 < n := Int64.not_le.mp fun hle => hcounts (Or.inr hle)
    apply accounted_count h (hroom hname hpos)
    · intro q
      cases q with
      | bytes =>
          have hadd := toInt_add_of_lt (Int.le_of_lt (Int64.lt_iff_toInt_lt.mp hpos)) hsmall
          rw [Event.adds, if_pos ⟨rfl, hname, hpos, rfl⟩]
          exact hadd
      | sessions => simp [Event.adds, MeterDelta.get]
    · intro q account hne
      exact if_neg fun hcase => hne hcase.1

theorem accounted_addSession (h : Accounted s events) (accountID : String)
    (hroom : s.WithinBounds (Event.addSession accountID))
    (hsmall : s.NoOverflow (Event.addSession accountID)) :
    Accounted { s with meter := s.meter.addSession accountID }
      (events ++ [Event.addSession accountID]) := by
  unfold Meter.addSession
  split
  · rename_i hempty
    apply accounted_of_no_add h
    intro q account
    exact if_neg fun hcase => hcase.2.1 hempty
  · rename_i hname
    apply accounted_count h (hroom hname)
    · intro q
      cases q with
      | bytes => simp [Event.adds, MeterDelta.get]
      | sessions =>
          have hadd : ((s.meter.pendingOf accountID).sessions + 1).toInt =
              (s.meter.pendingOf accountID).sessions.toInt + 1 :=
            toInt_add_of_lt (b := 1) (by decide) hsmall
          rw [Event.adds, if_pos ⟨rfl, hname, rfl⟩]
          exact hadd
    · intro q account hne
      exact if_neg fun hcase => hne hcase.1

/-!
# Flushing
-/

theorem accounted_flush {t : System} (h : Accounted s events) {stage stage' : FlushStage}
    (hs : s.flushes.lookup id = some stage) (ht : t.flushes = s.flushes.insert id stage')
    (e : Event) (he : forall q account, e.adds q account = 0)
    (hcounts : forall q account,
      ((t.meter.pendingOf account).get q).toInt + itemsFor q account stage'.loose +
          (t.created.map (PendingReport.countFor q account)).sum =
        ((s.meter.pendingOf account).get q).toInt + itemsFor q account stage.loose +
          (s.created.map (PendingReport.countFor q account)).sum)
    (hheld : forall f : PendingReport -> Int,
      (t.meter.retry.map f).sum + (stage'.batches.map f).sum + (t.settled.map f).sum +
          (s.created.map f).sum =
        (s.meter.retry.map f).sum + (stage.batches.map f).sum + (s.settled.map f).sum +
          (t.created.map f).sum)
    (hids : t.created.map PendingReport.id =
      (List.range t.created.length).map fun i =>
        Meter.reportID t.meter.popID t.meter.bootID (i + 1))
    (hseq : t.meter.seq.toNat = t.created.length) (hsent : forall b, b ∈ t.sent -> b ∈ t.created)
    (happlied : forall b, b ∈ t.applied -> b ∈ t.created)
    (hsettled : forall b, b ∈ t.settled -> t.HasApplied b)
    (honce : (t.applied.map PendingReport.id).Nodup) : Accounted t (events ++ [e]) := by
  refine ⟨?_, ?_, hids, hseq, hsent, happlied, hsettled, honce⟩
  · intro q account
    have hold := h.counts q account
    have hnew := hcounts q account
    rw [added_snoc, he, ht, FiniteMap.sumBy_insert _ _ hs]
    omega
  · intro f
    have hold := h.held f
    have hnew := hheld f
    rw [heldSum] at hold
    rw [heldSum, ht, FiniteMap.sumBy_insert _ _ hs]
    omega

theorem itemsFor_cons (q : Quantity) (account : String) (i : UsageItem)
    (rest : List UsageItem) :
    itemsFor q account (i :: rest) =
      (if i.accountID = account then (i.get q).toInt else 0) +
        itemsFor q account rest := by
  unfold itemsFor
  rw [List.filter_cons]
  split
  · rename_i heq
    rw [if_pos (of_decide_eq_true heq), List.map_cons, List.sum_cons]
  · rename_i hne
    rw [if_neg (fun heq => hne (decide_eq_true heq)), zero_add]

theorem usageItem_cases (m : Meter) (account : String) :
    (m.usageItem account = none ∧ forall q, (m.pendingOf account).get q = 0) ∨
      exists i, m.usageItem account = some i ∧ i.accountID = account ∧
        forall q, i.get q = (m.pendingOf account).get q := by
  unfold Meter.usageItem Meter.pendingOf
  cases hd : m.pending.lookup account with
  | none =>
      refine Or.inl ⟨rfl, ?_⟩
      intro q
      cases q <;> rfl
  | some d =>
      dsimp only
      split
      · rename_i hzero
        refine Or.inl ⟨rfl, ?_⟩
        intro q
        cases q with
        | bytes => exact hzero.1
        | sessions => exact hzero.2
      · refine Or.inr ⟨_, rfl, rfl, ?_⟩
        intro q
        cases q <;> rfl

theorem itemsFor_filterMap (m : Meter) (q : Quantity) (account : String)
    {order : List String} (h : order.Nodup) :
    itemsFor q account (order.filterMap m.usageItem) =
      if account ∈ order then ((m.pendingOf account).get q).toInt else 0 := by
  induction order with
  | nil => rfl
  | cons first rest ih =>
      rcases List.nodup_cons.mp h with ⟨hfresh, hrest⟩
      have hhead : itemsFor q account ((first :: rest).filterMap m.usageItem) =
          (if first = account then ((m.pendingOf account).get q).toInt else 0) +
            itemsFor q account (rest.filterMap m.usageItem) := by
        rcases usageItem_cases m first with ⟨hnone, hzero⟩ | ⟨i, hi, hname, hget⟩
        · rw [List.filterMap_cons_none hnone]
          split
          · rename_i heq
            rw [<- heq, hzero q]
            exact (zero_add _).symm
          · rw [zero_add]
        · rw [List.filterMap_cons_some hi, itemsFor_cons, hname, hget]
          split
          · rename_i heq
            rw [heq]
          · rfl
      rw [hhead, ih hrest]
      by_cases heq : first = account
      · rw [if_pos heq, if_neg (heq ▸ hfresh), if_pos (heq ▸ List.mem_cons_self), add_zero]
      · rw [if_neg heq, zero_add]
        simp [Ne.symm heq]

theorem itemsFor_drain {m : Meter} {order : List String}
    (h : FiniteMap.Visits order m.pending) (q : Quantity) (account : String) :
    itemsFor q account (m.drain order).1 = ((m.pendingOf account).get q).toInt := by
  change itemsFor q account (order.filterMap m.usageItem) = _
  rw [itemsFor_filterMap m q account (FiniteMap.nodup_of_visits h)]
  split
  · rfl
  · rename_i hout
    have hnone : m.pending.lookup account = none := by
      cases hd : m.pending.lookup account with
      | none => rfl
      | some d => exact absurd (FiniteMap.mem_of_visits h hd) hout
    rw [Meter.pendingOf, hnone]
    cases q <;> rfl

theorem mem_created_of_flush (h : Accounted s events) {stage : FlushStage}
    (hs : s.flushes.lookup id = some stage) (hb : b ∈ stage.batches) : b ∈ s.created := by
  have hpos : forall bs : List PendingReport,
      0 <= (bs.map fun x => if x = b then (1 : Int) else 0).sum := by
    intro bs
    apply List.sum_nonneg
    intro x hx
    rcases List.mem_map.mp hx with ⟨y, _, hy⟩
    rw [<- hy]
    split
    · decide
    · decide
  have hone : forall bs : List PendingReport, b ∈ bs ->
      1 <= (bs.map fun x => if x = b then (1 : Int) else 0).sum := by
    intro bs hmem
    rcases List.append_of_mem hmem with ⟨front, back, hsplit⟩
    have hfront := hpos front
    have hback := hpos back
    rw [hsplit, List.map_append, List.sum_append, List.map_cons, List.sum_cons,
      if_pos rfl]
    omega
  have hheld := h.held fun x => if x = b then 1 else 0
  have hstage : 1 <= FiniteMap.sumBy
      (fun _ stage => (stage.batches.map fun x => if x = b then (1 : Int) else 0).sum)
      s.flushes :=
    Int.le_trans (hone stage.batches hb)
      (FiniteMap.le_sumBy (fun _ st _ => hpos st.batches) hs)
  have hretry := hpos s.meter.retry
  have hsettled := hpos s.settled
  rw [heldSum] at hheld
  by_contra hout
  have hzero : (s.created.map fun x => if x = b then (1 : Int) else 0).sum = 0 := by
    apply List.sum_eq_zero
    intro x hx
    rcases List.mem_map.mp hx with ⟨y, hy, hxy⟩
    rw [<- hxy, if_neg]
    intro heq
    exact hout (heq ▸ hy)
  omega

theorem once_apply {applied : List PendingReport} (b : PendingReport)
    (h : (applied.map PendingReport.id).Nodup) :
    ((apply applied b).map PendingReport.id).Nodup := by
  unfold apply
  split
  · exact h
  · rename_i hnew
    rw [List.map_append]
    apply List.nodup_append'.mpr
    refine ⟨h, List.nodup_singleton _, ?_⟩
    intro id hid hb
    rw [List.map_singleton, List.mem_singleton] at hb
    exact hnew (hb ▸ hid)

theorem mem_apply {applied : List PendingReport} {x : PendingReport} (h : x ∈ apply applied b) :
    x ∈ applied ∨ x = b := by
  unfold apply at h
  split at h
  · exact Or.inl h
  · rcases List.mem_append.mp h with hold | hnew
    · exact Or.inl hold
    · exact Or.inr (List.mem_singleton.mp hnew)

theorem id_mem_apply {applied : List PendingReport} {x : PendingReport}
    (h : x = b ∨ x.id ∈ applied.map PendingReport.id) :
    x.id ∈ (apply applied b).map PendingReport.id := by
  unfold apply
  split
  · rename_i hknown
    rcases h with heq | hold
    · rw [heq]
      exact hknown
    · exact hold
  · rw [List.map_append]
    rcases h with heq | hold
    · rw [heq]
      exact List.mem_append_right _ List.mem_cons_self
    · exact List.mem_append_left _ hold

theorem accounted_takeRetry (h : Accounted s events)
    (hs : s.flushes.lookup id = some FlushStage.takeRetry) (answer : Answer) :
    Accounted (s.advance id answer FlushStage.takeRetry) (events ++ [Event.flush id answer]) := by
  refine accounted_flush (t := s.advance id answer FlushStage.takeRetry) h hs rfl _
    (fun _ _ => rfl) (fun _ _ => rfl) ?_ h.ids h.seq h.sent h.applied h.settled h.once
  intro f
  simp [advance, Meter.takeRetry, FlushStage.batches]

theorem accounted_drain (h : Accounted s events) {batches : List PendingReport}
    (hs : s.flushes.lookup id = some (FlushStage.drain batches)) (answer : Answer) :
    Accounted (s.advance id answer (FlushStage.drain batches))
      (events ++ [Event.flush id answer]) := by
  rw [advance]
  split
  · rename_i horder
    have hloose : (FlushStage.drained batches (s.meter.drain answer.order).1).loose =
        (s.meter.drain answer.order).1 := by
      cases (s.meter.drain answer.order).1 <;> rfl
    have hbatches : (FlushStage.drained batches (s.meter.drain answer.order).1).batches =
        batches := by
      cases (s.meter.drain answer.order).1 with
      | nil => exact List.append_nil batches
      | cons i rest => rfl
    refine accounted_flush h hs rfl _ (fun _ _ => rfl) ?_ ?_ h.ids h.seq h.sent h.applied
      h.settled h.once
    · intro q account
      have hempty : ((Meter.pendingOf (s.meter.drain answer.order).2 account).get q).toInt =
          0 := by
        cases q <;> rfl
      rw [hloose, itemsFor_drain horder]
      dsimp only
      rw [hempty, zero_add]
      change _ = _ + itemsFor q account [] + _
      rw [itemsFor, List.filter_nil, List.map_nil, List.sum_nil, add_zero]
    · intro f
      rw [hbatches]
      rfl
  · exact accounted_of_no_add h (fun _ _ => rfl)

theorem accounted_assign (h : Accounted s events) {batches : List PendingReport}
    {newItems : List UsageItem}
    (hs : s.flushes.lookup id = some (FlushStage.assign batches newItems)) (answer : Answer)
    (hfits : s.meter.seq.toNat + 1 < 2 ^ 64) :
    Accounted (s.advance id answer (FlushStage.assign batches newItems))
      (events ++ [Event.flush id answer]) := by
  have hnext : (s.meter.seq + 1).toNat = s.created.length + 1 := by
    rw [UInt64.toNat_add, <- h.seq]
    exact Nat.mod_eq_of_lt hfits
  have hold : forall b, b ∈ s.created ->
      b ∈ s.created ++ [⟨s.meter.nextReportID.1, newItems⟩] :=
    fun b hb => List.mem_append_left _ hb
  refine accounted_flush (t := s.advance id answer (FlushStage.assign batches newItems))
    h hs rfl _ (fun _ _ => rfl) ?_ ?_ ?_ ?_ ?_ ?_ h.settled h.once
  · intro q account
    simp only [advance, FlushStage.loose, List.map_append, List.sum_append, List.map_cons,
      List.map_nil, List.sum_cons, List.sum_nil, add_zero, PendingReport.countFor]
    rw [itemsFor, List.filter_nil, List.map_nil, List.sum_nil, add_zero, add_assoc,
      add_comm (itemsFor q account newItems)]
    rfl
  · intro f
    simp only [advance, FlushStage.batches, List.map_append, List.sum_append, List.map_cons,
      List.map_nil, List.sum_cons, List.sum_nil, Meter.nextReportID]
    omega
  · simp only [advance, Meter.nextReportID, List.map_append, List.length_append,
      List.length_singleton, List.range_succ, List.map_cons, List.map_nil, hnext]
    rw [h.ids]
  · simp only [advance, Meter.nextReportID, List.length_append, List.length_singleton]
    exact hnext
  · intro b hb
    exact hold b (h.sent b hb)
  · intro b hb
    exact hold b (h.applied b hb)

theorem accounted_requeue (h : Accounted s events) {failed : List PendingReport}
    (hs : s.flushes.lookup id = some (FlushStage.report [] failed)) (answer : Answer)
    (hfits : s.meter.retry.length + failed.length <= s.meter.maxRetryBatches) :
    Accounted (s.advance id answer (FlushStage.report [] failed))
      (events ++ [Event.flush id answer]) := by
  have hretry : (s.meter.requeue failed).retry = s.meter.retry ++ failed := by
    have hnone : (s.meter.retry ++ failed).length - s.meter.maxRetryBatches = 0 := by
      rw [List.length_append]
      exact Nat.sub_eq_zero_of_le hfits
    rw [Meter.requeue, hnone]
    rfl
  refine accounted_flush (t := s.advance id answer (FlushStage.report [] failed))
    h hs rfl _ (fun _ _ => rfl) (fun _ _ => rfl) ?_ h.ids h.seq h.sent h.applied
    h.settled h.once
  intro f
  simp only [advance, hretry, FlushStage.batches, List.map_append, List.sum_append,
    List.map_nil, List.sum_nil, List.nil_append, add_zero]

theorem accounted_report (h : Accounted s events) {batches failed : List PendingReport}
    (hs : s.flushes.lookup id = some (FlushStage.report (b :: batches) failed)) (answer : Answer) :
    Accounted (s.advance id answer (FlushStage.report (b :: batches) failed))
      (events ++ [Event.flush id answer]) := by
  have hb : b ∈ s.created := mem_created_of_flush h hs List.mem_cons_self
  have hsent : forall x, x ∈ s.sent ++ [b] -> x ∈ s.created := by
    intro x hx
    rcases List.mem_append.mp hx with hold | hnew
    · exact h.sent x hold
    · rw [List.mem_singleton.mp hnew]
      exact hb
  have happlied : forall x, x ∈ apply s.applied b -> x ∈ s.created := by
    intro x hx
    rcases mem_apply hx with hold | hnew
    · exact h.applied x hold
    · rw [hnew]
      exact hb
  -- The batch leaves the front of the list; a failed one goes to its end.
  have hfront : forall f : PendingReport -> Int,
      (((b :: batches) ++ failed).map f).sum = f b + ((batches ++ failed).map f).sum := by
    intro f
    rw [List.cons_append, List.map_cons, List.sum_cons]
  have hkept : forall f : PendingReport -> Int,
      ((batches ++ (failed ++ [b])).map f).sum = (((b :: batches) ++ failed).map f).sum := by
    intro f
    rw [hfront, <- List.append_assoc, List.map_append, List.sum_append, List.map_singleton,
      List.sum_singleton, Int.add_comm]
  have hfailed : forall f : PendingReport -> Int,
      (s.meter.retry.map f).sum + ((batches ++ (failed ++ [b])).map f).sum +
          (s.settled.map f).sum + (s.created.map f).sum =
        (s.meter.retry.map f).sum + (((b :: batches) ++ failed).map f).sum +
          (s.settled.map f).sum + (s.created.map f).sum := by
    intro f
    rw [hkept]
  rw [advance]
  cases answer.outcome with
  | ok =>
      refine accounted_flush (t := s.report id b batches failed Outcome.ok) h hs rfl _
        (fun _ _ => rfl) (fun _ _ => rfl) ?_ h.ids h.seq hsent happlied ?_
        (once_apply b h.once)
      · intro f
        have hsettled : ((s.settled ++ [b]).map f).sum = (s.settled.map f).sum + f b := by
          rw [List.map_append, List.sum_append, List.map_singleton, List.sum_singleton]
        have hb := hfront f
        change (s.meter.retry.map f).sum + ((batches ++ failed).map f).sum +
            ((s.settled ++ [b]).map f).sum + (s.created.map f).sum =
          (s.meter.retry.map f).sum + (((b :: batches) ++ failed).map f).sum +
            (s.settled.map f).sum + (s.created.map f).sum
        omega
      · intro x hx
        apply id_mem_apply
        rcases List.mem_append.mp hx with hold | hnew
        · exact Or.inr (h.settled x hold)
        · exact Or.inl (List.mem_singleton.mp hnew)
  | failedBefore =>
      exact accounted_flush (t := s.report id b batches failed Outcome.failedBefore) h hs
        rfl _ (fun _ _ => rfl) (fun _ _ => rfl) hfailed h.ids h.seq hsent h.applied h.settled
        h.once
  | failedAfter =>
      refine accounted_flush (t := s.report id b batches failed Outcome.failedAfter) h hs
        rfl _ (fun _ _ => rfl) (fun _ _ => rfl) hfailed h.ids h.seq hsent happlied ?_
        (once_apply b h.once)
      intro x hx
      exact id_mem_apply (Or.inr (h.settled x hx))

theorem accounted_late (h : Accounted s events) (hb : b ∈ s.sent) :
    Accounted { s with applied := apply s.applied b } (events ++ [Event.late b]) := by
  have hkept := accounted_of_no_add h (e := Event.late b) (fun _ _ => rfl)
  refine ⟨hkept.counts, hkept.held, h.ids, h.seq, h.sent, ?_, ?_, once_apply b h.once⟩
  · intro x hx
    rcases mem_apply hx with hold | hnew
    · exact h.applied x hold
    · rw [hnew]
      exact h.sent b hb
  · intro x hx
    exact id_mem_apply (Or.inr (h.settled x hx))

theorem accounted_startFlush (h : Accounted s events) (id : Nat) :
    Accounted (s.step (Event.startFlush id)) (events ++ [Event.startFlush id]) := by
  have hkept := accounted_of_no_add h (e := Event.startFlush id) (fun _ _ => rfl)
  rw [step]
  split
  · rename_i hnone
    refine ⟨?_, ?_, h.ids, h.seq, h.sent, h.applied, h.settled, h.once⟩
    · intro q account
      rw [<- hkept.counts q account]
      dsimp only
      rw [FiniteMap.sumBy_insert_of_none _ _ hnone]
      change _ + (_ + itemsFor q account []) + _ = _
      rw [itemsFor, List.filter_nil, List.map_nil, List.sum_nil, add_zero]
    · intro f
      rw [<- hkept.held f, heldSum, heldSum]
      dsimp only
      rw [FiniteMap.sumBy_insert_of_none _ _ hnone]
      change _ + (_ + (List.map f []).sum) + _ = _
      rw [List.map_nil, List.sum_nil, add_zero]
  · rename_i hdone
    have hflushes : ({ s with
        flushes := s.flushes.insert id FlushStage.takeRetry } : System).flushes =
        s.flushes.insert id FlushStage.takeRetry := rfl
    exact accounted_flush h hdone hflushes _ (fun _ _ => rfl) (fun _ _ => rfl)
      (fun _ => rfl) h.ids h.seq h.sent h.applied h.settled h.once
  · exact hkept

theorem accounted_step (s : System) (events : List Event) (e : Event)
    (h : Accounted s events) (hfits : s.WithinBounds e ∧ s.NoOverflow e) :
    Accounted (s.step e) (events ++ [e]) := by
  cases e with
  | addBytes accountID n => exact accounted_addBytes h accountID n hfits.1 hfits.2
  | addSession accountID => exact accounted_addSession h accountID hfits.1 hfits.2
  | startFlush id => exact accounted_startFlush h id
  | flush id answer =>
      rw [step]
      split
      · exact accounted_of_no_add h (fun _ _ => rfl)
      · rename_i stage hs
        have hbounds := hfits.1 stage hs
        have hcounter := hfits.2 stage hs
        cases stage with
        | takeRetry => exact accounted_takeRetry h hs answer
        | drain batches => exact accounted_drain h hs answer
        | assign batches newItems => exact accounted_assign h hs answer hcounter
        | report batches failed =>
            cases batches with
            | nil => exact accounted_requeue h hs answer hbounds
            | cons b rest => exact accounted_report h hs answer
        | done => exact accounted_of_no_add h (fun _ _ => rfl)
  | late b =>
      rw [step]
      split
      · rename_i hb
        exact accounted_late h hb
      · exact accounted_of_no_add h (fun _ _ => rfl)

/-!
# The whole account
-/

theorem repr_inj {n k : Nat} (h : Nat.repr n = Nat.repr k) : n = k := by
  have hdigits := congrArg String.toList h
  rw [Nat.toList_repr, Nat.toList_repr] at hdigits
  rw [<- Nat.ofDigitChars_ten_toDigits (n := n), hdigits, Nat.ofDigitChars_ten_toDigits]

theorem reportID_inj {popID bootID : String} {n k : Nat}
    (h : Meter.reportID popID bootID n = Meter.reportID popID bootID k) : n = k := by
  have hlist := congrArg String.toList h
  simp only [Meter.reportID, String.toList_append] at hlist
  exact repr_inj (String.toList_inj.mp (List.append_cancel_left hlist))

theorem nodup_created (h : Accounted s events) : (s.created.map PendingReport.id).Nodup := by
  rw [h.ids]
  apply List.Nodup.map _ List.nodup_range
  intro i j heq
  exact Nat.succ.inj (reportID_inj heq)

theorem sum_applied (h : Accounted s events) (f : PendingReport -> Int) :
    (s.created.map fun b => if s.HasApplied b then f b else 0).sum =
      (s.applied.map f).sum := by
  have hcreated := nodup_created h
  have hperm : (s.created.filter fun b => s.HasApplied b).Perm s.applied := by
    apply (List.perm_ext_iff_of_nodup ?_ ?_).mpr
    · intro b
      rw [List.mem_filter, decide_eq_true_iff]
      constructor
      · intro hb
        rcases List.mem_map.mp hb.2 with ⟨b', hb', hid⟩
        have heq := List.inj_on_of_nodup_map hcreated (h.applied b' hb') hb.1 hid
        rw [<- heq]
        exact hb'
      · intro hb
        exact ⟨h.applied b hb, List.mem_map_of_mem hb⟩
    · exact (List.Nodup.of_map _ hcreated).filter _
    · exact List.Nodup.of_map _ h.once
  have hsplit : forall bs : List PendingReport,
      (bs.map fun b => if s.HasApplied b then f b else 0).sum =
        ((bs.filter fun b => s.HasApplied b).map f).sum := by
    intro bs
    induction bs with
    | nil => rfl
    | cons b rest ih =>
        rw [List.map_cons, List.sum_cons, ih]
        by_cases hb : s.HasApplied b
        · simp [hb]
        · simp [hb]
  rw [hsplit, (hperm.map f).sum_eq]

theorem balance_of_accounted (h : Accounted s events) (q : Quantity) (account : String) :
    s.appliedFor q account + ((s.meter.pendingOf account).get q).toInt +
        s.unappliedFor q account = added q account events := by
  have hcounts := h.counts q account
  have happlied := sum_applied h (PendingReport.countFor q account)
  have hheld := h.held fun b => if s.HasApplied b then 0 else b.countFor q account
  have hsettled :
      (s.settled.map fun b => if s.HasApplied b then 0 else b.countFor q account).sum =
        0 := by
    apply List.sum_eq_zero
    intro x hx
    rcases List.mem_map.mp hx with ⟨b, hb, hxb⟩
    rw [<- hxb, if_pos (h.settled b hb)]
  have hsplit : forall bs : List PendingReport,
      (bs.map fun b => if s.HasApplied b then b.countFor q account else 0).sum +
          (bs.map fun b => if s.HasApplied b then 0 else b.countFor q account).sum =
        (bs.map (PendingReport.countFor q account)).sum := by
    intro bs
    rw [<- List.sum_map_add]
    congr 1
    apply List.map_congr_left
    intro b _
    split
    · rw [add_zero]
    · rw [zero_add]
  have hall := hsplit s.created
  rw [appliedFor, unappliedFor]
  omega

/--
Whatever the interleaving and however reports fail: as long as the bounds are not
reached and no counter overflows, what was added is what the control plane
applied, what is pending and what is held unapplied, and no two batches share a
report id.
-/
theorem usage_reported_exactly_once (popID bootID : String) (events : List Event)
    (hbounds : Transition.StepsMeet step WithinBounds (start popID bootID) events)
    (hcounters : Transition.StepsMeet step NoOverflow (start popID bootID) events) :
    (forall q account,
      (after step (start popID bootID) events).appliedFor q account +
          (((after step (start popID bootID) events).meter.pendingOf
            account).get q).toInt +
          (after step (start popID bootID) events).unappliedFor q account =
        added q account events) ∧
    ((after step (start popID bootID) events).created.map
      PendingReport.id).Nodup ∧
    forall b, b ∈ (after step (start popID bootID) events).sent ->
      b ∈ (after step (start popID bootID) events).created := by
  have hmeet := stepsMeet_and hbounds hcounters
  have hrun := invariant_emitted accounted_step (accounted_start popID bootID)
    hmeet
  rw [List.nil_append, emitted_event] at hrun
  exact ⟨balance_of_accounted hrun, nodup_created hrun, hrun.sent⟩

/-!
# Counters that overflow

A pending count is an `int64`, and the report ids are numbered by a `uint64`.
-/

def popA : System :=
  start "pop" "boot"

/-- Report, lose the answer, retry, and count a session in between. -/
def retriedRun : List Event :=
  [Event.addBytes "a" 5, Event.startFlush 0, Event.flush 0 ⟨[], Outcome.ok⟩,
    Event.flush 0 ⟨["a"], Outcome.ok⟩, Event.addBytes "a" 7,
    Event.flush 0 ⟨[], Outcome.ok⟩, Event.flush 0 ⟨[], Outcome.failedAfter⟩,
    Event.flush 0 ⟨[], Outcome.ok⟩, Event.startFlush 0,
    Event.flush 0 ⟨[], Outcome.ok⟩, Event.addSession "a",
    Event.flush 0 ⟨["a"], Outcome.ok⟩]

theorem retriedRun_accounted :
    (after step popA retriedRun).appliedFor Quantity.bytes "a" = 5 ∧
      (after step popA retriedRun).appliedFor Quantity.bytes "a" +
          (((after step popA retriedRun).meter.pendingOf "a").get
            Quantity.bytes).toInt +
          (after step popA retriedRun).unappliedFor Quantity.bytes "a" =
        added Quantity.bytes "a" retriedRun := by
  constructor
  · decide +kernel
  · exact (usage_reported_exactly_once "pop" "boot" retriedRun (by decide +kernel)
      (by decide +kernel)).1 Quantity.bytes "a"

/-- Usage of one account, counted, flushed and reported without a fault. -/
def counted (n : Int64) : List Event :=
  [Event.addBytes "a" n, Event.startFlush 0, Event.flush 0 ⟨[], Outcome.ok⟩,
    Event.flush 0 ⟨["a"], Outcome.ok⟩, Event.flush 0 ⟨[], Outcome.ok⟩,
    Event.flush 0 ⟨[], Outcome.ok⟩, Event.flush 0 ⟨[], Outcome.ok⟩]

/-- Nothing is pending, to be retried or under way. -/
structure Idle (s : System) : Prop where
  pending : s.meter.pending = ∅
  retry : s.meter.retry = []
  maxAccounts : s.meter.maxAccounts = 50000
  maxRetryBatches : s.meter.maxRetryBatches = 1024
  flushes : s.flushes.lookup 0 = none ∨ s.flushes.lookup 0 = some FlushStage.done

theorem visits_singleton (d : MeterDelta) :
    FiniteMap.Visits ["a"] ((∅ : FiniteMap String MeterDelta).insert "a" d) := by
  unfold FiniteMap.Visits
  rw [Finmap.entries_insert_of_notMem (Finmap.notMem_empty)]
  rfl

theorem step_startFlush_of_idle
    (h : s.flushes.lookup 0 = none ∨ s.flushes.lookup 0 = some FlushStage.done) :
    s.step (Event.startFlush 0) =
      { s with flushes := s.flushes.insert 0 FlushStage.takeRetry } := by
  rcases h with h | h
  · rw [step, h]
  · rw [step, h]

def countedBatch (s : System) (n : Int64) : PendingReport :=
  ⟨Meter.reportID s.meter.popID s.meter.bootID (s.meter.seq + 1).toNat, [⟨"a", n, 0⟩]⟩

theorem after_count (h : Idle s) (hn : 0 < n) :
    s.meter.HasRoom "a" ∧
      step (step s (Event.addBytes "a" n)) (Event.startFlush 0) =
        { s with
          meter :=
            { s.meter with pending := (∅ : FiniteMap String MeterDelta).insert "a" ⟨n, 0⟩ }
          flushes := s.flushes.insert 0 FlushStage.takeRetry } := by
  have hroom : s.meter.HasRoom "a" := by
    intro _
    rw [h.pending, h.maxAccounts]
    decide
  have hskip : Not ("a" = "" ∨ n <= 0) := by
    intro hcase
    rcases hcase with hcase | hcase
    · simp at hcase
    · exact Int64.not_le.mpr hn hcase
  have hadd : s.meter.addBytes "a" n =
      { s.meter with pending := (∅ : FiniteMap String MeterDelta).insert "a" ⟨n, 0⟩ } := by
    rw [Meter.addBytes, if_neg hskip, Meter.count_of_room hroom, Meter.pendingOf, h.pending]
    simp
  refine ⟨hroom, ?_⟩
  change step { s with meter := s.meter.addBytes "a" n } (Event.startFlush 0) = _
  rw [step_startFlush_of_idle (s := { s with meter := s.meter.addBytes "a" n }) h.flushes,
    hadd]

theorem drain_counted (m : Meter) (hn : 0 < n) :
    ["a"].filterMap (Meter.usageItem
      { m with
        pending := (∅ : FiniteMap String MeterDelta).insert "a" ⟨n, 0⟩
        retry := [] }) = [⟨"a", n, 0⟩] := by
  have hzero : n ≠ 0 := by
    intro heq
    rw [heq] at hn
    exact absurd hn (by decide)
  simp [Meter.usageItem, hzero]

theorem after_counted_eq (h : Idle s) (hn : 0 < n) :
    after step s (counted n) =
      { meter :=
          { s.meter with
            pending := ∅
            seq := s.meter.seq + 1
            retry := [] }
        flushes := s.flushes.insert 0 FlushStage.done
        sent := s.sent ++ [s.countedBatch n]
        applied := apply s.applied (s.countedBatch n)
        created := s.created ++ [s.countedBatch n]
        settled := s.settled ++ [s.countedBatch n] } := by
  have hunfold : after step s (counted n) = after step
      (step (step s (Event.addBytes "a" n)) (Event.startFlush 0)) ((counted n).drop 2) := rfl
  rw [hunfold, (after_count h hn).2]
  simp [after, counted, step, advance, Meter.takeRetry, Meter.drain,
    visits_singleton, h.retry, drain_counted s.meter hn, FlushStage.drained,
    Meter.nextReportID, report, Meter.requeue, countedBatch]

theorem withinBounds_counted (h : Idle s) (hn : 0 < n) :
    Transition.StepsMeet step WithinBounds s (counted n) := by
  rcases after_count h hn with ⟨hroom, hstart⟩
  refine ⟨fun _ _ => hroom, trivial, ?_⟩
  rw [hstart]
  simp [Transition.StepsMeet, WithinBounds, step, advance, Meter.takeRetry, Meter.drain,
    visits_singleton, h.retry, drain_counted s.meter hn, FlushStage.drained,
    Meter.nextReportID, report, FlushStage.WithinBounds]

theorem idle_counted (h : Idle s) (hn : 0 < n) : Idle (after step s (counted n)) := by
  rw [after_counted_eq h hn]
  exact ⟨rfl, rfl, h.maxAccounts, h.maxRetryBatches, Or.inr (Finmap.lookup_insert _)⟩

def rounds (k : Nat) : List Event :=
  (List.replicate k (counted 1)).flatten

def firstBatch : PendingReport :=
  ⟨Meter.reportID "pop" "boot" 1, [⟨"a", 1, 0⟩]⟩

structure Rounds (s : System) (k : Nat) : Prop where
  idle : Idle s
  seq : s.meter.seq = UInt64.ofNat k
  popID : s.meter.popID = "pop"
  bootID : s.meter.bootID = "boot"
  first : 0 < k -> firstBatch ∈ s.created

theorem after_rounds (k : Nat) :
    Rounds (after step popA (rounds k)) k ∧
      Transition.StepsMeet step WithinBounds popA (rounds k) := by
  induction k with
  | zero =>
      refine ⟨⟨⟨rfl, rfl, rfl, rfl, Or.inl rfl⟩, rfl, rfl, rfl, ?_⟩, trivial⟩
      intro hpos
      exact absurd hpos (Nat.lt_irrefl 0)
  | succ k ih =>
      rcases ih with ⟨hrounds, hmeet⟩
      have hone : (0 : Int64) < 1 := by decide
      have hsnoc : rounds (k + 1) = rounds k ++ counted 1 := by
        rw [rounds, List.replicate_succ', List.flatten_append, List.flatten_singleton]
        rfl
      rw [hsnoc, after_append]
      refine ⟨⟨idle_counted hrounds.idle hone, ?_, ?_, ?_, ?_⟩,
        stepsMeet_append hmeet (withinBounds_counted hrounds.idle hone)⟩
      · rw [after_counted_eq hrounds.idle hone, UInt64.ofNat_add, <- hrounds.seq]
        rfl
      · rw [after_counted_eq hrounds.idle hone]
        exact hrounds.popID
      · rw [after_counted_eq hrounds.idle hone]
        exact hrounds.bootID
      · intro _
        rw [after_counted_eq hrounds.idle hone]
        cases k with
        | zero =>
            apply List.mem_append_right
            rw [countedBatch, hrounds.popID, hrounds.bootID, hrounds.seq]
            exact List.mem_singleton.mpr rfl
        | succ j => exact List.mem_append_left _ (hrounds.first (Nat.succ_pos j))

/--
Two calls carry an account past the largest `int64`; after `2 ^ 64` batches the
first report id is given out again.
-/
theorem counters_wrap :
    (Transition.StepsMeet step WithinBounds popA
        [Event.addBytes "a" Int64.maxValue, Event.addBytes "a" 1] ∧
      (after step popA
          [Event.addBytes "a" Int64.maxValue, Event.addBytes "a" 1]).appliedFor
            Quantity.bytes "a" +
        (((after step popA
          [Event.addBytes "a" Int64.maxValue, Event.addBytes "a" 1]).meter.pendingOf
            "a").get Quantity.bytes).toInt +
        (after step popA
          [Event.addBytes "a" Int64.maxValue, Event.addBytes "a" 1]).unappliedFor
            Quantity.bytes "a" ≠
        added Quantity.bytes "a"
          [Event.addBytes "a" Int64.maxValue, Event.addBytes "a" 1]) ∧
    exists events b b', Transition.StepsMeet step WithinBounds popA events ∧
      b ∈ (after step popA events).created ∧
      b' ∈ (after step popA events).created ∧ b ≠ b' ∧ b.id = b'.id := by
  constructor
  · decide +kernel
  · rcases after_rounds (2 ^ 64) with ⟨hrounds, hmeet⟩
    have htwo : (0 : Int64) < 2 := by decide
    refine ⟨rounds (2 ^ 64) ++ counted 2, firstBatch,
      countedBatch (after step popA (rounds (2 ^ 64))) 2,
      stepsMeet_append hmeet (withinBounds_counted hrounds.idle htwo),
      ?_, ?_, ?_, ?_⟩
    · rw [after_append, after_counted_eq hrounds.idle htwo]
      exact List.mem_append_left _ (hrounds.first (by decide))
    · rw [after_append, after_counted_eq hrounds.idle htwo]
      exact List.mem_append_right _ List.mem_cons_self
    · intro heq
      injection heq with _ hitems
      exact absurd hitems (by decide)
    · rw [countedBatch, hrounds.popID, hrounds.bootID, hrounds.seq]
      rfl

end System
end Server
end Ephor
