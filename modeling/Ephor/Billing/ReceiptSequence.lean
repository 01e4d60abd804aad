import Ephor.Billing.Prepaid
import Mathlib.Algebra.GroupWithZero.Nat
import Mathlib.Data.List.Nodup

/-!
# The numbers on receipts

`ReceiptLog::issue_for_bill` of `pier-billing` over many calls.  The wire layout calls the
number of a receipt a counter per payer.  The counter that is handed out belongs to the
log.
-/

namespace Ephor
namespace Billing

open Foundation

structure Issue (identityKey : Type) where
  payer : Bytes
  bill : Bill
  ik : identityKey
deriving DecidableEq

/-- A log holds its receipts in a `Vec` of records of 72 bytes. -/
def maxReceipts : Nat := (2 ^ 63 - 1) / 72

def linesOf {identityKey : Type} (calls : List (Issue identityKey)) : Nat :=
  (calls.map fun c => c.bill.lineItems.length).sum

/-- The calls on one log, which holds all the receipts. -/
structure History (identityKey : Type) where
  calls : List (Issue identityKey)
  held : linesOf calls <= maxReceipts

namespace ReceiptLog

section Runs

variable {identityKey usageReceipt : Type}
  (sign : BilledOperation -> identityKey -> usageReceipt)

def issueStep (log : ReceiptLog usageReceipt) (c : Issue identityKey) :
    ReceiptLog usageReceipt :=
  (log.issueForBill sign c.payer c.bill c.ik).2

def handedOut (payer : Bytes) (log : ReceiptLog usageReceipt) (c : Issue identityKey) :
    List usageReceipt :=
  if c.payer = payer then (log.issueForBill sign c.payer c.bill c.ik).1 else []

def issuedTo (payer : Bytes) (calls : List (Issue identityKey)) : List usageReceipt :=
  Transition.emitted (issueStep sign) (handedOut sign payer) new calls

end Runs

end ReceiptLog

namespace History

variable {identityKey : Type} (h : History identityKey)

/-- The receipts issued to each payer are signatures of operations that are numbered 0, 1,
2 and so on. -/
def Gapless : Prop :=
  forall payer, exists numbered : List (BilledOperation × identityKey),
    (forall (usageReceipt : Type) (sign : BilledOperation -> identityKey -> usageReceipt),
      ReceiptLog.issuedTo sign payer h.calls = numbered.map fun r => sign r.1 r.2) ∧
    (numbered.map fun r => r.1.sequence.toNat) = List.range numbered.length

def OnePayer : Prop :=
  forall c c', c ∈ h.calls -> c' ∈ h.calls -> c.bill.lineItems ≠ [] ->
    c'.bill.lineItems ≠ [] -> c.payer = c'.payer

end History

/-!
# What a run issues
-/

section Numbers

variable {identityKey usageReceipt : Type}

def operations (payer : Bytes) (bill : Bill) :
    List LineItem -> UInt64 -> List BilledOperation
  | [], _ => []
  | item :: rest, number =>
      ⟨payer, item.kind, item.meteredUnits, item.billedUnits, item.amount, bill.currency,
        number⟩ :: operations payer bill rest (number + 1)

def numberedFrom (number : UInt64) :
    List (Issue identityKey) -> List (BilledOperation × identityKey)
  | [] => []
  | c :: calls =>
      (operations c.payer c.bill c.bill.lineItems number).map (fun op => (op, c.ik)) ++
        numberedFrom (number + UInt64.ofNat c.bill.lineItems.length) calls

theorem ofNat_succ (n : Nat) : UInt64.ofNat (n + 1) = 1 + UInt64.ofNat n := by
  rw [UInt64.ofNat_add, UInt64.add_comm]
  rfl

theorem issueItems_eq (sign : BilledOperation -> identityKey -> usageReceipt) (payer : Bytes)
    (bill : Bill) (ik : identityKey) (items : List LineItem) (log : ReceiptLog usageReceipt) :
    (ReceiptLog.issueItems sign payer bill ik items log).1 =
        (operations payer bill items log.nextSequence).map (fun op => sign op ik) ∧
      (ReceiptLog.issueItems sign payer bill ik items log).2.nextSequence =
        log.nextSequence + UInt64.ofNat items.length := by
  induction items generalizing log with
  | nil => exact ⟨rfl, (UInt64.add_zero log.nextSequence).symm⟩
  | cons item items ih =>
      rcases ih ⟨log.receipts ++ [sign (log.billedOperation payer bill item) ik],
        log.nextSequence + 1⟩ with ⟨hreceipts, hnext⟩
      constructor
      · rw [operations, List.map_cons, <- hreceipts]
        rfl
      · rw [List.length_cons, ofNat_succ, <- UInt64.add_assoc, <- hnext]
        rfl

theorem payer_of_mem_operations {payer : Bytes} {bill : Bill} {items : List LineItem}
    {number : UInt64} {op : BilledOperation} (h : op ∈ operations payer bill items number) :
    op.payer = payer := by
  induction items generalizing number with
  | nil => cases h
  | cons item items ih =>
      rcases List.mem_cons.mp h with h | h
      · rw [h]
      · exact ih h

theorem exists_mem_operations (payer : Bytes) (bill : Bill) (number : UInt64)
    {items : List LineItem} (h : items ≠ []) :
    exists op, op ∈ operations payer bill items number := by
  cases items with
  | nil => exact absurd rfl h
  | cons item items => exact ⟨_, List.mem_cons_self ..⟩

theorem emitted_handedOut (sign : BilledOperation -> identityKey -> usageReceipt)
    (payer : Bytes) (calls : List (Issue identityKey)) (log : ReceiptLog usageReceipt) :
    Transition.emitted (ReceiptLog.issueStep sign) (ReceiptLog.handedOut sign payer) log
        calls =
      ((numberedFrom log.nextSequence calls).filter fun r => r.1.payer = payer).map
        fun r => sign r.1 r.2 := by
  induction calls generalizing log with
  | nil => rfl
  | cons c calls ih =>
      rcases issueItems_eq sign c.payer c.bill c.ik c.bill.lineItems log with
        ⟨hreceipts, hnext⟩
      have hrest := ih (log.issueStep sign c)
      have hnumber : (log.issueStep sign c).nextSequence =
          log.nextSequence + UInt64.ofNat c.bill.lineItems.length := hnext
      rw [Transition.emitted, numberedFrom, List.filter_append, List.map_append, hrest, hnumber]
      congr 1
      unfold ReceiptLog.handedOut
      split
      · rename_i hpayer
        rw [List.filter_eq_self.mpr, List.map_map]
        · exact hreceipts
        · intro r hr
          rcases List.mem_map.mp hr with ⟨op, hop, heq⟩
          rw [<- heq, payer_of_mem_operations hop, hpayer]
          exact decide_eq_true rfl
      · rename_i hpayer
        rw [List.filter_eq_nil_iff.mpr]
        · rfl
        · intro r hr
          rcases List.mem_map.mp hr with ⟨op, hop, heq⟩
          rw [<- heq, payer_of_mem_operations hop, decide_eq_true_iff]
          exact hpayer

theorem sequence_operations (payer : Bytes) (bill : Bill) (items : List LineItem)
    (number : UInt64) :
    (operations payer bill items number).map BilledOperation.sequence =
      (List.range items.length).map fun i => number + UInt64.ofNat i := by
  induction items generalizing number with
  | nil => rfl
  | cons item items ih =>
      rw [operations, List.map_cons, ih, List.length_cons, List.range_succ_eq_map,
        List.map_cons, List.map_map]
      congr 1
      · exact (UInt64.add_zero number).symm
      · apply List.map_congr_left
        intro i _
        rw [Function.comp, ofNat_succ, UInt64.add_assoc]

theorem sequence_numberedFrom (calls : List (Issue identityKey)) (number : UInt64) :
    ((numberedFrom number calls).map fun r => r.1.sequence) =
      (List.range (linesOf calls)).map fun i => number + UInt64.ofNat i := by
  induction calls generalizing number with
  | nil => rfl
  | cons c calls ih =>
      have hlines : linesOf (c :: calls) = c.bill.lineItems.length + linesOf calls :=
        List.sum_cons
      rw [numberedFrom, List.map_append, List.map_map, ih, hlines, List.range_add,
        List.map_append, List.map_map, <- sequence_operations c.payer c.bill]
      congr 1
      apply List.map_congr_left
      intro i _
      rw [Function.comp, UInt64.ofNat_add, UInt64.add_assoc]

theorem payer_numberedFrom {calls : List (Issue identityKey)} {number : UInt64} {payer : Bytes} :
    (exists r, r ∈ numberedFrom number calls ∧ r.1.payer = payer) <->
      exists c, c ∈ calls ∧ c.bill.lineItems ≠ [] ∧ c.payer = payer := by
  induction calls generalizing number with
  | nil =>
      constructor
      · intro h
        rcases h with ⟨r, hr, _⟩
        cases hr
      · intro h
        rcases h with ⟨c, hc, _⟩
        cases hc
  | cons c calls ih =>
      have hrest := @ih (number + UInt64.ofNat c.bill.lineItems.length)
      constructor
      · intro h
        rcases h with ⟨r, hr, hpayer⟩
        rcases List.mem_append.mp hr with hr | hr
        · rcases List.mem_map.mp hr with ⟨op, hop, heq⟩
          refine ⟨c, List.mem_cons_self .., ?_, ?_⟩
          · intro hnil
            rw [hnil] at hop
            cases hop
          · rw [<- hpayer, <- heq]
            exact (payer_of_mem_operations hop).symm
        · rcases hrest.mp ⟨r, hr, hpayer⟩ with ⟨c', hc', hlines⟩
          exact ⟨c', List.mem_cons_of_mem c hc', hlines⟩
      · intro h
        rcases h with ⟨c', hc', hlines, hpayer⟩
        rcases List.mem_cons.mp hc' with hc' | hc'
        · rw [hc'] at hlines hpayer
          rcases exists_mem_operations c.payer c.bill number hlines with ⟨op, hop⟩
          refine ⟨(op, c.ik), List.mem_append_left _ (List.mem_map_of_mem hop), ?_⟩
          rw [<- hpayer]
          exact payer_of_mem_operations hop
        · rcases hrest.mpr ⟨c', hc', hlines, hpayer⟩ with ⟨r, hr, hr'⟩
          exact ⟨r, List.mem_append_right _ hr, hr'⟩

/-- Where the numbers of a list are consecutive, they are so for each key exactly if there
is one key. -/
theorem consecutive_per_key_iff {item key : Type} [DecidableEq key] (number : item -> Nat)
    (keyOf : item -> key) {l : List item} (h : l.map number = List.range l.length) :
    (forall k, (l.filter fun x => keyOf x = k).map number =
        List.range (l.filter fun x => keyOf x = k).length) <->
      forall x y, x ∈ l -> y ∈ l -> keyOf x = keyOf y := by
  constructor
  · intro hall
    have hinjective : forall x y, x ∈ l -> y ∈ l -> number x = number y -> x = y := by
      have hnodup : (l.map number).Nodup := by
        rw [h]
        exact List.nodup_range
      intro x y hx hy
      exact List.inj_on_of_nodup_map hnodup hx hy
    have hzero : forall x, x ∈ l -> exists z, z ∈ l ∧ number z = 0 ∧ keyOf z = keyOf x := by
      intro x hx
      have hmem : x ∈ l.filter fun z => keyOf z = keyOf x :=
        List.mem_filter.mpr ⟨hx, decide_eq_true rfl⟩
      have hfirst : 0 ∈ (l.filter fun z => keyOf z = keyOf x).map number := by
        rw [hall (keyOf x)]
        exact List.mem_range.mpr (List.length_pos_of_mem hmem)
      rcases List.mem_map.mp hfirst with ⟨z, hz, hnumber⟩
      rcases List.mem_filter.mp hz with ⟨hz, hkey⟩
      exact ⟨z, hz, hnumber, of_decide_eq_true hkey⟩
    intro x y hx hy
    rcases hzero x hx with ⟨z, hz, hnumber, hkey⟩
    rcases hzero y hy with ⟨z', hz', hnumber', hkey'⟩
    rw [<- hkey, <- hkey', hinjective z z' hz hz' (hnumber.trans hnumber'.symm)]
  · intro hone k
    by_cases hk : exists x, x ∈ l ∧ keyOf x = k
    · rcases hk with ⟨x, hx, hkey⟩
      rw [List.filter_eq_self.mpr]
      · exact h
      · intro y hy
        rw [hone y x hy hx]
        exact decide_eq_true hkey
    · rw [List.filter_eq_nil_iff.mpr]
      · rfl
      · intro x hx hkey
        exact hk ⟨x, hx, of_decide_eq_true hkey⟩

end Numbers

namespace History

variable {identityKey : Type} (h : History identityKey)

def numbered : List (BilledOperation × identityKey) :=
  numberedFrom 0 h.calls

theorem issuedTo_eq {usageReceipt : Type}
    (sign : BilledOperation -> identityKey -> usageReceipt) (payer : Bytes) :
    ReceiptLog.issuedTo sign payer h.calls =
      (h.numbered.filter fun r => r.1.payer = payer).map fun r => sign r.1 r.2 :=
  emitted_handedOut sign payer h.calls ReceiptLog.new

theorem length_numbered : h.numbered.length = linesOf h.calls := by
  have hsequence := congrArg List.length (sequence_numberedFrom h.calls 0)
  rw [List.length_map, List.length_map, List.length_range] at hsequence
  exact hsequence

theorem toNat_sequence_numbered :
    (h.numbered.map fun r => r.1.sequence.toNat) = List.range h.numbered.length := by
  have hsequence := congrArg (List.map UInt64.toNat) (sequence_numberedFrom h.calls 0)
  rw [List.map_map, List.map_map] at hsequence
  rw [length_numbered]
  refine hsequence.trans ((List.map_congr_left ?_).trans (List.map_id _))
  intro i hi
  have hlt : i < maxReceipts := Nat.lt_of_lt_of_le (List.mem_range.mp hi) h.held
  change (0 + UInt64.ofNat i).toNat = i
  rw [UInt64.zero_add]
  exact Nat.mod_eq_of_lt (Nat.lt_trans hlt (by decide))

theorem gapless_iff :
    h.Gapless <-> forall payer,
      ((h.numbered.filter fun r => r.1.payer = payer).map fun r => r.1.sequence.toNat) =
        List.range (h.numbered.filter fun r => r.1.payer = payer).length := by
  constructor
  · intro hgapless payer
    rcases hgapless payer with ⟨numbered, hissued, hrange⟩
    have hsame := (issuedTo_eq h Prod.mk payer).symm.trans (hissued _ Prod.mk)
    rw [List.map_id', List.map_id'] at hsame
    rw [hsame]
    exact hrange
  · intro hrange payer
    exact ⟨_, fun _ sign => issuedTo_eq h sign payer, hrange payer⟩

theorem onePayer_iff :
    h.OnePayer <-> forall r r', r ∈ h.numbered -> r' ∈ h.numbered -> r.1.payer = r'.1.payer := by
  constructor
  · intro hone r r' hr hr'
    rcases payer_numberedFrom.mp ⟨r, hr, rfl⟩ with ⟨c, hc, hlines, hpayer⟩
    rcases payer_numberedFrom.mp ⟨r', hr', rfl⟩ with ⟨c', hc', hlines', hpayer'⟩
    rw [<- hpayer, <- hpayer']
    exact hone c c' hc hc' hlines hlines'
  · intro hone c c' hc hc' hlines hlines'
    rcases payer_numberedFrom.mpr ⟨c, hc, hlines, rfl⟩ with ⟨r, hr, hpayer⟩
    rcases payer_numberedFrom.mpr ⟨c', hc', hlines', rfl⟩ with ⟨r', hr', hpayer'⟩
    rw [<- hpayer, <- hpayer']
    exact hone r r' hr hr'

/-- The numbers are gapless for every payer exactly if the log bills one payer only. -/
theorem gapless_iff_onePayer : h.Gapless <-> h.OnePayer := by
  rw [gapless_iff, onePayer_iff]
  exact consecutive_per_key_iff
    (fun r : BilledOperation × identityKey => r.1.sequence.toNat) (fun r => r.1.payer)
    h.toNat_sequence_numbered

def twoPayers : History Unit where
  calls :=
    [⟨[1], ⟨"USD", 5, [⟨ResourceKind.messages, 1, 0, 1, 5, 5⟩]⟩, ()⟩,
      ⟨[2], ⟨"USD", 5, [⟨ResourceKind.messages, 1, 0, 1, 5, 5⟩]⟩, ()⟩]
  held := by decide

theorem gapless_of_first_payer : Gapless (⟨twoPayers.calls.take 1, by decide⟩ : History Unit) := by
  apply (gapless_iff_onePayer _).mpr
  intro c c' hc hc' _ _
  rw [List.mem_singleton.mp hc, List.mem_singleton.mp hc']

/-- The first receipt of the second payer carries the number 1. -/
theorem not_gapless_twoPayers :
    (ReceiptLog.issuedTo (fun op _ => op.sequence) [2] twoPayers.calls = [1]) ∧
      Not twoPayers.Gapless := by
  have hissued : ReceiptLog.issuedTo (fun op _ => op.sequence) [2] twoPayers.calls = [1] := by
    decide
  refine ⟨hissued, ?_⟩
  intro hgapless
  rcases hgapless [2] with ⟨numbered, hsign, hrange⟩
  have hsequences := (hsign UInt64 fun op _ => op.sequence).symm.trans hissued
  have hlength := congrArg List.length hsequences
  rw [List.length_map] at hlength
  have hnumbers : (numbered.map fun r => r.1.sequence.toNat) = [1] := by
    have hmap := congrArg (List.map UInt64.toNat) hsequences
    rw [List.map_map] at hmap
    exact hmap
  rw [hnumbers, hlength] at hrange
  exact absurd hrange (by decide)

end History

end Billing
end Ephor
