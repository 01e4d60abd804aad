import Mathlib.Data.List.Basic

/-!
# Sliding windows

A limiter keeps the times of the hits that it took and drops the old ones when it is asked
again.  While the clock does not go back, it has every hit of its last window, so that no window
holds more hits than the limit.  Both ends of a window belong to it.
-/

namespace Ephor
namespace Foundation
namespace SlidingWindow

def recent (window now : Nat) (hits : List Nat) : List Nat :=
  hits.filter fun t => decide (now - window <= t)

def within (window start : Nat) (hits : List Nat) : List Nat :=
  hits.filter fun t => decide (start <= t) && decide (t <= start + window)

/-- What a limiter has kept of the hits that it took, up to a time. -/
structure Tracks (window limit latest : Nat) (taken kept : List Nat) : Prop where
  past : forall t, t ∈ taken -> t <= latest
  subset : kept ⊆ taken
  complete : forall start, latest <= start + window ->
    kept.filter (fun t => decide (start <= t)) = taken.filter (fun t => decide (start <= t))
  sorted : kept.Pairwise (· <= ·)
  bounded : kept.length <= limit
  capped : forall start, (within window start taken).length <= limit

variable {window limit latest now : Nat} {taken kept : List Nat}

theorem Tracks.start (window limit : Nat) : Tracks window limit 0 [] [] where
  past _ h := absurd h List.not_mem_nil
  subset := List.Subset.refl []
  complete _ _ := rfl
  sorted := List.Pairwise.nil
  bounded := Nat.zero_le limit
  capped _ := Nat.zero_le limit

theorem Tracks.wait (h : Tracks window limit latest taken kept) (hnow : latest <= now) :
    Tracks window limit now taken kept where
  past t ht := Nat.le_trans (h.past t ht) hnow
  subset := h.subset
  complete start hstart := h.complete start (Nat.le_trans hnow hstart)
  sorted := h.sorted
  bounded := h.bounded
  capped := h.capped

theorem length_recent_le (window now : Nat) (hits : List Nat) :
    (recent window now hits).length <= hits.length :=
  List.length_filter_le _ hits

theorem length_recent_lt_iff {window now : Nat} {hits : List Nat} (h : hits.Pairwise (· <= ·)) :
    (recent window now hits).length < hits.length <->
      exists oldest, hits.head? = some oldest ∧ oldest + window < now := by
  rw [recent, List.length_filter_lt_length_iff_exists]
  constructor
  · intro hdropped
    rcases hdropped with ⟨t, ht, hold⟩
    have hold := mt decide_eq_true hold
    cases hits with
    | nil => cases ht
    | cons oldest hits =>
        have hle : oldest <= t := by
          rcases List.mem_cons.mp ht with ht | ht
          · exact Nat.le_of_eq ht.symm
          · exact List.rel_of_pairwise_cons h ht
        exact ⟨oldest, rfl, by omega⟩
  · intro hdropped
    rcases hdropped with ⟨oldest, holdest, hold⟩
    refine ⟨oldest, List.mem_of_mem_head? holdest, ?_⟩
    rw [decide_eq_true_eq]
    omega

theorem Tracks.drop (h : Tracks window limit latest taken kept) (hnow : latest <= now) :
    Tracks window limit now taken (recent window now kept) where
  past t ht := Nat.le_trans (h.past t ht) hnow
  subset := List.Subset.trans (List.filter_subset_self kept) h.subset
  complete start hstart := by
    have hkept := h.complete start (Nat.le_trans hnow hstart)
    rw [<- hkept, recent, List.filter_filter]
    apply List.filter_congr
    intro t _
    apply Bool.eq_iff_iff.mpr
    rw [Bool.and_eq_true, decide_eq_true_iff, decide_eq_true_iff]
    omega
  sorted := h.sorted.filter _
  bounded := Nat.le_trans (length_recent_le window now kept) h.bounded
  capped := h.capped

theorem Tracks.length_within_le (h : Tracks window limit latest taken kept) {start : Nat}
    (hstart : latest <= start + window) : (within window start taken).length <= kept.length := by
  have hle : (within window start taken).length <=
      (taken.filter fun t => decide (start <= t)).length := by
    rw [within, <- List.countP_eq_length_filter, <- List.countP_eq_length_filter]
    apply List.countP_mono_left
    intro t _ ht
    exact (Bool.and_eq_true_iff.mp ht).1
  rw [<- h.complete start hstart] at hle
  exact Nat.le_trans hle (List.length_filter_le _ kept)

theorem Tracks.hit (h : Tracks window limit now taken kept) (hroom : kept.length < limit) :
    Tracks window limit now (taken ++ [now]) (kept ++ [now]) where
  past := by
    intro t ht
    rcases List.mem_append.mp ht with ht | ht
    · exact h.past t ht
    · exact Nat.le_of_eq (List.mem_singleton.mp ht)
  subset := List.append_subset.mpr ⟨List.Subset.trans h.subset (List.subset_append_left _ _),
    List.subset_append_right _ _⟩
  complete start hstart := by
    rw [List.filter_append, List.filter_append, h.complete start hstart]
  sorted := by
    apply List.pairwise_append.mpr
    refine ⟨h.sorted, List.pairwise_singleton _ _, ?_⟩
    intro t ht other hother
    rw [List.mem_singleton.mp hother]
    exact h.past t (h.subset ht)
  bounded := by
    rw [List.length_append, List.length_singleton]
    exact hroom
  capped start := by
    rw [within, List.filter_append, List.length_append]
    by_cases hin : start <= now ∧ now <= start + window
    · have hfew := h.length_within_le hin.2
      have hone : ([now].filter fun t => decide (start <= t) && decide (t <= start + window)).length
          <= 1 := List.length_filter_le _ _
      rw [within] at hfew
      omega
    · have hnone : ([now].filter fun t => decide (start <= t) && decide (t <= start + window)) =
          [] := by
        apply List.filter_eq_nil_iff.mpr
        intro t ht
        rw [List.mem_singleton.mp ht, Bool.and_eq_true, decide_eq_true_iff, decide_eq_true_iff]
        exact hin
      rw [hnone]
      exact h.capped start

theorem Tracks.length_recent (h : Tracks window limit latest taken kept) (hnow : latest <= now) :
    (recent window now kept).length = taken.countP fun t => decide (now - window <= t) := by
  rw [recent, h.complete (now - window) (by omega), <- List.countP_eq_length_filter]

/-!
# Two limiters
-/

/-- By no time has the slow limiter taken more hits than the fast one. -/
def Behind (slow fast : List Nat) : Prop :=
  forall bound, slow.countP (fun t => decide (t <= bound)) <=
    fast.countP fun t => decide (t <= bound)

section Behind

variable {slow fast : List Nat}

theorem Behind.refl (hits : List Nat) : Behind hits hits :=
  fun _ => Nat.le_refl _

theorem Behind.hit_both (h : Behind slow fast) (now : Nat) :
    Behind (slow ++ [now]) (fast ++ [now]) := by
  intro bound
  rw [List.countP_append, List.countP_append]
  exact Nat.add_le_add_right (h bound) _

theorem Behind.hit_fast (h : Behind slow fast) (now : Nat) : Behind slow (fast ++ [now]) := by
  intro bound
  rw [List.countP_append]
  exact Nat.le_trans (h bound) (Nat.le_add_right _ _)

theorem length_eq_before_add_from (start : Nat) (hits : List Nat) :
    hits.length = hits.countP (fun t => decide (t < start)) +
      hits.countP fun t => decide (start <= t) := by
  rw [List.length_eq_countP_add_countP fun t => decide (t < start)]
  congr 1
  apply List.countP_congr
  intro t _
  rw [decide_eq_true_eq, decide_eq_true_eq, decide_eq_true_eq, Nat.not_lt]

theorem Behind.hit_slow (h : Behind slow fast) {start now : Nat}
    (hpast : forall t, t ∈ fast -> t <= now)
    (hroom : slow.countP (fun t => decide (start <= t)) <
      fast.countP fun t => decide (start <= t)) : Behind (slow ++ [now]) fast := by
  have hbefore : slow.countP (fun t => decide (t < start)) <=
      fast.countP fun t => decide (t < start) := by
    cases start with
    | zero =>
        rw [List.countP_eq_zero.mpr (fun t _ => by simp)]
        exact Nat.zero_le _
    | succ bound =>
        have hbound := h bound
        simp only [Nat.lt_succ_iff]
        exact hbound
  have hlength : slow.length < fast.length := by
    rw [length_eq_before_add_from start slow, length_eq_before_add_from start fast]
    exact Nat.add_lt_add_of_le_of_lt hbefore hroom
  intro bound
  rw [List.countP_append]
  by_cases hbound : now <= bound
  · have hall : fast.countP (fun t => decide (t <= bound)) = fast.length := by
      apply List.countP_eq_length.mpr
      intro t ht
      exact decide_eq_true (Nat.le_trans (hpast t ht) hbound)
    rw [hall]
    exact Nat.le_trans (Nat.add_le_add List.countP_le_length List.countP_le_length) hlength
  · have hnone : [now].countP (fun t => decide (t <= bound)) = 0 := by
      apply List.countP_eq_zero.mpr
      intro t ht
      rw [List.mem_singleton.mp ht, decide_eq_true_eq]
      exact hbound
    rw [hnone]
    exact h bound

end Behind

end SlidingWindow
end Foundation
end Ephor
