import Ephor.Foundation.CanonicalCbor
import Ephor.Reachability.Auth

/-!
# Runs of the nonce registry

A nonce is live while it stands in the set of pending ones.  Which nonce makes room at
capacity follows from the order they were issued in, and a consumed nonce keeps its place
in that order.
-/

namespace Ephor
namespace Reachability
namespace Auth

open Foundation
open Transition

inductive NonceEvent where
  | issue (nonce : FixedBytes 32)
  | consume (nonce : FixedBytes 32)
deriving DecidableEq

/-- The registry, with what it issued and what it answered `true` for, in order. -/
structure NonceRun where
  registry : NonceState
  issued : List (FixedBytes 32)
  consumed : List (FixedBytes 32)

namespace NonceRun

def new : NonceRun where
  registry := ⟨∅, []⟩
  issued := []
  consumed := []

def step (s : NonceRun) : NonceEvent -> NonceRun
  | NonceEvent.issue nonce =>
      { s with
        registry := s.registry.issue nonce
        issued := s.issued ++ [nonce] }
  | NonceEvent.consume nonce =>
      { s with
        registry := (s.registry.consume nonce).2
        consumed := if (s.registry.consume nonce).1 then s.consumed ++ [nonce] else s.consumed }

/-- A full number of nonces issued after this one is outstanding together with it. -/
def Crowded (s : NonceRun) (nonce : FixedBytes 32) : Prop :=
  exists earlier later, s.issued = earlier ++ nonce :: later ∧ nonce ∉ s.consumed ∧
    maxPendingNonces <= (later.filter fun m => m ∉ s.consumed).length

structure Lawful (events : List NonceEvent) : Prop where
  once : (after step new events).consumed.Nodup
  issued : forall nonce, nonce ∈ (after step new events).consumed ->
    nonce ∈ (after step new events).issued
  refused : forall nonce, nonce ∈ (after step new events).issued ->
    nonce ∉ (after step new events).consumed ->
    ((after step new events).registry.consume nonce).1 = false ->
    exists before rest, events = before ++ rest ∧
      Crowded (after step new before) nonce

/-- A nonce that is pending makes room only where all in the order after it are pending. -/
def Fair (s : NonceRun) : NonceEvent -> Prop
  | NonceEvent.issue _ =>
      maxPendingNonces <= s.registry.order.length ->
      forall oldest, s.registry.order.head? = some oldest -> oldest ∈ s.registry.pending ->
      forall nonce, nonce ∈ s.registry.order -> nonce ∈ s.registry.pending
  | NonceEvent.consume _ => True

/-!
# What the order holds
-/

theorem evict_cases (r : NonceState) :
    (r.order.length < maxPendingNonces ∧ r.evict = r) ∨
      exists oldest order, r.order = oldest :: order ∧
        maxPendingNonces <= r.order.length ∧ r.evict = ⟨r.pending.erase oldest, order⟩ := by
  by_cases hfull : maxPendingNonces <= r.order.length
  · apply Or.inr
    cases horder : r.order with
    | nil =>
        rw [horder] at hfull
        cases hfull
    | cons oldest order =>
        refine ⟨oldest, order, rfl, ?_, ?_⟩
        · rw [<- horder]
          exact hfull
        · rw [NonceState.evict, if_pos hfull, horder]
  · apply Or.inl
    exact ⟨Nat.not_le.mp hfull, by rw [NonceState.evict, if_neg hfull]⟩

variable {nonce : FixedBytes 32} {s : NonceRun} {events : List NonceEvent} {n : Nat}

theorem oldest_of_lost {r : NonceState} {drawn : FixedBytes 32} (hlive : nonce ∈ r.pending)
    (hlost : nonce ∉ (r.issue drawn).pending) :
    exists order, r.order = nonce :: order ∧ maxPendingNonces <= r.order.length := by
  have hevicted : nonce ∉ r.evict.pending := fun hmem => hlost (Finset.mem_insert_of_mem hmem)
  rcases evict_cases r with ⟨_, hevict⟩ | ⟨oldest, order, horder, hfull, hevict⟩
  · rw [hevict] at hevicted
    exact absurd hlive hevicted
  · have holdest : nonce = oldest := by
      by_contra hother
      rw [hevict] at hevicted
      exact hevicted (Finset.mem_erase.mpr ⟨hother, hlive⟩)
    rw [holdest]
    exact ⟨order, horder, hfull⟩

theorem lost_of_oldest {r : NonceState} {oldest drawn : FixedBytes 32}
    {order : List (FixedBytes 32)} (horder : r.order = oldest :: order)
    (hfull : maxPendingNonces <= r.order.length) (hne : oldest ≠ drawn) :
    oldest ∉ (r.issue drawn).pending := by
  intro hlive
  rcases Finset.mem_insert.mp hlive with heq | hlive
  · exact hne heq
  · rw [NonceState.evict, if_pos hfull, horder] at hlive
    exact (Finset.mem_erase.mp hlive).1 rfl

/-- The order holds the nonces issued last, and the pending ones are those not consumed. -/
structure Tracked (s : NonceRun) : Prop where
  suffix : exists dropped, s.issued = dropped ++ s.registry.order
  length : s.registry.order.length = min maxPendingNonces s.issued.length
  pending : forall nonce, nonce ∈ s.registry.pending <->
    nonce ∈ s.registry.order ∧ nonce ∉ s.consumed
  issued : forall nonce, nonce ∈ s.consumed -> nonce ∈ s.issued
  once : s.consumed.Nodup

theorem tracked_new : Tracked new where
  suffix := ⟨[], rfl⟩
  length := rfl
  pending := by
    intro nonce
    constructor
    · intro h
      exact absurd h (Finset.notMem_empty nonce)
    · intro h
      exact absurd h.1 List.not_mem_nil
  issued := by
    intro nonce h
    exact absurd h List.not_mem_nil
  once := List.nodup_nil

theorem fresh_of_nodup {issued : List (FixedBytes 32)} (h : (issued ++ [nonce]).Nodup) :
    nonce ∉ issued := by
  intro hmem
  exact (List.nodup_append.mp h).2.2 nonce hmem nonce (List.mem_singleton_self nonce) rfl

theorem suffix_evict (h : Tracked s) :
    exists dropped, s.issued = dropped ++ s.registry.evict.order := by
  rcases h.suffix with ⟨dropped, hdropped⟩
  rcases evict_cases s.registry with ⟨_, hevict⟩ | ⟨oldest, order, horder, _, hevict⟩
  · rw [hevict]
    exact ⟨dropped, hdropped⟩
  · refine ⟨dropped ++ [oldest], ?_⟩
    rw [hevict, hdropped, horder, List.append_assoc]
    rfl

theorem length_evict (h : Tracked s) :
    s.registry.evict.order.length + 1 = min maxPendingNonces (s.issued.length + 1) := by
  have hlen := h.length
  rcases evict_cases s.registry with ⟨hroom, hevict⟩ | ⟨oldest, order, horder, hfull, hevict⟩
  · rw [hevict]
    omega
  · rw [horder, List.length_cons] at hlen hfull
    rw [hevict]
    dsimp only
    omega

theorem mem_pending_evict (h : Tracked s) (hnodup : s.issued.Nodup) (nonce : FixedBytes 32) :
    nonce ∈ s.registry.evict.pending <-> nonce ∈ s.registry.evict.order ∧ nonce ∉ s.consumed := by
  have hpending := h.pending nonce
  rcases evict_cases s.registry with ⟨_, hevict⟩ | ⟨oldest, order, horder, _, hevict⟩
  · rw [hevict]
    exact hpending
  · have hlast : oldest ∉ order := by
      rcases h.suffix with ⟨dropped, hdropped⟩
      rw [hdropped, horder] at hnodup
      exact (List.nodup_cons.mp (List.nodup_append.mp hnodup).2.1).1
    rw [horder, List.mem_cons] at hpending
    rw [hevict, Finset.mem_erase, hpending]
    constructor
    · intro hm
      rcases hm with ⟨hne, hm | hm, hnot⟩
      · exact absurd hm hne
      · exact ⟨hm, hnot⟩
    · intro hm
      refine ⟨?_, Or.inr hm.1, hm.2⟩
      intro heq
      rw [heq] at hm
      exact hlast hm.1

theorem tracked_issue (h : Tracked s) (hnodup : (s.issued ++ [nonce]).Nodup) :
    Tracked (s.step (NonceEvent.issue nonce)) where
  suffix := by
    rcases suffix_evict h with ⟨dropped, hdropped⟩
    refine ⟨dropped, ?_⟩
    change s.issued ++ [nonce] = dropped ++ (s.registry.evict.order ++ [nonce])
    rw [hdropped, List.append_assoc]
  length := by
    change (s.registry.evict.order ++ [nonce]).length = min _ (s.issued ++ [nonce]).length
    rw [List.length_append, List.length_append]
    exact length_evict h
  pending := by
    intro m
    have hevict := mem_pending_evict h (List.nodup_append.mp hnodup).1 m
    change m ∈ insert nonce s.registry.evict.pending <->
      m ∈ s.registry.evict.order ++ [nonce] ∧ m ∉ s.consumed
    rw [Finset.mem_insert, List.mem_append, List.mem_singleton, hevict]
    constructor
    · intro hm
      rcases hm with hm | ⟨hm, hnot⟩
      · refine ⟨Or.inr hm, ?_⟩
        rw [hm]
        exact fun hmem => fresh_of_nodup hnodup (h.issued nonce hmem)
      · exact ⟨Or.inl hm, hnot⟩
    · intro hm
      rcases hm with ⟨hm | hm, hnot⟩
      · exact Or.inr ⟨hm, hnot⟩
      · exact Or.inl hm
  issued := fun m hmem => List.mem_append_left _ (h.issued m hmem)
  once := h.once

theorem step_consume_live (h : nonce ∈ s.registry.pending) :
    s.step (NonceEvent.consume nonce) =
      { registry := ⟨s.registry.pending.erase nonce, s.registry.order⟩
        issued := s.issued
        consumed := s.consumed ++ [nonce] } := by
  simp [step, NonceState.consume, h]

theorem step_consume_refused (h : nonce ∉ s.registry.pending) :
    s.step (NonceEvent.consume nonce) = s := by
  simp [step, NonceState.consume, h]

theorem tracked_consume (h : Tracked s) (nonce : FixedBytes 32) :
    Tracked (s.step (NonceEvent.consume nonce)) := by
  by_cases hlive : nonce ∈ s.registry.pending
  · rw [step_consume_live hlive]
    rcases (h.pending nonce).mp hlive with ⟨horder, hunconsumed⟩
    rcases h.suffix with ⟨dropped, hdropped⟩
    refine ⟨⟨dropped, hdropped⟩, h.length, ?_, ?_, ?_⟩
    · intro m
      dsimp only
      rw [Finset.mem_erase, h.pending m, List.mem_append, List.mem_singleton, not_or]
      constructor
      · intro hm
        exact ⟨hm.2.1, hm.2.2, hm.1⟩
      · intro hm
        exact ⟨hm.2.2, hm.1, hm.2.1⟩
    · intro m hm
      rcases List.mem_append.mp hm with hm | hm
      · exact h.issued m hm
      · rw [List.mem_singleton.mp hm]
        change nonce ∈ s.issued
        rw [hdropped]
        exact List.mem_append_right dropped horder
    · apply List.nodup_append.mpr
      refine ⟨h.once, List.nodup_singleton nonce, ?_⟩
      intro m hm m' hm' heq
      rw [List.mem_singleton.mp hm'] at heq
      rw [heq] at hm
      exact hunconsumed hm
  · rw [step_consume_refused hlive]
    exact h

theorem step_issued (s : NonceRun) (e : NonceEvent) :
    exists more, (s.step e).issued = s.issued ++ more := by
  cases e with
  | issue nonce => exact ⟨[nonce], rfl⟩
  | consume nonce => exact ⟨[], (List.append_nil s.issued).symm⟩

theorem tracked_step (h : Tracked s) {e : NonceEvent} (hnodup : (s.step e).issued.Nodup) :
    Tracked (s.step e) := by
  cases e with
  | issue nonce => exact tracked_issue h hnodup
  | consume nonce => exact tracked_consume h nonce

theorem issued_after_append (s : NonceRun) (events more : List NonceEvent) :
    exists later, (after step s (events ++ more)).issued =
      (after step s events).issued ++ later := by
  rw [after_append]
  generalize after step s events = t
  induction more generalizing t with
  | nil => exact ⟨[], (List.append_nil t.issued).symm⟩
  | cons e more ih =>
      rcases ih (t.step e) with ⟨later, hlater⟩
      rcases step_issued t e with ⟨first, hfirst⟩
      refine ⟨first ++ later, ?_⟩
      rw [<- List.append_assoc, <- hfirst]
      exact hlater

theorem nodup_of_append {more : List NonceEvent}
    (h : (after step new (events ++ more)).issued.Nodup) :
    (after step new events).issued.Nodup := by
  rcases issued_after_append new events more with ⟨later, hlater⟩
  rw [hlater] at h
  exact (List.nodup_append.mp h).1

theorem after_snoc (events : List NonceEvent) (e : NonceEvent) :
    after step new (events ++ [e]) =
      (after step new events).step e := after_append step new events [e]

theorem tracked_after (h : (after step new events).issued.Nodup) :
    Tracked (after step new events) := by
  induction events using List.reverseRecOn with
  | nil => exact tracked_new
  | append_singleton events e ih =>
      rw [after_snoc] at h ⊢
      have hbefore : (after step new events).issued.Nodup := by
        rw [<- after_snoc] at h
        exact nodup_of_append h
      exact tracked_step (ih hbefore) h

/-!
# What is promised, and what is kept
-/

theorem consume_eq_false {r : NonceState} : (r.consume nonce).1 = false <-> nonce ∉ r.pending := by
  simp [NonceState.consume]

theorem crowded_of_evicted (h : Tracked s) {oldest : FixedBytes 32}
    {order : List (FixedBytes 32)} (hnodup : (s.issued ++ [nonce]).Nodup)
    (hfair : Fair s (NonceEvent.issue nonce)) (horder : s.registry.order = oldest :: order)
    (hfull : maxPendingNonces <= s.registry.order.length) (hpending : oldest ∈ s.registry.pending) :
    Crowded (s.step (NonceEvent.issue nonce)) oldest := by
  have hall : forall m, m ∈ s.registry.order -> m ∉ s.consumed := by
    intro m hm
    have hlive := hfair hfull oldest (by rw [horder]; rfl) hpending m hm
    exact ((h.pending m).mp hlive).2
  have hfresh : nonce ∉ s.consumed :=
    fun hmem => fresh_of_nodup hnodup (h.issued nonce hmem)
  rcases h.suffix with ⟨dropped, hdropped⟩
  refine ⟨dropped, order ++ [nonce], ?_, ((h.pending oldest).mp hpending).2, ?_⟩
  · change s.issued ++ [nonce] = _
    rw [hdropped, horder, List.append_assoc]
    rfl
  · have hkeep : (order ++ [nonce]).filter (fun m => m ∉ s.consumed) = order ++ [nonce] := by
      apply List.filter_eq_self.mpr
      intro m hm
      apply decide_eq_true
      rcases List.mem_append.mp hm with hm | hm
      · apply hall
        rw [horder]
        exact List.mem_cons_of_mem oldest hm
      · rw [List.mem_singleton.mp hm]
        exact hfresh
    change maxPendingNonces <= ((order ++ [nonce]).filter fun m => m ∉ s.consumed).length
    rw [hkeep, List.length_append, List.length_singleton]
    rw [horder, List.length_cons] at hfull
    exact hfull

theorem refused_of_fair (hnodup : (after step new events).issued.Nodup)
    (hfair : Transition.StepsMeet step Fair new events)
    (hissued : nonce ∈ (after step new events).issued)
    (hunconsumed : nonce ∉ (after step new events).consumed)
    (hdead : nonce ∉ (after step new events).registry.pending) :
    exists before rest, events = before ++ rest ∧ Crowded (after step new before) nonce := by
  induction events using List.reverseRecOn with
  | nil => exact absurd hissued List.not_mem_nil
  | append_singleton events e ih =>
      have hbefore := nodup_of_append hnodup
      have htracked := tracked_after hbefore
      rcases stepsMeet_of_append hfair with ⟨hfairs, hguard, _⟩
      have hold : nonce ∈ (after step new events).issued ->
          nonce ∉ (after step new events).consumed ->
          nonce ∉ (after step new events).registry.pending ->
          exists before rest, events ++ [e] = before ++ rest ∧
            Crowded (after step new before) nonce := by
        intro hissued hunconsumed hdead
        rcases ih hbefore hfairs hissued hunconsumed hdead with ⟨before, rest, heq, hcrowded⟩
        refine ⟨before, rest ++ [e], ?_, hcrowded⟩
        rw [heq, List.append_assoc]
      rw [after_snoc] at hnodup hissued hunconsumed hdead
      cases e with
      | issue drawn =>
          have hne : nonce ≠ drawn := by
            intro heq
            apply hdead
            rw [heq]
            exact Finset.mem_insert_self drawn _
          have hissued' : nonce ∈ (after step new events).issued := by
            rcases List.mem_append.mp hissued with hmem | hmem
            · exact hmem
            · exact absurd (List.mem_singleton.mp hmem) hne
          by_cases hlive : nonce ∈ (after step new events).registry.pending
          · rcases oldest_of_lost hlive hdead with ⟨order, horder, hfull⟩
            refine ⟨events ++ [NonceEvent.issue drawn], [], (List.append_nil _).symm, ?_⟩
            rw [after_snoc]
            exact crowded_of_evicted htracked hnodup hguard horder hfull hlive
          · exact hold hissued' hunconsumed hlive
      | consume m =>
          by_cases hlive : m ∈ (after step new events).registry.pending
          · rw [step_consume_live hlive] at hissued hunconsumed hdead
            have hne : nonce ≠ m := by
              intro heq
              apply hunconsumed
              rw [heq]
              exact List.mem_append_right _ (List.mem_singleton_self m)
            apply hold hissued
            · exact fun hmem => hunconsumed (List.mem_append_left _ hmem)
            · exact fun hmem => hdead (Finset.mem_erase.mpr ⟨hne, hmem⟩)
          · rw [step_consume_refused hlive] at hissued hunconsumed hdead
            exact hold hissued hunconsumed hdead

theorem lawful_of_fair (hnodup : (after step new events).issued.Nodup)
    (hfair : Transition.StepsMeet step Fair new events) : Lawful events where
  once := (tracked_after hnodup).once
  issued := (tracked_after hnodup).issued
  refused := by
    intro nonce hissued hunconsumed hrefused
    exact refused_of_fair hnodup hfair hissued hunconsumed (consume_eq_false.mp hrefused)

theorem split_unique {α : Type} {a b c d : List α} {x : α} (hnodup : (a ++ x :: b).Nodup)
    (h : a ++ x :: b = c ++ x :: d) : a = c ∧ b = d := by
  rcases List.nodup_append.mp hnodup with ⟨_, htail, hdisjoint⟩
  have hfirst : x ∉ a := fun hmem => hdisjoint x hmem x List.mem_cons_self rfl
  have hlast : x ∉ b := (List.nodup_cons.mp htail).1
  rcases (List.append_cons_inj_of_notMem hfirst hlast).mp h with ⟨hac, _, hbd⟩
  exact ⟨hac, hbd⟩

theorem not_crowded_of_unfair {drawn oldest m : FixedBytes 32} {order : List (FixedBytes 32)}
    (hnodup : (after step new (events ++ [NonceEvent.issue drawn])).issued.Nodup)
    (horder : (after step new events).registry.order = oldest :: order)
    (hm : m ∈ order) (hdead : m ∈ (after step new events).consumed) {before rest : List NonceEvent}
    (hbefore : events ++ [NonceEvent.issue drawn] = before ++ rest) :
    Not (Crowded (after step new before) oldest) := by
  intro hcrowded
  rcases hcrowded with ⟨earlier, later, hsplit, _, hmany⟩
  have htracked := tracked_after (nodup_of_append hnodup)
  rcases htracked.suffix with ⟨dropped, hdropped⟩
  have hfull := htracked.length
  rw [horder, List.length_cons] at hfull
  have hend : (after step new (events ++ [NonceEvent.issue drawn])).issued =
      dropped ++ oldest :: (order ++ [drawn]) := by
    rw [after_snoc]
    change (after step new events).issued ++ [drawn] = _
    rw [hdropped, horder, List.append_assoc]
    rfl
  rcases List.eq_nil_or_concat rest with hnil | ⟨rest', e, hrest⟩
  · rw [hnil, List.append_nil] at hbefore
    rw [<- hbefore] at hsplit hmany
    have hsame := (split_unique (hend ▸ hnodup) (hend.symm.trans hsplit)).2
    have hconsumed : (after step new
        (events ++ [NonceEvent.issue drawn])).consumed =
        (after step new events).consumed := by
      rw [after_snoc]
      rfl
    have hfewer : (later.filter fun m => m ∉ (after step new
        (events ++ [NonceEvent.issue drawn])).consumed).length < later.length := by
      apply List.length_filter_lt_length_iff_exists.mpr
      refine ⟨m, ?_, ?_⟩
      · rw [<- hsame]
        exact List.mem_append_left _ hm
      · rw [hconsumed]
        simp [hdead]
    rw [<- hsame, List.length_append, List.length_singleton] at hfewer
    rw [<- hsame] at hmany
    omega
  · have hprefix : events = before ++ rest' := by
      rw [hrest, List.concat_eq_append, <- List.append_assoc] at hbefore
      exact (List.append_inj' hbefore rfl).1
    rcases issued_after_append new before rest' with ⟨more, hmore⟩
    rw [<- hprefix, hsplit, hdropped, horder, List.append_assoc, List.cons_append] at hmore
    have hbeforeNodup := nodup_of_append hnodup
    rw [hdropped, horder] at hbeforeNodup
    have hsame := (split_unique hbeforeNodup hmore).2
    have hshort := List.length_filter_le
      (fun m => decide (m ∉ (after step new before).consumed)) later
    rw [hsame, List.length_append] at hfull
    omega

theorem fair_of_lawful {e : NonceEvent}
    (hnodup : (after step new (events ++ [e])).issued.Nodup)
    (hlawful : Lawful (events ++ [e])) : Fair (after step new events) e := by
  cases e with
  | consume nonce => trivial
  | issue drawn =>
      intro hfull oldest hhead hpending m hm
      by_contra hdead
      have htracked := tracked_after (nodup_of_append hnodup)
      rcases List.head?_eq_some_iff.mp hhead with ⟨order, horder⟩
      rcases (htracked.pending oldest).mp hpending with ⟨hmem, hunconsumed⟩
      have hconsumed : m ∈ (after step new events).consumed := by
        by_contra hnot
        exact hdead ((htracked.pending m).mpr ⟨hm, hnot⟩)
      have hlater : m ∈ order := by
        rw [horder] at hm
        rcases List.mem_cons.mp hm with heq | hlater
        · rw [heq] at hconsumed
          exact absurd hconsumed hunconsumed
        · exact hlater
      have hissued : oldest ∈ (after step new events).issued := by
        rcases htracked.suffix with ⟨dropped, hdropped⟩
        rw [hdropped]
        exact List.mem_append_right dropped hmem
      have hstep := after_snoc events (NonceEvent.issue drawn)
      have hne : oldest ≠ drawn := by
        intro heq
        rw [hstep] at hnodup
        rw [heq] at hissued
        exact fresh_of_nodup hnodup hissued
      have hgone : oldest ∉ (after step new
          (events ++ [NonceEvent.issue drawn])).registry.pending := by
        rw [hstep]
        exact lost_of_oldest horder hfull hne
      have hissued' : oldest ∈ (after step new
          (events ++ [NonceEvent.issue drawn])).issued := by
        rw [hstep]
        exact List.mem_append_left _ hissued
      have hunconsumed' : oldest ∉ (after step new
          (events ++ [NonceEvent.issue drawn])).consumed := by
        rw [hstep]
        exact hunconsumed
      rcases hlawful.refused oldest hissued' hunconsumed' (consume_eq_false.mpr hgone) with
        ⟨before, rest, hbefore, hcrowded⟩
      exact not_crowded_of_unfair hnodup horder hlater hconsumed hbefore hcrowded

/--
What is promised holds after every part of a run just when no step of it makes room with a
nonce that is pending while one issued after it has been consumed.
-/
theorem lawful_iff (events : List NonceEvent)
    (hdistinct : (after step new events).issued.Nodup) :
    (forall before rest, events = before ++ rest -> Lawful before) <->
      Transition.StepsMeet step Fair new events := by
  constructor
  · intro hlawful
    induction events using List.reverseRecOn with
    | nil => trivial
    | append_singleton events e ih =>
        have hbefore : Transition.StepsMeet step Fair new events := by
          apply ih (nodup_of_append hdistinct)
          intro before rest heq
          apply hlawful before (rest ++ [e])
          rw [heq, List.append_assoc]
        apply stepsMeet_append hbefore
        exact ⟨fair_of_lawful hdistinct (hlawful _ [] (List.append_nil _).symm), trivial⟩
  · intro hfair before rest heq
    rw [heq] at hfair hdistinct
    exact lawful_of_fair (nodup_of_append hdistinct) (stepsMeet_of_append hfair).1

/-!
A box stalls while another one completes its handshake at once: as many nonces later as the
registry holds, the first is refused, though only all but one of them were ever
outstanding.
-/

def nonceOf (i : Nat) : FixedBytes 32 where
  toBytes := CanonicalCbor.bigEndian 32 i
  length_eq := CanonicalCbor.length_bigEndian 32 i

theorem nonceOf_inj {i j : Nat} (hi : i < 256 ^ 32) (hj : j < 256 ^ 32)
    (h : nonceOf i = nonceOf j) : i = j := by
  have hbytes : (nonceOf i).toBytes = (nonceOf j).toBytes := by rw [h]
  change CanonicalCbor.bigEndian 32 i = CanonicalCbor.bigEndian 32 j at hbytes
  have hvalue := @CanonicalCbor.ofBigEndian_bigEndian 32 i hi
  rw [hbytes, @CanonicalCbor.ofBigEndian_bigEndian 32 j hj] at hvalue
  exact hvalue.symm

theorem one_handshake_is_lawful :
    Lawful [NonceEvent.issue (nonceOf 0), NonceEvent.consume (nonceOf 0)] :=
  (lawful_iff [NonceEvent.issue (nonceOf 0), NonceEvent.consume (nonceOf 0)]
    (List.nodup_singleton (nonceOf 0))).mpr ⟨fun hfull => absurd hfull (by decide), trivial, trivial⟩
    _ [] (List.append_nil _).symm

/-- The first nonce waits, the second is consumed, and others are issued up to `n`. -/
def overtaken (n : Nat) : List NonceEvent :=
  [NonceEvent.issue (nonceOf 0), NonceEvent.issue (nonceOf 1),
      NonceEvent.consume (nonceOf 1)] ++
    ((List.range n).drop 2).map fun i => NonceEvent.issue (nonceOf i)

theorem after_issues (s : NonceRun) (l : List Nat) :
    (after step s (l.map fun i => NonceEvent.issue (nonceOf i))).issued =
        s.issued ++ l.map nonceOf ∧
      (after step s (l.map fun i => NonceEvent.issue (nonceOf i))).consumed =
        s.consumed := by
  induction l generalizing s with
  | nil => exact ⟨(List.append_nil s.issued).symm, rfl⟩
  | cons i l ih =>
      rcases ih (s.step (NonceEvent.issue (nonceOf i))) with ⟨hissued, hconsumed⟩
      constructor
      · refine hissued.trans ?_
        change (s.issued ++ [nonceOf i]) ++ l.map nonceOf = _
        rw [List.append_assoc]
        rfl
      · exact hconsumed

theorem after_overtaken (hn : 2 <= n) :
    (after step new (overtaken n)).issued = (List.range n).map nonceOf ∧
      (after step new (overtaken n)).consumed = [nonceOf 1] := by
  have hstart : (after step new [NonceEvent.issue (nonceOf 0),
      NonceEvent.issue (nonceOf 1), NonceEvent.consume (nonceOf 1)]).issued =
        ((List.range n).take 2).map nonceOf ∧
      (after step new [NonceEvent.issue (nonceOf 0),
        NonceEvent.issue (nonceOf 1), NonceEvent.consume (nonceOf 1)]).consumed =
          [nonceOf 1] := by
    rw [List.take_range, Nat.min_eq_left hn]
    decide +kernel
  rw [overtaken, after_append]
  rcases after_issues (after step new [NonceEvent.issue (nonceOf 0),
    NonceEvent.issue (nonceOf 1), NonceEvent.consume (nonceOf 1)])
    ((List.range n).drop 2) with ⟨hissued, hconsumed⟩
  constructor
  · rw [hissued, hstart.1, <- List.map_append, List.take_append_drop]
  · rw [hconsumed, hstart.2]

theorem overtaken_succ (hn : 2 <= n) :
    overtaken (n + 1) = overtaken n ++ [NonceEvent.issue (nonceOf n)] := by
  have hdrop : (List.range (n + 1)).drop 2 = (List.range n).drop 2 ++ [n] := by
    rw [List.range_succ, List.drop_append_of_le_length]
    rw [List.length_range]
    exact hn
  rw [overtaken, hdrop, List.map_append, <- List.append_assoc]
  rfl

theorem nodup_overtaken (hn : 2 <= n) (hmax : n <= 256 ^ 32) :
    (after step new (overtaken n)).issued.Nodup := by
  rw [(after_overtaken hn).1]
  apply (List.nodup_map_iff_inj_on List.nodup_range).mpr
  intro i hi j hj h
  exact nonceOf_inj (Nat.lt_of_lt_of_le (List.mem_range.mp hi) hmax)
    (Nat.lt_of_lt_of_le (List.mem_range.mp hj) hmax) h

theorem not_lawful_overtaken (htwo : 2 <= n) (hn : n = maxPendingNonces)
    (hsize : n + 1 <= 256 ^ 32) : Not (Lawful (overtaken (n + 1))) := by
  intro hlawful
  have hnodup := nodup_overtaken (Nat.le_succ_of_le htwo) hsize
  rw [overtaken_succ htwo] at hlawful hnodup
  have hfair := fair_of_lawful hnodup hlawful
  have htracked := tracked_after (nodup_of_append hnodup)
  rcases after_overtaken htwo with ⟨hissued, hconsumed⟩
  have hlength := htracked.length
  rcases htracked.suffix with ⟨dropped, hdropped⟩
  rw [hissued, List.length_map, List.length_range, <- hn, Nat.min_self] at hlength
  have hnone : dropped = [] := by
    have hsum := congrArg List.length hdropped
    rw [hissued, List.length_map, List.length_range, List.length_append, hlength] at hsum
    exact List.eq_nil_of_length_eq_zero (by omega)
  rw [hnone, List.nil_append, hissued] at hdropped
  have hmem : forall i, i < n ->
      nonceOf i ∈ (after step new (overtaken n)).registry.order := by
    intro i hi
    rw [<- hdropped]
    exact List.mem_map_of_mem (List.mem_range.mpr hi)
  have hhead : (after step new
      (overtaken n)).registry.order.head? = some (nonceOf 0) := by
    rw [<- hdropped, List.head?_map, List.head?_range, if_neg (by omega)]
    rfl
  have hne : nonceOf 0 ≠ nonceOf 1 := by decide +kernel
  have hpending : nonceOf 0 ∈ (after step new
      (overtaken n)).registry.pending := by
    apply (htracked.pending _).mpr
    refine ⟨hmem 0 (by omega), ?_⟩
    rw [hconsumed, List.mem_singleton]
    exact hne
  have hlive := hfair (Nat.le_of_eq (hlength.trans hn).symm) (nonceOf 0) hhead hpending (nonceOf 1)
    (hmem 1 (by omega))
  apply ((htracked.pending _).mp hlive).2
  rw [hconsumed]
  exact List.mem_singleton_self _

/-- A completed handshake makes the registry forget a pending nonce too early. -/
theorem overtaken_nonce_is_refused :
    (after step new (overtaken (maxPendingNonces + 1))).issued.Nodup ∧
      nonceOf 0 ∈ (after step new (overtaken (maxPendingNonces + 1))).issued ∧
      (after step new (overtaken (maxPendingNonces + 1))).consumed = [nonceOf 1] ∧
      Not (Lawful (overtaken (maxPendingNonces + 1))) := by
  have htwo : 2 <= maxPendingNonces := by decide
  have hsize : maxPendingNonces + 1 <= 256 ^ 32 := by decide +kernel
  rcases after_overtaken (Nat.le_succ_of_le htwo) with ⟨hissued, hconsumed⟩
  refine ⟨nodup_overtaken (Nat.le_succ_of_le htwo) hsize, ?_, hconsumed,
    not_lawful_overtaken htwo rfl hsize⟩
  rw [hissued]
  exact List.mem_map_of_mem (List.mem_range.mpr (Nat.succ_pos _))

end NonceRun

end Auth
end Reachability
end Ephor
