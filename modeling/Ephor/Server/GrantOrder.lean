import Ephor.Server.TokenGrants

/-!
# Grants in any order

The invariant of the loop that builds the store: each token points at the entry of its grant,
two grants point at one entry exactly when they are merged, and an entry holds what its grants
list.  So a pass fails on a conflict with a grant seen before, whatever came in between.
-/

namespace Ephor
namespace Server
namespace StaticTokens

open Foundation
open GoText

variable {L : Library} {grants done rest : List Grant} {g g' : Grant} {t : Bytes}

/-!
## What an entry holds
-/

/-- The entry holds the names of the grants, and the account and the expiry that one of them
has. -/
structure Collects (L : Library) (among : Grant -> Prop) (e : GrantEntry) : Prop where
  names : forall norm, norm ∈ e.names <-> exists g, among g ∧ norm ∈ g.normNames L
  account : forall g, among g -> g.account = [] ∨ g.account = e.account
  accountOf : e.account ≠ [] -> exists g, among g ∧ g.account = e.account
  expiry : forall g, among g -> g.expiresAt = 0 ∨ g.expiresAt = e.expiresAt
  expiryOf : e.expiresAt ≠ 0 -> exists g, among g ∧ g.expiresAt = e.expiresAt

/-- The two grants bind no different accounts and no different expiries. -/
structure Agree (g g' : Grant) : Prop where
  account : g.account = [] ∨ g'.account = [] ∨ g'.account = g.account
  expiry : g.expiresAt = 0 ∨ g'.expiresAt = 0 ∨ g'.expiresAt = g.expiresAt

variable {among among' : Grant -> Prop} {e e' : GrantEntry}

theorem Collects.congr (h : Collects L among e) (hiff : forall g, among g <-> among' g) :
    Collects L among' e := by
  have heq : among = among' := funext fun g => propext (hiff g)
  exact heq ▸ h

theorem Collects.empty (hnone : forall g, ¬ among g) : Collects L among ⟨∅, [], 0⟩ where
  names norm := by
    constructor
    · intro h
      cases Finset.notMem_empty norm h
    · intro h
      rcases h with ⟨g, hg, -⟩
      exact absurd hg (hnone g)
  account g hg := absurd hg (hnone g)
  accountOf h := absurd rfl h
  expiry g hg := absurd hg (hnone g)
  expiryOf h := absurd rfl h

theorem settled_unique {α : Type} {unset v v' : α} {value : Grant -> α}
    (hall : forall g, among g -> value g = unset ∨ value g = v)
    (hone : v ≠ unset -> exists g, among g ∧ value g = v)
    (hall' : forall g, among g -> value g = unset ∨ value g = v')
    (hone' : v' ≠ unset -> exists g, among g ∧ value g = v') : v = v' := by
  by_cases hv : v = unset
  · by_contra hne
    rcases hone' (fun hunset => hne (hv.trans hunset.symm)) with ⟨g, hg, hvalue⟩
    rcases hall g hg with hunset | hset
    · exact hne (hv.trans (hunset.symm.trans hvalue))
    · exact hne (hset.symm.trans hvalue)
  · rcases hone hv with ⟨g, hg, hvalue⟩
    rcases hall' g hg with hunset | hset
    · exact absurd (hvalue.symm.trans hunset) hv
    · exact hvalue.symm.trans hset

theorem Collects.unique (h : Collects L among e) (h' : Collects L among e') : e = e' := by
  have hnames : e.names = e'.names := by
    ext norm
    rw [h.names, h'.names]
  have haccount := settled_unique h.account h.accountOf h'.account h'.accountOf
  have hexpiry := settled_unique h.expiry h.expiryOf h'.expiry h'.expiryOf
  cases e
  cases e'
  simp only at hnames haccount hexpiry
  rw [hnames, haccount, hexpiry]

theorem room_iff {α : Type} {unset v : α} {value : Grant -> α} (new : α)
    (hall : forall g, among g -> value g = unset ∨ value g = v)
    (hone : v ≠ unset -> exists g, among g ∧ value g = v) :
    (new = unset ∨ v = unset ∨ v = new) <->
      forall g, among g -> new = unset ∨ value g = unset ∨ value g = new := by
  constructor
  · intro h g hg
    rcases h with hnew | hunset | hsame
    · exact Or.inl hnew
    · rcases hall g hg with hvalue | hvalue
      · exact Or.inr (Or.inl hvalue)
      · exact Or.inr (Or.inl (hvalue.trans hunset))
    · rcases hall g hg with hvalue | hvalue
      · exact Or.inr (Or.inl hvalue)
      · exact Or.inr (Or.inr (hvalue.trans hsame))
  · intro h
    by_cases hv : v = unset
    · exact Or.inr (Or.inl hv)
    · rcases hone hv with ⟨g, hg, hvalue⟩
      rw [<- hvalue]
      exact h g hg

theorem fits_iff (h : Collects L among e) : Fits g e <-> forall g', among g' -> Agree g g' := by
  have haccount := room_iff g.account h.account h.accountOf
  have hexpiry := room_iff g.expiresAt h.expiry h.expiryOf
  constructor
  · intro hfits g' hg'
    exact ⟨haccount.mp hfits.account g' hg', hexpiry.mp hfits.expiry g' hg'⟩
  · intro hagree
    exact ⟨haccount.mpr fun g' hg' => (hagree g' hg').account,
      hexpiry.mpr fun g' hg' => (hagree g' hg').expiry⟩

theorem settled_more {α : Type} [DecidableEq α] {unset v new : α} {value : Grant -> α}
    (hall : forall g, among g -> value g = unset ∨ value g = v)
    (hroom : new = unset ∨ v = unset ∨ v = new) :
    forall g, among g -> value g = unset ∨ value g = if new = unset then v else new := by
  intro g hg
  rcases hall g hg with hvalue | hvalue
  · exact Or.inl hvalue
  · rcases hroom with hnew | hunset | hsame
    · rw [if_pos hnew]
      exact Or.inr hvalue
    · exact Or.inl (hvalue.trans hunset)
    · apply Or.inr
      split
      · exact hvalue
      · exact hvalue.trans hsame

theorem Collects.mergedInto (h : Collects L among e) (hfits : Fits g e) :
    Collects L (fun g' => among g' ∨ g' = g) (g.mergedInto L e) where
  names norm := by
    simp only [Grant.mergedInto, Finset.mem_union, List.mem_toFinset, h.names]
    constructor
    · intro hmem
      rcases hmem with ⟨g', hg', hnorm⟩ | hnorm
      · exact ⟨g', Or.inl hg', hnorm⟩
      · exact ⟨g, Or.inr rfl, hnorm⟩
    · intro hmem
      rcases hmem with ⟨g', hg' | rfl, hnorm⟩
      · exact Or.inl ⟨g', hg', hnorm⟩
      · exact Or.inr hnorm
  account g' hg' := by
    rcases hg' with hg' | rfl
    · exact settled_more h.account hfits.account g' hg'
    · by_cases hnone : g'.account = []
      · exact Or.inl hnone
      · exact Or.inr (if_neg hnone).symm
  accountOf hne := by
    by_cases hnone : g.account = []
    · have heq : (g.mergedInto L e).account = e.account := if_pos hnone
      rw [heq] at hne
      rcases h.accountOf hne with ⟨g', hg', haccount⟩
      exact ⟨g', Or.inl hg', haccount.trans heq.symm⟩
    · exact ⟨g, Or.inr rfl, (if_neg hnone).symm⟩
  expiry g' hg' := by
    rcases hg' with hg' | rfl
    · exact settled_more h.expiry hfits.expiry g' hg'
    · by_cases hnone : g'.expiresAt = 0
      · exact Or.inl hnone
      · exact Or.inr (if_neg hnone).symm
  expiryOf hne := by
    by_cases hnone : g.expiresAt = 0
    · have heq : (g.mergedInto L e).expiresAt = e.expiresAt := if_pos hnone
      rw [heq] at hne
      rcases h.expiryOf hne with ⟨g', hg', hexpiry⟩
      exact ⟨g', Or.inl hg', hexpiry.trans heq.symm⟩
    · exact ⟨g, Or.inr rfl, (if_neg hnone).symm⟩

/-!
## The invariant of the loop
-/

def PointsAt (L : Library) (st : Building) (id : Nat) (g : Grant) : Prop :=
  st.byHash.lookup (L.sum256 g.tok) = some id

structure Built (L : Library) (done : List Grant) (st : Building) : Prop where
  valid : forall g, g ∈ done -> Valid L g
  bound : forall g, g ∈ done -> exists id, forall t, g.Holds t ->
    st.byHash.lookup (L.sum256 t) = some id
  held : forall h id, st.byHash.lookup h = some id ->
    exists g, g ∈ done ∧ exists t, g.Holds t ∧ L.sum256 t = h
  below : forall h id, st.byHash.lookup h = some id -> id < st.next
  apart : forall g, g ∈ done -> forall g', g' ∈ done -> forall id, PointsAt L st id g ->
    PointsAt L st id g' -> g.Merged g'
  collects : forall h id, st.byHash.lookup h = some id ->
    Collects L (fun g => g ∈ done ∧ PointsAt L st id g) (st.entries id)

theorem built_start (L : Library) : Built L [] Building.start where
  valid g hg := absurd hg List.not_mem_nil
  bound g hg := absurd hg List.not_mem_nil
  held h id hlookup := by cases hlookup
  below h id hlookup := by cases hlookup
  apart g hg := absurd hg List.not_mem_nil
  collects h id hlookup := by cases hlookup

variable {st st' : Building}

theorem Built.pointsAt_of_held (hbuilt : Built L done st) (hg : g ∈ done) (ht : g.Holds t)
    {id : Nat} (hlookup : st.byHash.lookup (L.sum256 t) = some id) : PointsAt L st id g := by
  rcases hbuilt.bound g hg with ⟨id', hid'⟩
  rw [hid' t ht] at hlookup
  rw [PointsAt, hid' g.tok (holds_tok g)]
  exact hlookup

theorem Grant.Merged.holds (h : g.Merged g') (hne : g'.tok ≠ []) : g.Holds g'.tok := by
  rcases h with heq | ⟨-, hprev⟩
  · exact Or.inl heq.symm
  · exact Or.inr ⟨hprev.symm, hne⟩

theorem Built.pointsAt_of_merged (hbuilt : Built L done st) (hg : g ∈ done) (hmerged : g.Merged g')
    (hne : g'.tok ≠ []) {id : Nat} (hpoints : PointsAt L st id g) : PointsAt L st id g' := by
  rcases hbuilt.bound g hg with ⟨id', hid'⟩
  rw [PointsAt, hid' g.tok (holds_tok g)] at hpoints
  rw [PointsAt, hid' g'.tok (hmerged.holds hne)]
  exact hpoints

theorem merged_of_holds (hclear : RotationsClear grants) (hg : g ∈ grants) (hg' : g' ∈ grants)
    (h : g'.Holds g.tok) : g'.Merged g := by
  rcases h with heq | ⟨heq, hne⟩
  · exact Or.inl heq.symm
  · exact Or.inr ⟨(hclear g' hg' g hg (heq ▸ hne) heq.symm).symm, heq.symm⟩

/-!
## One pass
-/

theorem entryOf_collects (hbuilt : Built L done st) (g : Grant) :
    Collects L (fun g' => g' ∈ done ∧ PointsAt L st (st.idOf L g) g') (st.entryOf L g) := by
  unfold Building.entryOf Building.idOf
  cases hlookup : st.byHash.lookup (L.sum256 g.tok) with
  | none =>
      apply Collects.empty
      intro g' hg'
      exact absurd (hbuilt.below _ _ hg'.2) (Nat.lt_irrefl _)
  | some id => exact hbuilt.collects _ _ hlookup

theorem lookup_added_held (ht : g.Holds t) :
    (st.added L g).byHash.lookup (L.sum256 t) = some (st.idOf L g) := by
  unfold Building.added
  rcases ht with ht | ⟨ht, hne⟩
  · subst ht
    by_cases hprev : g.prev = []
    · rw [if_pos hprev, Finmap.lookup_insert]
    · rw [if_neg hprev]
      by_cases hsum : L.sum256 g.tok = L.sum256 g.prev
      · rw [hsum, Finmap.lookup_insert]
      · rw [Finmap.lookup_insert_of_ne _ hsum, Finmap.lookup_insert]
  · subst ht
    rw [if_neg hne, Finmap.lookup_insert]

theorem lookup_added_cases {h : Digest} {id : Nat}
    (hlookup : (st.added L g).byHash.lookup h = some id) :
    id = st.idOf L g ∧ (exists t, g.Holds t ∧ L.sum256 t = h) ∨ st.byHash.lookup h = some id := by
  by_cases hheld : exists t, g.Holds t ∧ L.sum256 t = h
  · rcases hheld with ⟨t, ht, hsum⟩
    rw [<- hsum, lookup_added_held ht] at hlookup
    exact Or.inl ⟨(Option.some.inj hlookup).symm, t, ht, hsum⟩
  · apply Or.inr
    have htok : h ≠ L.sum256 g.tok := fun heq => hheld ⟨g.tok, holds_tok g, heq.symm⟩
    unfold Building.added at hlookup
    by_cases hprev : g.prev = []
    · rw [if_pos hprev, Finmap.lookup_insert_of_ne _ htok] at hlookup
      exact hlookup
    · have hother : h ≠ L.sum256 g.prev := fun heq =>
        hheld ⟨g.prev, Or.inr ⟨rfl, hprev⟩, heq.symm⟩
      rw [if_neg hprev, Finmap.lookup_insert_of_ne _ hother,
        Finmap.lookup_insert_of_ne _ htok] at hlookup
      exact hlookup

theorem lookup_added_mono (hfree : PrevFree L st g) {h : Digest} {id : Nat}
    (hlookup : st.byHash.lookup h = some id) : (st.added L g).byHash.lookup h = some id := by
  have htok : (st.byHash.insert (L.sum256 g.tok) (st.idOf L g)).lookup h = some id := by
    by_cases heq : h = L.sum256 g.tok
    · subst heq
      rw [Finmap.lookup_insert, Building.idOf, hlookup]
      rfl
    · rw [Finmap.lookup_insert_of_ne _ heq]
      exact hlookup
  unfold Building.added
  by_cases hprev : g.prev = []
  · rw [if_pos hprev]
    exact htok
  · rw [if_neg hprev]
    by_cases heq : h = L.sum256 g.prev
    · subst heq
      rw [Finmap.lookup_insert, hfree hprev id htok]
    · rw [Finmap.lookup_insert_of_ne _ heq]
      exact htok

theorem Built.pointsAt_added_iff (hbuilt : Built L done st) (hfree : PrevFree L st g)
    (hg' : g' ∈ done) {id : Nat} : PointsAt L (st.added L g) id g' <-> PointsAt L st id g' := by
  rcases hbuilt.bound g' hg' with ⟨id', hid'⟩
  have hold := hid' g'.tok (holds_tok g')
  rw [PointsAt, PointsAt, lookup_added_mono hfree hold, hold]

/-- What the loop asks of two grants, in whichever order it sees them. -/
structure Compatible (g' g : Grant) : Prop where
  agree : g'.Merged g -> Agree g g'
  previous : g.prev ≠ [] -> g'.prev = g.prev -> g'.Merged g

theorem Compatible.symm (h : Compatible g' g) : Compatible g g' where
  agree hmerged := by
    have hagree := h.agree hmerged.symm
    constructor
    · rcases hagree.account with hnone | hnone' | hsame
      · exact Or.inr (Or.inl hnone)
      · exact Or.inl hnone'
      · exact Or.inr (Or.inr hsame.symm)
    · rcases hagree.expiry with hnone | hnone' | hsame
      · exact Or.inr (Or.inl hnone)
      · exact Or.inl hnone'
      · exact Or.inr (Or.inr hsame.symm)
  previous hne hsame := (h.previous (hsame ▸ hne) hsame.symm).symm

section Pass

variable (hsep : Separates L (tokensOf grants)) (hclear : RotationsClear grants)
  (hdone : forall g', g' ∈ done -> g' ∈ grants) (hg : g ∈ grants)

include hsep hclear hdone hg

theorem pointsAt_idOf_iff (hbuilt : Built L done st) (hvalid : Valid L g) (hg' : g' ∈ done) :
    PointsAt L st (st.idOf L g) g' <-> g'.Merged g := by
  constructor
  · intro hpoints
    rw [Building.idOf] at hpoints
    cases hlookup : st.byHash.lookup (L.sum256 g.tok) with
    | none =>
        rw [hlookup, Option.getD_none] at hpoints
        exact absurd (hbuilt.below _ _ hpoints) (Nat.lt_irrefl _)
    | some id =>
        rw [hlookup, Option.getD_some] at hpoints
        rcases hbuilt.held _ _ hlookup with ⟨g0, hg0, t0, ht0, hsum⟩
        have htok : t0 = g.tok :=
          hsep t0 (mem_tokensOf (hdone g0 hg0) ht0) g.tok (mem_tokensOf hg (holds_tok g)) hsum
        subst htok
        have hmerged := merged_of_holds hclear hg (hdone g0 hg0) ht0
        have hsame := hbuilt.apart g' hg' g0 hg0 id hpoints
          (hbuilt.pointsAt_of_held hg0 ht0 hlookup)
        exact Grant.Merged.trans hclear (hdone g' hg') hg (hbuilt.valid g' hg').tok hvalid.tok hsame
          hmerged
  · intro hmerged
    rcases hbuilt.bound g' hg' with ⟨id, hid⟩
    have hpoints : PointsAt L st id g := hid g.tok (hmerged.holds hvalid.tok)
    rw [PointsAt] at hpoints
    rw [PointsAt, Building.idOf, hpoints, hid g'.tok (holds_tok g')]
    rfl

theorem prevFree_iff (hbuilt : Built L done st) (hvalid : Valid L g) :
    PrevFree L st g <->
      (g.prev ≠ [] -> forall g', g' ∈ done -> g'.prev = g.prev -> g'.Merged g) := by
  have hprev : g.prev ≠ [] -> g.prev ∈ tokensOf grants := fun hne =>
    mem_tokensOf hg (Or.inr ⟨rfl, hne⟩)
  have hother : g.prev ≠ [] -> L.sum256 g.prev ≠ L.sum256 g.tok := fun hne hsum =>
    hvalid.prev (hsep _ (hprev hne) _ (mem_tokensOf hg (holds_tok g)) hsum)
  constructor
  · intro hfree hne g' hg' hsame
    rcases hbuilt.bound g' hg' with ⟨id, hid⟩
    have hlookup := hid g.prev (Or.inr ⟨hsame.symm, hne⟩)
    have hidOf := hfree hne id ((Finmap.lookup_insert_of_ne _ (hother hne)).trans hlookup)
    subst hidOf
    exact (pointsAt_idOf_iff hsep hclear hdone hg hbuilt hvalid hg').mp (hid g'.tok (holds_tok g'))
  · intro hmerged hne id hlookup
    rw [Finmap.lookup_insert_of_ne _ (hother hne)] at hlookup
    rcases hbuilt.held _ _ hlookup with ⟨g', hg', t, ht, hsum⟩
    have htprev : t = g.prev := hsep t (mem_tokensOf (hdone g' hg') ht) _ (hprev hne) hsum
    subst htprev
    have hpoints := hbuilt.pointsAt_of_held hg' ht hlookup
    have hgrants : g'.Merged g := by
      rcases ht with htok | ⟨hsame, -⟩
      · exact Or.inr ⟨htok.symm, hclear g hg g' (hdone g' hg') hne htok⟩
      · exact hmerged hne g' hg' hsame.symm
    have hidOf := (pointsAt_idOf_iff hsep hclear hdone hg hbuilt hvalid hg').mpr hgrants
    rw [PointsAt] at hpoints hidOf
    rw [hpoints] at hidOf
    exact Option.some.inj hidOf

theorem apart_added (hbuilt : Built L done st) (hvalid : Valid L g) (hfree : PrevFree L st g) :
    forall g', g' ∈ done ++ [g] -> forall g'', g'' ∈ done ++ [g] -> forall id,
      PointsAt L (st.added L g) id g' -> PointsAt L (st.added L g) id g'' -> g'.Merged g'' := by
  have hnext : forall g', g' ∈ done -> forall id, PointsAt L (st.added L g) id g' ->
      PointsAt L (st.added L g) id g -> g'.Merged g := by
    intro g' hg' id hpoints' hpoints
    rw [PointsAt, lookup_added_held (holds_tok g)] at hpoints
    rw [hbuilt.pointsAt_added_iff hfree hg', <- Option.some.inj hpoints] at hpoints'
    exact (pointsAt_idOf_iff hsep hclear hdone hg hbuilt hvalid hg').mp hpoints'
  intro g1 hg1 g2 hg2 id hpoints1 hpoints2
  rcases List.mem_append.mp hg1 with hold1 | hnew1
  · rcases List.mem_append.mp hg2 with hold2 | hnew2
    · rw [hbuilt.pointsAt_added_iff hfree hold1] at hpoints1
      rw [hbuilt.pointsAt_added_iff hfree hold2] at hpoints2
      exact hbuilt.apart g1 hold1 g2 hold2 id hpoints1 hpoints2
    · rw [List.mem_singleton.mp hnew2] at hpoints2 ⊢
      exact hnext g1 hold1 id hpoints1 hpoints2
  · rw [List.mem_singleton.mp hnew1] at hpoints1 ⊢
    rcases List.mem_append.mp hg2 with hold2 | hnew2
    · exact (hnext g2 hold2 id hpoints2 hpoints1).symm
    · rw [List.mem_singleton.mp hnew2]
      exact Or.inl rfl

omit hsep hclear hdone hg in
theorem collects_added (hbuilt : Built L done st) (hfits : Fits g (st.entryOf L g))
    (hfree : PrevFree L st g) {h : Digest} {id : Nat}
    (hlookup : (st.added L g).byHash.lookup h = some id) :
    Collects L (fun g' => g' ∈ done ++ [g] ∧ PointsAt L (st.added L g) id g')
      ((st.added L g).entries id) := by
  have hlookupG : PointsAt L (st.added L g) (st.idOf L g) g := lookup_added_held (holds_tok g)
  change Collects L _ (Function.update st.entries (st.idOf L g) (g.mergedInto L (st.entryOf L g)) id)
  by_cases hid : id = st.idOf L g
  · subst hid
    rw [Function.update_self]
    refine ((entryOf_collects hbuilt g).mergedInto hfits).congr ?_
    intro g'
    rw [List.mem_append, List.mem_singleton]
    constructor
    · intro hclass
      rcases hclass with ⟨hold, hpoints⟩ | hnew
      · exact ⟨Or.inl hold, (hbuilt.pointsAt_added_iff hfree hold).mpr hpoints⟩
      · exact ⟨Or.inr hnew, hnew ▸ hlookupG⟩
    · intro hclass
      rcases hclass with ⟨hold | hnew, hpoints⟩
      · exact Or.inl ⟨hold, (hbuilt.pointsAt_added_iff hfree hold).mp hpoints⟩
      · exact Or.inr hnew
  · rw [Function.update_of_ne hid]
    rcases lookup_added_cases hlookup with ⟨heq, -⟩ | hold
    · exact absurd heq hid
    · refine (hbuilt.collects h id hold).congr ?_
      intro g'
      rw [List.mem_append, List.mem_singleton]
      constructor
      · intro hclass
        exact ⟨Or.inl hclass.1, (hbuilt.pointsAt_added_iff hfree hclass.1).mpr hclass.2⟩
      · intro hclass
        rcases hclass with ⟨hin | hnew, hpoints⟩
        · exact ⟨hin, (hbuilt.pointsAt_added_iff hfree hin).mp hpoints⟩
        · rw [hnew, PointsAt, hlookupG] at hpoints
          exact absurd (Option.some.inj hpoints).symm hid

theorem built_added (hbuilt : Built L done st) (hvalid : Valid L g)
    (hfits : Fits g (st.entryOf L g)) (hfree : PrevFree L st g) :
    Built L (done ++ [g]) (st.added L g) where
  valid g' hg' := by
    rcases List.mem_append.mp hg' with hold | hnew
    · exact hbuilt.valid g' hold
    · rw [List.mem_singleton.mp hnew]
      exact hvalid
  bound g' hg' := by
    rcases List.mem_append.mp hg' with hold | hnew
    · rcases hbuilt.bound g' hold with ⟨id, hid⟩
      exact ⟨id, fun t ht => lookup_added_mono hfree (hid t ht)⟩
    · rw [List.mem_singleton.mp hnew]
      exact ⟨st.idOf L g, fun t ht => lookup_added_held ht⟩
  held h id hlookup := by
    rcases lookup_added_cases hlookup with ⟨-, t, ht, hsum⟩ | hold
    · exact ⟨g, List.mem_append_right _ List.mem_cons_self, t, ht, hsum⟩
    · rcases hbuilt.held h id hold with ⟨g', hg', hheld⟩
      exact ⟨g', List.mem_append_left _ hg', hheld⟩
  below h id hlookup := by
    change id < max st.next (st.idOf L g + 1)
    rcases lookup_added_cases hlookup with ⟨hid, -⟩ | hold
    · rw [hid]
      exact Nat.lt_of_lt_of_le (Nat.lt_succ_self _) (Nat.le_max_right _ _)
    · exact Nat.lt_of_lt_of_le (hbuilt.below h id hold) (Nat.le_max_left _ _)
  apart := apart_added hsep hclear hdone hg hbuilt hvalid hfree
  collects _ _ hlookup := collects_added hbuilt hfits hfree hlookup

theorem addGrant_ok_iff (hbuilt : Built L done st) (i : Nat) :
    (exists st', st.addGrant L i g = Except.ok st') <->
      Valid L g ∧ forall g', g' ∈ done -> Compatible g' g := by
  simp only [addGrant_eq_ok, exists_and_left, exists_eq, and_true]
  constructor
  · intro h
    rcases h with ⟨hvalid, hfits, hfree⟩
    refine ⟨hvalid, ?_⟩
    intro g' hg'
    refine ⟨?_, fun hne =>
      (prevFree_iff hsep hclear hdone hg hbuilt hvalid).mp hfree hne g' hg'⟩
    intro hmerged
    exact (fits_iff (entryOf_collects hbuilt g)).mp hfits g'
      ⟨hg', (pointsAt_idOf_iff hsep hclear hdone hg hbuilt hvalid hg').mpr hmerged⟩
  · intro h
    rcases h with ⟨hvalid, hcompatible⟩
    refine ⟨hvalid, (fits_iff (entryOf_collects hbuilt g)).mpr ?_,
      (prevFree_iff hsep hclear hdone hg hbuilt hvalid).mpr ?_⟩
    · intro g' hg'
      exact (hcompatible g' hg'.1).agree
        ((pointsAt_idOf_iff hsep hclear hdone hg hbuilt hvalid hg'.1).mp hg'.2)
    · intro hne g' hg'
      exact (hcompatible g' hg').previous hne

end Pass

/-!
## The whole list
-/

theorem addGrants_built (hsep : Separates L (tokensOf grants)) (hclear : RotationsClear grants)
    {i : Nat} (hmem : forall g, g ∈ done ++ rest -> g ∈ grants) (hbuilt : Built L done st)
    (h : st.addGrants L i rest = Except.ok st') : Built L (done ++ rest) st' := by
  induction rest generalizing done st i with
  | nil =>
      cases h
      rw [List.append_nil]
      exact hbuilt
  | cons g rest ih =>
      rw [Building.addGrants, bind_eq_ok] at h
      rcases h with ⟨st1, hst1, hrest⟩
      rcases addGrant_eq_ok.mp hst1 with ⟨hvalid, hfits, hfree, hadded⟩
      subst hadded
      rw [List.append_cons] at hmem ⊢
      have hg : g ∈ grants :=
        hmem g (List.mem_append_left _ (List.mem_append_right _ List.mem_cons_self))
      have hdone : forall g', g' ∈ done -> g' ∈ grants := fun g' hg' =>
        hmem g' (List.mem_append_left _ (List.mem_append_left _ hg'))
      exact ih hmem (built_added hsep hclear hdone hg hbuilt hvalid hfits hfree) hrest

theorem addGrants_ok_iff (hsep : Separates L (tokensOf grants)) (hclear : RotationsClear grants)
    {i : Nat} (hmem : forall g, g ∈ done ++ rest -> g ∈ grants) (hbuilt : Built L done st) :
    (exists st', st.addGrants L i rest = Except.ok st') <->
      (forall g, g ∈ rest -> Valid L g) ∧
        (forall g', g' ∈ done -> forall g, g ∈ rest -> Compatible g' g) ∧
        rest.Pairwise Compatible := by
  induction rest generalizing done st i with
  | nil => simp [Building.addGrants]
  | cons g rest ih =>
      have hg : g ∈ grants := hmem g (List.mem_append_right _ List.mem_cons_self)
      have hdone : forall g', g' ∈ done -> g' ∈ grants := fun g' hg' =>
        hmem g' (List.mem_append_left _ hg')
      have hpass := addGrant_ok_iff hsep hclear hdone hg hbuilt i
      rw [List.append_cons] at hmem
      have hnext : forall st1, st.addGrant L i g = Except.ok st1 -> Built L (done ++ [g]) st1 := by
        intro st1 hst1
        rcases addGrant_eq_ok.mp hst1 with ⟨hvalid, hfits, hfree, hadded⟩
        rw [hadded]
        exact built_added hsep hclear hdone hg hbuilt hvalid hfits hfree
      simp only [Building.addGrants, bind_eq_ok]
      constructor
      · intro h
        rcases h with ⟨st', st1, hst1, hrest⟩
        rcases hpass.mp ⟨st1, hst1⟩ with ⟨hvalid, hcompatible⟩
        rcases (ih hmem (hnext st1 hst1)).mp ⟨st', hrest⟩ with ⟨hvalids, hdones, hpairs⟩
        refine ⟨List.forall_mem_cons.mpr ⟨hvalid, hvalids⟩, ?_,
          List.pairwise_cons.mpr ⟨hdones g (List.mem_append_right _ List.mem_cons_self), hpairs⟩⟩
        intro g' hg'
        exact List.forall_mem_cons.mpr
          ⟨hcompatible g' hg', hdones g' (List.mem_append_left _ hg')⟩
      · intro h
        rcases h with ⟨hvalids, hdones, hpairs⟩
        rcases List.pairwise_cons.mp hpairs with ⟨hfirst, hrest⟩
        have hcompatible : forall g', g' ∈ done -> Compatible g' g := fun g' hg' =>
          hdones g' hg' g List.mem_cons_self
        rcases hpass.mpr ⟨hvalids g List.mem_cons_self, hcompatible⟩ with ⟨st1, hst1⟩
        have hlater : forall g', g' ∈ done ++ [g] -> forall g2, g2 ∈ rest -> Compatible g' g2 := by
          intro g' hg' g2 hg2
          rcases List.mem_append.mp hg' with hold | hnew
          · exact hdones g' hold g2 (List.mem_cons_of_mem _ hg2)
          · rw [List.mem_singleton.mp hnew]
            exact hfirst g2 hg2
        rcases (ih hmem (hnext st1 hst1)).mpr
          ⟨(List.forall_mem_cons.mp hvalids).2, hlater, hrest⟩ with ⟨st', hst'⟩
        exact ⟨st', st1, hst1, hst'⟩

/-!
## What the store answers
-/

theorem Built.entry_of_held (hbuilt : Built L grants st) (hg : g ∈ grants) (ht : g.Holds t) :
    exists id, st.byHash.lookup (L.sum256 t) = some id ∧
      Collects L (fun g' => g' ∈ grants ∧ g'.Merged g) (st.entries id) := by
  rcases hbuilt.bound g hg with ⟨id, hid⟩
  have hpoints : PointsAt L st id g := hid g.tok (holds_tok g)
  refine ⟨id, hid t ht, (hbuilt.collects _ _ (hid t ht)).congr ?_⟩
  intro g'
  constructor
  · intro hclass
    exact ⟨hclass.1, hbuilt.apart g' hclass.1 g hg id hclass.2 hpoints⟩
  · intro hclass
    exact ⟨hclass.1, hbuilt.pointsAt_of_merged hg hclass.2.symm (hbuilt.valid g' hclass.1).tok
      hpoints⟩

theorem matched_congr {grants' : List Grant} (hbuilt : Built L grants st)
    (hbuilt' : Built L grants' st') (hmem : forall g, g ∈ grants <-> g ∈ grants') (h : Digest) :
    (st.byHash.lookup h).map st.entries = (st'.byHash.lookup h).map st'.entries := by
  have hsome : forall g t, g ∈ grants -> g.Holds t ->
      (st.byHash.lookup (L.sum256 t)).map st.entries =
        (st'.byHash.lookup (L.sum256 t)).map st'.entries := by
    intro g t hg ht
    rcases hbuilt.entry_of_held hg ht with ⟨id, hlookup, hcollects⟩
    rcases hbuilt'.entry_of_held ((hmem g).mp hg) ht with ⟨id', hlookup', hcollects'⟩
    have hsame := hcollects.unique (hcollects'.congr fun g' => by rw [hmem g'])
    rw [hlookup, hlookup', Option.map_some, Option.map_some, hsame]
  cases hlookup : st.byHash.lookup h with
  | some id =>
      rcases hbuilt.held h id hlookup with ⟨g, hg, t, ht, hsum⟩
      have heq := hsome g t hg ht
      rw [hsum, hlookup] at heq
      exact heq
  | none =>
      cases hlookup' : st'.byHash.lookup h with
      | none => rfl
      | some id' =>
          rcases hbuilt'.held h id' hlookup' with ⟨g, hg, t, ht, hsum⟩
          have heq := hsome g t ((hmem g).mpr hg) ht
          rw [hsum, hlookup, hlookup'] at heq
          exact heq

def SameResults (L : Library) (s s' : StaticTokenStore) : Prop :=
  forall now token name, s.authorize L now token name = s'.authorize L now token name

def SameOutcome (L : Library) (r r' : Except BuildError StaticTokenStore) : Prop :=
  (exists err err', r = Except.error err ∧ r' = Except.error err') ∨
    exists s s', r = Except.ok s ∧ r' = Except.ok s' ∧ SameResults L s s'

def Grant.Lists (L : Library) (g : Grant) (name : Bytes) : Prop :=
  Proxy.normalizeName L.lowerRune name ∈ g.normNames L

instance (L : Library) (g : Grant) (name : Bytes) : Decidable (g.Lists L name) :=
  inferInstanceAs (Decidable (_ ∈ _))

variable {spec : RevokedSpec} {s s' : StaticTokenStore}

theorem newStore_eq_ok :
    newStaticTokenStoreWithRevoked L grants spec = Except.ok s <->
      exists st, Building.start.addGrants L 0 grants = Except.ok st ∧
        FiniteMap.size st.byHash ≠ 0 ∧ s = ⟨st.byHash, st.entries, newRevokedList L spec⟩ := by
  rw [newStaticTokenStoreWithRevoked, bind_eq_ok]
  constructor
  · intro h
    rcases h with ⟨st, hst, hstore⟩
    split at hstore
    · cases hstore
    · rename_i hsize
      cases hstore
      exact ⟨st, hst, hsize, rfl⟩
  · intro h
    rcases h with ⟨st, hst, hsize, hs⟩
    exact ⟨st, hst, by rw [if_neg hsize, hs]⟩

theorem addGrants_start (hsep : Separates L (tokensOf grants)) (hclear : RotationsClear grants)
    (h : Building.start.addGrants L 0 grants = Except.ok st) : Built L grants st :=
  addGrants_built hsep hclear (fun _ hg => hg) (built_start L) h

theorem size_eq_zero_iff (hbuilt : Built L grants st) :
    FiniteMap.size st.byHash = 0 <-> forall g, g ∉ grants := by
  constructor
  · intro hsize g hg
    rcases hbuilt.bound g hg with ⟨id, hid⟩
    have hcount := FiniteMap.size_erase (hid g.tok (holds_tok g))
    rw [hsize] at hcount
    cases hcount
  · intro hnone
    apply FiniteMap.size_eq_zero_of_lookup
    intro h
    cases hlookup : st.byHash.lookup h with
    | none => rfl
    | some id =>
        rcases hbuilt.held h id hlookup with ⟨g, hg, -⟩
        exact absurd hg (hnone g)

theorem newStore_ok_iff (hsep : Separates L (tokensOf grants)) (hclear : RotationsClear grants) :
    (exists s, newStaticTokenStoreWithRevoked L grants spec = Except.ok s) <->
      (forall g, g ∈ grants -> Valid L g) ∧ grants.Pairwise Compatible ∧ exists g, g ∈ grants := by
  have hloop : (exists st, Building.start.addGrants L 0 grants = Except.ok st) <->
      (forall g, g ∈ grants -> Valid L g) ∧ grants.Pairwise Compatible := by
    rw [addGrants_ok_iff hsep hclear (fun _ hg => hg) (built_start L)]
    simp
  rw [<- and_assoc, <- hloop]
  constructor
  · intro h
    rcases h with ⟨s, hs⟩
    rcases newStore_eq_ok.mp hs with ⟨st, hst, hsize, -⟩
    rw [ne_eq, size_eq_zero_iff (addGrants_start hsep hclear hst)] at hsize
    exact ⟨⟨st, hst⟩, by simpa using hsize⟩
  · intro h
    rcases h with ⟨⟨st, hst⟩, g, hg⟩
    refine ⟨_, newStore_eq_ok.mpr ⟨st, hst, ?_, rfl⟩⟩
    rw [ne_eq, size_eq_zero_iff (addGrants_start hsep hclear hst)]
    intro hnone
    exact hnone g hg

theorem sameResults_of_matched (hmatched : forall h, s.matched h = s'.matched h)
    (hrevoked : s.revoked = s'.revoked) : SameResults L s s' := by
  intro now token name
  unfold StaticTokenStore.authorize
  dsimp only
  rw [hmatched, hrevoked]

theorem sameOutcome_of_perm {grants' : List Grant} (hsep : Separates L (tokensOf grants))
    (hclear : RotationsClear grants) (hperm : grants.Perm grants') :
    SameOutcome L (newStaticTokenStoreWithRevoked L grants spec)
      (newStaticTokenStoreWithRevoked L grants' spec) := by
  have hsep' : Separates L (tokensOf grants') := by
    have htokens : (tokensOf grants).Perm (tokensOf grants') :=
      (hperm.map Grant.tok).append (hperm.map Grant.prev)
    intro t ht t' ht'
    exact hsep t (htokens.mem_iff.mpr ht) t' (htokens.mem_iff.mpr ht')
  have hclear' : RotationsClear grants' := by
    intro g hg g' hg'
    exact hclear g (hperm.mem_iff.mpr hg) g' (hperm.mem_iff.mpr hg')
  have hiff : (exists s, newStaticTokenStoreWithRevoked L grants spec = Except.ok s) <->
      exists s, newStaticTokenStoreWithRevoked L grants' spec = Except.ok s := by
    rw [newStore_ok_iff hsep hclear, newStore_ok_iff hsep' hclear',
      hperm.pairwise_iff (fun h => Compatible.symm h)]
    simp only [hperm.mem_iff]
  cases hr : newStaticTokenStoreWithRevoked L grants spec with
  | error err =>
      cases hr' : newStaticTokenStoreWithRevoked L grants' spec with
      | error err' => exact Or.inl ⟨err, err', rfl, rfl⟩
      | ok s' =>
          rcases hiff.mpr ⟨s', hr'⟩ with ⟨s, hs⟩
          rw [hr] at hs
          cases hs
  | ok s =>
      rcases hiff.mp ⟨s, hr⟩ with ⟨s', hs'⟩
      apply Or.inr
      refine ⟨s, s', rfl, hs', ?_⟩
      rcases newStore_eq_ok.mp hr with ⟨st, hst, -, hs⟩
      rcases newStore_eq_ok.mp hs' with ⟨st', hst', -, hs'⟩
      subst hs hs'
      exact sameResults_of_matched
        (matched_congr (addGrants_start hsep hclear hst) (addGrants_start hsep' hclear' hst')
          fun g => hperm.mem_iff) rfl

theorem authorize_eq_ok {now : Int} {token name account : Bytes}
    (h : s.authorize L now token name = Except.ok account) :
    trimSpace token ≠ [] ∧
      exists e, s.matched (L.sum256 (trimSpace token)) = some e ∧
        Proxy.normalizeName L.lowerRune name ∈ e.names := by
  unfold StaticTokenStore.authorize at h
  dsimp only at h
  split at h
  · cases h
  · rename_i htoken
    split at h
    · cases h
    · rename_i e hmatched
      split at h
      · cases h
      · rename_i hname
        exact ⟨htoken, e, hmatched, not_not.mp hname⟩

theorem listed_of_authorize (hsep : Separates L (tokensOf grants)) (hclear : RotationsClear grants)
    (hs : newStaticTokenStoreWithRevoked L grants spec = Except.ok s) {now : Int}
    {token name account : Bytes} (hpresented : Separates L (trimSpace token :: tokensOf grants))
    (h : s.authorize L now token name = Except.ok account) :
    exists g, g ∈ grants ∧ g.Lists L name ∧
      exists g', g' ∈ grants ∧ g'.Holds (trimSpace token) ∧ g'.tok = g.tok := by
  rcases newStore_eq_ok.mp hs with ⟨st, hst, -, hstore⟩
  subst hstore
  have hbuilt := addGrants_start hsep hclear hst
  rcases authorize_eq_ok h with ⟨htoken, e, hmatched, hname⟩
  rcases Option.map_eq_some_iff.mp hmatched with ⟨id, hlookup, he⟩
  rcases hbuilt.held _ _ hlookup with ⟨g', hg', t, ht, hsum⟩
  have hsame : t = trimSpace token :=
    hpresented t (List.mem_cons_of_mem _ (mem_tokensOf hg' ht)) _ List.mem_cons_self hsum
  subst hsame
  rcases hbuilt.entry_of_held hg' ht with ⟨id', hlookup', hcollects⟩
  rw [hlookup] at hlookup'
  cases hlookup'
  subst he
  rcases (hcollects.names _).mp hname with ⟨g, ⟨hg, hmerged⟩, hlists⟩
  refine ⟨g, hg, hlists, ?_⟩
  rcases hmerged with htok | ⟨htok, hprev⟩
  · exact ⟨g', hg', ht, htok.symm⟩
  · refine ⟨g, hg, ?_, rfl⟩
    rcases ht with ht | ⟨ht, hne⟩
    · exact Or.inr ⟨ht.trans hprev.symm, htoken⟩
    · exact Or.inl (ht.trans htok.symm)

/-- Where no previous token is another grant's token, the order of the grants does not matter,
and a token is let through for what the grants with its grant's token list. -/
theorem grants_in_any_order (L : Library) (grants : List Grant) (spec : RevokedSpec)
    (hsep : Separates L (tokensOf grants)) (hclear : RotationsClear grants) :
    (forall grants', grants.Perm grants' ->
      SameOutcome L (newStaticTokenStoreWithRevoked L grants spec)
        (newStaticTokenStoreWithRevoked L grants' spec)) ∧
      forall s, newStaticTokenStoreWithRevoked L grants spec = Except.ok s ->
        forall now token name account, Separates L (trimSpace token :: tokensOf grants) ->
          s.authorize L now token name = Except.ok account ->
            exists g, g ∈ grants ∧ g.Lists L name ∧
              exists g', g' ∈ grants ∧ g'.Holds (trimSpace token) ∧ g'.tok = g.tok := by
  constructor
  · intro grants' hperm
    exact sameOutcome_of_perm hsep hclear hperm
  · intro s hs now token name account hpresented h
    exact listed_of_authorize hsep hclear hs hpresented h

/-!
Two grants of one token with different previous tokens: the entry they share is the entry of
each previous token, so the first one's previous token is let through for the name that only
the second grant lists.
-/

def digestOfA : Digest :=
  FixedBytes.ofNat 0xca978112ca1bbdcafac231b39a23dc4da786eff8147c4e72b9807785afee48bb

def digestOfB : Digest :=
  FixedBytes.ofNat 0x3e23e8160039594a33894f6564e1b1348bbd7a0088d42c4acb73eeaed59c009d

def digestOfC : Digest :=
  FixedBytes.ofNat 0x2e7d2c03a9507ae265ecf5b5356885a53393a2029d241394997265a1a25aefc6

def sampleLibrary : Library where
  lowerRune := Char.toLower
  sum256 token :=
    if token = lit "a" then digestOfA
    else if token = lit "b" then digestOfB
    else if token = lit "c" then digestOfC
    else FixedBytes.zero 32

def sharedGrants : List Grant :=
  [⟨lit "a", [lit "box"], [], lit "b", 0⟩,
    ⟨lit "a", [lit "attic"], [], lit "c", 0⟩]

theorem shared_in_any_order :
    SameOutcome sampleLibrary (newStaticTokenStoreWithRevoked sampleLibrary sharedGrants ⟨[], [], []⟩)
      (newStaticTokenStoreWithRevoked sampleLibrary sharedGrants.reverse ⟨[], [], []⟩) :=
  (grants_in_any_order sampleLibrary sharedGrants ⟨[], [], []⟩ (by decide +kernel)
    (by decide +kernel)).1 _ (List.reverse_perm _).symm

theorem previous_token_is_let_through :
    ¬ forall (L : Library) (grants : List Grant) (spec : RevokedSpec),
      Separates L (tokensOf grants) ->
        (forall grants', grants.Perm grants' ->
          SameOutcome L (newStaticTokenStoreWithRevoked L grants spec)
            (newStaticTokenStoreWithRevoked L grants' spec)) ∧
          forall s, newStaticTokenStoreWithRevoked L grants spec = Except.ok s ->
            forall now token name account,
              Separates L (trimSpace token :: tokensOf grants) ->
              s.authorize L now token name = Except.ok account ->
                exists g, g ∈ grants ∧ g.Holds (trimSpace token) ∧ g.Lists L name := by
  intro h
  have hclaim := (h sampleLibrary sharedGrants ⟨[], [], []⟩ (by decide +kernel)).2
  have hbuilt : exists s,
      newStaticTokenStoreWithRevoked sampleLibrary sharedGrants ⟨[], [], []⟩ = Except.ok s ∧
        s.authorize sampleLibrary 0 (lit "b") (lit "attic") = Except.ok [] := by
    exact ⟨_, rfl, by decide +kernel⟩
  rcases hbuilt with ⟨s, hs, hok⟩
  rcases hclaim s hs 0 _ _ _ (by decide +kernel) hok with ⟨g, hg, hholds, hlists⟩
  have hnone : forall g, g ∈ sharedGrants ->
      ¬ (g.Holds (trimSpace (lit "b")) ∧
        g.Lists sampleLibrary (lit "attic")) := by
    decide +kernel
  exact hnone g hg ⟨hholds, hlists⟩

end StaticTokens
end Server
end Ephor
