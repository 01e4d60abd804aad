import Ephor.Server.StaticTokens
import Mathlib.Data.List.Perm.Basic

/-!
# What a list of grants means

The loop that builds the store sees the grants one after another.  Grants with one token share
an entry, and so do two grants that name each other's token as the previous one.  In a list in
which no other grant's token is a previous token, nothing else is shared, and neither the
outcome of the loop nor any entry depends on the order.
-/

namespace Ephor
namespace Server
namespace StaticTokens

open Foundation

/-!
## Tokens and grants
-/

/-- The grant names the token as its token or its previous token. -/
def Grant.Holds (g : Grant) (t : Bytes) : Prop :=
  t = g.tok ∨ t = g.prev ∧ t ≠ []

instance (g : Grant) (t : Bytes) : Decidable (g.Holds t) :=
  inferInstanceAs (Decidable (_ ∨ _))

/-- The two grants have one token, or each has the other's as its previous one. -/
def Grant.Merged (g g' : Grant) : Prop :=
  g.tok = g'.tok ∨ g.tok = g'.prev ∧ g.prev = g'.tok

/-- A previous token is the token of no other grant, but of one that names the first grant's
token back. -/
def RotationsClear (grants : List Grant) : Prop :=
  forall g, g ∈ grants -> forall g', g' ∈ grants -> g.prev ≠ [] -> g.prev = g'.tok ->
    g'.prev = g.tok

instance (grants : List Grant) : Decidable (RotationsClear grants) :=
  inferInstanceAs (Decidable (forall g, g ∈ grants -> forall g', g' ∈ grants -> _))

def Separates (L : Library) (tokens : List Bytes) : Prop :=
  forall t, t ∈ tokens -> forall t', t' ∈ tokens -> L.sum256 t = L.sum256 t' -> t = t'

instance (L : Library) (tokens : List Bytes) : Decidable (Separates L tokens) :=
  inferInstanceAs (Decidable (forall t, t ∈ tokens -> forall t', t' ∈ tokens -> _))

def tokensOf (grants : List Grant) : List Bytes :=
  grants.map Grant.tok ++ grants.map Grant.prev

variable {L : Library} {grants done rest : List Grant} {g g' : Grant} {t : Bytes}

theorem Grant.Merged.symm (h : g.Merged g') : g'.Merged g := by
  rcases h with heq | ⟨htok, hprev⟩
  · exact Or.inl heq.symm
  · exact Or.inr ⟨hprev.symm, htok.symm⟩

theorem mem_tokensOf (hg : g ∈ grants) (ht : g.Holds t) : t ∈ tokensOf grants := by
  rcases ht with ht | ⟨ht, -⟩
  · subst ht
    exact List.mem_append_left _ (List.mem_map_of_mem hg)
  · subst ht
    exact List.mem_append_right _ (List.mem_map_of_mem hg)

theorem holds_tok (g : Grant) : g.Holds g.tok :=
  Or.inl rfl

theorem Grant.Merged.trans {g'' : Grant} (hclear : RotationsClear grants) (hg : g ∈ grants)
    (hg'' : g'' ∈ grants) (hne : g.tok ≠ []) (hne'' : g''.tok ≠ []) (h : g.Merged g')
    (h' : g'.Merged g'') : g.Merged g'' := by
  rcases h with heq | ⟨htok, hprev⟩
  · rcases h' with heq' | ⟨htok', hprev'⟩
    · exact Or.inl (heq.trans heq')
    · have hback := heq.trans htok'
      exact Or.inr ⟨hback, hclear g'' hg'' g hg (hback ▸ hne) hback.symm⟩
  · rcases h' with heq' | ⟨htok', hprev'⟩
    · have hback := hprev.trans heq'
      exact Or.inr ⟨(hclear g hg g'' hg'' (hback ▸ hne'') hback).symm, hback⟩
    · exact Or.inl (htok.trans hprev')

/-!
## One pass of the loop
-/

def Grant.normNames (L : Library) (g : Grant) : List Bytes :=
  g.names.map (Proxy.normalizeName L.lowerRune)

structure Valid (L : Library) (g : Grant) : Prop where
  tok : g.tok ≠ []
  names : g.names ≠ []
  norms : forall name, name ∈ g.normNames L -> name ≠ []
  prev : g.prev ≠ g.tok

structure Fits (g : Grant) (e : GrantEntry) : Prop where
  account : g.account = [] ∨ e.account = [] ∨ e.account = g.account
  expiry : g.expiresAt = 0 ∨ e.expiresAt = 0 ∨ e.expiresAt = g.expiresAt

def Grant.mergedInto (L : Library) (g : Grant) (e : GrantEntry) : GrantEntry where
  names := e.names ∪ (g.normNames L).toFinset
  account := if g.account = [] then e.account else g.account
  expiresAt := if g.expiresAt = 0 then e.expiresAt else g.expiresAt

def Building.idOf (L : Library) (st : Building) (g : Grant) : Nat :=
  (st.byHash.lookup (L.sum256 g.tok)).getD st.next

def Building.entryOf (L : Library) (st : Building) (g : Grant) : GrantEntry :=
  ((st.byHash.lookup (L.sum256 g.tok)).map st.entries).getD ⟨∅, [], 0⟩

/-- The previous token is not another entry's. -/
def PrevFree (L : Library) (st : Building) (g : Grant) : Prop :=
  g.prev ≠ [] -> forall id,
    (st.byHash.insert (L.sum256 g.tok) (st.idOf L g)).lookup (L.sum256 g.prev) = some id ->
      id = st.idOf L g

def Building.added (L : Library) (st : Building) (g : Grant) : Building where
  byHash :=
    if g.prev = [] then st.byHash.insert (L.sum256 g.tok) (st.idOf L g)
    else (st.byHash.insert (L.sum256 g.tok) (st.idOf L g)).insert (L.sum256 g.prev) (st.idOf L g)
  entries := Function.update st.entries (st.idOf L g) (g.mergedInto L (st.entryOf L g))
  next := max st.next (st.idOf L g + 1)

theorem bindAccount_eq_ok {i : Nat} {account : Bytes} {e e' : GrantEntry} :
    e.bindAccount i account = Except.ok e' <->
      (account = [] ∨ e.account = [] ∨ e.account = account) ∧
        e' = { e with account := if account = [] then e.account else account } := by
  unfold GrantEntry.bindAccount
  split
  · rename_i hnone
    simp only [hnone, true_or, true_and, Except.ok.injEq]
    exact eq_comm
  · rename_i hsome
    split
    · rename_i hconflict
      simp [hsome, hconflict]
    · rename_i hfits
      have hroom : e.account = [] ∨ e.account = account := by
        rw [not_and_or, not_not, not_not] at hfits
        exact hfits
      simp only [hsome, hroom, or_true, true_and, Except.ok.injEq]
      exact eq_comm

theorem bindExpiry_eq_ok {i : Nat} {expiresAt : Int} {e e' : GrantEntry} :
    e.bindExpiry i expiresAt = Except.ok e' <->
      (expiresAt = 0 ∨ e.expiresAt = 0 ∨ e.expiresAt = expiresAt) ∧
        e' = { e with expiresAt := if expiresAt = 0 then e.expiresAt else expiresAt } := by
  unfold GrantEntry.bindExpiry
  split
  · rename_i hnone
    simp only [hnone, true_or, true_and, Except.ok.injEq]
    exact eq_comm
  · rename_i hsome
    split
    · rename_i hconflict
      simp [hsome, hconflict]
    · rename_i hfits
      have hroom : e.expiresAt = 0 ∨ e.expiresAt = expiresAt := by
        rw [not_and_or, not_not, not_not] at hfits
        exact hfits
      simp only [hsome, hroom, or_true, true_and, Except.ok.injEq]
      exact eq_comm

theorem addNames_eq_ok {i : Nat} {names : List Bytes} {e e' : GrantEntry} :
    GrantEntry.addNames L i names e = Except.ok e' <->
      (forall norm, norm ∈ names.map (Proxy.normalizeName L.lowerRune) -> norm ≠ []) ∧
        e' = { e with
          names := e.names ∪ (names.map (Proxy.normalizeName L.lowerRune)).toFinset } := by
  induction names generalizing e with
  | nil => simp [GrantEntry.addNames, eq_comm]
  | cons name rest ih =>
      rw [GrantEntry.addNames]
      split
      · rename_i hnone
        simp [hnone]
      · rename_i hsome
        rw [ih]
        simp [hsome]

theorem bindPrevious_eq_ok {st st' : Building} {i id : Nat} (htok : g.tok ≠ []) :
    st.bindPrevious L i g id = Except.ok st' <->
      g.prev ≠ g.tok ∧
        (g.prev ≠ [] -> forall id', st.byHash.lookup (L.sum256 g.prev) = some id' -> id' = id) ∧
        st' = { st with
          byHash := if g.prev = [] then st.byHash else st.byHash.insert (L.sum256 g.prev) id } := by
  unfold Building.bindPrevious
  split
  · rename_i hnone
    simp only [hnone, Except.ok.injEq, ne_eq, Ne.symm htok, not_false_eq_true, not_true_eq_false,
      false_implies, true_and]
    exact eq_comm
  · rename_i hsome
    split
    · rename_i hsame
      simp [hsame]
    · rename_i hdiffers
      split
      · rename_i hbound
        rcases (Option.any_eq_true _ _).mp hbound with ⟨id', hlookup, hne⟩
        simp only [ne_eq, decide_eq_true_eq] at hne
        simp [hsome, hlookup, hne]
      · rename_i hfree
        have hother : forall id', st.byHash.lookup (L.sum256 g.prev) = some id' -> id' = id := by
          intro id' hlookup
          by_contra hne
          apply hfree
          simp [hlookup, hne]
        simp only [hdiffers, hsome, ne_eq, not_false_eq_true, true_implies, true_and,
          Except.ok.injEq]
        constructor
        · intro h
          exact ⟨hother, h.symm⟩
        · intro h
          exact h.2.symm

theorem openEntry_eq_ok {st : Building} {i : Nat} {opened : Nat × GrantEntry} :
    st.openEntry L i g = Except.ok opened <->
      (g.account = [] ∨ (st.entryOf L g).account = [] ∨ (st.entryOf L g).account = g.account) ∧
        opened = (st.idOf L g,
          { st.entryOf L g with
            account := if g.account = [] then (st.entryOf L g).account else g.account }) := by
  unfold Building.openEntry Building.entryOf Building.idOf
  cases hlookup : st.byHash.lookup (L.sum256 g.tok) with
  | none =>
      have haccount : (if g.account = [] then [] else g.account) = g.account := by
        split
        · rename_i hnone
          exact hnone.symm
        · rfl
      simp only [Option.map_none, Option.getD_none, haccount, Except.ok.injEq, true_or, or_true,
        true_and]
      exact eq_comm
  | some id =>
      simp only [bind_eq_ok, bindAccount_eq_ok, Option.map_some, Option.getD_some,
        Except.ok.injEq]
      constructor
      · intro h
        rcases h with ⟨e, ⟨hfits, he⟩, hopened⟩
        subst he hopened
        exact ⟨hfits, rfl⟩
      · intro h
        exact ⟨_, ⟨h.1, rfl⟩, h.2.symm⟩

theorem addGrant_eq_ok {st st' : Building} {i : Nat} :
    st.addGrant L i g = Except.ok st' <->
      Valid L g ∧ Fits g (st.entryOf L g) ∧ PrevFree L st g ∧ st' = st.added L g := by
  unfold Building.addGrant
  split
  · rename_i htok
    constructor
    · intro h
      cases h
    · intro h
      exact absurd htok h.1.tok
  · rename_i htok
    split
    · rename_i hnames
      constructor
      · intro h
        cases h
      · intro h
        exact absurd hnames h.1.names
    · rename_i hnames
      simp only [bind_eq_ok, openEntry_eq_ok, bindExpiry_eq_ok, addNames_eq_ok,
        bindPrevious_eq_ok htok]
      constructor
      · intro h
        rcases h with ⟨opened, ⟨haccount, rfl⟩, bound, ⟨hexpiry, rfl⟩, e, ⟨hnorms, rfl⟩, hne, hfree,
          hst⟩
        refine ⟨⟨htok, hnames, hnorms, hne⟩, ⟨haccount, hexpiry⟩, hfree, ?_⟩
        rw [hst]
        rfl
      · intro h
        rcases h with ⟨hvalid, hfits, hfree, hst⟩
        refine ⟨_, ⟨hfits.account, rfl⟩, _, ⟨hfits.expiry, rfl⟩, _, ⟨hvalid.norms, rfl⟩, hvalid.prev,
          hfree, ?_⟩
        rw [hst]
        rfl

end StaticTokens
end Server
end Ephor
