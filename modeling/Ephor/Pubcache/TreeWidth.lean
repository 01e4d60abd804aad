import Ephor.Pubcache.ManifestBinding

/-!
# The turns of a proof

The loop of the verifier knows a position and the width of the tree.  They decide at
which levels a sibling is taken, and on which side the node stands: the turns of the
position.  Under a fixed root the turns are all that the loop says about the tree, and
a proof is accepted exactly when its turns lead down the real tree to a leaf.

Trees of two widths can have a path in common.  Going down from the root, a tree of `n`
leaves has a perfect left part, and a right part that is the tree of the remaining
leaves.
-/

namespace Ephor
namespace Pubcache

open Foundation
open Foundation.SplitTree
open HashTree

/-- For each level where the test sees a sibling, from the leaves up, whether the node
is the left one of the two. -/
def turns (hasSibling : Nat -> Nat -> Bool) (cur levelLen : Nat) : List Bool :=
  if 1 < levelLen then
    if hasSibling cur levelLen then
      decide (cur % 2 = 0) :: turns hasSibling (cur / 2) ((levelLen + 1) / 2)
    else
      turns hasSibling (cur / 2) ((levelLen + 1) / 2)
  else
    []
termination_by levelLen

variable {cur levelLen n : Nat} {path : List Bool}

theorem turns_of_sibling {hasSibling : Nat -> Nat -> Bool} (hlen : 1 < levelLen)
    (hs : hasSibling cur levelLen = true) :
    turns hasSibling cur levelLen =
      decide (cur % 2 = 0) :: turns hasSibling (cur / 2) ((levelLen + 1) / 2) := by
  rw [turns, if_pos hlen, if_pos hs]

theorem turns_of_no_sibling {hasSibling : Nat -> Nat -> Bool} (hlen : 1 < levelLen)
    (hs : hasSibling cur levelLen = false) :
    turns hasSibling cur levelLen = turns hasSibling (cur / 2) ((levelLen + 1) / 2) := by
  rw [turns.eq_def, if_pos hlen, hs, if_neg Bool.false_ne_true]

theorem turns_of_le_one {hasSibling : Nat -> Nat -> Bool} (hlen : Not (1 < levelLen)) :
    turns hasSibling cur levelLen = [] := by
  rw [turns, if_neg hlen]

/-!
# The loop as a climb
-/

section Climb

variable {α δ ε : Type} (hash : α ⊕ δ × δ -> δ) {tooShort : Nat -> ε}

def nodeOf (x y : δ) : δ :=
  hash (Sum.inr (x, y))

theorem nodeOf_inOrder (cur : Nat) (d s : δ) :
    hash (Sum.inr (inOrder (decide (cur % 2 = 0)) d s)) =
      if cur % 2 = 0 then nodeOf hash d s else nodeOf hash s d := by
  by_cases h : cur % 2 = 0 <;> simp [inOrder, nodeOf, h]

theorem climb_append (d : δ) (above below : List (Bool × δ)) :
    climb hash d (above ++ below) = climb hash (climb hash d below) above := by
  induction above with
  | nil => rfl
  | cons step above ih =>
      rw [List.cons_append, climb, ih, climb]

theorem foldPath_eq_ok_iff (hasSibling : Nat -> Nat -> Bool) (cur levelLen used : Nat)
    (acc top : δ) (path : List δ) :
    foldPath (nodeOf hash) tooShort hasSibling cur levelLen used acc path =
        Except.ok (top, []) <->
      path.length = (turns hasSibling cur levelLen).length ∧
        climb hash acc ((turns hasSibling cur levelLen).zip path).reverse = top := by
  fun_induction foldPath (nodeOf hash) tooShort hasSibling cur levelLen used acc path with
  | case1 cur levelLen used acc hlen hsib =>
      rw [turns_of_sibling hlen hsib]
      constructor
      · intro h
        cases h
      · intro h
        cases h.1
  | case2 cur levelLen used acc hlen hsib s rest ih =>
      rw [dite_eq_ite] at ih
      rw [ih, turns_of_sibling hlen hsib, List.zip_cons_cons, List.reverse_cons, climb_append,
        List.length_cons, List.length_cons, Nat.add_right_cancel_iff, climb,
        climb, nodeOf_inOrder hash]
  | case3 cur levelLen used acc path hlen hsib ih =>
      rw [ih, turns_of_no_sibling hlen (Bool.eq_false_of_not_eq_true hsib)]
  | case4 cur levelLen used acc path hlen =>
      rw [turns_of_le_one hlen]
      constructor
      · intro h
        injection h with hpair
        injection hpair with hacc hpath
        rw [hpath, hacc]
        exact ⟨rfl, rfl⟩
      · intro h
        rw [List.length_eq_zero_iff.mp h.1, <- h.2]
        rfl

end Climb

/-!
# Positions of a tree
-/

section Positions

variable {α : Type}

theorem leafAt_turns {level : List (HashTree α)} {t x : HashTree α}
    (hroot : levelRoot node level = some t) (hx : level[cur]? = some x) (below : List Bool) :
    t.leafAt ((turns siblingInLevel cur level.length).reverse ++ below) = x.leafAt below := by
  induction level, cur using auditPath.induct node generalizing x below with
  | case1 level cur hlen ih =>
      rw [<- levelRoot_reduceLevel] at hroot
      by_cases hs : cur ^^^ 1 < level.length
      · have hsib : level[cur ^^^ 1]? = some (level[cur ^^^ 1]) :=
          List.getElem?_eq_getElem hs
        have hup := ih hroot (reduceLevel_of_sibling node hx hsib)
          (decide (cur % 2 = 0) :: below)
        rw [length_reduceLevel] at hup
        rw [turns_of_sibling hlen (decide_eq_true hs), List.reverse_cons, List.append_assoc,
          List.singleton_append, hup]
        by_cases heven : cur % 2 = 0 <;> simp [heven, leafAt]
      · have hup := ih hroot (reduceLevel_of_no_sibling node hx (Nat.not_lt.mp hs)) below
        rw [length_reduceLevel] at hup
        rw [turns_of_no_sibling hlen (decide_eq_false hs), hup]
  | case2 level cur hlen =>
      have hone := levelRoot_of_length_one node hlen hx
      rw [hroot] at hone
      injection hone with htx
      rw [turns_of_le_one hlen, htx]
      rfl

theorem turns_left_child {up : Nat} (hright : 2 * up + 1 < levelLen) :
    turns siblingInLevel (2 * up) levelLen =
      true :: turns siblingInLevel up ((levelLen + 1) / 2) := by
  have hsib : siblingInLevel (2 * up) levelLen = true := by
    apply decide_eq_true
    rw [xor_one_of_even (by omega)]
    exact hright
  have hhalf : 2 * up / 2 = up := by omega
  rw [turns_of_sibling (by omega) hsib, hhalf, decide_eq_true (by omega)]

theorem turns_right_child {up : Nat} (hright : 2 * up + 1 < levelLen) :
    turns siblingInLevel (2 * up + 1) levelLen =
      false :: turns siblingInLevel up ((levelLen + 1) / 2) := by
  have hsib : siblingInLevel (2 * up + 1) levelLen = true := by
    apply decide_eq_true
    rw [xor_one_of_odd (by omega)]
    omega
  have hhalf : (2 * up + 1) / 2 = up := by omega
  rw [turns_of_sibling (by omega) hsib, hhalf, decide_eq_false (by omega)]

theorem turns_only_child {up : Nat} (hlen : 1 < levelLen) (hlast : Not (2 * up + 1 < levelLen)) :
    turns siblingInLevel (2 * up) levelLen = turns siblingInLevel up ((levelLen + 1) / 2) := by
  have hsib : siblingInLevel (2 * up) levelLen = false := by
    apply decide_eq_false
    rw [xor_one_of_even (by omega)]
    exact hlast
  have hhalf : 2 * up / 2 = up := by omega
  rw [turns_of_no_sibling hlen hsib, hhalf]

theorem exists_position {level : List (HashTree α)} {t : HashTree α} {a : α}
    (hroot : levelRoot node level = some t) (hpath : t.leafAt path = some a) :
    exists cur x below, level[cur]? = some x ∧
      path = (turns siblingInLevel cur level.length).reverse ++ below ∧
      x.leafAt below = some a := by
  induction hsize : level.length using Nat.strong_induction_on generalizing level with
  | _ n ih =>
      by_cases hlen : 1 < level.length
      · rw [<- levelRoot_reduceLevel] at hroot
        rcases ih (reduceLevel node level).length
            (by rw [length_reduceLevel]; omega) hroot rfl with ⟨up, y, turned, hy, heq, hleaf⟩
        have hup : up < (reduceLevel node level).length :=
          (List.getElem?_eq_some_iff.mp hy).1
        rw [length_reduceLevel] at hup heq
        have hlow : 2 * up < level.length := by omega
        have hx : level[2 * up]? = some (level[2 * up]) := List.getElem?_eq_getElem hlow
        by_cases hright : 2 * up + 1 < level.length
        · have hs : level[2 * up + 1]? = some (level[2 * up + 1]) :=
            List.getElem?_eq_getElem hright
          have hnode := getElem?_pairUp_of_pair node hx hs
          rw [show pairUp node level = reduceLevel node level from rfl,
            hy] at hnode
          injection hnode with hnode
          rw [hnode] at hleaf
          cases turned with
          | nil => cases hleaf
          | cons turn below =>
              cases turn with
              | true =>
                  refine ⟨2 * up, _, below, hx, ?_, hleaf⟩
                  rw [<- hsize, turns_left_child hright, List.reverse_cons, List.append_assoc, heq]
                  rfl
              | false =>
                  refine ⟨2 * up + 1, _, below, hs, ?_, hleaf⟩
                  rw [<- hsize, turns_right_child hright, List.reverse_cons, List.append_assoc, heq]
                  rfl
        · have hlast := getElem?_pairUp_of_last node hx (by omega)
          rw [show pairUp node level = reduceLevel node level from rfl,
            hy] at hlast
          injection hlast with hlast
          rw [hlast] at hleaf
          refine ⟨2 * up, _, turned, hx, ?_, hleaf⟩
          rw [<- hsize, turns_only_child hlen hright]
          exact heq
      · cases level with
        | nil =>
            rw [levelRoot] at hroot
            cases hroot
        | cons x rest =>
            have hzero : (x :: rest)[0]? = some x := rfl
            have hone := levelRoot_of_length_one node hlen hzero
            rw [hroot] at hone
            injection hone with htx
            refine ⟨0, x, path, hzero, ?_, htx ▸ hpath⟩
            rw [<- hsize, turns_of_le_one hlen]
            rfl

theorem leafAt_treeOf_iff {l : List α} {t : HashTree α} (ht : treeOf l = some t) {a : α} :
    t.leafAt path = some a <->
      exists cur, l[cur]? = some a ∧ path = (turns siblingInLevel cur l.length).reverse := by
  rw [treeOf, <- levelRoot_eq_mth] at ht
  constructor
  · intro hpath
    rcases exists_position ht hpath with ⟨cur, x, below, hx, heq, hleaf⟩
    rw [List.getElem?_map] at hx
    rcases Option.map_eq_some_iff.mp hx with ⟨b, hb, rfl⟩
    rw [List.length_map] at heq
    cases below with
    | nil =>
        injection hleaf with hba
        rw [List.append_nil] at heq
        exact ⟨cur, hba ▸ hb, heq⟩
    | cons turn below => cases hleaf
  · intro h
    rcases h with ⟨cur, ha, rfl⟩
    have hx : (l.map leaf)[cur]? = some (leaf a) := by
      rw [List.getElem?_map, ha]
      rfl
    have hleaf := leafAt_turns ht hx []
    rw [List.length_map, List.append_nil] at hleaf
    exact hleaf

end Positions

/-!
# Paths and widths
-/

/-- The path leads to some position of a tree of `n` leaves. -/
def Walks (n : Nat) (path : List Bool) : Prop :=
  exists cur, cur < n ∧ path = (turns siblingInLevel cur n).reverse

theorem walks_iff_leafAt {t : HashTree Unit} (ht : treeOf (List.replicate n ()) = some t) :
    Walks n path <-> t.leafAt path = some () := by
  rw [leafAt_treeOf_iff ht, List.length_replicate]
  constructor
  · intro h
    rcases h with ⟨cur, hcur, hpath⟩
    exact ⟨cur, by rw [List.getElem?_replicate, if_pos hcur], hpath⟩
  · intro h
    rcases h with ⟨cur, hcur, hpath⟩
    have hlt := (List.getElem?_eq_some_iff.mp hcur).1
    rw [List.length_replicate] at hlt
    exact ⟨cur, hlt, hpath⟩

theorem exists_treeOf (hn : 0 < n) : exists t, treeOf (List.replicate n ()) = some t := by
  apply Option.isSome_iff_exists.mp
  apply mth_isSome
  apply List.ne_nil_of_length_pos
  rw [List.length_map, List.length_replicate]
  exact hn

theorem walks_one : Walks 1 path <-> path = [] := by
  constructor
  · intro h
    rcases h with ⟨cur, _, rfl⟩
    rw [turns_of_le_one (by omega)]
    rfl
  · intro h
    refine ⟨0, Nat.one_pos, ?_⟩
    rw [h, turns_of_le_one (by omega)]
    rfl

theorem walks_add {j b : Nat} (hb : 0 < b) (hle : b <= 2 ^ j) (path : List Bool) :
    Walks (2 ^ j + b) path <->
      (exists below, path = true :: below ∧ Walks (2 ^ j) below) ∨
        exists below, path = false :: below ∧ Walks b below := by
  rcases exists_treeOf (Nat.two_pow_pos j) with ⟨l, hl⟩
  rcases exists_treeOf hb with ⟨r, hr⟩
  have htree : treeOf (List.replicate (2 ^ j + b) ()) = some (node l r) := by
    rw [treeOf, <- List.replicate_append_replicate, List.map_append, mth_append node
      (by rw [List.length_map, List.length_replicate])
      (by rw [List.length_map, List.length_replicate]; exact hb)
      (by rw [List.length_map, List.length_replicate]; exact hle)]
    rw [treeOf] at hl hr
    rw [hl, hr]
    rfl
  rw [walks_iff_leafAt htree]
  cases path with
  | nil => simp [leafAt]
  | cons turn below =>
      cases turn with
      | true =>
          rw [leafAt, <- walks_iff_leafAt hl]
          simp
      | false =>
          rw [leafAt, <- walks_iff_leafAt hr]
          simp

theorem walks_two_pow {j : Nat} : Walks (2 ^ j) path <-> path.length = j := by
  induction j generalizing path with
  | zero => rw [Nat.pow_zero, walks_one, List.length_eq_zero_iff]
  | succ j ih =>
      rw [Nat.pow_succ, Nat.mul_two, walks_add (Nat.two_pow_pos j) (Nat.le_refl _)]
      cases path with
      | nil => simp
      | cons turn below =>
          cases turn with
          | true | false => simp [ih]

/-- The widths of the left parts, going down on the right: two of them are equal, or
the trees end in their last leaves together. -/
def widthsMeet (n m : Nat) : Bool :=
  if 2 <= n ∧ 2 <= m then
    splitPoint n == splitPoint m || widthsMeet (n - splitPoint n) (m - splitPoint m)
  else
    n == m
termination_by n
decreasing_by
  have hpos := splitPoint_pos n
  omega

theorem walks_split (hn : 2 <= n) (path : List Bool) :
    Walks n path <->
      (exists below, path = true :: below ∧ 2 ^ below.length = splitPoint n) ∨
        exists below, path = false :: below ∧ Walks (n - splitPoint n) below := by
  have hspec := splitPoint_spec hn
  have hadd := walks_add (j := Nat.log2 (n - 1)) (b := n - splitPoint n) (by omega)
    (by rw [<- splitPoint]; omega) path
  rw [<- splitPoint, Nat.add_sub_cancel' (Nat.le_of_lt hspec.1)] at hadd
  rw [hadd]
  apply or_congr _ Iff.rfl
  apply exists_congr
  intro below
  rw [splitPoint, walks_two_pow, Nat.pow_right_inj (Nat.le_refl 2)]

theorem not_walks_nil (hn : 2 <= n) : Not (Walks n []) := by
  rw [walks_split hn]
  simp

theorem exists_walks_iff {m : Nat} (hn : 0 < n) (hm : 0 < m) :
    (exists path, Walks n path ∧ Walks m path) <-> widthsMeet n m = true := by
  induction n using Nat.strong_induction_on generalizing m with
  | _ n ih =>
      rw [widthsMeet]
      by_cases hboth : 2 <= n ∧ 2 <= m
      · rcases hboth with ⟨hn2, hm2⟩
        have hnspec := splitPoint_spec hn2
        have hmspec := splitPoint_spec hm2
        have hnpos := splitPoint_pos n
        rw [if_pos ⟨hn2, hm2⟩, Bool.or_eq_true, beq_iff_eq,
          <- ih (n - splitPoint n) (by omega) (by omega) (by omega)]
        constructor
        · intro h
          rcases h with ⟨path, hpath, hpath'⟩
          rcases (walks_split hn2 path).mp hpath with ⟨below, rfl, hlen⟩ | ⟨below, rfl, hwalk⟩
          · rcases (walks_split hm2 _).mp hpath' with ⟨below', heq, hlen'⟩ | ⟨below', heq, _⟩
            · injection heq with _ heq
              rw [heq] at hlen
              exact Or.inl (hlen.symm.trans hlen')
            · cases heq
          · rcases (walks_split hm2 _).mp hpath' with ⟨below', heq, _⟩ | ⟨below', heq, hwalk'⟩
            · cases heq
            · injection heq with _ heq
              rw [heq] at hwalk
              exact Or.inr ⟨below', hwalk, hwalk'⟩
        · intro h
          cases h with
          | inl hsame =>
              have hlen : 2 ^ (List.replicate (Nat.log2 (n - 1)) true).length = splitPoint n := by
                rw [List.length_replicate]
                rfl
              exact ⟨_, (walks_split hn2 _).mpr (Or.inl ⟨_, rfl, hlen⟩),
                (walks_split hm2 _).mpr (Or.inl ⟨_, rfl, hlen.trans hsame⟩)⟩
          | inr hbelow =>
              rcases hbelow with ⟨below, hwalk, hwalk'⟩
              exact ⟨_, (walks_split hn2 _).mpr (Or.inr ⟨below, rfl, hwalk⟩),
                (walks_split hm2 _).mpr (Or.inr ⟨below, rfl, hwalk'⟩)⟩
      · rw [if_neg hboth, beq_iff_eq]
        constructor
        · intro h
          rcases h with ⟨path, hpath, hpath'⟩
          by_cases hone : n = 1
          · rw [hone, walks_one] at hpath
            rw [hpath] at hpath'
            by_cases hm2 : 2 <= m
            · exact (not_walks_nil hm2 hpath').elim
            · omega
          · have hm1 : m = 1 := by omega
            rw [hm1, walks_one] at hpath'
            rw [hpath'] at hpath
            exact (not_walks_nil (by omega) hpath).elim
        · intro h
          have hone : n = 1 := by omega
          rw [<- h, hone]
          exact ⟨[], walks_one.mpr rfl, walks_one.mpr rfl⟩

end Pubcache
end Ephor
