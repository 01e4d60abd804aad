import Ephor.Foundation.SplitTree

/-!
# Trees under a hash

A hash that takes a leaf value, or the digests of two subtrees, gives every binary
tree a digest.  The tree remembers what was hashed: the inputs are listed beside the
digest, and where no two of them collide the digest determines the tree, or at least
the part of it that a path from a leaf to the root goes through.
-/

namespace Ephor
namespace Foundation

universe u v

inductive HashTree (α : Type u) where
  | leaf (a : α)
  | node (l r : HashTree α)
deriving DecidableEq

namespace HashTree

variable {α : Type u}

def fringe : HashTree α -> List α
  | leaf a => [a]
  | node l r => l.fringe ++ r.fringe

/-- The leaf at the end of the turns; a turn says whether to go on in the left subtree. -/
def leafAt : HashTree α -> List Bool -> Option α
  | leaf a, [] => some a
  | leaf _, _ :: _ => none
  | node _ _, [] => none
  | node l _, true :: turns => l.leafAt turns
  | node _ r, false :: turns => r.leafAt turns

section Hash

variable {δ : Type v} (hash : α ⊕ δ × δ -> δ)

def digest : HashTree α -> δ
  | leaf a => hash (Sum.inl a)
  | node l r => hash (Sum.inr (l.digest, r.digest))

def inputs : HashTree α -> List (α ⊕ δ × δ)
  | leaf a => [Sum.inl a]
  | node l r => Sum.inr (l.digest hash, r.digest hash) :: (l.inputs ++ r.inputs)

/-- No input of the first list has the digest of another one of the second. -/
def Apart (xs ys : List (α ⊕ δ × δ)) : Prop :=
  forall x, x ∈ xs -> forall y, y ∈ ys -> hash x = hash y -> x = y

variable {hash}

theorem Apart.mono {xs xs' ys ys' : List (α ⊕ δ × δ)} (h : Apart hash xs ys)
    (hx : forall x, x ∈ xs' -> x ∈ xs) (hy : forall y, y ∈ ys' -> y ∈ ys) : Apart hash xs' ys' := by
  intro x hxs y hys
  exact h x (hx x hxs) y (hy y hys)

theorem left_mem_inputs {l r : HashTree α} {x : α ⊕ δ × δ} (h : x ∈ l.inputs hash) :
    x ∈ (node l r).inputs hash :=
  List.mem_cons_of_mem _ (List.mem_append_left _ h)

theorem right_mem_inputs {l r : HashTree α} {x : α ⊕ δ × δ} (h : x ∈ r.inputs hash) :
    x ∈ (node l r).inputs hash :=
  List.mem_cons_of_mem _ (List.mem_append_right _ h)

theorem digest_inj {t u : HashTree α} (hapart : Apart hash (t.inputs hash) (u.inputs hash))
    (h : t.digest hash = u.digest hash) : t = u := by
  induction t generalizing u with
  | leaf a =>
      cases u with
      | leaf b =>
          have hinput := hapart (Sum.inl a) List.mem_cons_self (Sum.inl b) List.mem_cons_self h
          injection hinput with hab
          rw [hab]
      | node l' r' =>
          have hinput := hapart (Sum.inl a) List.mem_cons_self
            (Sum.inr (l'.digest hash, r'.digest hash)) List.mem_cons_self h
          cases hinput
  | node l r ihl ihr =>
      cases u with
      | leaf b =>
          have hinput := hapart (Sum.inr (l.digest hash, r.digest hash)) List.mem_cons_self
            (Sum.inl b) List.mem_cons_self h
          cases hinput
      | node l' r' =>
          have hinput := hapart (Sum.inr (l.digest hash, r.digest hash)) List.mem_cons_self
            (Sum.inr (l'.digest hash, r'.digest hash)) List.mem_cons_self h
          injection hinput with hpair
          injection hpair with hleft hright
          have hl := ihl
            (hapart.mono (fun _ => left_mem_inputs) (fun _ => left_mem_inputs)) hleft
          have hr := ihr
            (hapart.mono (fun _ => right_mem_inputs) (fun _ => right_mem_inputs)) hright
          rw [hl, hr]

/-!
# Openings

Turns and siblings are listed from the root down.
-/

variable (hash) in
/-- The leaf at the end of the turns, and the digests of the subtrees passed by. -/
def opening : HashTree α -> List Bool -> Option (α × List δ)
  | leaf a, [] => some (a, [])
  | leaf _, _ :: _ => none
  | node _ _, [] => none
  | node l r, true :: turns => (l.opening turns).map fun o => (o.1, r.digest hash :: o.2)
  | node l r, false :: turns => (r.opening turns).map fun o => (o.1, l.digest hash :: o.2)

variable (hash) in
theorem opening_leafAt (t : HashTree α) (turns : List Bool) :
    (t.opening hash turns).map Prod.fst = t.leafAt turns := by
  induction t generalizing turns with
  | leaf a =>
      cases turns with
      | nil | cons turn turns => rfl
  | node l r ihl ihr =>
      cases turns with
      | nil => rfl
      | cons turn turns =>
          cases turn with
          | true =>
              rw [opening, Option.map_map, leafAt, <- ihl]
              rfl
          | false =>
              rw [opening, Option.map_map, leafAt, <- ihr]
              rfl

/-- The two digests of a node, the one on the path first in the arguments. -/
def inOrder (turn : Bool) (d s : δ) : δ × δ :=
  if turn then (d, s) else (s, d)

variable (hash) in
/-- The digest that the steps lead up to from the digest of a leaf. -/
def climb (d : δ) : List (Bool × δ) -> δ
  | [] => d
  | (turn, s) :: steps => hash (Sum.inr (inOrder turn (climb d steps) s))

variable (hash) in
def climbInputs (d : δ) : List (Bool × δ) -> List (α ⊕ δ × δ)
  | [] => []
  | (turn, s) :: steps =>
      Sum.inr (inOrder turn (climb hash d steps) s) :: climbInputs d steps

/-- Without collisions a climb from a leaf reaches the digest of a tree only along
an opening of the tree. -/
theorem opening_of_climb {t : HashTree α} {a : α} {steps : List (Bool × δ)}
    (hapart : Apart hash (t.inputs hash) (Sum.inl a :: climbInputs hash (hash (Sum.inl a)) steps))
    (h : climb hash (hash (Sum.inl a)) steps = t.digest hash) :
    t.opening hash (steps.map Prod.fst) = some (a, steps.map Prod.snd) := by
  induction steps generalizing t with
  | nil =>
      cases t with
      | leaf b =>
          have hinput := hapart (Sum.inl b) List.mem_cons_self (Sum.inl a) List.mem_cons_self
            h.symm
          injection hinput with hba
          rw [hba]
          rfl
      | node l r =>
          have hinput := hapart (Sum.inr (l.digest hash, r.digest hash)) List.mem_cons_self
            (Sum.inl a) List.mem_cons_self h.symm
          cases hinput
  | cons step steps ih =>
      rcases step with ⟨turn, s⟩
      have htop : Sum.inr (inOrder turn (climb hash (hash (Sum.inl a)) steps) s) ∈
          Sum.inl a :: climbInputs hash (hash (Sum.inl a)) ((turn, s) :: steps) :=
        List.mem_cons_of_mem _ List.mem_cons_self
      have hbelow : forall y,
          y ∈ Sum.inl a :: climbInputs hash (hash (Sum.inl a)) steps ->
            y ∈ Sum.inl a :: climbInputs hash (hash (Sum.inl a)) ((turn, s) :: steps) := by
        intro y hy
        cases hy with
        | head => exact List.mem_cons_self
        | tail _ hy => exact List.mem_cons_of_mem _ (List.mem_cons_of_mem _ hy)
      cases t with
      | leaf b =>
          have hinput := hapart (Sum.inl b) List.mem_cons_self _ htop h.symm
          cases hinput
      | node l r =>
          have hinput := hapart (Sum.inr (l.digest hash, r.digest hash)) List.mem_cons_self
            _ htop h.symm
          injection hinput with hpair
          cases turn with
          | true =>
              injection hpair with hdigest hsibling
              have hopen := ih (hapart.mono (fun _ => left_mem_inputs) hbelow) hdigest.symm
              rw [List.map_cons, List.map_cons, opening, hopen, hsibling]
              rfl
          | false =>
              injection hpair with hsibling hdigest
              have hopen := ih (hapart.mono (fun _ => right_mem_inputs) hbelow) hdigest.symm
              rw [List.map_cons, List.map_cons, opening, hopen, hsibling]
              rfl

theorem mem_inputs_of_child {t child : HashTree α} {x p : α ⊕ δ × δ}
    {xs : List (α ⊕ δ × δ)} (hp : p ∈ t.inputs hash)
    (hchild : forall y, y ∈ child.inputs hash -> y ∈ t.inputs hash)
    (hinputs : forall y, y ∈ x :: xs -> y ∈ child.inputs hash) :
    forall y, y ∈ x :: p :: xs -> y ∈ t.inputs hash := by
  intro y hy
  cases hy with
  | head => exact hchild x (hinputs x List.mem_cons_self)
  | tail _ hy =>
      cases hy with
      | head => exact hp
      | tail _ hy => exact hchild y (hinputs y (List.mem_cons_of_mem _ hy))

theorem opened_below {o : Option (α × List δ)} {d : δ} {a : α} {siblings : List δ}
    (h : o.map (fun o => (o.1, d :: o.2)) = some (a, siblings)) :
    exists below, o = some (a, below) ∧ d :: below = siblings := by
  rcases Option.map_eq_some_iff.mp h with ⟨⟨b, below⟩, ho, heq⟩
  cases heq
  exact ⟨below, ho, rfl⟩

theorem climb_of_opening {t : HashTree α} {turns : List Bool} {a : α} {siblings : List δ}
    (h : t.opening hash turns = some (a, siblings)) :
    siblings.length = turns.length ∧
      climb hash (hash (Sum.inl a)) (turns.zip siblings) = t.digest hash ∧
      forall x, x ∈ Sum.inl a :: climbInputs hash (hash (Sum.inl a)) (turns.zip siblings) ->
        x ∈ t.inputs hash := by
  induction t generalizing turns siblings with
  | leaf b =>
      cases turns with
      | nil =>
          injection h with h
          injection h with hb hsiblings
          rw [<- hsiblings, <- hb]
          exact ⟨rfl, rfl, fun x hx => hx⟩
      | cons turn turns => cases h
  | node l r ihl ihr =>
      cases turns with
      | nil => cases h
      | cons turn turns =>
          cases turn with
          | true =>
              rcases opened_below h with ⟨below, ho, rfl⟩
              rcases ihl ho with ⟨hlen, hclimb, hinputs⟩
              refine ⟨congrArg Nat.succ hlen, ?_, ?_⟩
              · rw [List.zip_cons_cons, climb, hclimb]
                rfl
              · rw [List.zip_cons_cons, climbInputs, hclimb]
                exact mem_inputs_of_child List.mem_cons_self (fun _ => left_mem_inputs) hinputs
          | false =>
              rcases opened_below h with ⟨below, ho, rfl⟩
              rcases ihr ho with ⟨hlen, hclimb, hinputs⟩
              refine ⟨congrArg Nat.succ hlen, ?_, ?_⟩
              · rw [List.zip_cons_cons, climb, hclimb]
                rfl
              · rw [List.zip_cons_cons, climbInputs, hclimb]
                exact mem_inputs_of_child List.mem_cons_self (fun _ => right_mem_inputs) hinputs

end Hash

end HashTree

/-!
# Split trees
-/

namespace SplitTree

def treeOf {α : Type u} (l : List α) : Option (HashTree α) :=
  mth HashTree.node (l.map HashTree.leaf)

theorem mth_map {α : Type u} {β : Type v} {node : α -> α -> α} {node' : β -> β -> β}
    {f : α -> β} (hf : forall x y, f (node x y) = node' (f x) (f y)) (l : List α) :
    (mth node l).map f = mth node' (l.map f) := by
  induction l using split_induction with
  | nil => rw [mth, List.map_nil, mth]; rfl
  | single x => rw [List.map_singleton, mth_singleton, mth_singleton]; rfl
  | split j a b ha hb hle hA hB =>
      have ha' : (a.map f).length = 2 ^ j := by rw [List.length_map, ha]
      have hb' : 0 < (b.map f).length := by rw [List.length_map]; exact hb
      have hle' : (b.map f).length <= 2 ^ j := by rw [List.length_map]; exact hle
      rw [List.map_append, mth_append node ha hb hle, mth_append node' ha' hb' hle', <- hA, <- hB]
      cases mth node a with
      | none => rfl
      | some x =>
          cases mth node b with
          | none => rfl
          | some y => exact congrArg some (hf x y)

theorem mth_digest {α : Type u} {δ : Type v} (hash : α ⊕ δ × δ -> δ) (l : List α) :
    (treeOf l).map (HashTree.digest hash) =
      mth (fun x y => hash (Sum.inr (x, y))) (l.map fun a => hash (Sum.inl a)) := by
  have hmap : (treeOf l).map (HashTree.digest hash) =
      mth (fun x y => hash (Sum.inr (x, y)))
        ((l.map HashTree.leaf).map (HashTree.digest hash)) :=
    mth_map (fun _ _ => rfl) _
  rw [List.map_map] at hmap
  exact hmap

theorem fringe_treeOf {α : Type u} {l : List α} {t : HashTree α} (h : treeOf l = some t) :
    t.fringe = l := by
  induction l using split_induction generalizing t with
  | nil =>
      rw [treeOf, List.map_nil, mth] at h
      cases h
  | single x =>
      rw [treeOf, List.map_singleton, mth_singleton] at h
      injection h with h
      rw [<- h]
      rfl
  | split j a b ha hb hle hA hB =>
      rw [treeOf, List.map_append, mth_append HashTree.node (by rw [List.length_map, ha])
        (by rw [List.length_map]; exact hb) (by rw [List.length_map]; exact hle)] at h
      rcases Option.map₂_eq_some_iff.mp h with ⟨l', r', hl', hr', rfl⟩
      rw [HashTree.fringe, hA hl', hB hr']

end SplitTree

end Foundation
end Ephor
