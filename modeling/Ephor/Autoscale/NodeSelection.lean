import Ephor.Autoscale.Pool
import Ephor.Foundation.Selection
import Ephor.Foundation.Transition

/-!
# Selecting a node

`Nearest` and `DrainCandidate` of the `autoscale` package.  Each goes once over the
members, which Go's maps hand out in any order, and keeps the best one so far.
-/

namespace Ephor
namespace Autoscale

open Foundation
open RatioFormat

/-- How `float64` compares: only numbers do, and any two of them. -/
structure RatioFormat.Lawful (ratio : Type) [RatioFormat ratio] : Prop where
  trans : forall a b c : ratio, le a b = true -> le b c = true ->
    le a c = true
  total : forall a b : ratio, le a a = true -> le b b = true ->
    le a b = true ∨ le b a = true

namespace Pool

section Nearest

variable {ratio : Type} [RatioFormat ratio] (lowerRune foldRune : Char -> Char)

/-- `strings.EqualFold`, over the simple case folding of Unicode. -/
def equalFold (s t : List Char) : Bool :=
  s.map foldRune == t.map foldRune

/-- `strings.ToLower(strings.TrimSpace(region))`. -/
def askedRegion (region : String) : List Char :=
  (Text.trim region.toList).map lowerRune

def sameRegion (region : List Char) (m : Member ratio) : Bool :=
  decide (region ≠ []) && equalFold foldRune m.node.region.toList region

/-- One turn of the loop of `Nearest`, with the best member and whether it is in the
region. -/
def considerNear (region : List Char) (best : Option (Member ratio × Bool))
    (m : Member ratio) : Option (Member ratio × Bool) :=
  if !m.routable then
    best
  else
    match best with
    | none => some (m, sameRegion foldRune region m)
    | some (cur, bestSameRegion) =>
        if sameRegion foldRune region m ≠ bestSameRegion then
          if sameRegion foldRune region m then some (m, true) else some (cur, bestSameRegion)
        else if lt m.loadRatio cur.loadRatio ||
            (eq m.loadRatio cur.loadRatio &&
              decide (m.node.id < cur.node.id)) then
          some (m, bestSameRegion)
        else
          some (cur, bestSameRegion)

def nearest (p : Pool ratio) (region : String) (order : List String) : Option Node :=
  ((order.filterMap p.members.lookup).foldl
    (considerNear foldRune (askedRegion lowerRune region)) none).map fun best => best.1.node

end Nearest

/-!
# States of a pool
-/

section States

variable {ratio : Type} [RatioFormat ratio]

def new : Pool ratio :=
  ⟨∅⟩

def markHealth (p : Pool ratio) (id : String) (healthy : Bool) (now : Int) : Pool ratio :=
  p.modify id fun m => { m with healthy := healthy, lastProbe := now }

inductive Op (ratio : Type) where
  | add (n : Node) (now : Int)
  | remove (id : String)
  | markHealth (id : String) (healthy : Bool) (now : Int)
  | drain (id : String)
  | undrain (id : String)
  | updateLoad (id : String) (r : ratio)

def apply (p : Pool ratio) : Op ratio -> Pool ratio
  | Op.add n now => p.add n now
  | Op.remove id => p.remove id
  | Op.markHealth id healthy now => p.markHealth id healthy now
  | Op.drain id => p.drain id
  | Op.undrain id => p.undrain id
  | Op.updateLoad id r => p.updateLoad id r

def afterOps (ops : List (Op ratio)) : Pool ratio :=
  Transition.after apply new ops

def Keyed (p : Pool ratio) : Prop :=
  forall id m, p.members.lookup id = some m -> m.node.id = id

omit [RatioFormat ratio] in
theorem keyed_modify {p : Pool ratio} (h : p.Keyed) (id : String)
    {f : Member ratio -> Member ratio} (hf : forall m, (f m).node = m.node) :
    (p.modify id f).Keyed := by
  unfold modify
  split
  · rename_i m hm
    intro id' m' hm'
    rcases FiniteMap.lookup_insert_eq_some.mp hm' with ⟨hid, heq⟩ | ⟨_, hold⟩
    · rw [heq, hf, hid]
      exact h id m hm
    · exact h id' m' hold
  · exact h

theorem keyed_add {p : Pool ratio} (h : p.Keyed) (n : Node) (now : Int) : (p.add n now).Keyed := by
  unfold add
  split
  · exact h
  · split
    all_goals
      intro id m hm
      rcases FiniteMap.lookup_insert_eq_some.mp hm with ⟨hid, heq⟩ | ⟨_, hold⟩
      · rw [heq, hid]
      · exact h id m hold

theorem keyed_apply {p : Pool ratio} (h : p.Keyed) (op : Op ratio) : (p.apply op).Keyed := by
  cases op with
  | add n now => exact keyed_add h n now
  | remove id =>
      intro id' m hm
      exact h id' m (FiniteMap.lookup_erase_eq_some.mp hm).2
  | markHealth id healthy now | drain id | undrain id | updateLoad id r =>
      exact keyed_modify h id fun _ => rfl

theorem keyed_afterOps (ops : List (Op ratio)) : (afterOps ops).Keyed := by
  have hnew : (new : Pool ratio).Keyed := by
    intro id m hm
    cases hm
  have hstep : forall (p : Pool ratio) op, p.Keyed -> True -> (p.apply op).Keyed :=
    fun _ op h _ => keyed_apply h op
  exact Transition.invariant_after hstep hnew (Transition.stepsMeet_true apply new ops)

def Holds (p : Pool ratio) (m : Member ratio) : Prop :=
  exists id, p.members.lookup id = some m

def Numbered (p : Pool ratio) : Prop :=
  forall m, p.Holds m -> le m.loadRatio m.loadRatio = true

omit [RatioFormat ratio] in
theorem mem_visited {p : Pool ratio} {order : List String}
    (h : FiniteMap.Visits order p.members) {m : Member ratio} :
    m ∈ order.filterMap p.members.lookup <-> p.Holds m := by
  rw [List.mem_filterMap]
  constructor
  · intro hm
    rcases hm with ⟨id, _, hid⟩
    exact ⟨id, hid⟩
  · intro hm
    rcases hm with ⟨id, hid⟩
    exact ⟨id, FiniteMap.mem_of_visits h hid, hid⟩

omit [RatioFormat ratio] in
theorem eq_of_id {p : Pool ratio} (hkeyed : p.Keyed) {m m' : Member ratio} (h : p.Holds m)
    (h' : p.Holds m') (hid : m.node.id = m'.node.id) : m = m' := by
  rcases h with ⟨id, hm⟩
  rcases h' with ⟨id', hm'⟩
  have hkey : id = id' := by
    rw [<- hkeyed id m hm, <- hkeyed id' m' hm', hid]
  rw [hkey, hm'] at hm
  injection hm with hm
  exact hm.symm

end States

/-!
# The order of preference
-/

section Order

variable {ratio : Type} [RatioFormat ratio]

/-- Members with the mark come last, then the load decides, and then the id. -/
def Precedes (mark : Member ratio -> Bool) (a b : Member ratio) : Prop :=
  mark a = false ∧ mark b = true ∨
    mark a = mark b ∧
      (lt a.loadRatio b.loadRatio = true ∨
        eq a.loadRatio b.loadRatio = true ∧ a.node.id < b.node.id)

/-- The member of the pool that comes before all other candidates. -/
def First (p : Pool ratio) (candidate mark : Member ratio -> Bool) (m : Member ratio) : Prop :=
  (p.Holds m ∧ candidate m = true) ∧
    forall m', p.Holds m' ∧ candidate m' = true -> m' ≠ m -> Precedes mark m m'

theorem lt_iff {a b : ratio} : lt a b = true <-> le a b = true ∧ le b a = false := by
  simp [lt]

theorem eq_iff {a b : ratio} : eq a b = true <-> le a b = true ∧ le b a = true := by
  simp [eq]

theorem lt_false_of_eq {a b : ratio} (h : eq a b = true) : lt a b = false := by
  apply Bool.eq_false_iff.mpr
  intro hlt
  rw [lt_iff] at hlt
  rw [eq_iff, hlt.2] at h
  cases h.2

variable {a b : Member ratio} {mark : Member ratio -> Bool}

theorem precedes_of_mark_eq (h : mark a = mark b) :
    Precedes mark a b <->
      lt a.loadRatio b.loadRatio = true ∨
        eq a.loadRatio b.loadRatio = true ∧ a.node.id < b.node.id := by
  constructor
  · intro hab
    rcases hab with ⟨ha, hb⟩ | ⟨_, hload⟩
    · rw [ha, hb] at h
      cases h
    · exact hload
  · intro hload
    exact Or.inr ⟨h, hload⟩

theorem precedes_of_mark_ne (h : mark a ≠ mark b) : Precedes mark a b <-> mark a = false := by
  constructor
  · intro hab
    rcases hab with ⟨ha, _⟩ | ⟨hmark, _⟩
    · exact ha
    · exact absurd hmark h
  · intro ha
    rw [ha] at h
    exact Or.inl ⟨ha, (Bool.eq_not.mpr (Ne.symm h))⟩

theorem precedes_asymm (h : Precedes mark a b) : Not (Precedes mark b a) := by
  intro h'
  unfold Precedes at h h'
  rw [lt_iff, eq_iff] at h h'
  rcases h with ⟨ha, hb⟩ | ⟨hmark, hload⟩
  · rcases h' with ⟨hb', _⟩ | ⟨hmark', _⟩
    · rw [hb] at hb'
      cases hb'
    · rw [ha, hb] at hmark'
      cases hmark'
  · rcases h' with ⟨hb', ha'⟩ | ⟨_, hload'⟩
    · rw [hb', ha'] at hmark
      cases hmark
    · rcases hload with ⟨hab, hba⟩ | ⟨⟨hab, hba⟩, hid⟩
      · rcases hload' with ⟨hba', _⟩ | ⟨⟨hba', _⟩, _⟩
        · rw [hba] at hba'
          cases hba'
        · rw [hba] at hba'
          cases hba'
      · rcases hload' with ⟨_, hab'⟩ | ⟨_, hid'⟩
        · rw [hab] at hab'
          cases hab'
        · exact String.lt_asymm hid hid'

theorem le_false_of_le (lawful : RatioFormat.Lawful ratio) {a b c : ratio}
    (hab : le a b = true) (hcb : le c b = false) : le c a = false := by
  apply Bool.eq_false_iff.mpr
  intro hca
  rw [lawful.trans c a b hca hab] at hcb
  cases hcb

theorem le_false_of_le' (lawful : RatioFormat.Lawful ratio) {a b c : ratio}
    (hbc : le b c = true) (hba : le b a = false) : le c a = false := by
  apply Bool.eq_false_iff.mpr
  intro hca
  rw [lawful.trans b c a hbc hca] at hba
  cases hba

theorem precedes_trans (lawful : RatioFormat.Lawful ratio) {c : Member ratio}
    (hab : Precedes mark a b) (hbc : Precedes mark b c) : Precedes mark a c := by
  unfold Precedes at hab hbc ⊢
  rw [lt_iff, eq_iff] at hab hbc ⊢
  rcases hab with ⟨ha, hb⟩ | ⟨hmark, hload⟩
  · left
    refine ⟨ha, ?_⟩
    rcases hbc with ⟨hb', _⟩ | ⟨hmark', _⟩
    · rw [hb] at hb'
      cases hb'
    · rw [<- hmark', hb]
  · rcases hbc with ⟨hb', hc⟩ | ⟨hmark', hload'⟩
    · exact Or.inl ⟨hmark.trans hb', hc⟩
    · right
      refine ⟨hmark.trans hmark', ?_⟩
      rcases hload with ⟨hle, hnot⟩ | ⟨⟨hle, hge⟩, hid⟩
      · left
        rcases hload' with ⟨hle', _⟩ | ⟨⟨hle', _⟩, _⟩
        · exact ⟨lawful.trans _ _ _ hle hle', le_false_of_le' lawful hle' hnot⟩
        · exact ⟨lawful.trans _ _ _ hle hle', le_false_of_le' lawful hle' hnot⟩
      · rcases hload' with ⟨hle', hnot'⟩ | ⟨⟨hle', hge'⟩, hid'⟩
        · exact Or.inl ⟨lawful.trans _ _ _ hle hle', le_false_of_le lawful hle hnot'⟩
        · exact Or.inr ⟨⟨lawful.trans _ _ _ hle hle', lawful.trans _ _ _ hge' hge⟩,
            String.lt_trans hid hid'⟩

theorem precedes_total (lawful : RatioFormat.Lawful ratio) (mark : Member ratio -> Bool)
    (ha : le a.loadRatio a.loadRatio = true)
    (hb : le b.loadRatio b.loadRatio = true) (hid : a.node.id ≠ b.node.id) :
    Precedes mark a b ∨ Precedes mark b a := by
  by_cases hmark : mark a = mark b
  · unfold Precedes
    rw [lt_iff, eq_iff, lt_iff, eq_iff]
    cases hab : le a.loadRatio b.loadRatio with
    | true =>
        cases hba : le b.loadRatio a.loadRatio with
        | true =>
            by_cases hlt : a.node.id < b.node.id
            · exact Or.inl (Or.inr ⟨hmark, Or.inr ⟨⟨rfl, rfl⟩, hlt⟩⟩)
            · have hgt : b.node.id < a.node.id := by
                by_contra hge
                exact hid (String.le_antisymm (String.not_lt.mp hge) (String.not_lt.mp hlt))
              exact Or.inr (Or.inr ⟨hmark.symm, Or.inr ⟨⟨rfl, rfl⟩, hgt⟩⟩)
        | false => exact Or.inl (Or.inr ⟨hmark, Or.inl ⟨rfl, rfl⟩⟩)
    | false =>
        have hba := (lawful.total _ _ ha hb).resolve_left (Bool.eq_false_iff.mp hab)
        exact Or.inr (Or.inr ⟨hmark.symm, Or.inl ⟨hba, rfl⟩⟩)
  · cases hb : mark b with
    | true => exact Or.inl (Or.inl ⟨Bool.eq_false_iff.mpr (fun h => hmark (h.trans hb.symm)), hb⟩)
    | false =>
        right
        left
        refine ⟨hb, ?_⟩
        cases ha : mark a with
        | true => rfl
        | false => exact absurd (ha.trans hb.symm) hmark

theorem strictTotalOn (lawful : RatioFormat.Lawful ratio) {p : Pool ratio} (hkeyed : p.Keyed)
    (hnumbered : p.Numbered) {better : Member ratio -> Member ratio -> Bool}
    (hbetter : forall a b, better a b = true <-> Precedes mark a b) :
    Selection.StrictTotalOn better p.Holds where
  asymm := by
    intro a b _ _ hab
    rw [hbetter] at hab ⊢
    exact precedes_asymm hab
  trans := by
    intro a b c _ _ _ hab hbc
    rw [hbetter] at hab hbc ⊢
    exact precedes_trans lawful hab hbc
  total := by
    intro a b ha hb hne
    rw [hbetter, hbetter]
    apply precedes_total lawful mark (hnumbered a ha) (hnumbered b hb)
    intro hid
    exact hne (eq_of_id hkeyed ha hb hid)

theorem select_iff (lawful : RatioFormat.Lawful ratio) {p : Pool ratio} (hkeyed : p.Keyed)
    (hnumbered : p.Numbered) {candidate : Member ratio -> Bool}
    {better : Member ratio -> Member ratio -> Bool}
    (hbetter : forall a b, better a b = true <-> Precedes mark a b) {order : List String}
    (hvisits : FiniteMap.Visits order p.members) (m : Member ratio) :
    Selection.select better ((order.filterMap p.members.lookup).filter candidate) = some m <->
      p.First candidate mark m := by
  have hmem : forall m, m ∈ (order.filterMap p.members.lookup).filter candidate <->
      p.Holds m ∧ candidate m = true := by
    intro m
    rw [List.mem_filter, mem_visited hvisits]
  rw [Selection.select_eq_some (strictTotalOn lawful hkeyed hnumbered hbetter)
    (fun x hx => ((hmem x).mp hx).1), Selection.least_congr hmem]
  unfold Selection.Least First
  simp only [hbetter]

omit [RatioFormat ratio] in
theorem select_none_iff {p : Pool ratio} {candidate : Member ratio -> Bool}
    (better : Member ratio -> Member ratio -> Bool) {order : List String}
    (hvisits : FiniteMap.Visits order p.members) :
    Selection.select better ((order.filterMap p.members.lookup).filter candidate) = none <->
      forall m, p.Holds m -> candidate m = false := by
  rw [Selection.select_eq_none, List.filter_eq_nil_iff]
  constructor
  · intro h m hm
    exact Bool.eq_false_iff.mpr (h m ((mem_visited hvisits).mpr hm))
  · intro h m hm
    exact Bool.eq_false_iff.mp (h m ((mem_visited hvisits).mp hm))

end Order

/-!
# The two selections
-/

section Selections

variable {ratio : Type} [RatioFormat ratio] (lowerRune foldRune : Char -> Char)

def nearer (region : List Char) (m cur : Member ratio) : Bool :=
  if sameRegion foldRune region m ≠ sameRegion foldRune region cur then
    sameRegion foldRune region m
  else
    lt m.loadRatio cur.loadRatio ||
      (eq m.loadRatio cur.loadRatio && decide (m.node.id < cur.node.id))

def outOfRegion (region : List Char) (m : Member ratio) : Bool :=
  !sameRegion foldRune region m

theorem nearer_iff (region : List Char) (a b : Member ratio) :
    nearer foldRune region a b = true <-> Precedes (outOfRegion foldRune region) a b := by
  unfold nearer
  by_cases hsame : sameRegion foldRune region a = sameRegion foldRune region b
  · have hmark : outOfRegion foldRune region a = outOfRegion foldRune region b :=
      congrArg not hsame
    rw [if_neg (not_not.mpr hsame), precedes_of_mark_eq hmark, Bool.or_eq_true,
      Bool.and_eq_true, decide_eq_true_iff]
  · have hmark : outOfRegion foldRune region a ≠ outOfRegion foldRune region b :=
      fun h => hsame (Bool.not_inj h)
    rw [if_pos hsame, precedes_of_mark_ne hmark]
    exact ⟨fun h => congrArg not h, fun h => Bool.not_inj h⟩

theorem better_iff (a b : Member ratio) :
    a.better (some b) = true <-> Precedes Member.routable a b := by
  change (if a.routable ≠ b.routable then !a.routable
    else if Not (eq a.loadRatio b.loadRatio = true) then
      lt a.loadRatio b.loadRatio
    else decide (a.node.id < b.node.id)) = true <-> _
  by_cases hmark : a.routable = b.routable
  · rw [if_neg (not_not.mpr hmark), precedes_of_mark_eq hmark]
    by_cases heq : eq a.loadRatio b.loadRatio = true
    · rw [if_neg (not_not.mpr heq), decide_eq_true_iff, lt_false_of_eq heq]
      constructor
      · intro hid
        exact Or.inr ⟨heq, hid⟩
      · intro h
        rcases h with hlt | ⟨_, hid⟩
        · cases hlt
        · exact hid
    · rw [if_pos heq]
      constructor
      · intro hlt
        exact Or.inl hlt
      · intro h
        rcases h with hlt | ⟨heq', _⟩
        · exact hlt
        · exact absurd heq' heq
  · rw [if_pos hmark, precedes_of_mark_ne hmark, Bool.not_eq_true']

theorem considerNear_routable (region : List Char) {m : Member ratio}
    (h : m.routable = true) (best : Option (Member ratio)) :
    considerNear foldRune region (best.map fun m => (m, sameRegion foldRune region m)) m =
      (Selection.consider (nearer foldRune region) best m).map
        fun m => (m, sameRegion foldRune region m) := by
  unfold considerNear Selection.consider nearer
  rw [h]
  cases best with
  | none => rfl
  | some cur =>
      by_cases hsame : sameRegion foldRune region m = sameRegion foldRune region cur
      · simp only [Option.map_some, Bool.not_true, Bool.false_eq_true, if_false, ne_eq, hsame,
          not_true]
        split
        · rw [Option.map_some, hsame]
        · rw [Option.map_some]
      · simp only [Option.map_some, Bool.not_true, Bool.false_eq_true, if_false, ne_eq, hsame,
          not_false_iff, if_true]
        split
        · rename_i hin
          rw [Option.map_some, hin]
        · rw [Option.map_some]

theorem foldl_considerNear (region : List Char) (items : List (Member ratio))
    (best : Option (Member ratio)) :
    items.foldl (considerNear foldRune region)
        (best.map fun m => (m, sameRegion foldRune region m)) =
      ((items.filter Member.routable).foldl
        (Selection.consider (nearer foldRune region)) best).map
          fun m => (m, sameRegion foldRune region m) := by
  induction items generalizing best with
  | nil => rfl
  | cons m items ih =>
      rw [List.foldl_cons]
      cases hroutable : m.routable with
      | false =>
          rw [List.filter_cons_of_neg (by rw [hroutable]; exact Bool.false_ne_true), <- ih]
          congr 1
          unfold considerNear
          rw [hroutable]
          rfl
      | true =>
          rw [List.filter_cons_of_pos hroutable, List.foldl_cons, <- ih]
          congr 1
          exact considerNear_routable foldRune region hroutable best

theorem nearest_eq (p : Pool ratio) (region : String) (order : List String) :
    p.nearest lowerRune foldRune region order =
      (Selection.select (nearer foldRune (askedRegion lowerRune region))
        ((order.filterMap p.members.lookup).filter Member.routable)).map Member.node := by
  have hloop := foldl_considerNear foldRune (askedRegion lowerRune region)
    (order.filterMap p.members.lookup) none
  rw [Option.map_none] at hloop
  rw [nearest, hloop, Option.map_map]
  rfl

def otherThan (selfID : String) (m : Member ratio) : Bool :=
  decide (m.node.id ≠ selfID)

theorem foldl_considerDrain (selfID : String) (items : List (Member ratio))
    (best : Option (Member ratio)) :
    items.foldl (considerDrain selfID) best =
      (items.filter (otherThan selfID)).foldl
        (Selection.consider fun m cur => m.better (some cur)) best := by
  induction items generalizing best with
  | nil => rfl
  | cons m items ih =>
      rw [List.foldl_cons, ih]
      by_cases hself : m.node.id = selfID
      · have hnot : Not (otherThan selfID m = true) := by
          unfold otherThan
          rw [decide_eq_true_iff]
          exact not_not.mpr hself
        rw [List.filter_cons_of_neg hnot]
        congr 1
        exact if_pos hself
      · have hother : otherThan selfID m = true := decide_eq_true hself
        rw [List.filter_cons_of_pos hother, List.foldl_cons]
        congr 1
        unfold considerDrain
        rw [if_neg hself]
        cases best with
        | none | some cur => rfl

theorem drainCandidate_eq (p : Pool ratio) (selfID : String) (order : List String) :
    p.drainCandidate selfID order =
      (Selection.select (fun m cur => m.better (some cur))
        ((order.filterMap p.members.lookup).filter (otherThan selfID))).map
          fun m => m.node.id := by
  rw [drainCandidate, foldl_considerDrain]
  rfl

end Selections

end Pool

/-- Whatever the order of the range, `Nearest` returns the routable member that comes first
by region, load and id, and `DrainCandidate` the other member that comes first by
routability, load and id.  They fail exactly if there is no such member. -/
theorem selection_ignores_order {ratio : Type} [RatioFormat ratio]
    (lawful : RatioFormat.Lawful ratio) (lowerRune foldRune : Char -> Char)
    (ops : List (Pool.Op ratio)) (hnumbered : (Pool.afterOps ops).Numbered)
    (order : List String) (hvisits : FiniteMap.Visits order (Pool.afterOps ops).members) :
    (forall region n, (Pool.afterOps ops).nearest lowerRune foldRune region order = some n <->
      exists m, (Pool.afterOps ops).First Member.routable
        (Pool.outOfRegion foldRune (Pool.askedRegion lowerRune region)) m ∧ m.node = n) ∧
    (forall region, (Pool.afterOps ops).nearest lowerRune foldRune region order = none <->
      forall m, (Pool.afterOps ops).Holds m -> m.routable = false) ∧
    (forall selfID id, (Pool.afterOps ops).drainCandidate selfID order = some id <->
      exists m, (Pool.afterOps ops).First (Pool.otherThan selfID) Member.routable m ∧
        m.node.id = id) ∧
    (forall selfID, (Pool.afterOps ops).drainCandidate selfID order = none <->
      forall m, (Pool.afterOps ops).Holds m -> m.node.id = selfID) := by
  have hkeyed := Pool.keyed_afterOps ops
  refine ⟨?_, ?_, ?_, ?_⟩
  · intro region n
    rw [Pool.nearest_eq, Option.map_eq_some_iff]
    constructor
    · intro h
      rcases h with ⟨m, hm, hnode⟩
      exact ⟨m, (Pool.select_iff lawful hkeyed hnumbered
        (Pool.nearer_iff foldRune (Pool.askedRegion lowerRune region)) hvisits m).mp hm, hnode⟩
    · intro h
      rcases h with ⟨m, hm, hnode⟩
      exact ⟨m, (Pool.select_iff lawful hkeyed hnumbered
        (Pool.nearer_iff foldRune (Pool.askedRegion lowerRune region)) hvisits m).mpr hm, hnode⟩
  · intro region
    rw [Pool.nearest_eq, Option.map_eq_none_iff]
    exact Pool.select_none_iff _ hvisits
  · intro selfID id
    rw [Pool.drainCandidate_eq, Option.map_eq_some_iff]
    constructor
    · intro h
      rcases h with ⟨m, hm, hid⟩
      exact ⟨m, (Pool.select_iff lawful hkeyed hnumbered Pool.better_iff hvisits m).mp hm, hid⟩
    · intro h
      rcases h with ⟨m, hm, hid⟩
      exact ⟨m, (Pool.select_iff lawful hkeyed hnumbered Pool.better_iff hvisits m).mpr hm, hid⟩
  · intro selfID
    rw [Pool.drainCandidate_eq, Option.map_eq_none_iff, Pool.select_none_iff _ hvisits]
    unfold Pool.otherThan
    constructor
    · intro h m hm
      exact of_not_not (of_decide_eq_false (h m hm))
    · intro h m hm
      exact decide_eq_false (not_not.mpr (h m hm))

def threeNodes : List (Pool.Op Rat) :=
  [Pool.Op.add ⟨"a", "eu", "", "", ""⟩ 0, Pool.Op.add ⟨"b", "eu", "", "", ""⟩ 0,
    Pool.Op.add ⟨"c", "us", "", "", ""⟩ 0, Pool.Op.updateLoad "a" (1 / 2),
    Pool.Op.drain "b"]

theorem lawful_rat : RatioFormat.Lawful Rat where
  trans := by
    intro a b c hab hbc
    exact decide_eq_true (Rat.le_trans (of_decide_eq_true hab) (of_decide_eq_true hbc))
  total := by
    intro a b _ _
    rcases @Rat.le_total a b with h | h
    · exact Or.inl (decide_eq_true h)
    · exact Or.inr (decide_eq_true h)

theorem threeNodes_nearest :
    (Pool.afterOps threeNodes).Numbered ∧
      FiniteMap.Visits ["c", "b", "a"] (Pool.afterOps threeNodes).members ∧
      exists m, (Pool.afterOps threeNodes).First Member.routable
        (Pool.outOfRegion Char.toLower (Pool.askedRegion Char.toLower " EU ")) m ∧
        m.node.id = "a" := by
  have hnumbered : (Pool.afterOps threeNodes).Numbered := by
    intro m _
    exact decide_eq_true (Rat.le_refl)
  have hvisits : FiniteMap.Visits ["c", "b", "a"] (Pool.afterOps threeNodes).members := by
    decide +kernel
  refine ⟨hnumbered, hvisits, ?_⟩
  have hnearest : (Pool.afterOps threeNodes).nearest Char.toLower Char.toLower " EU "
      ["c", "b", "a"] = some ⟨"a", "eu", "", "", ""⟩ := by
    decide +kernel
  rcases ((selection_ignores_order lawful_rat Char.toLower Char.toLower threeNodes hnumbered
    ["c", "b", "a"] hvisits).1 " EU " _).mp hnearest with ⟨m, hm, hnode⟩
  refine ⟨m, hm, ?_⟩
  rw [hnode]

end Autoscale
end Ephor
