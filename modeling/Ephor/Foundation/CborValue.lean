import Ephor.Foundation.CborItem

/-!
# CBOR values

What an item stands for.  A float stands for its number, whatever its width, and a map for its
pairs, in whatever order they are written.  An item is deterministic when its maps are written
in the bytewise order of their keys and its floats in the least width that holds them.  Two
deterministic items that stand for one value are one item.
-/

namespace Ephor
namespace Foundation
namespace Cbor

open CanonicalCbor (bigEndian firstByte encodeHead majorMap)

/-!
# Floats

The numbers of IEEE 754.  A finite one is counted in units of 2^-1074, which all three widths
have whole.
-/

inductive Number where
  | finite (sign units : Nat)
  | special (sign payload : Nat)

namespace FloatWidth

def fractionBits : FloatWidth -> Nat
  | half => 10
  | single => 23
  | double => 52

def exponentBits : FloatWidth -> Nat
  | half => 5
  | single => 8
  | double => 11

/-- The binary exponent of the least positive number, above -1074. -/
def scale : FloatWidth -> Nat
  | half => 1050
  | single => 925
  | double => 0

/-- The magnitude in units of the least positive number, from exponent and fraction. -/
def magnitude (width : FloatWidth) (exponent fraction : Nat) : Nat :=
  if exponent = 0 then fraction
  else (2 ^ width.fractionBits + fraction) * 2 ^ (exponent - 1)

def number (width : FloatWidth) (bits : Nat) : Number :=
  let fraction := bits % 2 ^ width.fractionBits
  let exponent := bits / 2 ^ width.fractionBits % 2 ^ width.exponentBits
  let sign := bits / 2 ^ width.fractionBits / 2 ^ width.exponentBits
  if exponent = 2 ^ width.exponentBits - 1 then
    Number.special sign (fraction * 2 ^ (52 - width.fractionBits))
  else
    Number.finite sign (width.magnitude exponent fraction * 2 ^ width.scale)

def Shortest (width : FloatWidth) (bits : Nat) : Prop :=
  forall (v : FloatWidth) (a : Nat), v.size < width.size -> a < 256 ^ v.size ->
    v.number a ≠ width.number bits

theorem size_inj {v w : FloatWidth} (h : v.size = w.size) : v = w := by
  cases v <;> cases w <;> first | rfl | exact nomatch h

variable {width : FloatWidth}

theorem magnitude_lt {exponent fraction : Nat} (h : fraction < 2 ^ width.fractionBits) :
    width.magnitude exponent fraction < 2 ^ width.fractionBits * 2 ^ exponent := by
  unfold magnitude
  split
  · rename_i hzero
    rw [hzero, Nat.pow_zero, Nat.mul_one]
    exact h
  · rename_i hpos
    have hpow : 2 ^ width.fractionBits * 2 ^ exponent =
        2 * 2 ^ width.fractionBits * 2 ^ (exponent - 1) := by
      rw [Nat.mul_comm 2, Nat.mul_assoc, <- Nat.pow_succ', Nat.succ_eq_add_one,
        Nat.sub_add_cancel (Nat.pos_of_ne_zero hpos)]
    rw [hpow]
    apply Nat.mul_lt_mul_of_pos_right
    · omega
    · exact Nat.two_pow_pos _

theorem le_magnitude {exponent : Nat} (fraction : Nat) (h : 0 < exponent) :
    2 ^ width.fractionBits * 2 ^ (exponent - 1) <= width.magnitude exponent fraction := by
  rw [magnitude, if_neg (Nat.pos_iff_ne_zero.mp h)]
  exact Nat.mul_le_mul_right _ (Nat.le_add_right _ _)

theorem magnitude_lt_of_lt {e e' f : Nat} (f' : Nat) (hf : f < 2 ^ width.fractionBits)
    (h : e < e') : width.magnitude e f < width.magnitude e' f' := by
  calc
    width.magnitude e f < 2 ^ width.fractionBits * 2 ^ e := magnitude_lt hf
    _ <= 2 ^ width.fractionBits * 2 ^ (e' - 1) :=
      Nat.mul_le_mul_left _ (Nat.pow_le_pow_right (by decide) (Nat.le_sub_one_of_lt h))
    _ <= width.magnitude e' f' := le_magnitude f' (Nat.zero_lt_of_lt h)

theorem magnitude_inj {e e' f f' : Nat} (hf : f < 2 ^ width.fractionBits)
    (hf' : f' < 2 ^ width.fractionBits) (h : width.magnitude e f = width.magnitude e' f') :
    e = e' ∧ f = f' := by
  have he : e = e' := by
    cases Nat.lt_trichotomy e e' with
    | inl hlt => exact absurd h (Nat.ne_of_lt (magnitude_lt_of_lt f' hf hlt))
    | inr hge =>
        cases hge with
        | inl heq => exact heq
        | inr hgt => exact absurd h.symm (Nat.ne_of_lt (magnitude_lt_of_lt f hf' hgt))
  subst he
  refine ⟨rfl, ?_⟩
  unfold magnitude at h
  split at h
  · exact h
  · exact Nat.add_left_cancel (Nat.eq_of_mul_eq_mul_right (Nat.two_pow_pos _) h)

theorem number_inj {a b : Nat} (h : width.number a = width.number b) : a = b := by
  have hfraction : forall n, n % 2 ^ width.fractionBits < 2 ^ width.fractionBits :=
    fun n => Nat.mod_lt _ (Nat.two_pow_pos _)
  have hparts : a / 2 ^ width.fractionBits / 2 ^ width.exponentBits =
        b / 2 ^ width.fractionBits / 2 ^ width.exponentBits ->
      a / 2 ^ width.fractionBits % 2 ^ width.exponentBits =
        b / 2 ^ width.fractionBits % 2 ^ width.exponentBits ->
      a % 2 ^ width.fractionBits = b % 2 ^ width.fractionBits -> a = b := by
    intro hsign hexponent hfrac
    have hquotient : a / 2 ^ width.fractionBits = b / 2 ^ width.fractionBits := by
      rw [<- Nat.div_add_mod (a / 2 ^ width.fractionBits) (2 ^ width.exponentBits), hsign,
        hexponent, Nat.div_add_mod]
    rw [<- Nat.div_add_mod a (2 ^ width.fractionBits), hquotient, hfrac, Nat.div_add_mod]
  unfold number at h
  dsimp only at h
  split at h
  · rename_i ha
    split at h
    · rename_i hb
      injection h with hsign hpayload
      exact hparts hsign (ha.trans hb.symm)
        (Nat.eq_of_mul_eq_mul_right (Nat.two_pow_pos _) hpayload)
    · cases h
  · split at h
    · cases h
    · injection h with hsign hunits
      have hmagnitude := Nat.eq_of_mul_eq_mul_right (Nat.two_pow_pos _) hunits
      rcases magnitude_inj (hfraction a) (hfraction b) hmagnitude with ⟨hexponent, hfrac⟩
      exact hparts hsign hexponent hfrac

end FloatWidth

/-!
# Deterministic items
-/

namespace Item

def pairsOf : List Item -> List (Item × Item)
  | key :: value :: items => (key, value) :: pairsOf items
  | _ => []

def ofPairs (pairs : List (Item × Item)) : List Item :=
  pairs.flatMap fun pair => [pair.1, pair.2]

/-- The keys are in bytewise lexicographic order, and none is there twice. -/
def KeysAscend (items : List Item) : Prop :=
  (pairsOf items).Pairwise fun p q => p.1.encode < q.1.encode

def MapSorted : Token -> List Item -> Prop
  | Token.head major _ _, items => major = majorMap -> KeysAscend items
  | Token.float _ _, _ => True

def FloatShort : Token -> List Item -> Prop
  | Token.head _ _ _, _ => True
  | Token.float width bits, _ => width.Shortest bits

def Deterministic (x : Item) : Prop :=
  x.WellFormed ∧ x.Every MapSorted ∧ x.Every FloatShort

inductive SameValue : Item -> Item -> Prop
  | float {v w : FloatWidth} {a b : Nat} (hnumber : v.number a = w.number b) :
      SameValue (node (Token.float v a) []) (node (Token.float w b) [])
  | node {major : Fin 8} {arg : Nat} {payload : Bytes} {xs ys : List Item}
      (hlength : xs.length = ys.length)
      (hitems : forall i (hx : i < xs.length) (hy : i < ys.length), SameValue xs[i] ys[i]) :
      SameValue (node (Token.head major arg payload) xs) (node (Token.head major arg payload) ys)
  | map {count : Nat} {xs zs ys : List (Item × Item)} (hlength : xs.length = zs.length)
      (hkeys : forall i (hx : i < xs.length) (hz : i < zs.length), SameValue xs[i].1 zs[i].1)
      (hvalues : forall i (hx : i < xs.length) (hz : i < zs.length), SameValue xs[i].2 zs[i].2)
      (hperm : zs.Perm ys) :
      SameValue (node (Token.head majorMap count []) (ofPairs xs))
        (node (Token.head majorMap count []) (ofPairs ys))

theorem pairsOf_ofPairs (pairs : List (Item × Item)) : pairsOf (ofPairs pairs) = pairs := by
  induction pairs with
  | nil => rfl
  | cons pair pairs ih =>
      show (pair.1, pair.2) :: pairsOf (ofPairs pairs) = _
      rw [ih]

theorem mem_ofPairs {x : Item} {pairs : List (Item × Item)} :
    x ∈ ofPairs pairs ↔ exists pair, pair ∈ pairs ∧ (x = pair.1 ∨ x = pair.2) := by
  rw [ofPairs, List.mem_flatMap]
  simp only [List.mem_cons, List.not_mem_nil, or_false]

theorem deterministic_node {token : Token} {items : List Item} :
    Deterministic (node token items) ↔
      ((token.Valid ∧ items.length = token.count) ∧ MapSorted token items ∧
        FloatShort token items) ∧ forall x, x ∈ items -> Deterministic x := by
  unfold Deterministic WellFormed
  rw [every_node, every_node, every_node]
  constructor
  · intro h
    rcases h with ⟨⟨hwell, hwells⟩, ⟨hsorted, hsorteds⟩, hshort, hshorts⟩
    exact ⟨⟨hwell, hsorted, hshort⟩, fun x hx => ⟨hwells x hx, hsorteds x hx, hshorts x hx⟩⟩
  · intro h
    rcases h with ⟨⟨hwell, hsorted, hshort⟩, hitems⟩
    exact ⟨⟨hwell, fun x hx => (hitems x hx).1⟩, ⟨hsorted, fun x hx => (hitems x hx).2.1⟩,
      hshort, fun x hx => (hitems x hx).2.2⟩

theorem SameValue.refl {x : Item} (h : x.WellFormed) : SameValue x x := by
  induction h with
  | @node token items hnode hitems ih =>
      cases token with
      | head major arg payload =>
          exact SameValue.node rfl fun i hi _ => ih _ (List.getElem_mem hi)
      | float width bits =>
          cases List.eq_nil_of_length_eq_zero hnode.2
          exact SameValue.float rfl

theorem SameValue.perm {count : Nat} {pairs other : List (Item × Item)}
    (hpairs : forall pair, pair ∈ pairs -> pair.1.WellFormed ∧ pair.2.WellFormed)
    (hperm : pairs.Perm other) :
    SameValue (Item.node (Token.head majorMap count []) (ofPairs pairs))
      (Item.node (Token.head majorMap count []) (ofPairs other)) :=
  SameValue.map rfl (fun _ hi _ => SameValue.refl (hpairs _ (List.getElem_mem hi)).1)
    (fun _ hi _ => SameValue.refl (hpairs _ (List.getElem_mem hi)).2) hperm

theorem SameValue.append {major : Fin 8} {arg : Nat} {payload : Bytes} {xs : List Item}
    {x y : Item} (hxs : forall z, z ∈ xs -> z.WellFormed) (h : SameValue x y) :
    SameValue (Item.node (Token.head major arg payload) (xs ++ [x]))
      (Item.node (Token.head major arg payload) (xs ++ [y])) := by
  refine SameValue.node (by rw [List.length_append, List.length_append]; rfl) ?_
  intro i hi hi'
  by_cases hlt : i < xs.length
  · rw [List.getElem_append_left hlt, List.getElem_append_left hlt]
    exact SameValue.refl (hxs _ (List.getElem_mem hlt))
  · have heq : i = xs.length := by
      rw [List.length_append, List.length_singleton] at hi
      omega
    subst heq
    rw [List.getElem_concat_length rfl, List.getElem_concat_length rfl]
    exact h

theorem float_eq {v w : FloatWidth} {a b : Nat} (ha : a < 256 ^ v.size) (hb : b < 256 ^ w.size)
    (hv : v.Shortest a) (hw : w.Shortest b) (h : v.number a = w.number b) :
    Token.float v a = Token.float w b := by
  have hsize : v.size = w.size := by
    cases Nat.lt_trichotomy v.size w.size with
    | inl hlt => exact absurd h (hw v a hlt ha)
    | inr hge =>
        cases hge with
        | inl heq => exact heq
        | inr hgt => exact absurd h.symm (hv w b hgt hb)
  cases FloatWidth.size_inj hsize
  rw [FloatWidth.number_inj h]

theorem eq_of_sameValue {x y : Item} (h : SameValue x y) (hx : Deterministic x)
    (hy : Deterministic y) : x = y := by
  induction h with
  | float hnumber =>
      rcases (deterministic_node.mp hx).1 with ⟨⟨hvx, _⟩, _, hshortx⟩
      rcases (deterministic_node.mp hy).1 with ⟨⟨hvy, _⟩, _, hshorty⟩
      rw [float_eq hvx.1 hvy.1 hshortx hshorty hnumber]
  | @node major arg payload xs ys hlength _ ih =>
      have hxs := (deterministic_node.mp hx).2
      have hys := (deterministic_node.mp hy).2
      have hitems : xs = ys :=
        List.ext_getElem hlength fun i hi hi' =>
          ih i hi hi' (hxs _ (List.getElem_mem hi)) (hys _ (List.getElem_mem hi'))
      rw [hitems]
  | @map count xs zs ys hlength _ _ hperm ihkeys ihvalues =>
      rcases deterministic_node.mp hx with ⟨⟨_, hsortedx, _⟩, hxs⟩
      rcases deterministic_node.mp hy with ⟨⟨_, hsortedy, _⟩, hys⟩
      have hpairx : forall pair, pair ∈ xs -> Deterministic pair.1 ∧ Deterministic pair.2 :=
        fun pair hmem => ⟨hxs _ (mem_ofPairs.mpr ⟨pair, hmem, Or.inl rfl⟩),
          hxs _ (mem_ofPairs.mpr ⟨pair, hmem, Or.inr rfl⟩)⟩
      have hpairz : forall pair, pair ∈ zs -> Deterministic pair.1 ∧ Deterministic pair.2 := by
        intro pair hmem
        have hmem' := hperm.mem_iff.mp hmem
        exact ⟨hys _ (mem_ofPairs.mpr ⟨pair, hmem', Or.inl rfl⟩),
          hys _ (mem_ofPairs.mpr ⟨pair, hmem', Or.inr rfl⟩)⟩
      have hpairs : xs = zs := by
        refine List.ext_getElem hlength fun i hi hi' => ?_
        have hxi := hpairx _ (List.getElem_mem hi)
        have hzi := hpairz _ (List.getElem_mem hi')
        exact Prod.ext (ihkeys i hi hi' hxi.1 hzi.1) (ihvalues i hi hi' hxi.2 hzi.2)
      subst hpairs
      have hascx : xs.Pairwise fun p q => p.1.encode < q.1.encode :=
        pairsOf_ofPairs xs ▸ hsortedx rfl
      have hascy : ys.Pairwise fun p q => p.1.encode < q.1.encode :=
        pairsOf_ofPairs ys ▸ hsortedy rfl
      -- both lists of pairs are in the order of the keys
      have heq : xs = ys :=
        hperm.eq_of_pairwise (fun p q _ _ hlt hgt => absurd hgt (List.lt_asymm hlt)) hascx hascy
      rw [heq]

end Item

/-!
# The order of integer keys

The heads of one major type are in the order of their arguments.
-/

theorem append_lt_of_length_eq {b c : Bytes} (s r : Bytes) (hlength : b.length = c.length)
    (h : b < c) : b ++ s < c ++ r := by
  induction b generalizing c with
  | nil =>
      cases c with
      | nil => exact absurd h (List.not_lt_nil _)
      | cons _ _ => cases hlength
  | cons x b ih =>
      cases c with
      | nil => exact absurd h (List.not_lt_nil _)
      | cons y c =>
          rw [List.cons_append, List.cons_append, List.cons_lt_cons_iff]
          cases List.cons_lt_cons_iff.mp h with
          | inl hlt => exact Or.inl hlt
          | inr hrest => exact Or.inr ⟨hrest.1, ih (Nat.succ.inj hlength) hrest.2⟩

theorem bigEndian_lt {width a b : Nat} (h : a < b) (hb : b < 256 ^ width) :
    bigEndian width a < bigEndian width b := by
  induction width generalizing a b with
  | zero =>
      rw [Nat.pow_zero] at hb
      omega
  | succ width ih =>
      rw [bigEndian, bigEndian]
      have hlength : (bigEndian width (a / 256)).length = (bigEndian width (b / 256)).length := by
        rw [CanonicalCbor.length_bigEndian, CanonicalCbor.length_bigEndian]
      by_cases hquotient : a / 256 = b / 256
      · rw [hquotient]
        apply List.append_left_lt
        apply List.cons_lt_cons_iff.mpr
        refine Or.inl ?_
        rw [UInt8.lt_iff_toNat_lt, UInt8.toNat_ofNat', UInt8.toNat_ofNat']
        omega
      · have hdiv : b / 256 < 256 ^ width := by
          rw [Nat.pow_succ] at hb
          exact Nat.div_lt_of_lt_mul (Nat.mul_comm _ _ ▸ hb)
        exact append_lt_of_length_eq _ _ hlength (ih (by omega) hdiv)

theorem firstByte_lt {major : Fin 8} {info info' : Nat} (h : info < info') (hlt : info' < 32) :
    firstByte major info < firstByte major info' := by
  rw [UInt8.lt_iff_toNat_lt, CanonicalCbor.firstByte_toNat (Nat.lt_trans h hlt),
    CanonicalCbor.firstByte_toNat hlt]
  omega

theorem encodeHead_lt {a b : Nat} (major : Fin 8) (h : a < b) (hb : b < 2 ^ 64) :
    encodeHead major a < encodeHead major b := by
  unfold encodeHead
  repeat' split
  all_goals first
    | omega
    | exact List.cons_lt_cons_iff.mpr (Or.inl (firstByte_lt (by omega) (by omega)))
    | exact List.cons_lt_cons_iff.mpr (Or.inr ⟨rfl, bigEndian_lt h (by omega)⟩)

end Cbor
end Foundation
end Ephor
