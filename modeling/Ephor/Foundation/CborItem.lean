import Ephor.Foundation.CanonicalCbor

/-!
# CBOR data items

The grammar of RFC 8949 for items of definite length.  An item is a token and the items that
the token announces: so many for an array, twice as many for a map, one for a tag.  A token is
a minimal head with the bytes of a string after it, or a float, whose bits take the place of
the argument.
-/

namespace Ephor
namespace Foundation
namespace Cbor

open CanonicalCbor (bigEndian ofBigEndian firstByte encodeHead decodeHead majorUint majorBytes
  majorText majorMap)

/-!
# Tokens
-/

def majorNegative : Fin 8 := 1

def majorArray : Fin 8 := 4

def majorTag : Fin 8 := 6

def majorSimple : Fin 8 := 7

inductive FloatWidth where
  | half
  | single
  | double
deriving DecidableEq

namespace FloatWidth

/-- The bytes of a float after the first. -/
def size : FloatWidth -> Nat
  | half => 2
  | single => 4
  | double => 8

def info : FloatWidth -> Nat
  | half => 25
  | single => 26
  | double => 27

theorem info_inj {v w : FloatWidth} (h : v.info = w.info) : v = w := by
  cases v <;> cases w <;> first | rfl | exact nomatch h

end FloatWidth

inductive Token where
  | head (major : Fin 8) (arg : Nat) (payload : Bytes)
  | float (width : FloatWidth) (bits : Nat)
deriving DecidableEq

namespace Token

def encode : Token -> Bytes
  | head major arg payload => encodeHead major arg ++ payload
  | float width bits => firstByte majorSimple width.info :: bigEndian width.size bits

def payloadLength (major : Fin 8) (arg : Nat) : Nat :=
  if major = majorBytes ∨ major = majorText then arg else 0

def itemCount (major : Fin 8) (arg : Nat) : Nat :=
  if major = majorArray then arg
  else if major = majorMap then 2 * arg
  else if major = majorTag then 1
  else 0

def count : Token -> Nat
  | head major arg _ => itemCount major arg
  | float _ _ => 0

/-- Tokens as far as their encoding goes: the parts fit, and the argument of a simple value
is no float. -/
def Loose : Token -> Prop
  | head major arg payload =>
      arg < 2 ^ 64 ∧ payload.length = payloadLength major arg ∧ (major = majorSimple -> arg < 256)
  | float width bits => bits < 256 ^ width.size

/-- A simple value below 32 is not written in two bytes. -/
def Valid (t : Token) : Prop :=
  t.Loose ∧ forall arg payload, t = head majorSimple arg payload -> arg < 24 ∨ 32 ≤ arg

theorem encode_ne_nil (t : Token) : t.encode ≠ [] := by
  cases t with
  | head major arg payload =>
      intro h
      exact CanonicalCbor.encodeHead_ne_nil major arg (List.append_eq_nil_iff.mp h).1
  | float width bits => exact List.cons_ne_nil _ _

theorem encodeHead_ne_float {major : Fin 8} {arg : Nat} (h : major = majorSimple -> arg < 256)
    (width : FloatWidth) (s r : Bytes) :
    encodeHead major arg ++ s ≠ firstByte majorSimple width.info :: r := by
  have hfloat : (firstByte majorSimple width.info).toNat = 7 * 32 + width.info :=
    CanonicalCbor.firstByte_toNat (by cases width <;> decide)
  have hinfo : 25 <= width.info := by
    cases width <;> decide
  have hmajor := major.isLt
  have hseven : major.val = 7 -> arg < 256 := fun heq => h (Fin.ext heq)
  have hfirst : forall info, info < 32 -> (major.val = 7 -> info < 25) ->
      firstByte major info ≠ firstByte majorSimple width.info := by
    intro info hlt hsmall heq
    have hnat := congrArg UInt8.toNat heq
    rw [CanonicalCbor.firstByte_toNat hlt, hfloat] at hnat
    omega
  intro heq
  unfold encodeHead at heq
  repeat' split at heq
  all_goals
    refine hfirst _ ?_ ?_ (List.cons.inj heq).1
    · omega
    · omega

/-- What a token is followed by can be told from it. -/
theorem encode_append_inj {t u : Token} (ht : t.Loose) (hu : u.Loose) {s r : Bytes}
    (h : t.encode ++ s = u.encode ++ r) : t = u ∧ s = r := by
  cases t with
  | head major arg payload =>
      cases u with
      | head major' arg' payload' =>
          have hread := congrArg decodeHead h
          rw [encode, encode, List.append_assoc, List.append_assoc,
            CanonicalCbor.decodeHead_encodeHead _ _ ht.1,
            CanonicalCbor.decodeHead_encodeHead _ _ hu.1] at hread
          simp only [Option.some.injEq, Prod.mk.injEq] at hread
          rcases hread with ⟨rfl, rfl, hrest⟩
          rcases List.append_inj hrest (ht.2.1.trans hu.2.1.symm) with ⟨rfl, rfl⟩
          exact ⟨rfl, rfl⟩
      | float width bits =>
          rw [encode, encode, List.append_assoc] at h
          exact absurd h (encodeHead_ne_float ht.2.2 width _ _)
  | float width bits =>
      cases u with
      | head major arg payload =>
          rw [encode, encode, List.append_assoc] at h
          exact absurd h.symm (encodeHead_ne_float hu.2.2 width _ _)
      | float width' bits' =>
          rw [encode, encode, List.cons_append, List.cons_append] at h
          rcases List.cons.inj h with ⟨hfirst, hrest⟩
          have hinfo : forall w : FloatWidth,
              (firstByte majorSimple w.info).toNat = 7 * 32 + w.info :=
            fun w => CanonicalCbor.firstByte_toNat (by cases w <;> decide)
          have hnat := congrArg UInt8.toNat hfirst
          rw [hinfo, hinfo] at hnat
          cases FloatWidth.info_inj (Nat.add_left_cancel hnat)
          rcases List.append_inj hrest (by rw [CanonicalCbor.length_bigEndian,
            CanonicalCbor.length_bigEndian]) with ⟨hbits, rfl⟩
          have hnumber := congrArg ofBigEndian hbits
          rw [CanonicalCbor.ofBigEndian_bigEndian ht,
            CanonicalCbor.ofBigEndian_bigEndian hu] at hnumber
          exact ⟨hnumber ▸ rfl, rfl⟩

end Token

/-!
# Items
-/

inductive Item where
  | node (token : Token) (items : List Item)

namespace Item

mutual

def encode : Item -> Bytes
  | node token items => token.encode ++ encodeAll items

def encodeAll : List Item -> Bytes
  | [] => []
  | x :: xs => encode x ++ encodeAll xs

end

inductive Every (ok : Token -> List Item -> Prop) : Item -> Prop
  | node {token : Token} {items : List Item} (hnode : ok token items)
      (hitems : forall x, x ∈ items -> Every ok x) : Every ok (node token items)

/-- Each token is valid and followed by as many items as it announces. -/
def WellFormed : Item -> Prop :=
  Every fun token items => token.Valid ∧ items.length = token.count

/-- No token is followed by more items than it announces. -/
def Short : Item -> Prop :=
  Every fun token items => token.Loose ∧ items.length <= token.count

variable {ok other : Token -> List Item -> Prop}

theorem every_node {token : Token} {items : List Item} :
    Every ok (node token items) ↔ ok token items ∧ forall x, x ∈ items -> Every ok x := by
  constructor
  · intro h
    cases h with
    | node hnode hitems => exact ⟨hnode, hitems⟩
  · intro h
    exact Every.node h.1 h.2

theorem Every.mono (himp : forall token items, ok token items -> other token items) {x : Item}
    (h : Every ok x) : Every other x := by
  induction h with
  | node hnode _ ih => exact Every.node (himp _ _ hnode) ih

theorem Every.and {x : Item} (h : Every ok x) (hother : Every other x) :
    Every (fun token items => ok token items ∧ other token items) x := by
  induction h with
  | node hnode _ ih =>
      rcases every_node.mp hother with ⟨hnode', hitems'⟩
      exact Every.node ⟨hnode, hnode'⟩ fun x hx => ih x hx (hitems' x hx)

theorem WellFormed.short {x : Item} (h : WellFormed x) : Short x :=
  Every.mono (fun _ _ hnode => ⟨hnode.1.1, Nat.le_of_eq hnode.2⟩) h

theorem encodeAll_append (xs ys : List Item) :
    encodeAll (xs ++ ys) = encodeAll xs ++ encodeAll ys := by
  induction xs with
  | nil => rfl
  | cons x xs ih => rw [List.cons_append, encodeAll, ih, encodeAll, List.append_assoc]

theorem encodeAll_singleton (x : Item) : encodeAll [x] = x.encode := by
  rw [encodeAll, encodeAll, List.append_nil]

theorem encode_ne_nil (x : Item) : x.encode ≠ [] := by
  cases x with
  | node token items =>
      rw [encode]
      intro h
      exact token.encode_ne_nil (List.append_eq_nil_iff.mp h).1

/-!
# Unique decoding

One reads the tokens of both sides in step.  The side whose tokens are followed by all that
they announce still has as many items to come as the other one at every point, so that both
are at their end at once and nothing was missing.
-/

theorem eq_of_encodeAll {xs ys : List Item} {r : Bytes} (hxs : forall x, x ∈ xs -> Short x)
    (hys : forall y, y ∈ ys -> WellFormed y) (hlength : xs.length <= ys.length)
    (h : encodeAll xs = encodeAll ys ++ r) : xs = ys ∧ r = [] := by
  generalize hsize : (encodeAll xs).length = size
  induction size using Nat.strongRecOn generalizing xs ys with
  | ind size ih =>
      cases xs with
      | nil =>
          cases ys with
          | nil => exact ⟨rfl, h.symm⟩
          | cons y ys =>
              have hnil := (List.append_eq_nil_iff.mp h.symm).1
              exact absurd (List.append_eq_nil_iff.mp hnil).1 y.encode_ne_nil
      | cons x xs =>
          cases ys with
          | nil => exact absurd hlength (Nat.not_succ_le_zero _)
          | cons y ys =>
              cases x with
              | node token items =>
                  cases y with
                  | node token' items' =>
                      rcases every_node.mp (hxs _ List.mem_cons_self) with
                        ⟨⟨hloose, hfew⟩, hitems⟩
                      rcases every_node.mp (hys _ List.mem_cons_self) with
                        ⟨⟨hvalid, hall⟩, hitems'⟩
                      rw [encodeAll, encode, encodeAll, encode, List.append_assoc,
                        List.append_assoc, List.append_assoc] at h
                      rcases Token.encode_append_inj hloose hvalid.1 h with ⟨rfl, hrest⟩
                      rw [<- encodeAll_append, <- List.append_assoc, <- encodeAll_append] at hrest
                      have hsmaller : (encodeAll (items ++ xs)).length < size := by
                        rw [<- hsize, encodeAll, encode, encodeAll_append]
                        have hpos := List.length_pos_iff.mpr token.encode_ne_nil
                        simp only [List.length_append]
                        omega
                      have hshort : forall x, x ∈ items ++ xs -> Short x := by
                        intro x hx
                        cases List.mem_append.mp hx with
                        | inl hin => exact hitems x hin
                        | inr hin => exact hxs x (List.mem_cons_of_mem _ hin)
                      have hwell : forall y, y ∈ items' ++ ys -> WellFormed y := by
                        intro y hy
                        cases List.mem_append.mp hy with
                        | inl hin => exact hitems' y hin
                        | inr hin => exact hys y (List.mem_cons_of_mem _ hin)
                      have hsuffix : xs.length <= ys.length := Nat.le_of_succ_le_succ hlength
                      have hfewer : (items ++ xs).length <= (items' ++ ys).length := by
                        rw [List.length_append, List.length_append]
                        omega
                      rcases ih _ hsmaller hshort hwell hfewer hrest rfl with ⟨hsame, hr⟩
                      have hlengths := congrArg List.length hsame
                      rw [List.length_append, List.length_append] at hlengths
                      rcases List.append_inj hsame (by omega) with ⟨rfl, rfl⟩
                      exact ⟨rfl, hr⟩

theorem eq_of_encode {x y : Item} (hx : Short x) (hy : WellFormed y)
    (h : x.encode = y.encode) : x = y := by
  have hall : encodeAll [x] = encodeAll [y] ++ [] := by
    rw [encodeAll_singleton, encodeAll_singleton, List.append_nil, h]
  have heq := (eq_of_encodeAll (fun z hz => List.mem_singleton.mp hz ▸ hx)
    (fun z hz => List.mem_singleton.mp hz ▸ hy) (Nat.le_refl _) hall).1
  exact (List.cons.inj heq).1

end Item

def IsItem (b : Bytes) : Prop :=
  exists x : Item, x.WellFormed ∧ x.encode = b

end Cbor
end Foundation
end Ephor
