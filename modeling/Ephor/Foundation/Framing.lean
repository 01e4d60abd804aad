import Ephor.Foundation.CanonicalCbor

/-!
# Self-delimiting encodings

An encoding delimits itself when what is encoded can be told from whatever follows it.
The encodings of a list, written after each other, then determine the list, without its
length.  A length in four bytes before the content delimits every content that is short
enough.
-/

namespace Ephor
namespace Foundation
namespace Framing

section Lists

variable {α β : Type}

/-- Among the values of `p`, the encoding ends where the value says. -/
def Delimits (p : α -> Prop) (encode : α -> List β) : Prop :=
  forall (a b : α) (u v : List β), p a -> p b -> encode a ++ u = encode b ++ v ->
    a = b ∧ u = v

theorem flatMap_inj {p : α -> Prop} {encode : α -> List β} (hdelimits : Delimits p encode)
    (hne : forall a, encode a ≠ []) {as bs : List α} (has : forall a, a ∈ as -> p a)
    (hbs : forall b, b ∈ bs -> p b) (h : as.flatMap encode = bs.flatMap encode) : as = bs := by
  induction as generalizing bs with
  | nil =>
      cases bs with
      | nil => rfl
      | cons b bs =>
          rw [List.flatMap_nil, List.flatMap_cons] at h
          exact absurd (List.append_eq_nil_iff.mp h.symm).1 (hne b)
  | cons a as ih =>
      cases bs with
      | nil =>
          rw [List.flatMap_nil, List.flatMap_cons] at h
          exact absurd (List.append_eq_nil_iff.mp h).1 (hne a)
      | cons b bs =>
          rw [List.flatMap_cons, List.flatMap_cons] at h
          rcases hdelimits a b _ _ (has a List.mem_cons_self) (hbs b List.mem_cons_self) h with
            ⟨hab, hrest⟩
          rw [hab, ih (List.forall_mem_cons.mp has).2
            (List.forall_mem_cons.mp hbs).2 hrest]

end Lists

/-!
# A length of 32 bits
-/

def putUint32 (v : UInt32) : Bytes :=
  [(v >>> 24).toUInt8, (v >>> 16).toUInt8, (v >>> 8).toUInt8, v.toUInt8]

theorem toUInt8_shiftRight (v : UInt32) {k : UInt32} (hk : k.toNat < 32) :
    (v >>> k).toUInt8 = UInt8.ofNat (v.toNat / 2 ^ k.toNat) := by
  apply UInt8.toNat_inj.mp
  rw [UInt32.toNat_toUInt8, UInt32.toNat_shiftRight, Nat.mod_eq_of_lt hk,
    Nat.shiftRight_eq_div_pow, UInt8.toNat_ofNat']

theorem toUInt8_eq_ofNat (v : UInt32) : v.toUInt8 = UInt8.ofNat v.toNat := by
  apply UInt8.toNat_inj.mp
  rw [UInt32.toNat_toUInt8, UInt8.toNat_ofNat']

theorem putUint32_eq (v : UInt32) : putUint32 v = CanonicalCbor.bigEndian 4 v.toNat := by
  have height : (8 : UInt32).toNat < 32 := by decide
  have hsixteen : (16 : UInt32).toNat < 32 := by decide
  have htwentyFour : (24 : UInt32).toNat < 32 := by decide
  rw [putUint32, toUInt8_eq_ofNat v, toUInt8_shiftRight v height, toUInt8_shiftRight v hsixteen,
    toUInt8_shiftRight v htwentyFour]
  simp [CanonicalCbor.bigEndian, Nat.div_div_eq_div_mul]

theorem putUint32_injective {v w : UInt32} (h : putUint32 v = putUint32 w) : v = w := by
  rw [putUint32_eq, putUint32_eq] at h
  have hv := CanonicalCbor.ofBigEndian_bigEndian (show v.toNat < 256 ^ 4 from v.toNat_lt)
  have hw := CanonicalCbor.ofBigEndian_bigEndian (show w.toNat < 256 ^ 4 from w.toNat_lt)
  apply UInt32.toNat_inj.mp
  rw [<- hv, h, hw]

/-- The content behind its length, as far as 32 bits hold it. -/
def segment (s : Bytes) : Bytes :=
  putUint32 (UInt32.ofNat s.length) ++ s

theorem segment_ne_nil (s : Bytes) : segment s ≠ [] := by
  intro h
  cases h

theorem delimits_segment : Delimits (fun s => s.length < 2 ^ 32) segment := by
  intro a b u v ha hb h
  rw [segment, segment, List.append_assoc, List.append_assoc] at h
  rcases List.append_inj h rfl with ⟨hlength, hrest⟩
  have hsame := congrArg UInt32.toNat (putUint32_injective hlength)
  rw [UInt32.toNat_ofNat_of_lt' ha, UInt32.toNat_ofNat_of_lt' hb] at hsame
  exact List.append_inj hrest hsame

end Framing
end Foundation
end Ephor
