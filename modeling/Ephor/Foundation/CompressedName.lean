import Ephor.Foundation.CanonicalCbor

/-!
# Compressed names

Labels in a packet, each behind its length, up to a zero byte or to a pointer: two bytes whose
first two bits are set and whose other bits are the position where the name goes on.  A
pointer is well laid when it points to an earlier position than its own.
-/

namespace Ephor
namespace Foundation
namespace CompressedName

/-!
# Bytes at a position
-/

def StandsAt (packet : Bytes) (pos : Nat) (bytes : Bytes) : Prop :=
  bytes <+: packet.drop pos

variable {packet bytes : Bytes} {pos pointers next : Nat}

theorem standsAt_append {first second : Bytes} :
    StandsAt packet pos (first ++ second) <->
      StandsAt packet pos first ∧ StandsAt packet (pos + first.length) second := by
  rw [StandsAt, StandsAt, StandsAt, <- List.drop_drop]
  constructor
  · intro h
    rcases h with ⟨rest, h⟩
    rw [<- h, List.append_assoc, List.drop_left]
    exact ⟨List.prefix_append first _, List.prefix_append second rest⟩
  · intro h
    rcases h with ⟨⟨tail, htail⟩, rest, hrest⟩
    rw [<- htail, List.drop_left] at hrest
    rw [<- htail, <- hrest, <- List.append_assoc]
    exact List.prefix_append _ rest

theorem StandsAt.length_le (h : StandsAt packet pos bytes) (hne : bytes ≠ []) :
    pos + bytes.length <= packet.length := by
  have hle := List.IsPrefix.length_le h
  have hpos := List.length_pos_iff.mpr hne
  rw [List.length_drop] at hle
  omega

theorem StandsAt.append_right (h : StandsAt packet pos bytes) (tail : Bytes) :
    StandsAt (packet ++ tail) pos bytes := by
  rw [StandsAt, List.drop_append]
  exact h.trans (List.prefix_append _ _)

theorem standsAt_singleton {b : UInt8} : StandsAt packet pos [b] <-> packet[pos]? = some b := by
  rw [StandsAt, <- List.head?_drop]
  cases packet.drop pos with
  | nil => simp
  | cons x rest => simp [eq_comm]

theorem standsAt_cons {b : UInt8} :
    StandsAt packet pos (b :: bytes) <->
      packet[pos]? = some b ∧ StandsAt packet (pos + 1) bytes := by
  rw [<- standsAt_singleton]
  exact @standsAt_append packet pos [b] bytes

theorem standsAt_iff_take :
    StandsAt packet pos bytes <-> (packet.drop pos).take bytes.length = bytes := by
  rw [StandsAt, List.prefix_iff_eq_take]
  exact eq_comm

/-!
# Names laid in a packet
-/

def encodeLabel (label : Bytes) : Bytes :=
  UInt8.ofNat label.length :: label

/-- A label that a length byte with two clear high bits can announce. -/
def LabelFits (label : Bytes) : Prop :=
  0 < label.length ∧ label.length <= 63

instance (label : Bytes) : Decidable (LabelFits label) :=
  inferInstanceAs (Decidable (_ ∧ _))

def encodePointer (target : Nat) : Bytes :=
  [UInt8.ofNat (192 + target / 256), UInt8.ofNat target]

/-- The name at a position of a packet, with the number of pointers on its way and the position
behind its linear part. -/
inductive Laid (packet : Bytes) : Nat -> List Bytes -> Nat -> Nat -> Prop where
  | root {pos : Nat} (h : StandsAt packet pos [0]) : Laid packet pos [] 0 (pos + 1)
  | label {pos pointers next : Nat} {label : Bytes} {rest : List Bytes} (hfits : LabelFits label)
      (h : StandsAt packet pos (encodeLabel label))
      (hrest : Laid packet (pos + 1 + label.length) rest pointers next) :
      Laid packet pos (label :: rest) pointers next
  | pointer {pos target pointers next : Nat} {labels : List Bytes} (hback : target < pos)
      (hfits : target < 2 ^ 14) (h : StandsAt packet pos (encodePointer target))
      (hrest : Laid packet target labels pointers next) :
      Laid packet pos labels (pointers + 1) (pos + 2)

/-- The labels as they stand before the zero byte or the pointer. -/
def encodeLabels (labels : List Bytes) : Bytes :=
  labels.flatMap encodeLabel

theorem encodeLabel_ne_nil (label : Bytes) : encodeLabel label ≠ [] :=
  List.cons_ne_nil _ _

theorem length_encodeLabel (label : Bytes) : (encodeLabel label).length = 1 + label.length := by
  rw [encodeLabel, List.length_cons, Nat.add_comm]

theorem Laid.next_le {labels : List Bytes} (h : Laid packet pos labels pointers next) :
    next <= packet.length := by
  induction h with
  | root h | pointer _ _ h _ _ => exact h.length_le (List.cons_ne_nil _ _)
  | label _ _ _ ih => exact ih

theorem Laid.append_right {labels : List Bytes} (h : Laid packet pos labels pointers next)
    (tail : Bytes) : Laid (packet ++ tail) pos labels pointers next := by
  induction h with
  | root h => exact Laid.root (h.append_right tail)
  | label hfits h _ ih => exact Laid.label hfits (h.append_right tail) ih
  | pointer hback hfits h _ ih => exact Laid.pointer hback hfits (h.append_right tail) ih

theorem laid_labels {front rest : List Bytes}
    (hfits : forall label, label ∈ front -> LabelFits label)
    (h : StandsAt packet pos (encodeLabels front))
    (hrest : Laid packet (pos + (encodeLabels front).length) rest pointers next) :
    Laid packet pos (front ++ rest) pointers next := by
  induction front generalizing pos with
  | nil => exact hrest
  | cons label front ih =>
      rw [encodeLabels, List.flatMap_cons] at h hrest
      rcases standsAt_append.mp h with ⟨hlabel, hfront⟩
      rw [List.length_append, <- Nat.add_assoc] at hrest
      rw [length_encodeLabel, <- Nat.add_assoc] at hfront hrest
      exact Laid.label (hfits label List.mem_cons_self) hlabel
        (ih (List.forall_mem_cons.mp hfits).2 hfront hrest)

theorem laid_in_full {labels : List Bytes} (hfits : forall label, label ∈ labels -> LabelFits label)
    (h : StandsAt packet pos (encodeLabels labels ++ [0])) :
    Laid packet pos labels 0 (pos + (encodeLabels labels).length + 1) := by
  rcases standsAt_append.mp h with ⟨hlabels, hroot⟩
  have hlaid := laid_labels hfits hlabels (Laid.root hroot)
  rwa [List.append_nil] at hlaid

end CompressedName
end Foundation
end Ephor
