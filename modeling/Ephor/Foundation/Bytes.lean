import Mathlib.Data.List.Basic
import Mathlib.Algebra.Group.Nat.Defs

/-!
# Byte strings

Byte strings are lists of bytes.  A fixed-size array of the source carries its
length as a field, so an array of the wrong size cannot be built, and so does a
growable one, which is never longer than the address space allows.  The rule for two
fallible reads in a row stands here as well.
-/

namespace Ephor
namespace Foundation

abbrev Bytes := List UInt8

instance : LawfulBEq Bytes := inferInstance

/-- The values of the Go type `[n]byte`. -/
structure FixedBytes (n : Nat) where
  toBytes : Bytes
  length_eq : toBytes.length = n
deriving DecidableEq

namespace FixedBytes

theorem ext_toBytes {n : Nat} {a b : FixedBytes n}
    (h : a.toBytes = b.toBytes) : a = b := by
  cases a
  cases b
  cases h
  rfl

theorem toBytes_ne_nil {n : Nat} (a : FixedBytes (n + 1)) : a.toBytes ≠ [] := by
  intro h
  have hlen := a.length_eq
  rw [h] at hlen
  cases hlen

def zero (n : Nat) : FixedBytes n where
  toBytes := List.replicate n 0
  length_eq := List.length_replicate

/-- An array as it is printed: its first byte is the most significant one of a number. -/
def ofNat {n : Nat} (v : Nat) : FixedBytes n where
  toBytes := (List.range n).map fun i => UInt8.ofNat (v >>> (8 * (n - 1 - i)))
  length_eq := by simp

theorem append_toBytes_inj {n : Nat} {a b : FixedBytes n} {u v : Bytes}
    (h : a.toBytes ++ u = b.toBytes ++ v) : a = b ∧ u = v := by
  have hlen : a.toBytes.length = b.toBytes.length := by
    rw [a.length_eq, b.length_eq]
  rcases List.append_inj h hlen with ⟨hab, huv⟩
  exact ⟨ext_toBytes hab, huv⟩

end FixedBytes

/-- The values of the Rust type `Vec<u8>`, which holds at most `isize::MAX` bytes. -/
structure ByteVec where
  toBytes : Bytes
  length_lt : toBytes.length < 2 ^ 63
deriving DecidableEq

namespace ByteVec

theorem ext_toBytes {a b : ByteVec} (h : a.toBytes = b.toBytes) : a = b := by
  cases a
  cases b
  cases h
  rfl

def empty : ByteVec where
  toBytes := []
  length_lt := by decide

end ByteVec

theorem mapError_eq_ok {ε ε' α : Type} {wrap : ε -> ε'} {x : Except ε α} {a : α} :
    x.mapError wrap = Except.ok a <-> x = Except.ok a := by
  cases x <;> simp [Except.mapError]

theorem bind_eq_ok {ε α β : Type} {x : Except ε α} {f : α -> Except ε β} {r : β} :
    (x >>= f) = Except.ok r <-> exists a, x = Except.ok a ∧ f a = Except.ok r := by
  cases x with
  | error e =>
      constructor
      · intro h
        cases h
      · intro h
        rcases h with ⟨_, hx, _⟩
        cases hx
  | ok a =>
      constructor
      · intro h
        exact ⟨a, rfl, h⟩
      · intro h
        rcases h with ⟨b, hb, hr⟩
        injection hb with hab
        subst hab
        exact hr

end Foundation
end Ephor
