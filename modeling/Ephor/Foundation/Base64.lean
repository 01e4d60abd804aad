import Ephor.Foundation.Bytes

/-!
# Unpadded base64url

Go's `base64.RawURLEncoding`.  Encoding writes three bytes as four letters, with
a shorter last group and no padding.  Decoding drops carriage returns and line
feeds, rejects any other letter outside the alphabet and a last group of one
letter, and ignores the unused bits of a short last group.
-/

namespace Ephor
namespace Foundation
namespace Base64

def alphabet : List Char :=
  "ABCDEFGHIJKLMNOPQRSTUVWXYZabcdefghijklmnopqrstuvwxyz0123456789-_".toList

def letter (v : Nat) : Char :=
  alphabet.getD v 'A'

def value (c : Char) : Option Nat :=
  alphabet.idxOf? c

/-!
# Groups of sextets
-/

def toSextets : Bytes -> List Nat
  | [] => []
  | [a] => [a.toNat / 4, a.toNat % 4 * 16]
  | [a, b] =>
      [a.toNat / 4, a.toNat % 4 * 16 + b.toNat / 16, b.toNat % 16 * 4]
  | a :: b :: c :: rest =>
      a.toNat / 4 :: (a.toNat % 4 * 16 + b.toNat / 16) ::
        (b.toNat % 16 * 4 + c.toNat / 64) :: c.toNat % 64 :: toSextets rest

def ofSextets : List Nat -> Option Bytes
  | [] => some []
  | [_] => none
  | [p, q] => some [UInt8.ofNat (p * 4 + q / 16)]
  | [p, q, r] =>
      some [UInt8.ofNat (p * 4 + q / 16), UInt8.ofNat (q % 16 * 16 + r / 4)]
  | p :: q :: r :: s :: rest => do
      let tail <- ofSextets rest
      return UInt8.ofNat (p * 4 + q / 16) :: UInt8.ofNat (q % 16 * 16 + r / 4) ::
        UInt8.ofNat (r % 4 * 64 + s) :: tail

def encode (b : Bytes) : List Char :=
  (toSextets b).map letter

/-- `DecodeString`, with `none` for every decoding error. -/
def decode (s : List Char) : Option Bytes := do
  let sextets <- (s.filter fun c => c != '\r' && c != '\n').mapM value
  ofSextets sextets

/-!
# Decoding inverts encoding
-/

theorem toSextets_lt {b : Bytes} : forall v, v ∈ toSextets b -> v < 64 := by
  induction b using toSextets.induct with
  | case1 =>
      intro v hv
      cases hv
  | case2 a =>
      have ha := a.toNat_lt
      simp only [toSextets, List.mem_cons, List.not_mem_nil, or_false]
      omega
  | case3 a b =>
      have ha := a.toNat_lt
      have hb := b.toNat_lt
      simp only [toSextets, List.mem_cons, List.not_mem_nil, or_false]
      omega
  | case4 a b c rest ih =>
      have ha := a.toNat_lt
      have hb := b.toNat_lt
      have hc := c.toNat_lt
      intro v hv
      simp only [toSextets, List.mem_cons] at hv
      rcases hv with rfl | rfl | rfl | rfl | hv
      · omega
      · omega
      · omega
      · omega
      · exact ih v hv

theorem ofSextets_toSextets (b : Bytes) : ofSextets (toSextets b) = some b := by
  induction b using toSextets.induct with
  | case1 => rfl
  | case2 a =>
      have h1 : a.toNat / 4 * 4 + a.toNat % 4 * 16 / 16 = a.toNat := by omega
      rw [toSextets, ofSextets, h1, UInt8.ofNat_toNat]
  | case3 a b =>
      have hb := b.toNat_lt
      have h1 : a.toNat / 4 * 4 + (a.toNat % 4 * 16 + b.toNat / 16) / 16 =
          a.toNat := by omega
      have h2 : (a.toNat % 4 * 16 + b.toNat / 16) % 16 * 16 +
          b.toNat % 16 * 4 / 4 = b.toNat := by omega
      rw [toSextets, ofSextets, h1, h2, UInt8.ofNat_toNat, UInt8.ofNat_toNat]
  | case4 a b c rest ih =>
      have hb := b.toNat_lt
      have hc := c.toNat_lt
      have h1 : a.toNat / 4 * 4 + (a.toNat % 4 * 16 + b.toNat / 16) / 16 =
          a.toNat := by omega
      have h2 : (a.toNat % 4 * 16 + b.toNat / 16) % 16 * 16 +
          (b.toNat % 16 * 4 + c.toNat / 64) / 4 = b.toNat := by omega
      have h3 : (b.toNat % 16 * 4 + c.toNat / 64) % 4 * 64 + c.toNat % 64 =
          c.toNat := by omega
      rw [toSextets, ofSextets, ih, h1, h2, h3, UInt8.ofNat_toNat,
        UInt8.ofNat_toNat, UInt8.ofNat_toNat]
      rfl

set_option maxRecDepth 4000 in
theorem value_letter : forall v, v < 64 -> value (letter v) = some v := by
  decide

set_option maxRecDepth 4000 in
theorem letter_kept : forall v, v < 64 -> (letter v != '\r' && letter v != '\n') = true := by
  decide

theorem filter_letters {vs : List Nat} (h : forall v, v ∈ vs -> v < 64) :
    (vs.map letter).filter (fun c => c != '\r' && c != '\n') = vs.map letter := by
  apply List.filter_eq_self.mpr
  intro c hc
  rcases List.mem_map.mp hc with ⟨v, hv, rfl⟩
  exact letter_kept v (h v hv)

theorem mapM_map_eq_some {α β : Type} {write : α -> β} {read : β -> Option α} {vs : List α}
    (h : forall v, v ∈ vs -> read (write v) = some v) : (vs.map write).mapM read = some vs := by
  induction vs with
  | nil => rfl
  | cons v rest ih =>
      rw [List.map_cons, List.mapM_cons, h v List.mem_cons_self, ih (List.forall_mem_cons.mp h).2]
      rfl

theorem decode_encode (b : Bytes) : decode (encode b) = some b := by
  unfold decode encode
  rw [filter_letters toSextets_lt, mapM_map_eq_some fun v hv => value_letter v (toSextets_lt v hv)]
  exact ofSextets_toSextets b

theorem encode_injective {a b : Bytes} (h : encode a = encode b) : a = b := by
  have ha := decode_encode a
  rw [h, decode_encode b] at ha
  injection ha with hba
  exact hba.symm

theorem encode_ne_nil {b : Bytes} (h : b ≠ []) : encode b ≠ [] := by
  intro hnil
  apply h
  apply encode_injective
  rw [hnil]
  rfl

/-!
# The length of an encoding
-/

theorem length_toSextets (b : Bytes) : (toSextets b).length = (4 * b.length + 2) / 3 := by
  induction b using toSextets.induct with
  | case1 => rfl
  | case2 a | case3 a b => simp [toSextets]
  | case4 a b c rest ih =>
      simp only [toSextets, List.length_cons, ih]
      omega

set_option maxRecDepth 4000 in
theorem letter_utf8Size : forall v, v < 64 -> (letter v).utf8Size = 1 := by
  decide

theorem utf8ByteSize_letters {vs : List Nat} (h : forall v, v ∈ vs -> v < 64) :
    (String.ofList (vs.map letter)).utf8ByteSize = vs.length := by
  induction vs with
  | nil => rfl
  | cons v rest ih =>
      rw [List.map_cons, <- List.singleton_append, String.ofList_append,
        String.utf8ByteSize_append, ih (List.forall_mem_cons.mp h).2,
        <- String.singleton_eq_ofList, String.utf8ByteSize_singleton,
        letter_utf8Size v (h v List.mem_cons_self), List.length_cons, Nat.add_comm]

theorem utf8ByteSize_encode (b : Bytes) :
    (String.ofList (encode b)).utf8ByteSize = (4 * b.length + 2) / 3 := by
  rw [encode, utf8ByteSize_letters toSextets_lt, length_toSextets]

end Base64
end Foundation
end Ephor
