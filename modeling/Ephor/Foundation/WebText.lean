import Ephor.Foundation.Base64
import Ephor.Foundation.Text

/-!
# Strings of the web platform

A JavaScript string is a sequence of sixteen-bit code units.  Two surrogates in
the right order make one character, any other surrogate stands alone and is no
character at all.  `TextEncoder` and `TextDecoder` go between strings and UTF-8,
`btoa` and `atob` between byte strings and padded base64.
-/

namespace Ephor
namespace Foundation
namespace WebText

abbrev JsString := List UInt16

def isHigh (u : UInt16) : Bool :=
  0xD800 <= u.toNat && u.toNat <= 0xDBFF

def isLow (u : UInt16) : Bool :=
  0xDC00 <= u.toNat && u.toNat <= 0xDFFF

def units (c : Char) : JsString :=
  if c.toNat < 0x10000 then
    [UInt16.ofNat c.toNat]
  else
    [UInt16.ofNat (0xD800 + (c.toNat - 0x10000) / 0x400),
      UInt16.ofNat (0xDC00 + (c.toNat - 0x10000) % 0x400)]

def ofText (text : List Char) : JsString :=
  text.flatMap units

def literal (s : String) : JsString :=
  ofText s.toList

abbrev CodePoint := Char ⊕ UInt16

def pair (high low : UInt16) : Char :=
  Char.ofNat (0x10000 + (high.toNat - 0xD800) * 0x400 + (low.toNat - 0xDC00))

def single (u : UInt16) : CodePoint :=
  if isHigh u || isLow u then Sum.inr u else Sum.inl (Char.ofNat u.toNat)

def codePoints : JsString -> List CodePoint
  | [] => []
  | [u] => [single u]
  | u :: v :: rest =>
      if isHigh u && isLow v then
        Sum.inl (pair u v) :: codePoints rest
      else
        single u :: codePoints (v :: rest)

def pointUnits : CodePoint -> JsString
  | Sum.inl c => units c
  | Sum.inr u => [u]

/-!
# Code units and code points
-/

theorem toNat_ofNat_lt {n : Nat} (h : n < 65536) : (UInt16.ofNat n).toNat = n :=
  UInt16.toNat_ofNat_of_lt' h

theorem toNat_ofNat_char {n : Nat} (h : n.isValidChar) : (Char.ofNat n).toNat = n := by
  rw [Char.ofNat, dif_pos h]
  rfl

theorem units_single {u : UInt16} (h : (isHigh u || isLow u) = false) :
    units (Char.ofNat u.toNat) = [u] := by
  have hsize := u.toNat_lt
  have hvalid : u.toNat.isValidChar := by
    simp only [isHigh, isLow, Bool.or_eq_false_iff, Bool.and_eq_false_iff,
      decide_eq_false_iff_not] at h
    simp only [Nat.isValidChar]
    omega
  rw [units, toNat_ofNat_char hvalid, if_pos (by omega), UInt16.ofNat_toNat]

theorem pointUnits_single (u : UInt16) : pointUnits (single u) = [u] := by
  cases h : isHigh u || isLow u with
  | true => rw [single, h]; rfl
  | false =>
      rw [single, h]
      exact units_single h

theorem units_pair {u v : UInt16} (hu : isHigh u = true) (hv : isLow v = true) :
    units (pair u v) = [u, v] := by
  simp only [isHigh, Bool.and_eq_true, decide_eq_true_eq] at hu
  simp only [isLow, Bool.and_eq_true, decide_eq_true_eq] at hv
  have hvalid : (0x10000 + (u.toNat - 0xD800) * 0x400 + (v.toNat - 0xDC00)).isValidChar := by
    simp only [Nat.isValidChar]
    omega
  rw [units, pair, toNat_ofNat_char hvalid, if_neg (by omega)]
  have hhigh : 0xD800 + (0x10000 + (u.toNat - 0xD800) * 0x400 + (v.toNat - 0xDC00) - 0x10000) /
      0x400 = u.toNat := by omega
  have hlow : 0xDC00 + (0x10000 + (u.toNat - 0xD800) * 0x400 + (v.toNat - 0xDC00) - 0x10000) %
      0x400 = v.toNat := by omega
  rw [hhigh, hlow, UInt16.ofNat_toNat, UInt16.ofNat_toNat]

theorem flatMap_codePoints (s : JsString) : (codePoints s).flatMap pointUnits = s := by
  fun_induction codePoints s with
  | case1 => rfl
  | case2 u =>
      rw [List.flatMap_cons, pointUnits_single]
      rfl
  | case3 u v rest h ih =>
      rw [Bool.and_eq_true] at h
      rw [List.flatMap_cons, ih, pointUnits, units_pair h.1 h.2]
      rfl
  | case4 u v rest h ih =>
      rw [List.flatMap_cons, ih, pointUnits_single]
      rfl

theorem codePoints_cons {u : UInt16} (h : isHigh u = false) (rest : JsString) :
    codePoints (u :: rest) = single u :: codePoints rest := by
  cases rest with
  | nil => rfl
  | cons v rest =>
      rw [codePoints, h]
      rfl

theorem codePoints_units (c : Char) (rest : JsString) :
    codePoints (units c ++ rest) = Sum.inl c :: codePoints rest := by
  have hvalid : c.toNat.isValidChar := c.valid
  simp only [Nat.isValidChar] at hvalid
  by_cases hsmall : c.toNat < 0x10000
  · have hnat := toNat_ofNat_lt (n := c.toNat) (by omega)
    have hplain : isHigh (UInt16.ofNat c.toNat) = false ∧
        isLow (UInt16.ofNat c.toNat) = false := by
      simp only [isHigh, isLow, hnat, Bool.and_eq_false_iff, decide_eq_false_iff_not]
      omega
    rw [units, if_pos hsmall, List.singleton_append, codePoints_cons hplain.1, single,
      hplain.1, hplain.2, hnat, Char.ofNat_toNat]
    rfl
  · have hhigh := toNat_ofNat_lt (n := 0xD800 + (c.toNat - 0x10000) / 0x400) (by omega)
    have hlow := toNat_ofNat_lt (n := 0xDC00 + (c.toNat - 0x10000) % 0x400) (by omega)
    rw [units, if_neg hsmall, List.cons_append, List.singleton_append, codePoints]
    rw [if_pos]
    · rw [pair, hhigh, hlow]
      have hback : 0x10000 + (0xD800 + (c.toNat - 0x10000) / 0x400 - 0xD800) * 0x400 +
          (0xDC00 + (c.toNat - 0x10000) % 0x400 - 0xDC00) = c.toNat := by omega
      rw [hback, Char.ofNat_toNat]
    · simp only [isHigh, isLow, hhigh, hlow, Bool.and_eq_true, decide_eq_true_eq]
      omega

theorem codePoints_ofText_append (text : List Char) (rest : JsString) :
    codePoints (ofText text ++ rest) = text.map Sum.inl ++ codePoints rest := by
  induction text with
  | nil => rfl
  | cons c text ih =>
      rw [ofText, List.flatMap_cons, List.append_assoc, codePoints_units, List.map_cons]
      exact congrArg _ ih

theorem codePoints_ofText (text : List Char) : codePoints (ofText text) = text.map Sum.inl := by
  have h := codePoints_ofText_append text []
  rwa [List.append_nil, codePoints, List.append_nil] at h

theorem codePoints_append {u : UInt16} (hhigh : isHigh u = false) (hlow : isLow u = false)
    (s rest : JsString) :
    codePoints (s ++ u :: rest) = codePoints s ++ single u :: codePoints rest := by
  fun_induction codePoints s with
  | case1 => exact codePoints_cons hhigh rest
  | case2 v =>
      rw [List.singleton_append, codePoints, hlow, Bool.and_false, codePoints_cons hhigh]
      rfl
  | case3 v w more h ih =>
      rw [List.cons_append, List.cons_append, codePoints, if_pos h, ih]
      rfl
  | case4 v w more h ih =>
      rw [List.cons_append, List.cons_append, codePoints, if_neg h, <- List.cons_append, ih]
      rfl

/-!
# `TextEncoder` and `TextDecoder`
-/

/-- A surrogate that stands alone is encoded as the replacement character. -/
def scalar : CodePoint -> Char
  | Sum.inl c => c
  | Sum.inr _ => Text.replacement

def encode (s : JsString) : Bytes :=
  Text.utf8 ((codePoints s).map scalar)

theorem encode_ofText (text : List Char) : encode (ofText text) = Text.utf8 text := by
  rw [encode, codePoints_ofText, List.map_map]
  exact congrArg Text.utf8 (List.map_id text)

/-- Nothing in the string is encoded as the replacement character. -/
def Faithful (s : JsString) : Prop :=
  Text.replacement ∉ (codePoints s).map scalar

theorem codePoints_of_faithful {s : JsString} (h : Faithful s) :
    codePoints s = ((codePoints s).map scalar).map Sum.inl := by
  rw [List.map_map]
  refine (List.map_id _).symm.trans (List.map_congr_left fun p hp => ?_)
  cases p with
  | inl c => rfl
  | inr u => exact absurd (List.mem_map_of_mem hp) h

theorem eq_of_encode {s s' : JsString} (h : Faithful s) (heq : encode s' = encode s) : s' = s := by
  have hscalars := Text.utf8_injective heq
  have h' : Faithful s' := by
    rw [Faithful, hscalars]
    exact h
  rw [<- flatMap_codePoints s', <- flatMap_codePoints s, codePoints_of_faithful h', hscalars,
    <- codePoints_of_faithful h]

theorem exists_encode_eq {s : JsString} (h : Not (Faithful s)) :
    exists s', s' ≠ s ∧ encode s' = encode s := by
  by_cases hplain : ofText ((codePoints s).map scalar) = s
  · rcases List.append_of_mem (not_not.mp h) with ⟨x, y, htext⟩
    have hpoints : codePoints (ofText x ++ 0xDC00 :: ofText y) =
        x.map Sum.inl ++ Sum.inr 0xDC00 :: y.map Sum.inl := by
      rw [codePoints_ofText_append, codePoints_cons rfl, codePoints_ofText]
      rfl
    refine ⟨ofText x ++ 0xDC00 :: ofText y, ?_, ?_⟩
    · intro heq
      rw [heq, <- hplain, codePoints_ofText] at hpoints
      have hmem : (Sum.inr 0xDC00 : CodePoint) ∈ ((codePoints s).map scalar).map Sum.inl :=
        hpoints ▸ List.mem_append_right _ List.mem_cons_self
      rcases List.mem_map.mp hmem with ⟨c, _, hc⟩
      cases hc
    · have hinl : scalar ∘ Sum.inl = id := rfl
      rw [encode, hpoints, encode, htext, List.map_append, List.map_cons, List.map_map,
        List.map_map, hinl, List.map_id, List.map_id, scalar]
  · exact ⟨_, hplain, encode_ofText _⟩

theorem encode_append {u : UInt16} (hhigh : isHigh u = false) (hlow : isLow u = false)
    (s rest : JsString) :
    encode (s ++ u :: rest) = encode s ++ Text.utf8 [scalar (single u)] ++ encode rest := by
  rw [encode, codePoints_append hhigh hlow, List.map_append, List.map_cons, Text.utf8_append,
    List.append_assoc, <- List.singleton_append, Text.utf8_append]
  rfl

theorem faithful_append {u : UInt16} (hhigh : isHigh u = false) (hlow : isLow u = false)
    (hu : scalar (single u) ≠ Text.replacement) {s rest : JsString} :
    Faithful (s ++ u :: rest) <-> Faithful s ∧ Faithful rest := by
  rw [Faithful, codePoints_append hhigh hlow, List.map_append, List.map_cons, List.mem_append,
    List.mem_cons, not_or, not_or]
  exact and_congr_right fun _ => and_iff_right hu.symm

/-- `TextDecoder.decode`, whose result holds no lone surrogate: a byte order mark at the
front is dropped. -/
def decode (b : Bytes) : List Char :=
  match Text.fromUtf8Lossy b with
  | '\uFEFF' :: text => text
  | text => text

theorem decode_utf8 {c : Char} {text : List Char} (h : c ≠ '\uFEFF') :
    decode (Text.utf8 (c :: text)) = c :: text := by
  rw [decode, Text.fromUtf8Lossy_utf8]
  split
  case h_1 rest heq =>
    exact absurd (List.cons.inj heq).1 h
  case h_2 => rfl

/-!
# `btoa` and `atob`
-/

def alphabet : List Char :=
  "ABCDEFGHIJKLMNOPQRSTUVWXYZabcdefghijklmnopqrstuvwxyz0123456789+/".toList

def letter (v : Nat) : UInt16 :=
  UInt16.ofNat (alphabet.getD v 'A').toNat

def value (u : UInt16) : Option Nat :=
  alphabet.idxOf? (Char.ofNat u.toNat)

/-- The unit of `=`. -/
def pad : UInt16 := 0x3D

def padding (b : Bytes) : Nat :=
  (3 - b.length % 3) % 3

def btoa (b : Bytes) : JsString :=
  (Base64.toSextets b).map letter ++ List.replicate (padding b) pad

def isSpace (u : UInt16) : Bool :=
  u == 0x09 || u == 0x0A || u == 0x0C || u == 0x0D || u == 0x20

/-- One or two padding characters at the end of whole groups are dropped. -/
def unpad (s : JsString) : JsString :=
  if s.length % 4 = 0 then
    match s.reverse with
    | a :: b :: rest =>
        if a == pad && b == pad then rest.reverse
        else if a == pad then (b :: rest).reverse
        else s
    | _ => s
  else
    s

def atob (s : JsString) : Option Bytes :=
  ((unpad (s.filter fun u => !isSpace u)).mapM value).bind Base64.ofSextets

set_option maxRecDepth 4000 in
theorem value_letter : forall v, v < 64 -> value (letter v) = some v := by
  decide

set_option maxRecDepth 4000 in
theorem letter_plain :
    forall v, v < 64 -> isSpace (letter v) = false ∧ (letter v == pad) = false := by
  decide

theorem unpad_append {s : JsString} {k : Nat} (hplain : forall u, u ∈ s -> (u == pad) = false)
    (hk : k <= 2) (hs : 2 <= s.length ∨ s.length + k = 0) (hgroups : (s.length + k) % 4 = 0) :
    unpad (s ++ List.replicate k pad) = s := by
  have hlast : forall u, u ∈ s.reverse -> (u == pad) = false := fun u hu =>
    hplain u (List.mem_reverse.mp hu)
  rw [unpad, if_pos (by simpa using hgroups), List.reverse_append, List.reverse_replicate]
  rcases hs with hs | hs
  · have hback : s.reverse.reverse = s := List.reverse_reverse s
    have hlength : s.reverse.length = s.length := List.length_reverse
    cases hrev : s.reverse with
    | nil =>
        rw [hrev, List.length_nil] at hlength
        omega
    | cons u more =>
        cases more with
        | nil =>
            rw [hrev, List.length_singleton] at hlength
            omega
        | cons v rest =>
            have hu := hlast u (hrev ▸ List.mem_cons_self)
            rw [hrev] at hback
            match k, hk with
            | 0, _ => simp [hu]
            | 1, _ => simpa [hu] using hback
            | 2, _ => simpa using hback
  · have hempty : s = [] := List.eq_nil_of_length_eq_zero (by omega)
    have hnone : k = 0 := by omega
    rw [hempty, hnone]
    rfl

theorem length_padded (b : Bytes) :
    (4 * b.length + 2) / 3 + padding b = (b.length + 2) / 3 * 4 := by
  rw [padding]
  omega

theorem atob_btoa (b : Bytes) : atob (btoa b) = some b := by
  have hmem : forall u, u ∈ (Base64.toSextets b).map letter ->
      isSpace u = false ∧ (u == pad) = false := by
    intro u hu
    rcases List.mem_map.mp hu with ⟨v, hv, rfl⟩
    exact letter_plain v (Base64.toSextets_lt v hv)
  have hfilter : (btoa b).filter (fun u => !isSpace u) = btoa b := by
    apply List.filter_eq_self.mpr
    intro u hu
    rcases List.mem_append.mp hu with hu | hu
    · rw [(hmem u hu).1]
      rfl
    · rw [List.eq_of_mem_replicate hu]
      rfl
  have hlength : ((Base64.toSextets b).map letter).length = (4 * b.length + 2) / 3 := by
    rw [List.length_map, Base64.length_toSextets]
  have hunpad : unpad (btoa b) = (Base64.toSextets b).map letter := by
    apply unpad_append (fun u hu => (hmem u hu).2)
    · rw [padding]
      omega
    · rw [hlength, length_padded]
      omega
    · rw [hlength, length_padded]
      omega
  rw [atob, hfilter, hunpad,
    Base64.mapM_map_eq_some fun v hv => value_letter v (Base64.toSextets_lt v hv)]
  exact Base64.ofSextets_toSextets b

theorem length_btoa (b : Bytes) : (btoa b).length = (b.length + 2) / 3 * 4 := by
  rw [btoa, List.length_append, List.length_map, Base64.length_toSextets,
    List.length_replicate, length_padded]

end WebText
end Foundation
end Ephor
