import Ephor.Foundation.CborItem
import Ephor.Pubcache.Cbor

/-!
# What the scanner accepts

The scanner takes a byte string for a data item where it finds heads followed by so many items
as it counts.  It counts a map on a `uint64` that doubling wraps around, and it reads a simple
value in two bytes like any other head; apart from that it follows the grammar.
-/

namespace Ephor
namespace Pubcache

open Foundation
open Foundation.Cbor
open Foundation.CanonicalCbor (ofBigEndian firstByte encodeHead decodeHead decodeArg decodeWide
  takeBytes majorUint majorBytes majorText majorMap)

/-!
# Heads
-/

theorem toNat_foldl_bigEndian (b : Bytes) (v : UInt64) (n : Nat)
    (hsize : v.toNat < 256 ^ n) (hlen : n + b.length <= 8) :
    (b.foldl (fun v x => v * 256 + x.toUInt64) v).toNat =
      b.foldl (fun v x => v * 256 + x.toNat) v.toNat := by
  induction b generalizing v n with
  | nil => rfl
  | cons x b ih =>
      have hx := x.toNat_lt
      rw [List.length_cons] at hlen
      have hpow : 256 ^ (n + 1) <= 256 ^ 8 := Nat.pow_le_pow_right (by decide) (by omega)
      have hnext : v.toNat * 256 + x.toNat < 256 ^ (n + 1) := by
        rw [Nat.pow_succ]
        omega
      have hstep : (v * 256 + x.toUInt64).toNat = v.toNat * 256 + x.toNat := by
        rw [UInt64.toNat_add, UInt64.toNat_mul, UInt8.toNat_toUInt64]
        change (v.toNat * 256 % 2 ^ 64 + x.toNat) % 2 ^ 64 = _
        have hwide : (256 : Nat) ^ 8 = 2 ^ 64 := by decide
        omega
      rw [List.foldl_cons, List.foldl_cons, ih _ (n + 1) (hstep ▸ hnext) (by omega), hstep]

variable {b : Bytes} {arg levels : Nat} {major : Fin 8} {x : Item} {pairs : List (UInt64 × Item)}

theorem toNat_bigEndian (h : b.length <= 8) : (bigEndian b).toNat = ofBigEndian b :=
  toNat_foldl_bigEndian b 0 0 Nat.one_pos (by omega)

theorem toNat_shiftRight_five (b : UInt8) : (b >>> 5).toNat = b.toNat / 32 := by
  rw [UInt8.toNat_shiftRight]
  exact Nat.shiftRight_eq_div_pow b.toNat 5

theorem toNat_and_31 (b : UInt8) : (b &&& 0x1f).toNat = b.toNat % 32 := by
  rw [UInt8.toNat_and]
  exact Nat.and_two_pow_sub_one_eq_mod b.toNat 5

def headOf (major : Fin 8) (arg : Nat) : Head :=
  ⟨UInt8.ofNat major.val, UInt64.ofNat arg, (encodeHead major arg).length⟩

theorem toNat_arg_headOf (major : Fin 8) (h : arg < 2 ^ 64) : (headOf major arg).arg.toNat = arg :=
  UInt64.toNat_ofNat_of_lt' h

theorem drop_size_headOf (major : Fin 8) (arg : Nat) (rest : Bytes) :
    (encodeHead major arg ++ rest).drop (headOf major arg).size = rest :=
  List.drop_left

theorem wideHead_toOption (first : UInt8) (b : Bytes) (major : UInt8) {width : Nat}
    (hwidth : width <= 8) (least : UInt64) :
    (wideHead (first :: b) major width least).toOption =
      (decodeWide width least.toNat b).map fun found =>
        ⟨major, UInt64.ofNat found.1, b.length + 1 - found.2.length⟩ := by
  rw [wideHead, decodeWide, takeBytes, List.length_cons, List.drop_one, List.tail_cons]
  by_cases hshort : b.length < width
  · rw [if_pos (by omega), if_pos hshort]
    rfl
  · rw [if_neg (by omega), if_neg hshort]
    have hnumber : (bigEndian (b.take width)).toNat = ofBigEndian (b.take width) :=
      toNat_bigEndian (Nat.le_trans (List.length_take_le _ _) hwidth)
    have hleast : bigEndian (b.take width) < least ↔
        ofBigEndian (b.take width) < least.toNat := by
      rw [UInt64.lt_iff_toNat_lt, hnumber]
    simp only [Option.bind_eq_bind, Option.bind_some, hleast]
    split
    · rfl
    · have hsize : b.length + 1 - (b.drop width).length = width + 1 := by
        rw [List.length_drop]
        omega
      simp only [Except.toOption, Option.map_some, hsize, <- hnumber, UInt64.ofNat_toNat]

theorem readHead_toOption (b : Bytes) :
    (readHead b).toOption = (decodeHead b).map fun found =>
      ⟨UInt8.ofNat found.1.val, UInt64.ofNat found.2.1, b.length - found.2.2.length⟩ := by
  cases b with
  | nil => rfl
  | cons first b =>
      have hmajor : first >>> 5 = UInt8.ofNat (Fin.ofNat 8 (first.toNat / 32)).val := by
        have hlt := first.toNat_lt
        apply UInt8.toNat_inj.mp
        rw [toNat_shiftRight_five, UInt8.toNat_ofNat', Fin.val_ofNat]
        omega
      have hinfo : forall n : UInt8, first &&& 0x1f = n ↔ first.toNat % 32 = n.toNat := by
        intro n
        rw [<- UInt8.toNat_inj, toNat_and_31]
      have hsmall : first &&& 0x1f < 24 ↔ first.toNat % 32 < 24 := by
        rw [UInt8.lt_iff_toNat_lt, toNat_and_31]
        rfl
      have harg : (first &&& 0x1f).toUInt64 = UInt64.ofNat (first.toNat % 32) := by
        apply UInt64.toNat_inj.mp
        rw [UInt8.toNat_toUInt64, toNat_and_31, UInt64.toNat_ofNat']
        omega
      rw [readHead, decodeHead, decodeArg]
      simp only [hsmall, hinfo, harg, UInt8.reduceToNat, List.length_cons]
      by_cases hlt : first.toNat % 32 < 24
      · rw [if_pos hlt, if_pos hlt]
        simp [Except.toOption, hmajor]
      · rw [if_neg hlt, if_neg hlt]
        -- the four widths, in the order of both definitions
        repeat' split
        iterate 4
          · rw [wideHead_toOption first b _ (by decide), hmajor, Option.map_eq_bind,
              Option.bind_eq_bind, Option.map_bind]
            rfl
        rfl

theorem readHead_encodeHead (major : Fin 8) (rest : Bytes) (h : arg < 2 ^ 64) :
    readHead (encodeHead major arg ++ rest) = Except.ok (headOf major arg) := by
  have hread := readHead_toOption (encodeHead major arg ++ rest)
  rw [CanonicalCbor.decodeHead_encodeHead major rest h, Option.map_some, List.length_append,
    Nat.add_sub_cancel] at hread
  cases hok : readHead (encodeHead major arg ++ rest) with
  | error err =>
      rw [hok] at hread
      exact nomatch hread
  | ok head =>
      rw [hok] at hread
      exact congrArg Except.ok (Option.some.inj hread)

theorem eq_headOf_of_readHead {head : Head} (h : readHead b = Except.ok head) :
    exists major arg rest, arg < 2 ^ 64 ∧ head = headOf major arg ∧
      b = encodeHead major arg ++ rest := by
  have hread := readHead_toOption b
  rw [h] at hread
  rcases Option.map_eq_some_iff.mp hread.symm with ⟨⟨major, arg, rest⟩, hfound, _⟩
  rcases CanonicalCbor.decodeHead_eq_some hfound with ⟨harg, hb⟩
  rw [hb, readHead_encodeHead major rest harg] at h
  injection h with hhead
  exact ⟨major, arg, rest, harg, hhead.symm, hb⟩

/-!
# The lax grammar
-/

/-- The items that are counted on a `uint64`. -/
def laxCount (major : Fin 8) (arg : Nat) : Nat :=
  Token.itemCount major arg % 2 ^ 64

/-- A head of the simple values whose argument takes two bytes or more is a float's. -/
def tokenOf (major : Fin 8) (arg : Nat) (payload : Bytes) : Token :=
  if major = majorSimple ∧ 0x100 <= arg then
    if arg < 0x10000 then Token.float FloatWidth.half arg
    else if arg < 0x100000000 then Token.float FloatWidth.single arg
    else Token.float FloatWidth.double arg
  else
    Token.head major arg payload

/-- The items that the scanner passes over, nested in fewer levels than the bound. -/
inductive Lax : Nat -> Item -> Prop
  | node {levels : Nat} {major : Fin 8} {arg : Nat} {payload : Bytes} {items : List Item}
      (harg : arg < 2 ^ 64) (hpayload : payload.length = Token.payloadLength major arg)
      (hcount : laxCount major arg <= maxCBORItems.toNat)
      (hlength : items.length = laxCount major arg)
      (hitems : forall x, x ∈ items -> Lax levels x) :
      Lax (levels + 1) (Item.node (tokenOf major arg payload) items)

theorem payloadLength_simple (arg : Nat) : Token.payloadLength majorSimple arg = 0 :=
  if_neg (by decide)

theorem encode_tokenOf {payload : Bytes} (h : payload.length = Token.payloadLength major arg) :
    (tokenOf major arg payload).encode = encodeHead major arg ++ payload := by
  unfold tokenOf
  split
  · rename_i hfloat
    rcases hfloat with ⟨rfl, hwide⟩
    rw [payloadLength_simple] at h
    have hhead : encodeHead majorSimple arg =
        if arg < 0x10000 then firstByte majorSimple 25 :: CanonicalCbor.bigEndian 2 arg
        else if arg < 0x100000000 then firstByte majorSimple 26 :: CanonicalCbor.bigEndian 4 arg
        else firstByte majorSimple 27 :: CanonicalCbor.bigEndian 8 arg := by
      rw [encodeHead, if_neg (by omega), if_neg (by omega)]
    rw [List.eq_nil_of_length_eq_zero h, List.append_nil, hhead]
    split
    · rfl
    · split <;> rfl
  · rfl

theorem firstByte_and_31 (major : Fin 8) {info : Nat} (h : info < 32) :
    firstByte major info &&& 0x1f = UInt8.ofNat info := by
  apply UInt8.toNat_inj.mp
  rw [toNat_and_31, CanonicalCbor.firstByte_toNat h, Nat.mul_add_mod_self_right,
    UInt8.toNat_ofNat', Nat.mod_eq_of_lt h]
  omega

theorem simpleSize_encodeHead (arg : Nat) (rest : Bytes) :
    simpleSize ((encodeHead majorSimple arg ++ rest).headD 0) =
      Except.ok (encodeHead majorSimple arg).length := by
  unfold encodeHead simpleSize
  split
  · rename_i hsmall
    have hinfo : UInt8.ofNat arg < 24 := by
      rw [UInt8.lt_iff_toNat_lt, UInt8.toNat_ofNat', Nat.mod_eq_of_lt (by omega)]
      exact hsmall
    rw [List.singleton_append, List.headD_cons, firstByte_and_31 _ (by omega)]
    exact if_pos hinfo
  · repeat' split
    all_goals
      rw [List.cons_append, List.headD_cons, firstByte_and_31 _ (by decide), List.length_cons,
        CanonicalCbor.length_bigEndian]
      rfl

theorem ofNat_major_inj (major other : Fin 8) :
    UInt8.ofNat major.val = UInt8.ofNat other.val ↔ major = other := by
  revert major other
  decide

/-- What is skipped after a head: a string, or the items that it announces. -/
def skipAfter (levels : Nat) (major : Fin 8) (arg : Nat) (rest : Bytes) : Except Error Nat :=
  if rest.length < Token.payloadLength major arg then
    Except.error (malformed "cbor string overruns buffer")
  else if maxCBORItems.toNat < laxCount major arg then
    Except.error (malformed "cbor container too large")
  else do
    let off <- skipItems (skipNested levels) (laxCount major arg)
      (rest.drop (Token.payloadLength major arg))
    return Token.payloadLength major arg + off

theorem skipItems_one (skip : Bytes -> Except Error Nat) (b : Bytes) :
    skipItems skip 1 b = skip b := by
  rw [skipItems]
  cases skip b <;> rfl

theorem toNat_items (h : arg < 2 ^ 64) (hcontainer : major = majorArray ∨ major = majorMap) :
    (if (headOf major arg).major = cborMajorMap then (headOf major arg).arg * 2
      else (headOf major arg).arg).toNat = laxCount major arg := by
  have harg := toNat_arg_headOf major h
  cases hcontainer with
  | inl heq =>
      subst heq
      exact harg.trans (Nat.mod_eq_of_lt h).symm
  | inr heq =>
      subst heq
      show (UInt64.ofNat arg * 2).toNat = 2 * arg % 2 ^ 64
      rw [UInt64.toNat_mul, UInt64.toNat_ofNat_of_lt' h, Nat.mul_comm]
      rfl

theorem skipAfter_leaf (levels : Nat) (rest : Bytes)
    (hpayload : Token.payloadLength major arg = 0) (hcount : laxCount major arg = 0) :
    skipAfter levels major arg rest = Except.ok 0 := by
  rw [skipAfter, hpayload, hcount, if_neg (Nat.not_lt_zero _), if_neg (Nat.not_lt_zero _)]
  rfl

theorem skipNested_encodeHead (major : Fin 8) (levels : Nat) (rest : Bytes) (h : arg < 2 ^ 64) :
    skipNested (levels + 1) (encodeHead major arg ++ rest) =
      (skipAfter levels major arg rest).map fun off => (encodeHead major arg).length + off := by
  rw [skipNested, readHead_encodeHead major rest h]
  change (if UInt8.ofNat major.val = UInt8.ofNat majorUint.val ∨
      UInt8.ofNat major.val = UInt8.ofNat majorNegative.val then _
    else if UInt8.ofNat major.val = UInt8.ofNat majorBytes.val ∨
      UInt8.ofNat major.val = UInt8.ofNat majorText.val then _
    else if UInt8.ofNat major.val = UInt8.ofNat majorArray.val ∨
      UInt8.ofNat major.val = UInt8.ofNat majorMap.val then _
    else if UInt8.ofNat major.val = UInt8.ofNat majorTag.val then _
    else _) = _
  have hsize : (headOf major arg).size = (encodeHead major arg).length := rfl
  simp only [ofNat_major_inj, hsize, List.drop_left, List.length_append,
    Nat.add_sub_cancel_left]
  by_cases hint : major = majorUint ∨ major = majorNegative
  · rw [if_pos hint]
    cases hint with
    | inl heq | inr heq =>
        subst heq
        rw [skipAfter_leaf levels rest rfl rfl]
        rfl
  rw [if_neg hint]
  by_cases hstring : major = majorBytes ∨ major = majorText
  · have hpayload : Token.payloadLength major arg = arg := if_pos hstring
    have hcount : laxCount major arg = 0 := by
      cases hstring with
      | inl heq | inr heq => exact heq ▸ rfl
    rw [if_pos hstring, skipAfter, hpayload, hcount, if_neg (Nat.not_lt_zero _),
      toNat_arg_headOf major h]
    split <;> rfl
  rw [if_neg hstring]
  have hpayload : Token.payloadLength major arg = 0 := if_neg hstring
  by_cases hcontainer : major = majorArray ∨ major = majorMap
  · rw [if_pos hcontainer, skipAfter, hpayload, if_neg (Nat.not_lt_zero _), List.drop_zero]
    simp only [UInt64.lt_iff_toNat_lt, toNat_items h hcontainer]
    split
    · rfl
    · cases skipItems (skipNested levels) (laxCount major arg) rest with
      | error err => rfl
      | ok off =>
          show Except.ok _ = Except.ok _
          rw [Nat.zero_add]
  rw [if_neg hcontainer]
  by_cases htag : major = majorTag
  · subst htag
    rw [if_pos rfl, skipAfter, hpayload, if_neg (Nat.not_lt_zero _), List.drop_zero,
      show laxCount majorTag arg = 1 from rfl, skipItems_one, if_neg (by decide)]
    cases skipNested levels rest with
    | error err => rfl
    | ok off =>
        show Except.ok _ = Except.ok _
        rw [Nat.zero_add]
  rw [if_neg htag]
  have hsimple : forall m : Fin 8, ¬(m = majorUint ∨ m = majorNegative) ->
      ¬(m = majorBytes ∨ m = majorText) -> ¬(m = majorArray ∨ m = majorMap) ->
      ¬m = majorTag -> m = majorSimple := by
    decide
  cases hsimple major hint hstring hcontainer htag
  rw [simpleSize_encodeHead, skipAfter_leaf levels rest rfl rfl]
  rfl

/-!
# What is skipped is lax
-/

theorem skipItems_spec {P : Item -> Prop} {skip : Bytes -> Except Error Nat}
    (hskip : forall {b n}, skip b = Except.ok n ->
      exists x rest, P x ∧ b = x.encode ++ rest ∧ n = x.encode.length) {count : Nat} {n : Nat}
    (h : skipItems skip count b = Except.ok n) :
    exists xs rest, (forall x, x ∈ xs -> P x) ∧ xs.length = count ∧
      b = Item.encodeAll xs ++ rest ∧ n = (Item.encodeAll xs).length := by
  induction count generalizing b n with
  | zero =>
      injection h with hn
      exact ⟨[], b, (fun _ hx => nomatch hx), rfl, rfl, hn.symm⟩
  | succ count ih =>
      rcases bind_eq_ok.mp h with ⟨m, hm, h⟩
      rcases bind_eq_ok.mp h with ⟨off, hoff, h⟩
      injection h with hn
      rcases hskip hm with ⟨x, rest, hx, hb, hlen⟩
      rw [hb, hlen, List.drop_left] at hoff
      rcases ih hoff with ⟨xs, tail, hxs, hcount, hrest, hlength⟩
      refine ⟨x :: xs, tail, ?_, by rw [List.length_cons, hcount], ?_, ?_⟩
      · intro y hy
        cases hy with
        | head => exact hx
        | tail _ hmem => exact hxs y hmem
      · rw [hb, hrest, Item.encodeAll, List.append_assoc]
      · rw [<- hn, hlen, hlength, Item.encodeAll, List.length_append]

theorem skipItems_encodeAll {P : Item -> Prop} {skip : Bytes -> Except Error Nat}
    (hskip : forall {x} rest, P x -> skip (x.encode ++ rest) = Except.ok x.encode.length)
    {xs : List Item} (rest : Bytes) (h : forall x, x ∈ xs -> P x) :
    skipItems skip xs.length (Item.encodeAll xs ++ rest) =
      Except.ok (Item.encodeAll xs).length := by
  induction xs with
  | nil => rfl
  | cons x xs ih =>
      have hx := hskip (Item.encodeAll xs ++ rest) (h x List.mem_cons_self)
      have hxs := ih (List.forall_mem_cons.mp h).2
      rw [List.length_cons, skipItems, Item.encodeAll, List.append_assoc, hx]
      show (skipItems skip xs.length (List.drop _ _) >>= _) = _
      rw [List.drop_left, hxs, List.length_append]
      rfl

theorem skipNested_spec {n : Nat} (h : skipNested levels b = Except.ok n) :
    exists x rest, Lax levels x ∧ b = x.encode ++ rest ∧ n = x.encode.length := by
  induction levels generalizing b n with
  | zero => cases h
  | succ levels ih =>
      rcases bind_eq_ok.mp h with ⟨head, hhead, _⟩
      rcases eq_headOf_of_readHead hhead with ⟨major, arg, rest, harg, _, rfl⟩
      rw [skipNested_encodeHead major levels rest harg, skipAfter] at h
      by_cases hover : rest.length < Token.payloadLength major arg
      · rw [if_pos hover] at h
        cases h
      rw [if_neg hover] at h
      by_cases hlarge : maxCBORItems.toNat < laxCount major arg
      · rw [if_pos hlarge] at h
        cases h
      rw [if_neg hlarge] at h
      cases hskip : skipItems (skipNested levels) (laxCount major arg)
          (rest.drop (Token.payloadLength major arg)) with
      | error err =>
          rw [hskip] at h
          cases h
      | ok off =>
          rw [hskip] at h
          injection h with hn
          rcases skipItems_spec ih hskip with ⟨items, tail, hitems, hcount, hdrop, hoff⟩
          have hpayload : (rest.take (Token.payloadLength major arg)).length =
              Token.payloadLength major arg :=
            List.length_take_of_le (Nat.le_of_not_lt hover)
          refine ⟨_, tail, Lax.node harg hpayload (Nat.le_of_not_lt hlarge) hcount hitems, ?_, ?_⟩
          · rw [Item.encode, encode_tokenOf hpayload, List.append_assoc, List.append_assoc,
              <- hdrop, List.take_append_drop]
          · rw [Item.encode, encode_tokenOf hpayload, List.length_append, List.length_append,
              hpayload, <- hoff, <- hn, Nat.add_assoc]

theorem skipNested_encode (rest : Bytes) (h : Lax levels x) :
    skipNested levels (x.encode ++ rest) = Except.ok x.encode.length := by
  induction h generalizing rest with
  | @node levels major arg payload items harg hpayload hcount hlength hitems ih =>
      have hskip := skipItems_encodeAll
        (fun rest hx => hx rest) rest ih
      have hfits : ¬(payload ++ (Item.encodeAll items ++ rest)).length <
          Token.payloadLength major arg := by
        rw [List.length_append, <- hpayload]
        omega
      rw [Item.encode, encode_tokenOf hpayload, List.append_assoc, List.append_assoc,
        skipNested_encodeHead major levels _ harg, skipAfter, if_neg hfits,
        if_neg (Nat.not_lt.mpr hcount), <- hpayload, List.drop_left, <- hlength, hskip,
        List.length_append, List.length_append, Nat.add_assoc]
      rfl

/-!
# Where the lax grammar is the strict one
-/

/-- No map head counts from 2^63 on, and a simple value in two bytes is 32 at least. -/
def RegularToken : Token -> Prop
  | Token.head major arg _ =>
      (major = majorMap -> arg < 2 ^ 63) ∧ (major = majorSimple -> arg < 24 ∨ 32 <= arg)
  | Token.float _ _ => True

def Regular : Item -> Prop :=
  Item.Every fun token _ => RegularToken token

theorem count_tokenOf (major : Fin 8) (arg : Nat) (payload : Bytes) :
    (tokenOf major arg payload).count = Token.itemCount major arg := by
  unfold tokenOf
  split
  · rename_i hfloat
    rw [hfloat.1]
    repeat' split
    all_goals rfl
  · rfl

theorem loose_tokenOf {payload : Bytes} (harg : arg < 2 ^ 64)
    (hpayload : payload.length = Token.payloadLength major arg) :
    (tokenOf major arg payload).Loose := by
  unfold tokenOf
  split
  · split
    · rename_i hlt
      exact hlt
    · split
      · rename_i hlt
        exact hlt
      · exact harg
  · rename_i hfloat
    refine ⟨harg, hpayload, ?_⟩
    intro hsimple
    by_contra hwide
    exact hfloat ⟨hsimple, Nat.le_of_not_lt hwide⟩

theorem Lax.short (h : Lax levels x) : x.Short := by
  induction h with
  | node harg hpayload _ hlength _ ih =>
      exact Item.Every.node
        ⟨loose_tokenOf harg hpayload, by
          rw [hlength, count_tokenOf]
          exact Nat.mod_le _ _⟩
        ih

theorem laxCount_eq_iff (harg : arg < 2 ^ 64) :
    laxCount major arg = Token.itemCount major arg ↔ (major = majorMap -> arg < 2 ^ 63) := by
  rw [laxCount, Nat.mod_eq_iff_lt (by decide), Token.itemCount]
  by_cases hmap : major = majorMap
  · subst hmap
    rw [if_neg (by decide), if_pos rfl]
    constructor
    · intro h _
      omega
    · intro h
      have hlt := h rfl
      omega
  · rw [if_neg hmap]
    constructor
    · intro _ heq
      exact absurd heq hmap
    · intro _
      repeat' split
      · exact harg
      · decide
      · decide

theorem regularToken_tokenOf {payload : Bytes} (harg : arg < 2 ^ 64)
    (hpayload : payload.length = Token.payloadLength major arg) :
    RegularToken (tokenOf major arg payload) ↔
      (tokenOf major arg payload).Valid ∧
        laxCount major arg = Token.itemCount major arg := by
  have hloose := loose_tokenOf harg hpayload
  rw [laxCount_eq_iff harg, Token.Valid]
  by_cases hfloat : major = majorSimple ∧ 0x100 <= arg
  · have htoken : exists width, tokenOf major arg payload = Token.float width arg := by
      rw [tokenOf, if_pos hfloat]
      repeat' split
      all_goals exact ⟨_, rfl⟩
    rcases htoken with ⟨width, htoken⟩
    rw [htoken] at hloose ⊢
    refine iff_of_true trivial ⟨⟨hloose, ?_⟩, ?_⟩
    · intro _ _ h
      cases h
    · intro hmap
      exact absurd (hfloat.1.symm.trans hmap) (by decide)
  · have htoken : tokenOf major arg payload = Token.head major arg payload := if_neg hfloat
    rw [htoken] at hloose ⊢
    constructor
    · intro h
      refine ⟨⟨hloose, ?_⟩, h.1⟩
      intro _ _ heq
      cases heq
      exact h.2 rfl
    · intro h
      refine ⟨h.2, ?_⟩
      intro hsimple
      exact h.1.2 arg payload (hsimple ▸ rfl)

theorem Lax.wellFormed_iff (h : Lax levels x) : x.WellFormed ↔ Regular x := by
  induction h with
  | node harg hpayload _ hlength _ ih =>
      rw [Item.WellFormed, Item.every_node, Regular, Item.every_node,
        regularToken_tokenOf harg hpayload, hlength, count_tokenOf]
      exact and_congr_right fun _ => forall₂_congr ih

theorem skipValue_encode {depth : Int} (rest : Bytes) (h : Lax (maxCBORDepth + 1 - depth).toNat x) :
    skipValue (x.encode ++ rest) depth = Except.ok x.encode.length :=
  skipNested_encode rest h

theorem skipValue_eq_ok {depth : Int} {n : Nat} :
    skipValue b depth = Except.ok n ↔
      exists x rest, Lax (maxCBORDepth + 1 - depth).toNat x ∧ b = x.encode ++ rest ∧
        n = x.encode.length := by
  constructor
  · exact skipNested_spec
  · intro h
    rcases h with ⟨x, rest, hx, rfl, rfl⟩
    exact skipNested_encode rest hx

/-!
# Maps
-/

def uintItem (v : UInt64) : Item :=
  Item.node (Token.head majorUint v.toNat []) []

def pairItems (pairs : List (UInt64 × Item)) : List Item :=
  pairs.flatMap fun pair => [uintItem pair.1, pair.2]

def mapItem (pairs : List (UInt64 × Item)) : Item :=
  Item.node (Token.head majorMap pairs.length []) (pairItems pairs)

def entryOf (pair : UInt64 × Item) : CborEntry :=
  ⟨pair.1, pair.2.encode⟩

/-- The maps that the scanner accepts: ascending keys, and values that it passes over. -/
structure LaxMap (pairs : List (UInt64 × Item)) : Prop where
  few : pairs.length <= maxCBORItems.toNat
  keys : CanonicalCbor.Ascending pairs
  values : forall pair, pair ∈ pairs -> Lax maxCBORDepth pair.2

theorem encode_uintItem (v : UInt64) : (uintItem v).encode = encodeHead majorUint v.toNat := by
  rw [uintItem, Item.encode, Token.encode, Item.encodeAll, List.append_nil, List.append_nil]

theorem encodeAll_pairItems_cons (key : UInt64) (x : Item) (pairs : List (UInt64 × Item)) :
    Item.encodeAll (pairItems ((key, x) :: pairs)) =
      encodeHead majorUint key.toNat ++ (x.encode ++ Item.encodeAll (pairItems pairs)) := by
  rw [pairItems, List.flatMap_cons, Item.encodeAll_append, Item.encodeAll, Item.encodeAll_singleton,
    encode_uintItem, List.append_assoc]
  rfl

theorem length_pairItems (pairs : List (UInt64 × Item)) :
    (pairItems pairs).length = 2 * pairs.length := by
  induction pairs with
  | nil => rfl
  | cons pair pairs ih =>
      rw [pairItems, List.flatMap_cons, List.length_append, <- pairItems, ih, List.length_cons]
      simp only [List.length_cons, List.length_nil]
      omega

theorem readEntries_spec {count : Nat} {prev : Option UInt64} {rest : Bytes}
    {entries : List CborEntry} (h : readEntries count prev b = Except.ok (entries, rest)) :
    exists pairs : List (UInt64 × Item), pairs.length = count ∧
      CanonicalCbor.AscendingAfter prev pairs ∧
      (forall pair, pair ∈ pairs -> Lax maxCBORDepth pair.2) ∧
      entries = pairs.map entryOf ∧ b = Item.encodeAll (pairItems pairs) ++ rest := by
  induction count generalizing prev b entries with
  | zero =>
      injection h with hpair
      injection hpair with hentries hrest
      refine ⟨[], rfl, ?_, (fun _ hmem => nomatch hmem), hentries.symm, hrest⟩
      cases prev with
      | none => exact List.Pairwise.nil
      | some p => exact List.pairwise_singleton _ _
  | succ count ih =>
      rcases bind_eq_ok.mp h with ⟨head, hhead, h⟩
      rcases eq_headOf_of_readHead hhead with ⟨major, arg, after, harg, rfl, rfl⟩
      dsimp only at h
      split at h
      · cases h
      rename_i hmajor
      split at h
      · cases h
      rename_i hkey
      rcases bind_eq_ok.mp h with ⟨vn, hvn, h⟩
      rcases bind_eq_ok.mp h with ⟨⟨tail, left⟩, htail, h⟩
      injection h with hpair
      injection hpair with hentries hleft
      subst hleft
      rw [drop_size_headOf] at hvn htail hentries
      rcases skipValue_eq_ok.mp hvn with ⟨x, behind, hx, hafter, hlen⟩
      rw [hafter, hlen, List.drop_left] at htail
      rcases ih htail with ⟨pairs, hlength, hkeys, hvalues, htails, hbehind⟩
      have huint : major = majorUint := by
        by_contra hne
        exact hmajor fun heq => hne ((ofNat_major_inj major majorUint).mp heq)
      have habove := CanonicalCbor.any_le_eq_false.mp (Bool.eq_false_iff.mpr hkey)
      refine ⟨(UInt64.ofNat arg, x) :: pairs, by rw [List.length_cons, hlength],
        CanonicalCbor.AscendingAfter.cons habove hkeys, ?_, ?_, ?_⟩
      · intro pair hmem
        cases hmem with
        | head => exact hx
        | tail _ hmem => exact hvalues pair hmem
      · rw [<- hentries, hafter, hlen, List.take_left, htails]
        rfl
      · rw [encodeAll_pairItems_cons, UInt64.toNat_ofNat_of_lt' harg, huint, hafter, hbehind,
          List.append_assoc, List.append_assoc]

theorem readEntries_encode {prev : Option UInt64} {pairs : List (UInt64 × Item)} (rest : Bytes)
    (hkeys : CanonicalCbor.AscendingAfter prev pairs)
    (hvalues : forall pair, pair ∈ pairs -> Lax maxCBORDepth pair.2) :
    readEntries pairs.length prev (Item.encodeAll (pairItems pairs) ++ rest) =
      Except.ok (pairs.map entryOf, rest) := by
  induction pairs generalizing prev with
  | nil => rfl
  | cons pair pairs ih =>
      rcases pair with ⟨key, x⟩
      have hmajor : (headOf majorUint key.toNat).major = cborMajorUint := rfl
      have hkey : (headOf majorUint key.toNat).arg = key := UInt64.ofNat_toNat
      have habove : ¬(prev.any fun p => decide ((headOf majorUint key.toNat).arg <= p)) = true := by
        rw [hkey]
        apply Bool.eq_false_iff.mp
        apply CanonicalCbor.any_le_eq_false.mpr
        intro p hp
        rw [hp] at hkeys
        exact hkeys.head
      have hx := skipValue_encode (Item.encodeAll (pairItems pairs) ++ rest)
        (show Lax (maxCBORDepth + 1 - (1 : Int)).toNat x from hvalues (key, x) List.mem_cons_self)
      have htail := ih hkeys.tail (List.forall_mem_cons.mp hvalues).2
      rw [encodeAll_pairItems_cons, List.append_assoc, List.append_assoc, List.length_cons]
      apply bind_eq_ok.mpr
      refine ⟨headOf majorUint key.toNat, readHead_encodeHead majorUint _ key.toNat_lt, ?_⟩
      rw [if_neg (not_not.mpr hmajor), if_neg habove, drop_size_headOf]
      apply bind_eq_ok.mpr
      refine ⟨x.encode.length, hx, ?_⟩
      rw [List.drop_left, List.take_left, hkey]
      apply bind_eq_ok.mpr
      exact ⟨_, htail, rfl⟩

theorem encode_mapItem (pairs : List (UInt64 × Item)) :
    (mapItem pairs).encode =
      encodeHead majorMap pairs.length ++ Item.encodeAll (pairItems pairs) := by
  rw [mapItem, Item.encode, Token.encode, List.append_nil]

theorem parseUintKeyedMap_eq_ok {entries : List CborEntry} :
    parseUintKeyedMap b = Except.ok entries ↔
      exists pairs, LaxMap pairs ∧ entries = pairs.map entryOf ∧ b = (mapItem pairs).encode := by
  constructor
  · intro h
    rcases bind_eq_ok.mp h with ⟨head, hhead, h⟩
    rcases eq_headOf_of_readHead hhead with ⟨major, arg, after, harg, rfl, rfl⟩
    have hnat := toNat_arg_headOf major harg
    split at h
    · cases h
    rename_i hmajor
    split at h
    · cases h
    rename_i hfew
    rcases bind_eq_ok.mp h with ⟨⟨found, rest⟩, hread, h⟩
    dsimp only at h
    split at h
    · cases h
    rename_i hrest
    injection h with hentries
    rw [hnat, drop_size_headOf] at hread
    rcases readEntries_spec hread with ⟨pairs, hlength, hkeys, hvalues, hfound, hafter⟩
    have hmap : major = majorMap := by
      by_contra hne
      exact hmajor fun heq => hne ((ofNat_major_inj major majorMap).mp heq)
    have hcount : arg <= maxCBORItems.toNat := by
      rw [UInt64.lt_iff_toNat_lt, hnat] at hfew
      exact Nat.le_of_not_lt hfew
    refine ⟨pairs, ⟨hlength ▸ hcount, hkeys, hvalues⟩, hentries ▸ hfound, ?_⟩
    rw [encode_mapItem, hlength, hmap, hafter,
      List.eq_nil_of_length_eq_zero (not_not.mp hrest), List.append_nil]
  · intro h
    rcases h with ⟨pairs, hpairs, rfl, rfl⟩
    have hwide : pairs.length < 2 ^ 64 := Nat.lt_of_le_of_lt hpairs.few (by decide)
    have hnat := toNat_arg_headOf majorMap hwide
    have hmajor : (headOf majorMap pairs.length).major = cborMajorMap := rfl
    have hfew : ¬maxCBORItems < (headOf majorMap pairs.length).arg := by
      rw [UInt64.lt_iff_toNat_lt, hnat]
      exact Nat.not_lt.mpr hpairs.few
    have hread := @readEntries_encode none _ [] hpairs.keys hpairs.values
    rw [List.append_nil] at hread
    rw [encode_mapItem]
    apply bind_eq_ok.mpr
    refine ⟨headOf majorMap pairs.length, readHead_encodeHead majorMap _ hwide, ?_⟩
    rw [if_neg (not_not.mpr hmajor), if_neg hfew, hnat, drop_size_headOf]
    apply bind_eq_ok.mpr
    exact ⟨_, hread, rfl⟩

/-!
# Exactness
-/

def IsMap (b : Bytes) : Prop :=
  exists count items,
    (Item.node (Token.head majorMap count []) items).WellFormed ∧
      (Item.node (Token.head majorMap count []) items).encode = b

theorem uintItem_wellFormed (v : UInt64) : (uintItem v).WellFormed := by
  refine Item.Every.node ⟨⟨⟨v.toNat_lt, rfl, fun h => by cases h⟩, ?_⟩, rfl⟩ fun _ h => by cases h
  intro _ _ h
  cases h

theorem uintItem_regular (v : UInt64) : Regular (uintItem v) :=
  Item.Every.node ⟨(fun h => by cases h), fun h => by cases h⟩ fun _ h => by cases h

theorem mem_pairItems :
    x ∈ pairItems pairs ↔ exists pair, pair ∈ pairs ∧ (x = uintItem pair.1 ∨ x = pair.2) := by
  rw [pairItems, List.mem_flatMap]
  simp only [List.mem_cons, List.not_mem_nil, or_false]

theorem mapToken_valid {count : Nat} (h : count < 2 ^ 64) :
    (Token.head majorMap count []).Valid := by
  refine ⟨⟨h, rfl, fun hsimple => by cases hsimple⟩, ?_⟩
  intro _ _ heq
  cases heq

theorem LaxMap.token_valid (h : LaxMap pairs) : (Token.head majorMap pairs.length []).Valid :=
  mapToken_valid (Nat.lt_of_le_of_lt h.few (by decide))

theorem mapItem_wellFormed (hfew : pairs.length < 2 ^ 64)
    (hvalues : forall pair, pair ∈ pairs -> pair.2.WellFormed) : (mapItem pairs).WellFormed := by
  refine Item.Every.node ⟨mapToken_valid hfew, length_pairItems pairs⟩ ?_
  intro x hx
  rcases mem_pairItems.mp hx with ⟨pair, hpair, hx⟩
  cases hx with
  | inl heq => exact heq ▸ uintItem_wellFormed pair.1
  | inr heq => exact heq ▸ hvalues pair hpair

theorem LaxMap.short (h : LaxMap pairs) : (mapItem pairs).Short := by
  refine Item.Every.node ⟨h.token_valid.1, Nat.le_of_eq (length_pairItems pairs)⟩ ?_
  intro x hx
  rcases mem_pairItems.mp hx with ⟨pair, hpair, hx⟩
  cases hx with
  | inl heq => exact heq ▸ (uintItem_wellFormed pair.1).short
  | inr heq => exact heq ▸ (h.values pair hpair).short

theorem LaxMap.wellFormed_iff (h : LaxMap pairs) :
    (mapItem pairs).WellFormed ↔ Regular (mapItem pairs) := by
  have htoken : RegularToken (Token.head majorMap pairs.length []) :=
    ⟨fun _ => Nat.lt_of_le_of_lt h.few (by decide), fun hsimple => by cases hsimple⟩
  rw [Item.WellFormed, mapItem, Item.every_node, Regular, Item.every_node]
  refine and_congr (iff_of_true ⟨h.token_valid, length_pairItems pairs⟩ htoken) ?_
  refine forall₂_congr fun x hx => ?_
  rcases mem_pairItems.mp hx with ⟨pair, hpair, hx⟩
  cases hx with
  | inl heq => exact heq ▸ iff_of_true (uintItem_wellFormed pair.1) (uintItem_regular pair.1)
  | inr heq => exact heq ▸ (h.values pair hpair).wellFormed_iff

/-- What is skipped is one data item, and what is accepted as a map is one map, as long as the
items that were counted are regular. -/
theorem exact_iff_regular (b : Bytes) (depth : Int) :
    ((forall n, skipValue b depth = Except.ok n -> n <= b.length ∧ IsItem (b.take n)) ↔
      forall x rest, Lax (maxCBORDepth + 1 - depth).toNat x -> b = x.encode ++ rest ->
        Regular x) ∧
    ((forall entries, parseUintKeyedMap b = Except.ok entries -> IsMap b) ↔
      forall pairs, LaxMap pairs -> b = (mapItem pairs).encode -> Regular (mapItem pairs)) := by
  refine ⟨⟨?_, ?_⟩, ?_, ?_⟩
  · intro hexact x rest hx hb
    have hskip := skipValue_eq_ok.mpr ⟨x, rest, hx, hb, rfl⟩
    rcases (hexact _ hskip).2 with ⟨y, hy, hencode⟩
    rw [hb, List.take_left] at hencode
    rw [<- Item.eq_of_encode hx.short hy hencode.symm] at hy
    exact hx.wellFormed_iff.mp hy
  · intro hregular n hskip
    rcases skipValue_eq_ok.mp hskip with ⟨x, rest, hx, rfl, rfl⟩
    rw [List.length_append, List.take_left]
    exact ⟨Nat.le_add_right _ _, x, hx.wellFormed_iff.mpr (hregular x rest hx rfl), rfl⟩
  · intro hexact pairs hpairs hb
    rcases hexact _ (parseUintKeyedMap_eq_ok.mpr ⟨pairs, hpairs, rfl, hb⟩) with
      ⟨count, items, hmap, hencode⟩
    rw [hb] at hencode
    rw [<- Item.eq_of_encode hpairs.short hmap hencode.symm] at hmap
    exact hpairs.wellFormed_iff.mp hmap
  · intro hregular entries hparse
    rcases parseUintKeyedMap_eq_ok.mp hparse with ⟨pairs, hpairs, _, hb⟩
    exact ⟨pairs.length, pairItems pairs, hpairs.wellFormed_iff.mpr (hregular pairs hpairs hb),
      hb.symm⟩

/-!
# Two items that are not
-/

def hugeMap : Bytes :=
  [0xbb, 0x80, 0, 0, 0, 0, 0, 0, 0]

def wideSimple : Bytes :=
  [0xf8, 0x18]

theorem not_isItem_encode (hx : x.Short) (hnot : ¬x.WellFormed) : ¬IsItem x.encode := by
  intro hitem
  rcases hitem with ⟨y, hy, hencode⟩
  exact hnot (Item.eq_of_encode hx hy hencode.symm ▸ hy)

theorem IsMap.isItem (h : IsMap b) : IsItem b := by
  rcases h with ⟨count, items, hmap, hencode⟩
  exact ⟨_, hmap, hencode⟩

def hugeMapItem : Item :=
  Item.node (Token.head majorMap (2 ^ 63) []) []

def wideSimpleItem : Item :=
  Item.node (Token.head majorSimple 24 []) []

theorem hugeMapItem_lax (levels : Nat) : Lax (levels + 1) hugeMapItem := by
  show Lax (levels + 1) (Item.node (tokenOf majorMap (2 ^ 63) []) [])
  exact Lax.node (by decide) rfl (by decide) (by decide) fun _ h => nomatch h

theorem hugeMapItem_not_wellFormed : ¬hugeMapItem.WellFormed := by
  intro h
  exact absurd (Item.every_node.mp h).1.2 (by decide)

theorem wideSimpleItem_lax (levels : Nat) : Lax (levels + 1) wideSimpleItem := by
  show Lax (levels + 1) (Item.node (tokenOf majorSimple 24 []) [])
  exact Lax.node (by decide) rfl (by decide) (by decide) fun _ h => nomatch h

theorem wideSimpleItem_not_wellFormed : ¬wideSimpleItem.WellFormed := by
  intro h
  cases (Item.every_node.mp h).1.1.2 24 [] rfl with
  | inl hlt => exact absurd hlt (by decide)
  | inr hle => exact absurd hle (by decide)

/-- No item begins with the break code, whatever stands behind it. -/
theorem break_is_exact :
    forall x rest, Lax (maxCBORDepth + 1 - (1 : Int)).toNat x -> [0xFF] = x.encode ++ rest ->
      Regular x :=
  (exact_iff_regular [0xFF] 1).1.mp (by
    intro n h
    have herror : (skipValue [0xFF] 1).isOk = false := by decide
    rw [h] at herror
    cases herror)

/-- Both are skipped to their end, and a map that holds the first one is accepted. -/
theorem hugeMap_not_exact :
    (skipValue hugeMap 1 = Except.ok 9 ∧ ¬IsItem (hugeMap.take 9)) ∧
    (skipValue wideSimple 1 = Except.ok 2 ∧ ¬IsItem (wideSimple.take 2)) ∧
    parseUintKeyedMap ([0xa1, 0x00] ++ hugeMap) = Except.ok [⟨0, hugeMap⟩] ∧
      ¬IsMap ([0xa1, 0x00] ++ hugeMap) := by
  have hhuge : hugeMapItem.encode = hugeMap := by decide
  have hwide : wideSimpleItem.encode = wideSimple := by decide
  refine ⟨⟨by decide, ?_⟩, ⟨by decide, ?_⟩, by decide, ?_⟩
  · show ¬IsItem hugeMap
    rw [<- hhuge]
    exact not_isItem_encode (hugeMapItem_lax 0).short hugeMapItem_not_wellFormed
  · show ¬IsItem wideSimple
    rw [<- hwide]
    exact not_isItem_encode (wideSimpleItem_lax 0).short wideSimpleItem_not_wellFormed
  · intro hmap
    have hkeyed : (mapItem [(0, hugeMapItem)]).encode = [0xa1, 0x00] ++ hugeMap := by
      decide
    have hpairs : LaxMap [((0 : UInt64), hugeMapItem)] := by
      refine ⟨by decide, List.pairwise_singleton _ _, ?_⟩
      intro pair hpair
      cases List.mem_singleton.mp hpair
      exact hugeMapItem_lax 15
    have hnot : ¬(mapItem [((0 : UInt64), hugeMapItem)]).WellFormed := by
      intro hwell
      have hitems := (Item.every_node.mp hwell).2
      have hmem := mem_pairItems.mpr ⟨(0, hugeMapItem), List.mem_singleton_self _, Or.inr rfl⟩
      exact hugeMapItem_not_wellFormed (hitems hugeMapItem hmem)
    rw [<- hkeyed] at hmap
    exact not_isItem_encode hpairs.short hnot hmap.isItem

end Pubcache
end Ephor
