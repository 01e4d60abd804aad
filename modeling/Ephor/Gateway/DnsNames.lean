import Ephor.Gateway.Dns

/-!
# What a name in a packet decodes to

`read_name` accepts the names that are laid in the packet on a way of at most 32 pointers, and
no others.  A pass of the loop is one constructor of `Laid`, so both directions follow the
layout.
-/

namespace Ephor
namespace Gateway
namespace Dns

open Foundation
open Foundation.CanonicalCbor
open Foundation.CompressedName
open Foundation.Text

/-!
# Length bytes
-/

theorem length_byte (n : Fin 256) :
    (UInt8.ofNat n.val &&& 0xC0 = 0xC0 <-> 192 <= n.val) ∧
      (UInt8.ofNat n.val &&& 0xC0 = 0 <-> n.val < 64) ∧
      (UInt8.ofNat n.val &&& 0x3F).toNat = n.val % 64 := by
  revert n
  decide +kernel

theorem high_bits (b : UInt8) :
    (b &&& 0xC0 = 0xC0 <-> 192 <= b.toNat) ∧ (b &&& 0xC0 = 0 <-> b.toNat < 64) ∧
      (b &&& 0x3F).toNat = b.toNat % 64 := by
  have h := length_byte ⟨b.toNat, b.toNat_lt⟩
  dsimp only at h
  rwa [UInt8.ofNat_toNat] at h

theorem pointer_target (len b2 : UInt8) :
    ((len &&& 0x3F).toNat <<< 8) ||| b2.toNat = len.toNat % 64 * 256 + b2.toNat := by
  rw [(high_bits len).2.2, <- Nat.shiftLeft_add_eq_or_of_lt b2.toNat_lt, Nat.shiftLeft_eq]

theorem encodePointer_target {len b2 : UInt8} (h : 192 <= len.toNat) :
    encodePointer (len.toNat % 64 * 256 + b2.toNat) = [len, b2] := by
  have hlen := len.toNat_lt
  have hb2 := b2.toNat_lt
  rw [encodePointer]
  congr 1
  · apply UInt8.toNat_inj.mp
    rw [UInt8.toNat_ofNat']
    omega
  · congr 1
    apply UInt8.toNat_inj.mp
    rw [UInt8.toNat_ofNat']
    omega

theorem getByte_eq_ok {packet : Bytes} {pos : Nat} {b : UInt8} :
    getByte packet pos = Except.ok b <-> packet[pos]? = some b := by
  rw [getByte]
  cases packet[pos]? with
  | none | some x => simp

theorem getSlice_eq_ok {packet bytes : Bytes} {pos len : Nat} (h : pos <= packet.length) :
    getSlice packet pos len = Except.ok bytes <-> bytes.length = len ∧ StandsAt packet pos bytes := by
  rw [getSlice, standsAt_iff_take]
  split
  · rename_i hle
    constructor
    · intro heq
      cases heq
      have hlen : ((packet.drop pos).take len).length = len := by
        rw [List.length_take, List.length_drop]
        omega
      rw [hlen]
      exact ⟨rfl, rfl⟩
    · intro heq
      rcases heq with ⟨hlen, heq⟩
      rw [<- hlen, heq]
  · rename_i hle
    constructor
    · intro heq
      cases heq
    · intro heq
      rcases heq with ⟨hlen, heq⟩
      have hshort := congrArg List.length heq
      rw [List.length_take, List.length_drop] at hshort
      omega

/-!
# One pass of the loop
-/

section Passes

variable {packet : Bytes} {c : NameCursor}

def nameOf (labels : List Str) : Str :=
  ['.'].intercalate labels

def afterLabel (c : NameCursor) (label : Bytes) : NameCursor :=
  ⟨c.labels ++ [fromUtf8Lossy label], c.pos + 1 + label.length, c.resumeAt, c.jumps⟩

def afterPointer (c : NameCursor) (target : Nat) : NameCursor :=
  ⟨c.labels, target, some (c.resumeAt.getD (c.pos + 2)), c.jumps + 1⟩

theorem readNameTurn_root (hjumps : c.jumps <= 32) (h : StandsAt packet c.pos [0]) :
    readNameTurn packet c =
      Except.ok (Turn.done (nameOf c.labels) (c.resumeAt.getD (c.pos + 1))) := by
  have hbyte := getByte_eq_ok.mpr (standsAt_singleton.mp h)
  rw [readNameTurn, if_neg (Nat.not_lt_of_le hjumps), hbyte]
  rfl

theorem readNameTurn_label {label : Bytes} (hjumps : c.jumps <= 32) (hfits : LabelFits label)
    (h : StandsAt packet c.pos (encodeLabel label)) :
    readNameTurn packet c = Except.ok (Turn.again (afterLabel c label)) := by
  rcases hfits with ⟨hpos, hle⟩
  rcases standsAt_cons.mp h with ⟨hlen, hlabel⟩
  have hend := h.length_le (encodeLabel_ne_nil label)
  have hnat : (UInt8.ofNat label.length).toNat = label.length := by
    rw [UInt8.toNat_ofNat']
    omega
  have hbits := high_bits (UInt8.ofNat label.length)
  rw [hnat] at hbits
  have hne : UInt8.ofNat label.length ≠ 0 := by
    intro hzero
    rw [hzero] at hnat
    exact absurd hnat hpos.ne
  rw [length_encodeLabel] at hend
  rw [readNameTurn, if_neg (Nat.not_lt_of_le hjumps), getByte_eq_ok.mpr hlen]
  simp only [bind, Except.bind]
  rw [if_neg hne, if_neg (fun heq => absurd (hbits.1.mp heq) (by omega)),
    if_neg (not_not_intro (hbits.2.1.mpr (by omega))), hnat,
    (getSlice_eq_ok (by omega)).mpr ⟨rfl, hlabel⟩]
  rfl

theorem readNameTurn_pointer {target : Nat} (hjumps : c.jumps <= 32) (hback : target < c.pos)
    (hfits : target < 2 ^ 14) (h : StandsAt packet c.pos (encodePointer target)) :
    readNameTurn packet c = Except.ok (Turn.again (afterPointer c target)) := by
  rcases standsAt_cons.mp h with ⟨hlen, hsecond⟩
  have hend := h.length_le (List.cons_ne_nil _ _)
  have hb2 := standsAt_singleton.mp hsecond
  have hnat : (UInt8.ofNat (192 + target / 256)).toNat = 192 + target / 256 := by
    rw [UInt8.toNat_ofNat']
    omega
  have hnat2 : (UInt8.ofNat target).toNat = target % 256 := UInt8.toNat_ofNat'
  have hbits := high_bits (UInt8.ofNat (192 + target / 256))
  rw [hnat] at hbits
  have hne : UInt8.ofNat (192 + target / 256) ≠ 0 := by
    intro hzero
    rw [hzero, UInt8.toNat_zero] at hnat
    omega
  have htarget : (192 + target / 256) % 64 * 256 + target % 256 = target := by omega
  rw [encodePointer, List.length_cons, List.length_singleton] at hend
  rw [readNameTurn, if_neg (Nat.not_lt_of_le hjumps), getByte_eq_ok.mpr hlen]
  simp only [bind, Except.bind]
  rw [if_neg hne, if_pos (hbits.1.mpr (Nat.le_add_right _ _)), getByte_eq_ok.mpr hb2]
  dsimp only
  rw [pointer_target, hnat, hnat2, htarget, if_neg]
  · rfl
  · simp only [ge_iff_le, Bool.or_eq_true, decide_eq_true_eq]
    omega

theorem jumps_afterPointer (c : NameCursor) (target : Nat) :
    (afterPointer c target).jumps = c.jumps + 1 :=
  rfl

theorem readNameTurn_eq_ok {t : Turn} (h : readNameTurn packet c = Except.ok t) :
    c.jumps <= 32 ∧
      ((StandsAt packet c.pos [0] ∧
          t = Turn.done (nameOf c.labels) (c.resumeAt.getD (c.pos + 1))) ∨
        (exists label, LabelFits label ∧ StandsAt packet c.pos (encodeLabel label) ∧
          t = Turn.again (afterLabel c label)) ∨
        exists target, target < c.pos ∧ target < 2 ^ 14 ∧
          StandsAt packet c.pos (encodePointer target) ∧
          t = Turn.again (afterPointer c target)) := by
  rw [readNameTurn] at h
  split at h
  · cases h
  · rename_i hjumps
    refine ⟨Nat.le_of_not_lt hjumps, ?_⟩
    rcases bind_eq_ok.mp h with ⟨len, hlen, h⟩
    rw [getByte_eq_ok] at hlen
    have hbits := high_bits len
    split at h
    · rename_i hzero
      cases h
      rw [hzero] at hlen
      exact Or.inl ⟨standsAt_singleton.mpr hlen, rfl⟩
    · rename_i hne
      split at h
      · rename_i hpointer
        rcases bind_eq_ok.mp h with ⟨b2, hb2, h⟩
        rw [getByte_eq_ok] at hb2
        dsimp only at h
        rw [pointer_target] at h
        have hhigh := hbits.1.mp hpointer
        have hlt := len.toNat_lt
        have hlt2 := b2.toNat_lt
        split at h
        · cases h
        · rename_i hback
          cases h
          simp only [ge_iff_le, Bool.or_eq_true, decide_eq_true_eq, not_or, Nat.not_le] at hback
          refine Or.inr (Or.inr ⟨_, hback.2, by omega, ?_, rfl⟩)
          rw [encodePointer_target hhigh]
          exact standsAt_cons.mpr ⟨hlen, standsAt_singleton.mpr hb2⟩
      · split at h
        · cases h
        · rename_i hlow
          rcases bind_eq_ok.mp h with ⟨label, hlabel, h⟩
          cases h
          have hend := (standsAt_singleton.mpr hlen).length_le (List.cons_ne_nil _ _)
          rcases (getSlice_eq_ok hend).mp hlabel with ⟨hlength, hlabel⟩
          have hsmall := hbits.2.1.mp (not_not.mp hlow)
          have hpos : len.toNat ≠ 0 := by
            intro hzero
            exact hne (UInt8.toNat_inj.mp hzero)
          refine Or.inr (Or.inl ⟨label, ⟨by omega, by omega⟩, ?_, ?_⟩)
          · rw [encodeLabel, hlength, UInt8.ofNat_toNat]
            exact standsAt_cons.mpr ⟨hlen, hlabel⟩
          · rw [afterLabel, hlength]

end Passes

/-!
# The whole loop
-/

section Loop

variable {packet : Bytes}

theorem readNameLoop_error {c : NameCursor} {e : DnsError}
    (h : readNameTurn packet c = Except.error e) : readNameLoop packet c = Except.error e := by
  rw [readNameLoop]
  split <;> simp_all

theorem readNameLoop_done {c : NameCursor} {name : Str} {next : Nat}
    (h : readNameTurn packet c = Except.ok (Turn.done name next)) :
    readNameLoop packet c = Except.ok (name, next) := by
  rw [readNameLoop]
  split <;> simp_all

theorem readNameLoop_again {c d : NameCursor}
    (h : readNameTurn packet c = Except.ok (Turn.again d)) :
    readNameLoop packet c = readNameLoop packet d := by
  rw [readNameLoop]
  split <;> simp_all

theorem readNameLoop_of_laid {pos pointers next : Nat} {labels : List Bytes}
    (h : Laid packet pos labels pointers next) {c : NameCursor} (hpos : c.pos = pos)
    (hjumps : c.jumps + pointers <= 32) :
    readNameLoop packet c =
      Except.ok (nameOf (c.labels ++ labels.map fromUtf8Lossy), c.resumeAt.getD next) := by
  induction h generalizing c with
  | @root pos h =>
      subst hpos
      rw [List.map_nil, List.append_nil, readNameLoop_done (readNameTurn_root (by omega) h)]
  | @label pos pointers next label rest hfits h hrest ih =>
      subst hpos
      rw [readNameLoop_again (readNameTurn_label (by omega) hfits h), ih (c := afterLabel c label) rfl hjumps, afterLabel,
        List.map_cons, List.append_assoc]
      rfl
  | @pointer pos target pointers next labels hback hfits h hrest ih =>
      subst hpos
      have hle : (afterPointer c target).jumps + pointers <= 32 := by
        rw [jumps_afterPointer]
        omega
      rw [readNameLoop_again (readNameTurn_pointer (by omega) hback hfits h), ih (c := afterPointer c target) rfl hle,
        afterPointer]
      rfl

theorem laid_of_readNameLoop {c : NameCursor} {name : Str} {resume : Nat}
    (h : readNameLoop packet c = Except.ok (name, resume)) :
    exists labels pointers next, Laid packet c.pos labels pointers next ∧
      c.jumps + pointers <= 32 ∧ name = nameOf (c.labels ++ labels.map fromUtf8Lossy) ∧
      resume = c.resumeAt.getD next := by
  induction c using readNameLoop.induct packet with
  | case1 c e hturn =>
      rw [readNameLoop_error hturn] at h
      cases h
  | case2 c found offset hturn =>
      rcases readNameTurn_eq_ok hturn with ⟨hjumps, ⟨hroot, hdone⟩ | ⟨_, _, _, hdone⟩ |
        ⟨_, _, _, _, hdone⟩⟩
      · rw [readNameLoop_done hturn] at h
        cases hdone
        cases h
        exact ⟨[], 0, _, Laid.root hroot, hjumps, by rw [List.map_nil, List.append_nil], rfl⟩
      · cases hdone
      · cases hdone
  | case3 c d hturn ih =>
      rw [readNameLoop_again hturn] at h
      rcases ih h with ⟨labels, pointers, next, hlaid, hle, hname, hresume⟩
      rcases readNameTurn_eq_ok hturn with ⟨hjumps, ⟨_, hagain⟩ | ⟨label, hfits, hat, hagain⟩ |
        ⟨target, hback, hfits, hat, hagain⟩⟩
      · cases hagain
      · cases hagain
        refine ⟨label :: labels, pointers, next, Laid.label hfits hat hlaid, hle, ?_, hresume⟩
        rw [hname, afterLabel, List.map_cons, List.append_assoc]
        rfl
      · cases hagain
        refine ⟨labels, pointers + 1, _, Laid.pointer hback hfits hat hlaid, ?_, hname, hresume⟩
        rw [jumps_afterPointer] at hle
        omega

theorem readName_eq_ok {start : Nat} {name : Str} {next : Nat} :
    readName packet start = Except.ok (name, next) <->
      exists labels pointers, Laid packet start labels pointers next ∧ pointers <= 32 ∧
        name = nameOf (labels.map fromUtf8Lossy) := by
  constructor
  · intro h
    rcases laid_of_readNameLoop h with ⟨labels, pointers, next, hlaid, hle, hname, hresume⟩
    cases hresume
    exact ⟨labels, pointers, hlaid, Nat.le_of_add_left_le hle, hname⟩
  · intro h
    rcases h with ⟨labels, pointers, hlaid, hle, hname⟩
    rw [hname]
    exact readNameLoop_of_laid hlaid rfl (le_of_eq_of_le (Nat.zero_add pointers) hle)

end Loop

end Dns
end Gateway
end Ephor
