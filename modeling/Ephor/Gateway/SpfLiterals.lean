import Ephor.Gateway.SpfGrammar

/-!
# The address literals

`Ipv4Addr::from_str` and `Ipv6Addr::from_str` read the addresses of the grammar.
-/

namespace Ephor
namespace Gateway
namespace Spf

open Foundation
open Foundation.Text
open Grammar

/-!
# Numbers
-/

theorem digitOf_ten (c : Char) :
    digitOf 10 c = if c.isDigit then some (c.toNat - '0'.toNat) else none := by
  have hdigit : ('0' <= c && c <= '9') = c.isDigit := rfl
  unfold digitOf
  dsimp only
  rw [hdigit]
  cases hc : c.isDigit with
  | true =>
      have hle : c.toNat <= 57 := (Char.isDigit_iff_toNat.mp hc).2
      have hzero : '0'.toNat = 48 := rfl
      rw [if_pos rfl, if_pos rfl, Option.filter_some, if_pos]
      apply decide_eq_true
      omega
  | false =>
      rw [if_neg Bool.false_ne_true, if_neg Bool.false_ne_true]
      have hten : forall k, (some (k + 10)).filter (fun n => decide (n < 10)) = none := by
        intro k
        rw [Option.filter_some, if_neg]
        intro h
        have hlt := of_decide_eq_true h
        omega
      split
      · exact hten _
      · split
        · exact hten _
        · rfl

variable {text rest : Str} {n : Nat}

theorem readNumber_eq_some {radix maxDigits largest : Nat} {zeros : Bool}
    (h : readNumber radix maxDigits largest zeros text = some (n, rest)) :
    exists digits, text = digits ++ rest ∧ digits ≠ [] ∧ digits.length <= maxDigits ∧
      (forall c, c ∈ digits -> (digitOf radix c).isSome = true) ∧
      n = digits.foldl (fun n c => n * radix + (digitOf radix c).getD 0) 0 ∧ n <= largest ∧
      (zeros = false -> digits.length = 1 ∨ digits.head? ≠ some '0') := by
  unfold readNumber at h
  dsimp only at h
  have hsplit := List.prefix_iff_eq_append.mp
    (List.takeWhile_prefix (fun c => (digitOf radix c).isSome) : _ <+: text)
  have hall : forall c, c ∈ text.takeWhile (fun c => (digitOf radix c).isSome) ->
      (digitOf radix c).isSome = true := by
    intro c hc
    exact @List.mem_takeWhile_imp _ (fun c => (digitOf radix c).isSome) text c hc
  generalize text.takeWhile (fun c => (digitOf radix c).isSome) = digits at h hsplit hall
  split at h
  · cases h
  · rename_i hbounds
    split at h
    · cases h
    · rename_i hzero
      cases h
      simp only [Bool.or_eq_true, decide_eq_true_eq, List.isEmpty_iff, not_or, Nat.not_lt]
        at hbounds
      refine ⟨digits, hsplit.symm, hbounds.1.1, hbounds.1.2, hall, rfl, hbounds.2, ?_⟩
      intro hzeros
      rw [hzeros] at hzero
      by_cases hhead : digits.head? = some '0'
      · rcases List.head?_eq_some_iff.mp hhead with ⟨others, hothers⟩
        have hfirst : text.headD ' ' = '0' := by
          rw [← hsplit, hothers]
          rfl
        have hpos := List.length_pos_iff.mpr hbounds.1.1
        simp only [Bool.not_false, Bool.true_and, hfirst, decide_true, decide_eq_true_eq] at hzero
        exact Or.inl (by omega)
      · exact Or.inr hhead

theorem readNumber_qnum (h : readNumber 10 3 255 false text = some (n, rest)) :
    exists digits, text = digits ++ rest ∧ QNum digits n := by
  rcases readNumber_eq_some h with ⟨digits, hsplit, hsome, _, hdigits, hvalue, hle, hlead⟩
  refine ⟨digits, hsplit, ?_, hle, hlead rfl⟩
  have hall : digits.all Char.isDigit = true := by
    rw [List.all_eq_true]
    intro c hc
    have hc' := hdigits c hc
    rw [digitOf_ten] at hc'
    cases hdigit : c.isDigit with
    | true => rfl
    | false =>
        rw [hdigit] at hc'
        cases hc'
  have hfold : digits.foldl (fun n c => n * 10 + (digitOf 10 c).getD 0) 0 =
      digits.foldl (fun n c => n * 10 + (c.toNat - '0'.toNat)) 0 := by
    apply List.foldl_ext
    intro a c hc
    rw [digitOf_ten, if_pos (List.all_eq_true.mp hall c hc), Option.getD_some]
  cases digits with
  | nil => exact absurd rfl hsome
  | cons c others =>
      rw [digitsValue, if_pos hall, hvalue, hfold]
      intro hnil
      cases hnil

theorem readNumber_hexGroup (h : readNumber 16 4 65535 true text = some (n, rest)) :
    exists digits, text = digits ++ rest ∧ HexGroup digits n := by
  rcases readNumber_eq_some h with ⟨digits, hsplit, hsome, hlength, hdigits, hvalue, _, _⟩
  exact ⟨digits, hsplit, hsome, hlength, hdigits, hvalue⟩

/-!
# Separators
-/

theorem readGivenChar_eq_some {c : Char} (h : readGivenChar c text = some rest) :
    text = c :: rest := by
  cases text with
  | nil => cases h
  | cons x others =>
      rw [readGivenChar] at h
      split at h
      · rename_i hx
        cases h
        rw [hx]
      · cases h

/-- What stands before the item at an index. -/
def leading (sep : Char) (index : Nat) : Str :=
  if index > 0 then [sep] else []

theorem readSeparator_eq_some {α : Type} {sep : Char} {index : Nat}
    {inner : Str -> Option (α × Str)} {item : α × Str}
    (h : readSeparator sep index inner text = some item) :
    exists rest, text = leading sep index ++ rest ∧ inner rest = some item := by
  unfold readSeparator at h
  unfold leading
  split at h
  · rename_i hindex
    rcases Option.bind_eq_some_iff.mp h with ⟨rest, hrest, hinner⟩
    rw [if_pos hindex]
    exact ⟨rest, readGivenChar_eq_some hrest, hinner⟩
  · rename_i hindex
    rw [if_neg hindex]
    exact ⟨text, rfl, h⟩

/-!
# IPv4
-/

theorem readOctet_eq_some {index : Nat} (h : readOctet index text = some (n, rest)) :
    exists digits, text = leading '.' index ++ (digits ++ rest) ∧ QNum digits n := by
  rcases readSeparator_eq_some h with ⟨others, hothers, hnumber⟩
  rcases readNumber_qnum hnumber with ⟨digits, hdigits, hqnum⟩
  exact ⟨digits, hothers.trans (congrArg _ hdigits), hqnum⟩

theorem readIpv4Addr_eq_some {net : BitVec 32} (h : readIpv4Addr text = some (net, rest)) :
    exists address, text = address ++ rest ∧ Ip4Network address net := by
  unfold readIpv4Addr at h
  rcases Option.bind_eq_some_iff.mp h with ⟨⟨a, resta⟩, ha, h⟩
  rcases Option.bind_eq_some_iff.mp h with ⟨⟨b, restb⟩, hb, h⟩
  rcases Option.bind_eq_some_iff.mp h with ⟨⟨c, restc⟩, hc, h⟩
  rcases Option.bind_eq_some_iff.mp h with ⟨⟨d, restd⟩, hd, h⟩
  cases h
  rcases readOctet_eq_some ha with ⟨ta, hta, hqa⟩
  rcases readOctet_eq_some hb with ⟨tb, htb, hqb⟩
  rcases readOctet_eq_some hc with ⟨tc, htc, hqc⟩
  rcases readOctet_eq_some hd with ⟨td, htd, hqd⟩
  refine ⟨ta ++ '.' :: (tb ++ '.' :: (tc ++ '.' :: td)), ?_,
    ta, tb, tc, td, a, b, c, d, rfl, hqa, hqb, hqc, hqd, rfl⟩
  rw [hta, htb, htc, htd]
  simp [leading]

theorem parseIpv4_network {net : BitVec 32} (h : parseIpv4 text = some net) :
    Ip4Network text net := by
  unfold parseIpv4 at h
  split at h
  · cases h
  · split at h
    · rename_i address hread
      cases h
      rcases readIpv4Addr_eq_some hread with ⟨whole, hwhole, hnetwork⟩
      rw [hwhole, List.append_nil]
      exact hnetwork
    · cases h

/-!
# IPv6
-/

theorem Grammar.Ip6Groups.dottable {dotted : Bool} {groups : List Nat}
    (h : Ip6Groups dotted text groups) : Ip6Groups true text groups := by
  induction h with
  | hex hgroup => exact Ip6Groups.hex hgroup
  | quad _ hnetwork => exact Ip6Groups.quad rfl hnetwork
  | cons hgroup _ ih => exact Ip6Groups.cons hgroup ih

theorem readGroups_eq {limit index : Nat} {groups : List Nat} {embedded : Bool}
    (h : readGroups limit index text = (groups, embedded, rest)) :
    (groups = [] ∧ embedded = false ∧ text = rest) ∨
      exists part, text = leading ':' index ++ (part ++ rest) ∧
        Ip6Groups embedded part groups ∧ index + groups.length <= limit := by
  induction hleft : limit - index generalizing index text groups embedded rest with
  | zero =>
      rw [readGroups, if_neg (by omega)] at h
      cases h
      exact Or.inl ⟨rfl, rfl, rfl⟩
  | succ left ih =>
      rw [readGroups, if_pos (by omega)] at h
      split at h
      · rename_i v4 others hquad
        cases h
        split at hquad
        · rename_i hlimit
          rcases readSeparator_eq_some hquad with ⟨later, hlater, hread⟩
          rcases readIpv4Addr_eq_some hread with ⟨address, haddress, hnetwork⟩
          refine Or.inr ⟨address, hlater.trans (congrArg _ haddress),
            Ip6Groups.quad rfl hnetwork, ?_⟩
          simp only [List.length_cons, List.length_nil]
          omega
        · cases hquad
      · split at h
        · rename_i group others hnumber
          rcases readSeparator_eq_some hnumber with ⟨later, hlater, hread⟩
          rcases readNumber_hexGroup hread with ⟨digits, hdigits, hgroup⟩
          rcases hnext : readGroups limit (index + 1) others with ⟨groups', embedded', rest'⟩
          rw [hnext] at h
          cases h
          rcases ih hnext (by omega) with ⟨hnil, hembedded, hrest⟩ | ⟨part, hpart, hgroups, hle⟩
          · refine Or.inr ⟨digits, ?_, ?_, ?_⟩
            · rw [hlater, hdigits, hrest]
            · rw [hnil]
              exact Ip6Groups.hex hgroup
            · rw [hnil, List.length_singleton]
              omega
          · refine Or.inr ⟨digits ++ ':' :: part, ?_, Ip6Groups.cons hgroup hgroups, ?_⟩
            · rw [hlater, hdigits, hpart]
              simp [leading]
            · rw [List.length_cons]
              omega
        · cases h
          exact Or.inl ⟨rfl, rfl, rfl⟩

theorem readGroups_side {limit : Nat} {groups : List Nat} {embedded : Bool}
    (h : readGroups limit 0 text = (groups, embedded, rest)) :
    exists part, text = part ++ rest ∧ Ip6Side embedded part groups ∧ groups.length <= limit := by
  rcases readGroups_eq h with ⟨hnil, _, hrest⟩ | ⟨part, hpart, hgroups, hle⟩
  · refine ⟨[], hrest, Or.inl ⟨rfl, hnil⟩, ?_⟩
    rw [hnil]
    exact Nat.zero_le _
  · rw [Nat.zero_add] at hle
    exact ⟨part, hpart, Or.inr hgroups, hle⟩

theorem readIpv6Addr_eq_some {net : BitVec 128} (h : readIpv6Addr text = some (net, rest)) :
    exists address, text = address ++ rest ∧ Ip6Network address net := by
  unfold readIpv6Addr at h
  rcases hfront : readGroups 8 0 text with ⟨fronts, embedded, after⟩
  rw [hfront] at h
  dsimp only at h
  rcases readGroups_side hfront with ⟨front, htext, hside, hle⟩
  split at h
  · rename_i height
    cases h
    rcases hside with ⟨_, hnil⟩ | hgroups
    · rw [hnil] at height
      cases height
    · exact ⟨front, htext, Ip6Network.full hgroups.dottable height⟩
  · rename_i hfewer
    split at h
    · cases h
    · rename_i hembedded
      rcases Option.bind_eq_some_iff.mp h with ⟨first, hfirst, h⟩
      rcases Option.bind_eq_some_iff.mp h with ⟨second, hsecond, h⟩
      rcases hback : readGroups (8 - (fronts.length + 1)) 0 second with ⟨backs, dotted, last⟩
      rw [hback] at h
      dsimp only at h
      cases h
      rcases readGroups_side hback with ⟨back, hlast, hbacks, hlimit⟩
      rw [Bool.not_eq_true] at hembedded
      rw [hembedded] at hside
      have htail : Ip6Side true back backs := by
        rcases hbacks with hnone | hgroups
        · exact Or.inl hnone
        · exact Or.inr hgroups.dottable
      refine ⟨front ++ ':' :: ':' :: back, ?_, Ip6Network.compressed hside htail (by omega)⟩
      rw [htext, readGivenChar_eq_some hfirst, readGivenChar_eq_some hsecond, hlast]
      simp

theorem parseIpv6_network {net : BitVec 128} (h : parseIpv6 text = some net) :
    Ip6Network text net := by
  unfold parseIpv6 at h
  split at h
  · rename_i address hread
    cases h
    rcases readIpv6Addr_eq_some hread with ⟨whole, hwhole, hnetwork⟩
    rw [hwhole, List.append_nil]
    exact hnetwork
  · cases h

end Spf
end Gateway
end Ephor
