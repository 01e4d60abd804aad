import Ephor.Gateway.SpfLiterals

/-!
# What becomes of SPF terms

`parse_record` takes a term with an equals sign for a modifier, whatever stands before the
sign, and ignores it; the lengths and domains of the other terms are read more widely than
the grammar has them.
-/

namespace Ephor
namespace Gateway
namespace Spf

open Foundation
open Foundation.Text
open Grammar

/-!
# Prefix lengths
-/

variable {text rest word : Str} {n bits4 bits6 : Nat}

theorem isDigit_of_digitsValue (h : digitsValue text = some n) {c : Char} (hc : c ∈ text) :
    c.isDigit = true := by
  cases text with
  | nil => cases hc
  | cons x rest =>
      rw [digitsValue] at h
      · split at h
        · rename_i hall
          exact List.all_eq_true.mp hall c hc
        · cases h
      · intro hnil
        cases hnil

theorem not_mem_of_digitsValue (h : digitsValue text = some n) (c : Char)
    (hc : c.isDigit = false) : c ∉ text := by
  intro hmem
  rw [isDigit_of_digitsValue h hmem] at hc
  cases hc

theorem digitsValue_of_parseU8 (h : parseU8 text = some n) (hplus : '+' ∉ text) :
    digitsValue text = some n := by
  unfold parseU8 parseUnsigned at h
  dsimp only at h
  rcases Option.filter_eq_some_iff.mp h with ⟨hvalue, _⟩
  split at hvalue
  · exact absurd List.mem_cons_self hplus
  · exact hvalue

/-- No length has a plus sign, and no single slash stands between two lengths. -/
def PlainLengths (cidr : Str) : Prop :=
  '+' ∉ cidr ∧ (cidr.count '/' = 2 -> "//".toList <+: cidr)

theorem PrefixLength.not_mem {largest bits : Nat} (h : PrefixLength largest text bits) :
    '+' ∉ text ∧ text.count '/' = 0 := by
  constructor
  · exact not_mem_of_digitsValue h.1 '+' rfl
  · exact List.count_eq_zero.mpr (not_mem_of_digitsValue h.1 '/' rfl)

theorem plainLengths_of_dualCidr {cidr : Str} (h : DualCidr cidr bits4 bits6) :
    PlainLengths cidr := by
  cases h with
  | neither =>
      refine ⟨List.not_mem_nil, ?_⟩
      intro htwo
      cases htwo
  | ip4 hlength =>
      rcases PrefixLength.not_mem hlength with ⟨hplus, hcount⟩
      refine ⟨by simp [hplus], ?_⟩
      intro htwo
      rw [List.count_cons_self, hcount] at htwo
      cases htwo
  | ip6 hlength =>
      rcases PrefixLength.not_mem hlength with ⟨hplus, hcount⟩
      exact ⟨by simp [hplus], fun _ => List.prefix_append ['/', '/'] _⟩
  | both hlength4 hlength6 =>
      rcases PrefixLength.not_mem hlength4 with ⟨hplus4, hcount4⟩
      rcases PrefixLength.not_mem hlength6 with ⟨hplus6, hcount6⟩
      refine ⟨by simp [hplus4, hplus6], ?_⟩
      intro htwo
      rw [List.count_cons_self, List.count_append, List.count_cons_self, List.count_cons_self,
        hcount4, hcount6] at htwo
      cases htwo

theorem dualCidr_of_parseDualCidr {cidr : Str} (h : parseDualCidr cidr = some (bits4, bits6))
    (hplain : PlainLengths cidr) : DualCidr cidr bits4 bits6 := by
  unfold parseDualCidr at h
  split at h
  · rename_i hempty
    cases h
    rw [List.isEmpty_iff.mp hempty]
    exact DualCidr.neither
  · split at h
    · rename_i v6only hstrip
      rcases Option.bind_eq_some_iff.mp h with ⟨v, hv, h⟩
      split at h
      · cases h
      · rename_i hle
        cases h
        have hcidr := stripPrefix_eq_some hstrip
        rw [hcidr] at hplain ⊢
        refine DualCidr.ip6 ⟨digitsValue_of_parseU8 hv ?_, Nat.not_lt.mp hle⟩
        intro hplus
        exact hplain.1 (List.mem_append_right _ hplus)
    · rename_i hstrip
      rcases Option.bind_eq_some_iff.mp h with ⟨rest, hrest, h⟩
      have hcidr := stripPrefix_eq_some hrest
      rw [hcidr] at hplain ⊢
      split at h
      · rename_i c4 hsplit
        rcases Option.bind_eq_some_iff.mp h with ⟨n, hn, h⟩
        split at h
        · cases h
        · rename_i hle
          cases h
          rw [splitOn_eq_one hsplit] at hplain ⊢
          refine DualCidr.ip4 ⟨digitsValue_of_parseU8 hn ?_, Nat.not_lt.mp hle⟩
          intro hplus
          exact hplain.1 (List.mem_append_right _ hplus)
      · rename_i c4 c6 hsplit
        rcases splitOn_eq_two hsplit with ⟨hpieces, hfirst, hsecond⟩
        have htwo : ("/".toList ++ rest).count '/' = 2 := by
          rw [hpieces]
          simp [List.count_eq_zero.mpr hfirst, List.count_eq_zero.mpr hsecond]
        rw [<- hcidr] at htwo hplain
        exact absurd (hplain.2 htwo) (stripPrefix_eq_none hstrip)
      · cases h

/-!
# Hosts and networks
-/

theorem parseDomainSpec_eq_some {domain : Option Str}
    (h : parseDomainSpec rest = some (domain, bits4, bits6)) :
    rest.takeWhile (fun c => c ≠ '/') = (domain.map (List.cons ':')).getD [] ∧
      parseDualCidr (rest.dropWhile fun c => c ≠ '/') = some (bits4, bits6) := by
  unfold parseDomainSpec at h
  dsimp only at h
  split at h
  · rename_i d hstrip
    split at h
    · cases h
    · rcases Option.bind_eq_some_iff.mp h with ⟨_, hdomain, h⟩
      cases hdomain
      rcases Option.bind_eq_some_iff.mp h with ⟨_, hcidr, hpair⟩
      cases hpair
      exact ⟨stripPrefix_eq_some hstrip, hcidr⟩
  · split at h
    · rename_i hempty
      rcases Option.bind_eq_some_iff.mp h with ⟨_, hdomain, h⟩
      cases hdomain
      rcases Option.bind_eq_some_iff.mp h with ⟨_, hcidr, hpair⟩
      cases hpair
      exact ⟨List.isEmpty_iff.mp hempty, hcidr⟩
    · cases h

theorem DualCidr.slash_first {cidr : Str} (h : DualCidr cidr bits4 bits6) :
    cidr.takeWhile (fun c => c ≠ '/') = [] ∧ cidr.dropWhile (fun c => c ≠ '/') = cidr := by
  cases h with
  | neither | ip4 | ip6 | both => exact ⟨rfl, rfl⟩

/-- The domain, if there is one, and the lengths are as the grammar has them. -/
def PlainHost (rest : Str) : Prop :=
  (forall domain, rest.takeWhile (fun c => c ≠ '/') = ':' :: domain -> DomainSpec domain) ∧
    PlainLengths (rest.dropWhile fun c => c ≠ '/')

theorem hostText_iff {domain : Option Str}
    (h : parseDomainSpec rest = some (domain, bits4, bits6)) :
    HostText rest domain bits4 bits6 <-> PlainHost rest := by
  rcases parseDomainSpec_eq_some h with ⟨hdomain, hcidr⟩
  have hsplit := @List.takeWhile_append_dropWhile _ (fun c => decide (c ≠ '/')) rest
  constructor
  · intro htext
    cases htext with
    | unnamed hdual =>
        rcases DualCidr.slash_first hdual with ⟨htake, hdrop⟩
        refine ⟨?_, ?_⟩
        · intro domain hnamed
          rw [htake] at hnamed
          cases hnamed
        · rw [hdrop]
          exact plainLengths_of_dualCidr hdual
    | @named domain cidr _ _ hspec hdual =>
        have htake : (':' :: (domain ++ cidr)).takeWhile (fun c => decide (c ≠ '/')) =
            ':' :: domain := hdomain
        rw [htake] at hsplit
        have hdrop := List.append_cancel_left hsplit
        refine ⟨?_, ?_⟩
        · intro other hnamed
          rw [htake] at hnamed
          cases hnamed
          exact hspec
        · rw [hdrop]
          exact plainLengths_of_dualCidr hdual
  · intro hplain
    have hdual := dualCidr_of_parseDualCidr hcidr hplain.2
    cases domain with
    | none =>
        have htake : rest.takeWhile (fun c => decide (c ≠ '/')) = [] := hdomain
        rw [htake, List.nil_append] at hsplit
        rw [hsplit] at hdual
        exact HostText.unnamed hdual
    | some domain =>
        have htake : rest.takeWhile (fun c => decide (c ≠ '/')) = ':' :: domain := hdomain
        rw [htake] at hsplit
        rw [<- hsplit]
        exact HostText.named (hplain.1 domain htake) hdual

theorem QNum.not_mem (h : QNum text n) : '+' ∉ text :=
  not_mem_of_digitsValue h.1 '+' rfl

theorem Ip4Network.not_mem {net : BitVec 32} (h : Ip4Network text net) : '+' ∉ text := by
  rcases h with ⟨ta, tb, tc, td, a, b, c, d, htext, ha, hb, hc, hd, _⟩
  rw [htext]
  simp [QNum.not_mem ha, QNum.not_mem hb, QNum.not_mem hc, QNum.not_mem hd]

theorem HexGroup.not_mem (h : HexGroup text n) : '+' ∉ text := by
  intro hmem
  exact absurd (h.2.2.1 '+' hmem) (by decide)

theorem Ip6Groups.not_mem {dotted : Bool} {groups : List Nat} (h : Ip6Groups dotted text groups) :
    '+' ∉ text := by
  induction h with
  | hex hgroup => exact HexGroup.not_mem hgroup
  | quad _ hnetwork => exact Ip4Network.not_mem hnetwork
  | cons hgroup _ ih => simp [HexGroup.not_mem hgroup, ih]

theorem Ip6Side.not_mem {dotted : Bool} {groups : List Nat} (h : Ip6Side dotted text groups) :
    '+' ∉ text := by
  rcases h with ⟨hnil, _⟩ | hgroups
  · rw [hnil]
    exact List.not_mem_nil
  · exact Ip6Groups.not_mem hgroups

theorem Ip6Network.not_mem {net : BitVec 128} (h : Ip6Network text net) : '+' ∉ text := by
  cases h with
  | full hgroups => exact Ip6Groups.not_mem hgroups
  | compressed hfront hback => simp [Ip6Side.not_mem hfront, Ip6Side.not_mem hback]

theorem parseIpCidr_eq_some {width largest : Nat} {parseAddr : Str -> Option (BitVec width)}
    {v : Str} {net : BitVec width} {bits : Nat}
    (h : parseIpCidr largest parseAddr v = some (net, bits)) :
    (parseAddr v = some net ∧ bits = largest) ∨
      exists addr length, v = addr ++ '/' :: length ∧ parseU8 length = some bits ∧
        bits <= largest ∧ parseAddr addr = some net := by
  unfold parseIpCidr at h
  dsimp only at h
  split at h
  · rename_i addr length hsplit
    rcases Option.bind_eq_some_iff.mp h with ⟨_, hpair, h⟩
    rcases Option.map_eq_some_iff.mp hpair with ⟨n, hn, hpair⟩
    cases hpair
    dsimp only at h
    split at h
    · cases h
    · rename_i hle
      rcases Option.bind_eq_some_iff.mp h with ⟨ip, hip, hpair⟩
      cases hpair
      exact Or.inr ⟨addr, length, (splitOnce_eq_some hsplit).1, hn, Nat.not_lt.mp hle, hip⟩
  · rcases Option.bind_eq_some_iff.mp h with ⟨_, hpair, h⟩
    cases hpair
    dsimp only at h
    split at h
    · cases h
    · rcases Option.bind_eq_some_iff.mp h with ⟨ip, hip, hpair⟩
      cases hpair
      exact Or.inl ⟨hip, rfl⟩

theorem networkText_iff {width largest : Nat} {parseAddr : Str -> Option (BitVec width)}
    {network : Str -> BitVec width -> Prop}
    (hread : forall {text net}, parseAddr text = some net -> network text net)
    (hplus : forall {text net}, network text net -> '+' ∉ text)
    {v : Str} {net : BitVec width} {bits : Nat}
    (h : parseIpCidr largest parseAddr v = some (net, bits)) :
    NetworkText largest network (':' :: v) net bits <-> '+' ∉ v := by
  constructor
  · intro htext
    cases htext with
    | host hnetwork => exact hplus hnetwork
    | cidr hnetwork hlength => simp [hplus hnetwork, (PrefixLength.not_mem hlength).1]
  · intro hplain
    rcases parseIpCidr_eq_some h with ⟨haddr, hbits⟩ | ⟨addr, length, hv, hlength, hle, haddr⟩
    · rw [hbits]
      exact NetworkText.host (hread haddr)
    · rw [hv] at hplain ⊢
      refine NetworkText.cidr (hread haddr) ⟨digitsValue_of_parseU8 hlength ?_, hle⟩
      intro hmem
      exact hplain (List.mem_append_right _ (List.mem_cons_of_mem _ hmem))

/-!
# Mechanisms
-/

def wordText (s : Str) : Str :=
  s.takeWhile fun c => c ≠ ':' && c ≠ '/'

def argumentText (s : Str) : Str :=
  s.dropWhile fun c => c ≠ ':' && c ≠ '/'

/-- What `parse_mechanism` reads after each word. -/
inductive ReadsMechanism : Str -> Str -> Mechanism -> Prop where
  | all : ReadsMechanism "all".toList [] Mechanism.all
  | «include» {domain : Str} :
      ReadsMechanism "include".toList (':' :: domain) (Mechanism.include domain)
  | «exists» {domain : Str} :
      ReadsMechanism "exists".toList (':' :: domain) (Mechanism.exists domain)
  | a {rest : Str} {domain : Option Str} {bits4 bits6 : Nat} :
      parseDomainSpec rest = some (domain, bits4, bits6) ->
        ReadsMechanism "a".toList rest (Mechanism.a domain bits4 bits6)
  | mx {rest : Str} {domain : Option Str} {bits4 bits6 : Nat} :
      parseDomainSpec rest = some (domain, bits4, bits6) ->
        ReadsMechanism "mx".toList rest (Mechanism.mx domain bits4 bits6)
  | ptr : ReadsMechanism "ptr".toList [] Mechanism.ptr
  | ptrDomain {domain : Str} : ReadsMechanism "ptr".toList (':' :: domain) Mechanism.ptr
  | ip4 {v : Str} {net : BitVec 32} {bits : Nat} : parseIp4Cidr v = some (net, bits) ->
      ReadsMechanism "ip4".toList (':' :: v) (Mechanism.ip4 net bits)
  | ip6 {v : Str} {net : BitVec 128} {bits : Nat} : parseIp6Cidr v = some (net, bits) ->
      ReadsMechanism "ip6".toList (':' :: v) (Mechanism.ip6 net bits)

theorem namedDomain_eq_some {domain : Str} (h : namedDomain rest = some domain) :
    rest = ':' :: domain := by
  exact stripPrefix_eq_some (Option.filter_eq_some_iff.mp h).1

theorem parseMechanism_eq_some {s : Str} {m : Mechanism} (h : parseMechanism s = some m) :
    ReadsMechanism (lower (wordText s)) (argumentText s) m := by
  unfold parseMechanism at h
  dsimp only at h
  have hword : (s.takeWhile fun c => c ≠ ':' && c ≠ '/') = wordText s := rfl
  have hrest : (s.dropWhile fun c => c ≠ ':' && c ≠ '/') = argumentText s := rfl
  rw [hword, hrest] at h
  generalize lower (wordText s) = word at h
  generalize argumentText s = rest at h
  split at h
  · cases h
  by_cases hall : word = "all".toList
  · rw [if_pos hall] at h
    split at h
    · rename_i hempty
      cases h
      rw [hall, List.isEmpty_iff.mp hempty]
      exact ReadsMechanism.all
    · cases h
  rw [if_neg hall] at h
  by_cases hinclude : word = "include".toList
  · rw [if_pos hinclude] at h
    rcases Option.map_eq_some_iff.mp h with ⟨domain, hdomain, hm⟩
    rw [hinclude, namedDomain_eq_some hdomain, <- hm]
    exact ReadsMechanism.include
  rw [if_neg hinclude] at h
  by_cases hexists : word = "exists".toList
  · rw [if_pos hexists] at h
    rcases Option.map_eq_some_iff.mp h with ⟨domain, hdomain, hm⟩
    rw [hexists, namedDomain_eq_some hdomain, <- hm]
    exact ReadsMechanism.exists
  rw [if_neg hexists] at h
  by_cases ha : word = "a".toList
  · rw [if_pos ha] at h
    rcases Option.map_eq_some_iff.mp h with ⟨⟨domain, bits4, bits6⟩, hspec, hm⟩
    rw [ha, <- hm]
    exact ReadsMechanism.a hspec
  rw [if_neg ha] at h
  by_cases hmx : word = "mx".toList
  · rw [if_pos hmx] at h
    rcases Option.map_eq_some_iff.mp h with ⟨⟨domain, bits4, bits6⟩, hspec, hm⟩
    rw [hmx, <- hm]
    exact ReadsMechanism.mx hspec
  rw [if_neg hmx] at h
  by_cases hptr : word = "ptr".toList
  · rw [if_pos hptr] at h
    split at h
    · cases h
    · rename_i hargument
      cases h
      rw [hptr]
      cases rest with
      | nil => exact ReadsMechanism.ptr
      | cons c domain =>
          cases hstrip : stripPrefix ":".toList (c :: domain) with
          | none =>
              rw [hstrip] at hargument
              exact absurd rfl hargument
          | some others =>
              rw [stripPrefix_eq_some hstrip]
              exact ReadsMechanism.ptrDomain
  rw [if_neg hptr] at h
  by_cases hip4 : word = "ip4".toList
  · rw [if_pos hip4] at h
    rcases Option.bind_eq_some_iff.mp h with ⟨v, hv, h⟩
    rcases Option.map_eq_some_iff.mp h with ⟨⟨net, bits⟩, hnet, hm⟩
    rw [hip4, stripPrefix_eq_some hv, <- hm]
    exact ReadsMechanism.ip4 hnet
  rw [if_neg hip4] at h
  by_cases hip6 : word = "ip6".toList
  · rw [if_pos hip6] at h
    rcases Option.bind_eq_some_iff.mp h with ⟨v, hv, h⟩
    rcases Option.map_eq_some_iff.mp h with ⟨⟨net, bits⟩, hnet, hm⟩
    rw [hip6, stripPrefix_eq_some hv, <- hm]
    exact ReadsMechanism.ip6 hnet
  rw [if_neg hip6] at h
  cases h

def namedWords : List Str :=
  ["include".toList, "exists".toList, "ptr".toList]

def hostWords : List Str :=
  ["a".toList, "mx".toList]

def networkWords : List Str :=
  ["ip4".toList, "ip6".toList]

/-- What stands after a word is as the grammar has it, so far as `parse_mechanism` does not
see to it. -/
def PlainArguments (word rest : Str) : Prop :=
  (word ∈ namedWords -> forall domain, rest = ':' :: domain -> DomainSpec domain) ∧
    (word ∈ hostWords -> PlainHost rest) ∧ (word ∈ networkWords -> '+' ∉ rest)

theorem plainArguments_named (hword : word ∈ namedWords) (rest : Str) :
    PlainArguments word rest <-> forall domain, rest = ':' :: domain -> DomainSpec domain := by
  have hother : forall w, w ∈ namedWords -> w ∉ hostWords ∧ w ∉ networkWords := by decide
  rcases hother word hword with ⟨hhost, hnetwork⟩
  constructor
  · intro h
    exact h.1 hword
  · intro h
    exact ⟨fun _ => h, fun hmem => absurd hmem hhost, fun hmem => absurd hmem hnetwork⟩

theorem plainArguments_host (hword : word ∈ hostWords) (rest : Str) :
    PlainArguments word rest <-> PlainHost rest := by
  have hother : forall w, w ∈ hostWords -> w ∉ namedWords ∧ w ∉ networkWords := by decide
  rcases hother word hword with ⟨hnamed, hnetwork⟩
  constructor
  · intro h
    exact h.2.1 hword
  · intro h
    exact ⟨fun hmem => absurd hmem hnamed, fun _ => h, fun hmem => absurd hmem hnetwork⟩

theorem plainArguments_network (hword : word ∈ networkWords) (rest : Str) :
    PlainArguments word rest <-> '+' ∉ rest := by
  have hother : forall w, w ∈ networkWords -> w ∉ namedWords ∧ w ∉ hostWords := by decide
  rcases hother word hword with ⟨hnamed, hhost⟩
  constructor
  · intro h
    exact h.2.2 hword
  · intro h
    exact ⟨fun hmem => absurd hmem hnamed, fun hmem => absurd hmem hhost, fun _ => h⟩

theorem arguments_iff {m : Mechanism} (h : ReadsMechanism word rest m) :
    Arguments word rest m <-> PlainArguments word rest := by
  cases h with
  | all =>
      refine iff_of_true Arguments.all ⟨?_, ?_, ?_⟩ <;>
        exact fun hword => absurd hword (by decide)
  | @«include» domain =>
      rw [plainArguments_named (by decide)]
      constructor
      · intro harguments other hother
        cases hother
        cases harguments with
        | «include» hspec => exact hspec
      · intro hspec
        exact Arguments.include (hspec domain rfl)
  | @«exists» domain =>
      rw [plainArguments_named (by decide)]
      constructor
      · intro harguments other hother
        cases hother
        cases harguments with
        | «exists» hspec => exact hspec
      · intro hspec
        exact Arguments.exists (hspec domain rfl)
  | a hread =>
      rw [plainArguments_host (by decide), <- hostText_iff hread]
      constructor
      · intro harguments
        cases harguments with
        | a htext => exact htext
      · exact Arguments.a
  | mx hread =>
      rw [plainArguments_host (by decide), <- hostText_iff hread]
      constructor
      · intro harguments
        cases harguments with
        | mx htext => exact htext
      · exact Arguments.mx
  | ptr =>
      rw [plainArguments_named (by decide)]
      refine iff_of_true Arguments.ptr ?_
      intro domain hdomain
      cases hdomain
  | @ptrDomain domain =>
      rw [plainArguments_named (by decide)]
      constructor
      · intro harguments other hother
        cases hother
        cases harguments with
        | ptrDomain hspec => exact hspec
      · intro hspec
        exact Arguments.ptrDomain (hspec domain rfl)
  | @ip4 v net bits hread =>
      have hnetwork := networkText_iff parseIpv4_network Ip4Network.not_mem hread
      have hcolon : '+' ∉ ':' :: v <-> '+' ∉ v := by simp
      rw [plainArguments_network (by decide), hcolon, <- hnetwork]
      constructor
      · intro harguments
        cases harguments with
        | ip4 htext => exact htext
      · exact Arguments.ip4
  | @ip6 v net bits hread =>
      have hnetwork := networkText_iff parseIpv6_network Ip6Network.not_mem hread
      have hcolon : '+' ∉ ':' :: v <-> '+' ∉ v := by simp
      rw [plainArguments_network (by decide), hcolon, <- hnetwork]
      constructor
      · intro harguments
        cases harguments with
        | ip6 htext => exact htext
      · exact Arguments.ip6

end Spf
end Gateway
end Ephor
