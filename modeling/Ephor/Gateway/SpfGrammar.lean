import Ephor.Gateway.Spf

/-!
# The grammar of SPF terms

The terms of a record as RFC 7208 section 12 has them, with the mechanism that each directive
stands for.  The words of the grammar are matched without regard to case.
-/

namespace Ephor
namespace Gateway
namespace Spf

open Foundation
open Foundation.Text

namespace Grammar

/-!
# Modifiers
-/

/-- `name = ALPHA *( ALPHA / DIGIT / "-" / "_" / "." )`. -/
def IsName : Str -> Prop
  | [] => False
  | c :: rest =>
      c.isAlpha = true ∧
        forall x, x ∈ rest -> x.isAlphanum = true ∨ x = '-' ∨ x = '_' ∨ x = '.'

/-!
# Domains
-/

def isDelimiter (c : Char) : Bool :=
  c ∈ ['.', '-', '+', ',', '/', '_', '=']

def isExpandLetter (c : Char) : Bool :=
  c.toLower ∈ ['s', 'l', 'o', 'd', 'i', 'p', 'h', 'c', 'r', 't', 'v']

/-- `macro-expand`: an escape, or a letter with its transformers and delimiters. -/
inductive MacroExpand : Str -> Prop where
  | escape {c : Char} : c = '%' ∨ c = '_' ∨ c = '-' -> MacroExpand ['%', c]
  | expand {letter : Char} {digits reverse delimiters : Str} :
      isExpandLetter letter = true -> digits.all Char.isDigit = true ->
      reverse = [] ∨ lower reverse = ['r'] -> delimiters.all isDelimiter = true ->
        MacroExpand ('%' :: '\x7b' :: letter :: (digits ++ reverse ++ delimiters ++ ['\x7d']))

inductive MacroString : Str -> Prop where
  | nil : MacroString []
  | literal {c : Char} {rest : Str} : 0x21 <= c.toNat -> c.toNat <= 0x7E -> c ≠ '%' ->
      MacroString rest -> MacroString (c :: rest)
  | expand {start rest : Str} :
      MacroExpand start -> MacroString rest -> MacroString (start ++ rest)

/-- `toplabel`: letters and digits with a letter among them, or with a dash inside. -/
def IsTopLabel (label : Str) : Prop :=
  label.all Char.isAlphanum = true ∧ label.any Char.isAlpha = true ∨
    exists start middle last, label = start ++ '-' :: (middle ++ [last]) ∧
      start ≠ [] ∧ start.all Char.isAlphanum = true ∧
      middle.all (fun c => c.isAlphanum || c = '-') = true ∧ last.isAlphanum = true

inductive DomainEnd : Str -> Prop where
  | label {label : Str} : IsTopLabel label -> DomainEnd ('.' :: label)
  | rooted {label : Str} : IsTopLabel label -> DomainEnd ('.' :: (label ++ ['.']))
  | expand {ending : Str} : MacroExpand ending -> DomainEnd ending

def DomainSpec (domain : Str) : Prop :=
  exists start ending, domain = start ++ ending ∧ MacroString start ∧ DomainEnd ending

/-!
# Prefix lengths
-/

/-- Plain decimal digits of a value in range. -/
def PrefixLength (largest : Nat) (text : Str) (bits : Nat) : Prop :=
  digitsValue text = some bits ∧ bits <= largest

/-- `[ dual-cidr-length ]`: two slashes announce the length for IPv6. -/
inductive DualCidr : Str -> Nat -> Nat -> Prop where
  | neither : DualCidr [] 32 128
  | ip4 {text : Str} {bits : Nat} :
      PrefixLength 32 text bits -> DualCidr ('/' :: text) bits 128
  | ip6 {text : Str} {bits : Nat} :
      PrefixLength 128 text bits -> DualCidr ('/' :: '/' :: text) 32 bits
  | both {text4 text6 : Str} {bits4 bits6 : Nat} :
      PrefixLength 32 text4 bits4 -> PrefixLength 128 text6 bits6 ->
        DualCidr ('/' :: (text4 ++ '/' :: '/' :: text6)) bits4 bits6

/-!
# Addresses
-/

def QNum (text : Str) (n : Nat) : Prop :=
  digitsValue text = some n ∧ n <= 255 ∧ (text.length = 1 ∨ text.head? ≠ some '0')

def Ip4Network (text : Str) (net : BitVec 32) : Prop :=
  exists ta tb tc td a b c d,
    text = ta ++ '.' :: (tb ++ '.' :: (tc ++ '.' :: td)) ∧
    QNum ta a ∧ QNum tb b ∧ QNum tc c ∧ QNum td d ∧
    net = BitVec.ofNat 32 (((a * 256 + b) * 256 + c) * 256 + d)

def HexGroup (text : Str) (n : Nat) : Prop :=
  text ≠ [] ∧ text.length <= 4 ∧ (forall c, c ∈ text -> (digitOf 16 c).isSome = true) ∧
    n = text.foldl (fun n c => n * 16 + (digitOf 16 c).getD 0) 0

/-- Groups of sixteen bits with colons between them; an IPv4 address may stand for the last
two. -/
inductive Ip6Groups (dotted : Bool) : Str -> List Nat -> Prop where
  | hex {text : Str} {n : Nat} : HexGroup text n -> Ip6Groups dotted text [n]
  | quad {text : Str} {net : BitVec 32} : dotted = true -> Ip4Network text net ->
      Ip6Groups dotted text [net.toNat / 65536, net.toNat % 65536]
  | cons {text rest : Str} {n : Nat} {ns : List Nat} : HexGroup text n ->
      Ip6Groups dotted rest ns -> Ip6Groups dotted (text ++ ':' :: rest) (n :: ns)

def Ip6Side (dotted : Bool) (text : Str) (groups : List Nat) : Prop :=
  text = [] ∧ groups = [] ∨ Ip6Groups dotted text groups

/-- `ip6-network`, in the conventional notation: eight groups, or fewer with `::` for the
zeros that are left out. -/
inductive Ip6Network : Str -> BitVec 128 -> Prop where
  | full {text : Str} {groups : List Nat} : Ip6Groups true text groups ->
      groups.length = 8 -> Ip6Network text (ofGroups groups)
  | compressed {front back : Str} {fronts backs : List Nat} : Ip6Side false front fronts ->
      Ip6Side true back backs -> fronts.length + backs.length < 8 ->
        Ip6Network (front ++ ':' :: ':' :: back)
          (ofGroups (fronts ++ List.replicate (8 - fronts.length - backs.length) 0 ++ backs))

/-!
# Mechanisms
-/

/-- `[ ":" domain-spec ] [ dual-cidr-length ]`. -/
inductive HostText : Str -> Option Str -> Nat -> Nat -> Prop where
  | unnamed {cidr : Str} {bits4 bits6 : Nat} :
      DualCidr cidr bits4 bits6 -> HostText cidr none bits4 bits6
  | named {domain cidr : Str} {bits4 bits6 : Nat} :
      DomainSpec domain -> DualCidr cidr bits4 bits6 ->
        HostText (':' :: (domain ++ cidr)) (some domain) bits4 bits6

/-- `":" network [ cidr-length ]`, for the networks of one family. -/
inductive NetworkText {width : Nat} (largest : Nat) (network : Str -> BitVec width -> Prop) :
    Str -> BitVec width -> Nat -> Prop where
  | host {text : Str} {net : BitVec width} :
      network text net -> NetworkText largest network (':' :: text) net largest
  | cidr {text length : Str} {net : BitVec width} {bits : Nat} :
      network text net -> PrefixLength largest length bits ->
        NetworkText largest network (':' :: (text ++ '/' :: length)) net bits

inductive Arguments : Str -> Str -> Mechanism -> Prop where
  | all : Arguments "all".toList [] Mechanism.all
  | «include» {domain : Str} : DomainSpec domain ->
      Arguments "include".toList (':' :: domain) (Mechanism.include domain)
  | a {text : Str} {domain : Option Str} {bits4 bits6 : Nat} :
      HostText text domain bits4 bits6 ->
        Arguments "a".toList text (Mechanism.a domain bits4 bits6)
  | mx {text : Str} {domain : Option Str} {bits4 bits6 : Nat} :
      HostText text domain bits4 bits6 ->
        Arguments "mx".toList text (Mechanism.mx domain bits4 bits6)
  | ptr : Arguments "ptr".toList [] Mechanism.ptr
  | ptrDomain {domain : Str} : DomainSpec domain ->
      Arguments "ptr".toList (':' :: domain) Mechanism.ptr
  | ip4 {text : Str} {net : BitVec 32} {bits : Nat} :
      NetworkText 32 Ip4Network text net bits ->
        Arguments "ip4".toList text (Mechanism.ip4 net bits)
  | ip6 {text : Str} {net : BitVec 128} {bits : Nat} :
      NetworkText 128 Ip6Network text net bits ->
        Arguments "ip6".toList text (Mechanism.ip6 net bits)
  | «exists» {domain : Str} : DomainSpec domain ->
      Arguments "exists".toList (':' :: domain) (Mechanism.exists domain)

inductive QualifierText : Str -> Qualifier -> Prop where
  | absent : QualifierText [] Qualifier.pass
  | plus : QualifierText ['+'] Qualifier.pass
  | minus : QualifierText ['-'] Qualifier.fail
  | tilde : QualifierText ['~'] Qualifier.softFail
  | question : QualifierText ['?'] Qualifier.neutral

inductive Directive : Str -> Qualifier × Mechanism -> Prop where
  | mk {sign word rest : Str} {q : Qualifier} {m : Mechanism} : QualifierText sign q ->
      Arguments (lower word) rest m -> Directive (sign ++ (word ++ rest)) (q, m)

/--
What becomes of the terms: directives become their mechanisms, in order, `redirect` is kept
and given once at most, and the other modifiers are ignored.
-/
inductive Kept : List Str -> List (Qualifier × Mechanism) -> Option Str -> Prop where
  | nil : Kept [] [] none
  | ignored {name value : Str} {terms : List Str} {mechanisms : List (Qualifier × Mechanism)}
      {redirect : Option Str} : IsName name -> eqIgnoreCase name "redirect".toList = false ->
      Kept terms mechanisms redirect -> Kept ((name ++ '=' :: value) :: terms) mechanisms redirect
  | redirect {name value : Str} {terms : List Str} {mechanisms : List (Qualifier × Mechanism)} :
      IsName name -> eqIgnoreCase name "redirect".toList = true ->
      Kept terms mechanisms none ->
        Kept ((name ++ '=' :: value) :: terms) mechanisms (some value)
  | directive {term : Str} {terms : List Str} {directive : Qualifier × Mechanism}
      {mechanisms : List (Qualifier × Mechanism)} {redirect : Option Str} :
      Directive term directive -> Kept terms mechanisms redirect ->
        Kept (term :: terms) (directive :: mechanisms) redirect

end Grammar
end Spf
end Gateway
end Ephor
