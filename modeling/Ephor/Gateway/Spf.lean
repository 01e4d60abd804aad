import Ephor.Gateway.Inbound

/-!
# SPF

`pier-gateway/src/spf.rs`: the record of a domain is fetched, parsed and evaluated against
the address of the peer.  Records include and redirect to each other, so evaluation recurses
through whatever the zones contain; counters shared by the whole evaluation keep it bounded.
The resolver may answer every call differently: its answers take the calls made so far.
-/

namespace Ephor
namespace Gateway
namespace Spf

open Foundation
open Foundation.Text

/-!
# Address literals

`Ipv4Addr::from_str` and `Ipv6Addr::from_str` of the Rust library.  A reader takes what it
wants from the front of the text and returns the rest.
-/

def digitOf (radix : Nat) (c : Char) : Option Nat :=
  let value :=
    if '0' <= c && c <= '9' then some (c.toNat - '0'.toNat)
    else if 'a' <= c && c <= 'z' then some (c.toNat - 'a'.toNat + 10)
    else if 'A' <= c && c <= 'Z' then some (c.toNat - 'A'.toNat + 10)
    else none
  value.filter fun n => n < radix

/-- `read_number`: all digits in front, refused if there are too many of them, if the value
is too large, or if a leading zero is not allowed. -/
def readNumber (radix maxDigits largest : Nat) (allowZeroPrefix : Bool) (text : Str) :
    Option (Nat × Str) :=
  let digits := text.takeWhile fun c => (digitOf radix c).isSome
  let value := digits.foldl (fun n c => n * radix + (digitOf radix c).getD 0) 0
  if digits.isEmpty || digits.length > maxDigits || value > largest then
    none
  else if !allowZeroPrefix && text.headD ' ' = '0' && digits.length > 1 then
    none
  else
    some (value, text.drop digits.length)

def readGivenChar (c : Char) (text : Str) : Option Str :=
  match text with
  | [] => none
  | x :: rest => if x = c then some rest else none

/-- `read_separator`: every item but the first follows a separator. -/
def readSeparator {α : Type} (sep : Char) (index : Nat) (inner : Str -> Option (α × Str))
    (text : Str) : Option (α × Str) :=
  if index > 0 then (readGivenChar sep text).bind inner else inner text

def readOctet (index : Nat) (text : Str) : Option (Nat × Str) :=
  readSeparator '.' index (readNumber 10 3 255 false) text

def readIpv4Addr (text : Str) : Option (BitVec 32 × Str) := do
  let (a, text) <- readOctet 0 text
  let (b, text) <- readOctet 1 text
  let (c, text) <- readOctet 2 text
  let (d, text) <- readOctet 3 text
  return (BitVec.ofNat 32 (((a * 256 + b) * 256 + c) * 256 + d), text)

/-- `read_groups` for the groups from `index` up to `limit`: the groups, whether the last
two came from an IPv4 address, and the rest. -/
def readGroups (limit : Nat) (index : Nat) (text : Str) : List Nat × Bool × Str :=
  if index < limit then
    match (if index + 1 < limit then readSeparator ':' index readIpv4Addr text else none) with
    | some (v4, rest) => ([v4.toNat / 65536, v4.toNat % 65536], true, rest)
    | none =>
        match readSeparator ':' index (readNumber 16 4 65535 true) text with
        | some (group, rest) =>
            let (groups, embedded, rest) := readGroups limit (index + 1) rest
            (group :: groups, embedded, rest)
        | none => ([], false, text)
  else
    ([], false, text)
termination_by limit - index

def ofGroups (groups : List Nat) : BitVec 128 :=
  BitVec.ofNat 128 (groups.foldl (fun n g => n * 65536 + g) 0)

def readIpv6Addr (text : Str) : Option (BitVec 128 × Str) := do
  let (front, embedded, text) := readGroups 8 0 text
  if front.length = 8 then
    return (ofGroups front, text)
  else if embedded then
    none
  else
    let text <- readGivenChar ':' text
    let text <- readGivenChar ':' text
    let (back, _, text) := readGroups (8 - (front.length + 1)) 0 text
    let zeros := List.replicate (8 - front.length - back.length) 0
    return (ofGroups (front ++ zeros ++ back), text)

/-- `Ipv4Addr::from_str`; no address is longer than fifteen bytes. -/
def parseIpv4 (text : Str) : Option (BitVec 32) :=
  if (utf8 text).length > 15 then
    none
  else
    match readIpv4Addr text with
    | some (address, []) => some address
    | _ => none

/-- `Ipv6Addr::from_str`. -/
def parseIpv6 (text : Str) : Option (BitVec 128) :=
  match readIpv6Addr text with
  | some (address, []) => some address
  | _ => none

example : parseIpv4 "192.0.2.1".toList = some 0xC0000201#32 := by decide +kernel

/-!
# Records
-/

inductive Qualifier where
  | pass
  | fail
  | softFail
  | neutral
deriving DecidableEq

def qualifierToResult : Qualifier -> SpfResult
  | Qualifier.pass => SpfResult.pass
  | Qualifier.fail => SpfResult.fail
  | Qualifier.softFail => SpfResult.softFail
  | Qualifier.neutral => SpfResult.neutral

inductive Mechanism where
  | all
  | «include» (domain : Str)
  | a (domain : Option Str) (cidr4 cidr6 : Nat)
  | mx (domain : Option Str) (cidr4 cidr6 : Nat)
  | ip4 (net : BitVec 32) (cidr : Nat)
  | ip6 (net : BitVec 128) (cidr : Nat)
  | ptr
  | «exists» (domain : Str)
deriving DecidableEq

structure ParsedRecord where
  mechanisms : List (Qualifier × Mechanism)
  redirect : Option Str
deriving DecidableEq

def parseU8 (text : Str) : Option Nat :=
  parseUnsigned 255 text

def parseDualCidr (cidrPart : Str) : Option (Nat × Nat) :=
  if cidrPart.isEmpty then
    some (32, 128)
  else
    match stripPrefix "//".toList cidrPart with
    | some v6only => do
        let v <- parseU8 v6only
        if v > 128 then none else some (32, v)
    | none => do
        let rest <- stripPrefix "/".toList cidrPart
        match rest.splitOn '/' with
        | [c4] => do
            let c4 <- parseU8 c4
            if c4 > 32 then none else some (c4, 128)
        | [c4, c6] => do
            let c4 <- parseU8 c4
            let c6 <- parseU8 c6
            if c4 > 32 || c6 > 128 then none else some (c4, c6)
        | _ => none

def parseDomainSpec (rest : Str) : Option (Option Str × Nat × Nat) := do
  let domainPart := rest.takeWhile fun c => c ≠ '/'
  let cidrPart := rest.dropWhile fun c => c ≠ '/'
  let domain <-
    match stripPrefix ":".toList domainPart with
    | some d => if d.isEmpty then none else some (some d)
    | none => if domainPart.isEmpty then some none else none
  let (cidr4, cidr6) <- parseDualCidr cidrPart
  return (domain, cidr4, cidr6)

/-- `parse_ip4_cidr` and `parse_ip6_cidr`, by the width and the parser of the address. -/
def parseIpCidr {width : Nat} (largest : Nat) (parseAddr : Str -> Option (BitVec width))
    (v : Str) : Option (BitVec width × Nat) := do
  let (addr, cidr) <-
    match splitOnce '/' v with
    | some (a, c) => (parseU8 c).map fun cidr => (a, cidr)
    | none => some (v, largest)
  if cidr > largest then
    none
  else
    let ip <- parseAddr addr
    return (ip, cidr)

def parseIp4Cidr (v : Str) : Option (BitVec 32 × Nat) :=
  parseIpCidr 32 parseIpv4 v

def parseIp6Cidr (v : Str) : Option (BitVec 128 × Nat) :=
  parseIpCidr 128 parseIpv6 v

/-- The domain after the colon, which must not be empty. -/
def namedDomain (rest : Str) : Option Str :=
  (stripPrefix ":".toList rest).filter fun v => !v.isEmpty

def parseMechanism (s : Str) : Option Mechanism :=
  if s.isEmpty then
    none
  else
    let keyword := lower (s.takeWhile fun c => c ≠ ':' && c ≠ '/')
    let rest := s.dropWhile fun c => c ≠ ':' && c ≠ '/'
    if keyword = "all".toList then
      if rest.isEmpty then some Mechanism.all else none
    else if keyword = "include".toList then
      (namedDomain rest).map Mechanism.include
    else if keyword = "exists".toList then
      (namedDomain rest).map Mechanism.exists
    else if keyword = "a".toList then
      (parseDomainSpec rest).map fun (domain, cidr4, cidr6) => Mechanism.a domain cidr4 cidr6
    else if keyword = "mx".toList then
      (parseDomainSpec rest).map fun (domain, cidr4, cidr6) => Mechanism.mx domain cidr4 cidr6
    else if keyword = "ptr".toList then
      if !rest.isEmpty && ((stripPrefix ":".toList rest).map List.isEmpty).getD true then
        none
      else
        some Mechanism.ptr
    else if keyword = "ip4".toList then
      (stripPrefix ":".toList rest).bind fun v =>
        (parseIp4Cidr v).map fun (net, cidr) => Mechanism.ip4 net cidr
    else if keyword = "ip6".toList then
      (stripPrefix ":".toList rest).bind fun v =>
        (parseIp6Cidr v).map fun (net, cidr) => Mechanism.ip6 net cidr
    else
      none

def readQualifier : Str -> Qualifier × Str
  | '+' :: rest => (Qualifier.pass, rest)
  | '-' :: rest => (Qualifier.fail, rest)
  | '~' :: rest => (Qualifier.softFail, rest)
  | '?' :: rest => (Qualifier.neutral, rest)
  | term => (Qualifier.pass, term)

/-- The loop of `parse_record` over the terms after the version. -/
def parseTerms : List Str -> ParsedRecord -> Option ParsedRecord
  | [], parsed => some parsed
  | term :: terms, parsed =>
      match splitOnce '=' term with
      | some (name, value) =>
          if eqIgnoreCase name "redirect".toList then
            if parsed.redirect.isSome || value.isEmpty then
              none
            else
              parseTerms terms { parsed with redirect := some value }
          else
            -- "exp=" and unknown modifiers are parsed and discarded.
            parseTerms terms parsed
      | none =>
          let (qualifier, rest) := readQualifier term
          (parseMechanism rest).bind fun mech =>
            parseTerms terms
              { parsed with mechanisms := parsed.mechanisms ++ [(qualifier, mech)] }

def parseRecord (record : Str) : Option ParsedRecord :=
  match splitWhitespace record with
  | [] => none
  | version :: terms =>
      if version = "v=spf1".toList then parseTerms terms ⟨[], none⟩ else none

/-- `ipv4_in_cidr` and `ipv6_in_cidr`. -/
def inCidr {width : Nat} (ip net : BitVec width) (cidr : Nat) : Bool :=
  if cidr = 0 then
    true
  else
    let cidr := min cidr width
    let mask := if cidr = width then BitVec.allOnes width else ~~~(BitVec.allOnes width >>> cidr)
    ip &&& mask = net &&& mask

def normalize (d : Str) : Str :=
  lower ((trim d).rdropWhile fun c => c = '.')

def isSpf1Record (t : Str) : Bool :=
  trim t = "v=spf1".toList || "v=spf1 ".toList.isPrefixOf (trim t)

def mechanismHasMacro : Mechanism -> Bool
  | Mechanism.include d => d.contains '%'
  | Mechanism.exists d => d.contains '%'
  | Mechanism.a (some d) _ _ => d.contains '%'
  | Mechanism.mx (some d) _ _ => d.contains '%'
  | _ => false

/-!
# The resolver
-/

inductive Query where
  | txt (name : Str)
  | a (name : Str)
  | aaaa (name : Str)
  | mx (name : Str)
deriving DecidableEq

/-- `SpfResolver`. An answer may depend on every call before it. -/
structure SpfResolver where
  lookupTxt : List Query -> Str -> Except Unit (List Str)
  lookupA : List Query -> Str -> Except Unit (List (BitVec 32))
  lookupAaaa : List Query -> Str -> Except Unit (List (BitVec 128))
  lookupMx : List Query -> Str -> Except Unit (List Str)

def defaultMaxLookups : Nat := 10

def defaultMaxVoidLookups : Nat := 2

def maxChainDepth : Nat := 10

inductive MechOutcome where
  | «match»
  | noMatch
  | abort (result : SpfResult)
deriving DecidableEq

/-- What the evaluation of a record comes to: its mechanisms, the hosts of an `mx`, and the
domain of its redirect. -/
inductive Term where
  | mechanism (m : Mechanism)
  | host (name : Str)
  | redirect (target : Str)
deriving DecidableEq

/-- The counters, with the terms come to, the calls made and the deepest recursion reached so
far. -/
structure Evaluator where
  lookups : Nat
  voidLookups : Nat
  terms : List Term
  calls : List Query
  deepest : Nat
deriving DecidableEq

namespace Evaluator

def new : Evaluator where
  lookups := 0
  voidLookups := 0
  terms := []
  calls := []
  deepest := 0

def asked (ev : Evaluator) (query : Query) : Evaluator :=
  { ev with calls := ev.calls ++ [query] }

def reached (ev : Evaluator) (term : Term) : Evaluator :=
  { ev with terms := ev.terms ++ [term] }

/-- The evaluator inside `check_host` at the given depth. -/
def entered (ev : Evaluator) (depth : Nat) : Evaluator :=
  { ev with deepest := max ev.deepest depth }

def chargeLookup (ev : Evaluator) : Except SpfResult Unit × Evaluator :=
  let ev := { ev with lookups := ev.lookups + 1 }
  if ev.lookups > defaultMaxLookups then
    (Except.error SpfResult.permError, ev)
  else
    (Except.ok (), ev)

def chargeVoid (ev : Evaluator) : Except SpfResult Unit × Evaluator :=
  let ev := { ev with voidLookups := ev.voidLookups + 1 }
  if ev.voidLookups > defaultMaxVoidLookups then
    (Except.error SpfResult.permError, ev)
  else
    (Except.ok (), ev)

def matchVoid (ev : Evaluator) : MechOutcome × Evaluator :=
  match ev.chargeVoid with
  | (Except.ok (), ev) => (MechOutcome.noMatch, ev)
  | (Except.error e, ev) => (MechOutcome.abort e, ev)

def matchAnswer {address : Type} (ev : Evaluator) (answer : Except Unit (List address))
    (accepts : address -> Bool) : MechOutcome × Evaluator :=
  match answer with
  | Except.error () => (MechOutcome.abort SpfResult.tempError, ev)
  | Except.ok ips =>
      if ips.isEmpty then ev.matchVoid
      else if ips.any accepts then (MechOutcome.match, ev)
      else (MechOutcome.noMatch, ev)

variable (resolver : SpfResolver) (ip : IpAddr)

def matchAddressLookup (ev : Evaluator) (target : Str) (cidr4 cidr6 : Nat) :
    MechOutcome × Evaluator :=
  match ip with
  | IpAddr.v4 v4 =>
      (ev.asked (Query.a target)).matchAnswer (resolver.lookupA ev.calls target)
        fun a => inCidr v4 a cidr4
  | IpAddr.v6 v6 =>
      (ev.asked (Query.aaaa target)).matchAnswer (resolver.lookupAaaa ev.calls target)
        fun a => inCidr v6 a cidr6

/-- The loop of `mx` over the hosts. -/
def matchHosts (cidr4 cidr6 : Nat) : List Str -> Evaluator -> MechOutcome × Evaluator
  | [], ev => (MechOutcome.noMatch, ev)
  | host :: hosts, ev =>
      match (ev.reached (Term.host host)).chargeLookup with
      | (Except.error e, ev) => (MechOutcome.abort e, ev)
      | (Except.ok (), ev) =>
          match matchAddressLookup resolver ip ev (normalize host) cidr4 cidr6 with
          | (MechOutcome.match, ev) => (MechOutcome.match, ev)
          | (MechOutcome.abort r, ev) => (MechOutcome.abort r, ev)
          | (MechOutcome.noMatch, ev) => matchHosts cidr4 cidr6 hosts ev

def includeOutcome : SpfResult -> MechOutcome
  | SpfResult.pass => MechOutcome.match
  | SpfResult.fail => MechOutcome.noMatch
  | SpfResult.softFail => MechOutcome.noMatch
  | SpfResult.neutral => MechOutcome.noMatch
  | SpfResult.tempError => MechOutcome.abort SpfResult.tempError
  | SpfResult.none => MechOutcome.abort SpfResult.permError
  | SpfResult.permError => MechOutcome.abort SpfResult.permError

/-- `eval_mechanism`; `recurse` is `check_host` one level deeper. -/
def evalMechanism (recurse : Evaluator -> Str -> SpfResult × Evaluator) (ev : Evaluator)
    (m : Mechanism) (currentDomain : Str) : MechOutcome × Evaluator :=
  match m with
  | Mechanism.all => (MechOutcome.match, ev)
  | Mechanism.include target =>
      match ev.chargeLookup with
      | (Except.error e, ev) => (MechOutcome.abort e, ev)
      | (Except.ok (), ev) =>
          let (result, ev) := recurse ev target
          (includeOutcome result, ev)
  | Mechanism.ip4 net cidr =>
      match ip with
      | IpAddr.v4 v4 =>
          (if inCidr v4 net cidr then MechOutcome.match else MechOutcome.noMatch, ev)
      | IpAddr.v6 _ => (MechOutcome.noMatch, ev)
  | Mechanism.ip6 net cidr =>
      match ip with
      | IpAddr.v6 v6 =>
          (if inCidr v6 net cidr then MechOutcome.match else MechOutcome.noMatch, ev)
      | IpAddr.v4 _ => (MechOutcome.noMatch, ev)
  | Mechanism.a domain cidr4 cidr6 =>
      match ev.chargeLookup with
      | (Except.error e, ev) => (MechOutcome.abort e, ev)
      | (Except.ok (), ev) =>
          matchAddressLookup resolver ip ev (normalize (domain.getD currentDomain)) cidr4 cidr6
  | Mechanism.mx domain cidr4 cidr6 =>
      match ev.chargeLookup with
      | (Except.error e, ev) => (MechOutcome.abort e, ev)
      | (Except.ok (), ev) =>
          let target := normalize (domain.getD currentDomain)
          match resolver.lookupMx ev.calls target with
          | Except.error () => (MechOutcome.abort SpfResult.tempError, ev.asked (Query.mx target))
          | Except.ok hosts =>
              if hosts.isEmpty then
                (ev.asked (Query.mx target)).matchVoid
              else
                matchHosts resolver ip cidr4 cidr6 hosts (ev.asked (Query.mx target))
  | Mechanism.ptr =>
      match ev.chargeLookup with
      | (Except.error e, ev) => (MechOutcome.abort e, ev)
      | (Except.ok (), ev) => (MechOutcome.noMatch, ev)
  | Mechanism.exists target =>
      match ev.chargeLookup with
      | (Except.error e, ev) => (MechOutcome.abort e, ev)
      | (Except.ok (), ev) =>
          (ev.asked (Query.a (normalize target))).matchAnswer
            (resolver.lookupA ev.calls (normalize target)) fun _ => true

/-- The loop of `check_host` over the mechanisms. -/
def evalMechanisms (recurse : Evaluator -> Str -> SpfResult × Evaluator)
    (currentDomain : Str) :
    List (Qualifier × Mechanism) -> Evaluator -> Option SpfResult × Evaluator
  | [], ev => (none, ev)
  | (q, m) :: rest, ev =>
      if mechanismHasMacro m then
        (some SpfResult.permError, ev)
      else
        match evalMechanism resolver ip recurse (ev.reached (Term.mechanism m)) m currentDomain with
        | (MechOutcome.match, ev) => (some (qualifierToResult q), ev)
        | (MechOutcome.noMatch, ev) => evalMechanisms recurse currentDomain rest ev
        | (MechOutcome.abort r, ev) => (some r, ev)

def evalRecord (recurse : Evaluator -> Str -> SpfResult × Evaluator) (currentDomain : Str)
    (parsed : ParsedRecord) (ev : Evaluator) : SpfResult × Evaluator :=
  match evalMechanisms resolver ip recurse currentDomain parsed.mechanisms ev with
  | (some result, ev) => (result, ev)
  | (none, ev) =>
      match parsed.redirect with
      | none => (SpfResult.neutral, ev)
      | some target =>
          if target.contains '%' then
            (SpfResult.permError, ev)
          else
            match (ev.reached (Term.redirect target)).chargeLookup with
            | (Except.error e, ev) => (e, ev)
            | (Except.ok (), ev) => recurse ev target

/-- `check_host` on the answer to the lookup of the record. -/
def evalAnswer (recurse : Evaluator -> Str -> SpfResult × Evaluator) (currentDomain : Str)
    (answer : Except Unit (List Str)) (ev : Evaluator) : SpfResult × Evaluator :=
  match answer with
  | Except.error () => (SpfResult.tempError, ev)
  | Except.ok txts =>
      match txts.filter isSpf1Record with
      | [] => (SpfResult.none, ev)
      | [record] =>
          match parseRecord record with
          | none => (SpfResult.permError, ev)
          | some parsed => evalRecord resolver ip recurse currentDomain parsed ev
      | _ => (SpfResult.permError, ev)

/-- `Evaluator::check_host`. The sender is handed on and never looked at. -/
def checkHost (sender : Str) (depth : Nat) (ev : Evaluator) (domain : Str) :
    SpfResult × Evaluator :=
  let ev := ev.entered depth
  if depth > maxChainDepth then
    (SpfResult.permError, ev)
  else
    let domainN := normalize domain
    if domainN.isEmpty then
      (SpfResult.none, ev)
    else
      evalAnswer resolver ip (fun ev target => checkHost sender (depth + 1) ev target) domainN
        (resolver.lookupTxt ev.calls domainN) (ev.asked (Query.txt domainN))
termination_by maxChainDepth + 1 - depth

end Evaluator

/-- `spf::check_host`, with the evaluator it leaves. -/
def checkHostRun (resolver : SpfResolver) (ip : IpAddr) (domain sender : Str) :
    SpfResult × Evaluator :=
  Evaluator.checkHost resolver ip sender 0 Evaluator.new domain

def checkHost (resolver : SpfResolver) (ip : IpAddr) (domain sender : Str) : SpfResult :=
  (checkHostRun resolver ip domain sender).1

end Spf
end Gateway
end Ephor
