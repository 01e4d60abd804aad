import Ephor.Foundation.GoText

/-!
# The screen of a direct endpoint's addresses

`tunnel/server/directprobe.go`: before the relay probes the endpoint that a box advertises, it
resolves the host and refuses every address that `isPublicIP` does not take for a public one.
-/

namespace Ephor
namespace Server
namespace DirectProbe

open Foundation

/-!
## Blocks of addresses

A `net.IP` is the 4 or 16 bytes of an address.
-/

def within : Bytes -> Nat -> Bytes -> Bool
  | p :: ps, bits, b :: bs =>
      if 8 <= bits then b == p && within ps (bits - 8) bs
      else b.toNat / 2 ^ (8 - bits) == p.toNat / 2 ^ (8 - bits)
  | [], _, _ => true
  | _ :: _, _, [] => false

def zeros (n : Nat) : Bytes := List.replicate n 0

def mapped : Bytes := zeros 10 ++ [0xFF, 0xFF]
def nat64 : Bytes := [0x00, 0x64, 0xFF, 0x9B] ++ zeros 8

/-- `IP.To4`: the four bytes of an IPv4 address, also of one that stands in sixteen. -/
def to4 (ip : Bytes) : Option Bytes :=
  if ip.length = 4 then some ip
  else if ip.length = 16 && within mapped 96 ip then some (ip.drop 12)
  else none

/-- A predicate of `net.IP`: one for IPv4 addresses and one for the others. -/
def oneOf (v4 v6 : Bytes -> Bool) (ip : Bytes) : Bool :=
  ((to4 ip).map v4).getD (v6 ip)

def inScope (scope : UInt8) (ip : Bytes) : Bool :=
  within [0xFF] 8 ip && ((ip.drop 1).head?.map (· &&& 0x0F) == some scope)

def isLoopback : Bytes -> Bool := oneOf (within [127] 8) (within (zeros 15 ++ [1]) 128)
def isUnspecified : Bytes -> Bool := oneOf (within (zeros 4) 32) (within (zeros 16) 128)
def isLinkLocalUnicast : Bytes -> Bool := oneOf (within [169, 254] 16) (within [0xFE, 0x80] 10)
def isMulticast : Bytes -> Bool := oneOf (within [224] 4) (within [0xFF] 8)
def isLinkLocalMulticast : Bytes -> Bool := oneOf (within [224, 0, 0] 24) (inScope 2)
def isInterfaceLocalMulticast : Bytes -> Bool := oneOf (fun _ => false) (inScope 1)

def isPrivate : Bytes -> Bool :=
  oneOf (fun ip => within [10] 8 ip || within [172, 16] 12 ip || within [192, 168] 16 ip)
    (within [0xFC] 7)

def isGlobalUnicast (ip : Bytes) : Bool :=
  (ip.length == 4 || ip.length == 16) &&
    !oneOf (within [255, 255, 255, 255] 32) (fun _ => false) ip && !isUnspecified ip &&
    !isLoopback ip && !isMulticast ip && !isLinkLocalUnicast ip

/-!
## The screen
-/

def isPublicV4 (v4 : Bytes) : Bool :=
  match to4 v4 with
  | some [a, b, c, d] =>
      if isLoopback [a, b, c, d] || isUnspecified [a, b, c, d] || isPrivate [a, b, c, d] ||
          isLinkLocalUnicast [a, b, c, d] || isLinkLocalMulticast [a, b, c, d] ||
          isMulticast [a, b, c, d] then
        false
      else if a == 100 && b >= 64 && b <= 127 then false
      else if a == 0 then false
      else if a == 192 && b == 0 && c == 0 then false
      else if a == 192 && b == 0 && c == 2 then false
      else if a == 198 && b == 51 && c == 100 then false
      else if a == 203 && b == 0 && c == 113 then false
      else if a == 198 && (b == 18 || b == 19) then false
      else if a >= 240 then false
      else true
  | _ => false

/-- The IPv4 address that an address of a transition mechanism carries. -/
def embeddedV4 (ip : Bytes) : Option Bytes :=
  if within nat64 96 ip then some (ip.drop 12)
  else if within [0x20, 0x02] 16 ip then some ((ip.drop 2).take 4)
  else if within [0x20, 0x01, 0x00, 0x00] 32 ip then some ((ip.drop 12).map (· ^^^ 0xFF))
  else none

def isPublicIP (ip : Bytes) : Bool :=
  if isLoopback ip || isUnspecified ip || isLinkLocalUnicast ip || isLinkLocalMulticast ip ||
      isMulticast ip || isInterfaceLocalMulticast ip then
    false
  else if isPrivate ip then false
  else
    match to4 ip with
    | some v4 => isPublicV4 v4
    | none =>
        if !isGlobalUnicast ip then false
        else
          match embeddedV4 ip with
          | some embedded => isPublicV4 embedded
          | none => !within [0x20, 0x01, 0x0D, 0xB8] 32 ip

inductive DialError where
  | badAddr
  | resolveFailed
  | nonPublic

/-- What the dialer connects to: a name that it resolves itself, or an address. -/
inductive Dialed where
  | named (addr : Bytes)
  | address (ip port : Bytes)

def guardedDial (lookupIPAddr : Bytes -> Option (List Bytes)) (allowInsecure : Bool)
    (addr : Bytes) : Except DialError Dialed :=
  match GoText.splitHostPort addr with
  | none => .error .badAddr
  | some (host, port) =>
      if allowInsecure then .ok (.named addr)
      else
        match lookupIPAddr host with
        | none | some [] => .error .resolveFailed
        | some (ip :: ips) =>
            if (ip :: ips).any fun ip => !isPublicIP ip then .error .nonPublic
            else .ok (.address ip port)

/-!
## Internal addresses
-/

def internalBlocks4 : List (Bytes × Nat) :=
  [([0], 8), ([10], 8), ([100, 64], 10), ([127], 8), ([169, 254], 16), ([172, 16], 12),
    ([192, 0, 0], 24), ([192, 0, 2], 24), ([192, 168], 16), ([198, 18], 15), ([198, 51, 100], 24),
    ([203, 0, 113], 24), ([224], 4), ([240], 4)]

/-- Loopback, unique-local, link-local, site-local, multicast, documentation, benchmarking and
discard-only addresses. -/
def internalBlocks6 : List (Bytes × Nat) :=
  [(zeros 16, 128), (zeros 15 ++ [1], 128), ([0xFC], 7), ([0xFE, 0x80], 10), ([0xFE, 0xC0], 10),
    ([0xFF], 8), ([0x20, 0x01, 0x0D, 0xB8], 32), ([0x3F, 0xFF, 0x00], 20),
    ([0x20, 0x01, 0x00, 0x02, 0x00, 0x00], 48), ([0x01] ++ zeros 7, 64)]

def localNat64 : Bytes := [0x00, 0x64, 0xFF, 0x9B, 0x00, 0x01]

/-- The blocks that are not reserved: the global unicast addresses, and those that carry an IPv4
address. -/
def assignedBlocks6 : List (Bytes × Nat) :=
  [([0x20], 3), (zeros 12, 96), (mapped, 96), (nat64, 96), (localNat64, 48), ([0xFC], 7),
    ([0xFE, 0x80], 10), ([0xFF], 8)]

def inBlock (blocks : List (Bytes × Nat)) (ip : Bytes) : Bool :=
  blocks.any fun block => within block.1 block.2 ip

@[simp] theorem inBlock_cons (block : Bytes × Nat) (blocks : List (Bytes × Nat)) (ip : Bytes) :
    inBlock (block :: blocks) ip = (within block.1 block.2 ip || inBlock blocks ip) := rfl

@[simp] theorem inBlock_nil (ip : Bytes) : inBlock [] ip = false := rfl

/-- The places of the IPv4 address behind a prefix of 48, 56, 64 and 96 bits: the byte in the
middle of the address is left out. -/
def layouts : List (List Nat) :=
  [[6, 7, 9, 10], [7, 9, 10, 11], [9, 10, 11, 12], [12, 13, 14, 15]]

def localEmbedded (ip : Bytes) : List Bytes :=
  if within localNat64 48 ip then layouts.map fun places => places.map (ip.getD · 0) else []

/-- The other blocks, the place of the IPv4 address and its mask: IPv4-compatible, IPv4-mapped,
NAT64, 6to4 and Teredo addresses. -/
def transitions : List ((Bytes × Nat) × Nat × UInt8) :=
  [((zeros 12, 96), 12, 0), ((mapped, 96), 12, 0), ((nat64, 96), 12, 0), (([0x20, 0x02], 16), 2, 0),
    (([0x20, 0x01, 0x00, 0x00], 32), 12, 0xFF)]

def embedded (ip : Bytes) : List Bytes :=
  ((transitions.filter fun t => within t.1.1 t.1.2 ip).map fun t =>
    ((ip.drop t.2.1).take 4).map (· ^^^ t.2.2)) ++ localEmbedded ip

def Internal (ip : Bytes) : Prop :=
  if ip.length = 4 then inBlock internalBlocks4 ip = true
  else inBlock internalBlocks6 ip = true ∨ inBlock assignedBlocks6 ip = false ∨
    exists v4, v4 ∈ embedded ip ∧ inBlock internalBlocks4 v4 = true

/-- The internal addresses that the screen takes for public ones. -/
def Missed (ip : Bytes) : Prop :=
  ip.length = 16 ∧ (inBlock assignedBlocks6 ip = false ∨ within [0x3F, 0xFF, 0x00] 20 ip = true ∨
    within [0x20, 0x01, 0x00, 0x02, 0x00, 0x00] 48 ip = true ∨
    (within (zeros 12) 96 ip = true ∧ within (zeros 16) 127 ip = false ∧
      inBlock internalBlocks4 (ip.drop 12) = true) ∨
    exists v4, v4 ∈ localEmbedded ip ∧ inBlock internalBlocks4 v4 = true)

/-!
## What the screen keeps out
-/

theorem exists_four {v4 : Bytes} (h : v4.length = 4) : exists a b c d, v4 = [a, b, c, d] := by
  match v4, h with
  | [a, b, c, d], _ => exact ⟨a, b, c, d, rfl⟩

theorem isPublicV4_eq {v4 : Bytes} (h : v4.length = 4) :
    isPublicV4 v4 = !inBlock internalBlocks4 v4 := by
  rcases exists_four h with ⟨a, b, c, d, rfl⟩
  have hshared : (64 <= b ∧ b <= 127) <-> b.toNat / 64 = 1 := by
    simp [UInt8.le_iff_toNat_le]
    omega
  have hbench : (b = 18 ∨ b = 19) <-> b.toNat / 2 = 9 := by
    simp [<- UInt8.toNat_inj]
    omega
  have hreserved : 240 <= a <-> a.toNat / 16 = 15 := by
    have hlt := a.toNat_lt
    simp [UInt8.le_iff_toNat_le]
    omega
  rw [Bool.eq_iff_iff]
  simp [isPublicV4, to4, isLoopback, isUnspecified, isPrivate, isLinkLocalUnicast,
    isLinkLocalMulticast, isMulticast, oneOf, inBlock, internalBlocks4, within, zeros,
    -UInt8.not_le, and_assoc]
  rw [<- not_and_or (a := 64 <= b), <- not_or (p := b = 18), hshared, hbench, hreserved]
  constructor
  · rintro ⟨_, _, _, _, _, _, _, _, _, _, _, _, _, _, _, _⟩
    simp [*]
  · rintro ⟨h0, _, _, _, _, _, _, _, _, _, _, _, _, _⟩
    have h224 : a ≠ 224 := by
      rintro rfl
      contradiction
    simp [*]

theorem length_of_to4 {ip v4 : Bytes} (h : to4 ip = some v4) : v4.length = 4 := by
  unfold to4 at h
  split_ifs at h with h4 h16
  · cases h
    exact h4
  · cases h
    simp at h16
    simp [h16.1]

theorem isPublicIP_of_to4 {ip v4 : Bytes} (h : to4 ip = some v4) :
    isPublicIP ip = isPublicV4 v4 := by
  have hself : to4 v4 = some v4 := by simp [to4, length_of_to4 h]
  have hpreds : forall f g, oneOf f g ip = oneOf f g v4 := by
    intro f g
    simp [oneOf, h, hself]
  have hscope : isInterfaceLocalMulticast ip = false := by
    simp [isInterfaceLocalMulticast, oneOf, h]
  rcases exists_four (length_of_to4 h) with ⟨a, b, c, d, rfl⟩
  simp only [isPublicIP, isPublicV4, h, hself, hscope, isLoopback, isUnspecified,
    isLinkLocalUnicast, isLinkLocalMulticast, isMulticast, isPrivate, hpreds]
  grind

theorem isPublicIP_of_v6 {ip : Bytes} (hlen : ip.length = 16) (h : to4 ip = none) :
    isPublicIP ip = (!inBlock [(zeros 16, 128), (zeros 15 ++ [1], 128), ([0xFC], 7),
      ([0xFE, 0x80], 10), ([0xFF], 8)] ip &&
      ((embeddedV4 ip).map isPublicV4).getD (!within [0x20, 0x01, 0x0D, 0xB8] 32 ip)) := by
  have hpreds : forall f g, oneOf f g ip = g ip := by
    intro f g
    simp [oneOf, h]
  have hscope : forall scope, inScope scope ip = true -> within [0xFF] 8 ip = true := by
    intro scope
    simp [inScope]
    tauto
  have h1 := hscope 1
  have h2 := hscope 2
  cases hembedded : embeddedV4 ip <;>
    simp only [isPublicIP, h, hembedded, isGlobalUnicast, hlen, inBlock, isLoopback,
      isUnspecified, isLinkLocalUnicast, isLinkLocalMulticast, isMulticast,
      isInterfaceLocalMulticast, isPrivate, hpreds, List.any_cons, List.any_nil, Option.map_none,
      Option.map_some, Option.getD_none, Option.getD_some] <;>
    grind

/-- `embeddedV4` finds the IPv4 address of a NAT64, 6to4 or Teredo address. -/
theorem embedded_eq {ip : Bytes} (hlen : ip.length = 16) :
    embedded ip = (if within (zeros 12) 96 ip || within mapped 96 ip then [ip.drop 12] else []) ++
      (embeddedV4 ip).toList ++ localEmbedded ip := by
  have htake : (ip.drop 12).take 4 = ip.drop 12 := List.take_of_length_le (by simp [hlen])
  have hmap : forall f : UInt8 -> UInt8, ((ip.map f).drop 12).take 4 = (ip.map f).drop 12 :=
    fun f => List.take_of_length_le (by simp [hlen])
  have hmapped : within mapped 96 ip = true -> within (zeros 12) 96 ip = false := by
    match ip, hlen with
    | [a, b, c, d, e, f, g, i, j, k, l, m, n, o, p, q], _ =>
        simp +contextual [within, mapped, zeros]
  have hnat64 : within nat64 96 ip = true -> within [0x20, 0x02] 16 ip = false ∧
      within [0x20, 0x01, 0x00, 0x00] 32 ip = false ∧ within (zeros 12) 96 ip = false ∧
      within mapped 96 ip = false := by
    match ip, hlen with
    | [a, b, c, d, e, f, g, i, j, k, l, m, n, o, p, q], _ =>
        simp +contextual [within, nat64, mapped, zeros]
  have hsix : within [0x20, 0x02] 16 ip = true ->
      within [0x20, 0x01, 0x00, 0x00] 32 ip = false := by
    match ip, hlen with
    | [a, b, c, d, e, f, g, i, j, k, l, m, n, o, p, q], _ => simp +contextual [within]
  unfold embedded embeddedV4
  congr 1
  by_cases h64 : within nat64 96 ip = true
  · simp [transitions, h64, hnat64 h64, htake]
  · by_cases h6 : within [0x20, 0x02] 16 ip = true
    · cases hm : within mapped 96 ip <;> cases hc : within (zeros 12) 96 ip <;>
        simp_all [transitions]
    · cases hm : within mapped 96 ip <;> cases hc : within (zeros 12) 96 ip <;>
        cases ht : within [0x20, 0x01, 0x00, 0x00] 32 ip <;> simp_all [transitions]

theorem screen_of_v6 {ip : Bytes} (hlen : ip.length = 16) (h : to4 ip = none) :
    (isPublicIP ip = true -> ¬ Internal ip) <-> ¬ Missed ip := by
  have hmapped : within mapped 96 ip = false := by
    simpa [to4, hlen] using h
  rw [isPublicIP_of_v6 hlen h, Internal, Missed, if_neg (by omega), embedded_eq hlen]
  clear h
  have h4 : forall a b c d : UInt8,
      isPublicV4 [a, b, c, d] = !inBlock internalBlocks4 [a, b, c, d] :=
    fun a b c d => isPublicV4_eq rfl
  match ip, hlen with
  | [a, b, c, d, e, f, g, i, j, k, l, m, n, o, p, q], _ =>
      generalize hip : [a, b, c, d, e, f, g, i, j, k, l, m, n, o, p, q] = ip at hmapped ⊢
      by_cases hlocal : within localNat64 48 ip = true
      · subst hip
        simp [within, localNat64] at hlocal
        rcases hlocal with ⟨rfl, rfl, rfl, rfl, rfl, rfl⟩
        simp [embeddedV4, localEmbedded, internalBlocks6, assignedBlocks6, localNat64,
          mapped, nat64, zeros, within]
      by_cases hnat64 : within nat64 96 ip = true
      · subst hip
        simp [within, nat64, zeros] at hnat64
        rcases hnat64 with ⟨rfl, rfl, rfl, rfl, rfl, rfl, rfl, rfl, rfl, rfl, rfl, rfl⟩
        simp [embeddedV4, localEmbedded, internalBlocks6, assignedBlocks6, localNat64,
          mapped, nat64, zeros, within, h4]
      by_cases hcompat : within (zeros 12) 96 ip = true
      · subst hip
        simp [within, zeros] at hcompat
        rcases hcompat with ⟨rfl, rfl, rfl, rfl, rfl, rfl, rfl, rfl, rfl, rfl, rfl, rfl⟩
        have hq : q = 0 ∨ q = 1 <-> q.toNat < 2 := by
          simp [<- UInt8.toNat_inj]
          omega
        simp [embeddedV4, localEmbedded, internalBlocks6, assignedBlocks6, localNat64,
          mapped, nat64, zeros, within]
        grind
      by_cases hteredo : within [0x20, 0x01, 0x00, 0x00] 32 ip = true
      · subst hip
        simp [within] at hteredo
        rcases hteredo with ⟨rfl, rfl, rfl, rfl⟩
        simp [embeddedV4, localEmbedded, internalBlocks6, assignedBlocks6, localNat64,
          mapped, nat64, zeros, within, h4]
      by_cases hsix : within [0x20, 0x02] 16 ip = true
      · subst hip
        simp [within] at hsix
        rcases hsix with ⟨rfl, rfl⟩
        simp [embeddedV4, localEmbedded, internalBlocks6, assignedBlocks6, localNat64,
          mapped, nat64, zeros, within, h4]
      have hlen : ip.length = 16 := hip ▸ rfl
      have hzero : within (zeros 16) 128 ip = false := by
        rw [<- Bool.not_eq_true]
        subst hip
        simp_all [within, zeros]
      have hone : within (zeros 15 ++ [1]) 128 ip = false := by
        rw [<- Bool.not_eq_true]
        subst hip
        simp_all [within, zeros]
      have hfirst : forall p ps bits, within (p :: ps) (bits + 8) ip = true ->
          a.toNat = p.toNat := by
        subst hip
        simp +contextual [within]
      have hsecond : forall p, within [0xFE, p] 10 ip = true -> b.toNat / 64 = p.toNat / 64 := by
        subst hip
        simp +contextual [within]
      have hlink : within [0xFE, 0x80] 10 ip = true -> a.toNat = 254 ∧ b.toNat / 64 = 2 :=
        fun h => ⟨hfirst _ _ 2 h, hsecond _ h⟩
      have hsite : within [0xFE, 0xC0] 10 ip = true -> a.toNat = 254 ∧ b.toNat / 64 = 3 :=
        fun h => ⟨hfirst _ _ 2 h, hsecond _ h⟩
      have hunique : within [0xFC] 7 ip = true -> a.toNat / 2 = 126 := by
        subst hip
        simp [within]
      have hglobal : within [0x20] 3 ip = true <-> a.toNat / 32 = 1 := by
        subst hip
        simp [within]
      have hmulticast : within [0xFF] 8 ip = true -> a.toNat = 255 := hfirst _ _ 0
      have hdoc : within [0x20, 0x01, 0x0D, 0xB8] 32 ip = true -> a.toNat = 32 := hfirst _ _ 24
      have hdoc20 : within [0x3F, 0xFF, 0x00] 20 ip = true -> a.toNat = 63 := hfirst _ _ 12
      have hbench : within [0x20, 0x01, 0x00, 0x02, 0x00, 0x00] 48 ip = true -> a.toNat = 32 :=
        hfirst _ _ 40
      have hdocs : within [0x20, 0x01, 0x0D, 0xB8] 32 ip = true ->
          within [0x3F, 0xFF, 0x00] 20 ip = false ∧
            within [0x20, 0x01, 0x00, 0x02, 0x00, 0x00] 48 ip = false := by
        subst hip
        simp +contextual [within]
      have hdiscard : within (0x01 :: zeros 7) 64 ip = true -> a.toNat = 1 := hfirst _ _ 56
      have hapart : within [0x20] 3 ip = true ->
          (within [0xFC] 7 ip || within [0xFE, 0x80] 10 ip || within [0xFE, 0xC0] 10 ip ||
            within [0xFF] 8 ip || within (0x01 :: zeros 7) 64 ip) = false := by
        grind
      have hother : within [0x20] 3 ip = false ->
          (within [0x20, 0x01, 0x0D, 0xB8] 32 ip || within [0x3F, 0xFF, 0x00] 20 ip ||
            within [0x20, 0x01, 0x00, 0x02, 0x00, 0x00] 48 ip) = false := by
        grind
      simp at hapart hother
      simp [embeddedV4, localEmbedded, internalBlocks6, assignedBlocks6, hlocal, hnat64,
        hcompat, hteredo, hsix, hmapped, hzero, hone, hlen]
      cases hg : within [0x20] 3 ip with
      | true =>
          simp [hapart hg]
          cases hd : within [0x20, 0x01, 0x0D, 0xB8] 32 ip with
          | true => simp [hdocs hd]
          | false => simp
      | false =>
          simp [hother hg]
          cases within [0xFC] 7 ip <;> cases within [0xFE, 0x80] 10 ip <;>
            cases within [0xFF] 8 ip <;> simp

theorem screen_of_to4 {ip v4 : Bytes} (h : to4 ip = some v4) :
    (isPublicIP ip = true -> ¬ Internal ip) <-> ¬ Missed ip := by
  rw [isPublicIP_of_to4 h, isPublicV4_eq (length_of_to4 h)]
  unfold to4 at h
  split_ifs at h with h4 h16
  · cases h
    simp [Internal, Missed, h4]
  · cases h
    rw [Bool.and_eq_true, decide_eq_true_eq] at h16
    match ip, h16 with
    | [a, b, c, d, e, f, g, i, j, k, l, m, n, o, p, q], h16 =>
        have hbytes := h16.2
        simp [within, mapped, zeros] at hbytes
        rcases hbytes with ⟨rfl, rfl, rfl, rfl, rfl, rfl, rfl, rfl, rfl, rfl, rfl, rfl⟩
        simp [Internal, Missed, embedded_eq, embeddedV4, localEmbedded, internalBlocks6,
          assignedBlocks6, localNat64, mapped, nat64, zeros, within]

/--
The screen keeps internal addresses out except where one is missed, and the dialer connects to the
first address of an answer all of which passed the screen.
-/
theorem probe_target_is_public_iff (ip : Bytes)
    (lookupIPAddr : Bytes -> Option (List Bytes)) (addr : Bytes) (dialed : Dialed) :
    ((isPublicIP ip = true -> ¬ Internal ip) <-> ¬ Missed ip) ∧
    (guardedDial lookupIPAddr false addr = .ok dialed ->
      exists host port ips ip, GoText.splitHostPort addr = some (host, port) ∧
        dialed = .address ip port ∧ lookupIPAddr host = some ips ∧ ips.head? = some ip ∧
        forall other, other ∈ ips -> isPublicIP other = true) := by
  constructor
  · cases h : to4 ip with
    | some v4 => exact screen_of_to4 h
    | none =>
        by_cases hlen : ip.length = 16
        · exact screen_of_v6 hlen h
        · have hnot : isGlobalUnicast ip = false := by
            have h4 : ip.length ≠ 4 := by
              intro heq
              simp [to4, heq] at h
            simp [isGlobalUnicast, hlen, h4]
          simp [isPublicIP, h, hnot, Missed, hlen]
  · intro hdial
    unfold guardedDial at hdial
    split at hdial
    · cases hdial
    · rename_i host port hsplit
      simp only [Bool.false_eq_true, if_false] at hdial
      split at hdial
      · cases hdial
      · cases hdial
      · rename_i ip ips hlookup
        split_ifs at hdial with hany
        cases hdial
        exact ⟨host, port, ip :: ips, ip, hsplit, rfl, hlookup, rfl, by simpa using hany⟩

theorem public_v4_is_not_internal : ¬ Internal [8, 8, 8, 8] :=
  (probe_target_is_public_iff _ (fun _ => none) [] (.named [])).1.mpr
    (fun hmissed => absurd hmissed.1 (by decide)) (by decide)

theorem site_local_is_dialed :
    let ip : Bytes := [0xFE, 0xC0] ++ zeros 13 ++ [1]
    isPublicIP ip = true ∧ Internal ip ∧
      guardedDial (fun _ => some [ip]) false (GoText.lit "box.example:443") =
        .ok (.address ip (GoText.lit "443")) := by
  refine ⟨by decide, ?_, by rfl⟩
  exact Or.inl (by decide)

end DirectProbe
end Server
end Ephor
