import Ephor.Foundation.EscapedPair
import Ephor.Gateway.AliasAllocator

/-!
# Forwarded addresses

`pier-gateway/src/forwarded_addr.rs`: the address a legacy sender used, carried as one local
part.  Both halves are escaped, so that the dot between them is the only bare one.
-/

namespace Ephor
namespace Gateway
namespace ForwardedAddr

open Foundation
open Foundation.EscapedPair
open Foundation.Text

inductive ForwardedAddrError where
  | invalidLocal (name : Str)
  | invalidDomain (domain : Str)
  | tooLong (length : Nat)
deriving DecidableEq

def maxLocalpartLen : Nat := 64

def hyphen : UInt8 := 45

def dot : UInt8 := 46

def escapeInto (s : Str) : Str :=
  (escape hyphen dot (utf8 s)).map asciiChar

def isLocalChar (c : Char) : Bool :=
  c.isAlphanum || c == '.' || c == '-' || c == '_' || c == '+'

def isValidLocal (lp : Str) : Bool :=
  !(lp.isEmpty || maxLocalpartLen < (utf8 lp).length || lp.head? == some '.' ||
      lp.getLast? == some '.' || decide (['.', '.'] <:+: lp)) &&
    lp.all isLocalChar

def isValidDomain (domain : Str) : Bool :=
  !(domain.isEmpty || 253 < (utf8 domain).length) && (domain.splitOn '.').all isValidDnsLabel

def encode (localPart nativeDomain : Str) : Except ForwardedAddrError Str :=
  let localPart := lower localPart
  let nativeDomain := lower nativeDomain
  if isValidLocal localPart then
    if isValidDomain nativeDomain then
      let out := escapeInto localPart ++ '.' :: escapeInto nativeDomain
      if maxLocalpartLen < (utf8 out).length then
        Except.error (ForwardedAddrError.tooLong (utf8 out).length)
      else
        Except.ok out
    else
      Except.error (ForwardedAddrError.invalidDomain nativeDomain)
  else
    Except.error (ForwardedAddrError.invalidLocal localPart)

/-- `decode`; the bytes of both halves become characters one by one. -/
def decode (gatewayLocalpart : Str) : Option (Str × Str) := do
  let s := lower gatewayLocalpart
  let (localBytes, rest) ← scan hyphen dot (utf8 s)
  let domainBytes ← unescape hyphen dot rest
  let localPart := localBytes.map asciiChar
  let nativeDomain := domainBytes.map asciiChar
  if isValidLocal localPart && isValidDomain nativeDomain then
    -- The pair is given back only if it is written as the input is.
    if encode localPart nativeDomain = Except.ok s then some (localPart, nativeDomain) else none
  else
    none

/-!
# What both halves are made of
-/

variable {c : Char} {s localPart nativeDomain : Str}

theorem lt_of_isAlphanum (h : c.isAlphanum = true) : c.toNat < 128 := by
  have hbounds := isAlphanum_bounds h
  omega

theorem isLocalChar_lt (h : isLocalChar c = true) : c.toNat < 128 := by
  simp only [isLocalChar, Bool.or_eq_true, beq_iff_eq] at h
  rcases h with (((h | h) | h) | h) | h
  · exact lt_of_isAlphanum h
  all_goals
    rw [h]
    decide

structure IsHalf (s : Str) : Prop where
  chars : forall c, c ∈ s -> isLocalChar c = true
  nonempty : s ≠ []
  last : s.getLast? ≠ some '.'

theorem IsHalf.ascii (h : IsHalf s) : forall c, c ∈ s -> c.toNat < 128 :=
  fun c hc => isLocalChar_lt (h.chars c hc)

theorem isHalf_of_isValidLocal {lp : Str} (h : isValidLocal lp = true) : IsHalf lp := by
  simp only [isValidLocal, Bool.and_eq_true, Bool.not_eq_true', Bool.or_eq_false_iff,
    List.all_eq_true, beq_eq_false_iff_ne, List.isEmpty_eq_false_iff] at h
  exact ⟨h.2, h.1.1.1.1.1, h.1.1.2⟩

theorem isLocalChar_of_label {label : Str} (h : isValidDnsLabel label = true) (hc : c ∈ label) :
    isLocalChar c = true := by
  simp only [isValidDnsLabel, Bool.and_eq_true, List.all_eq_true] at h
  have hchar := h.2 c hc
  rw [Bool.or_eq_true] at hchar
  rw [isLocalChar]
  rcases hchar with halnum | hhyphen
  · rw [halnum]
    rfl
  · rw [hhyphen]
    simp

theorem label_ne_nil {label : Str} (h : isValidDnsLabel label = true) : label ≠ [] := by
  intro hnil
  rw [hnil] at h
  cases h

theorem isHalf_of_labels {domain : Str}
    (h : forall label, label ∈ domain.splitOn '.' -> isValidDnsLabel label = true) :
    IsHalf domain := by
  induction domain using pieces_induction '.' with
  | last label hdot =>
      rw [List.splitOn_eq_singleton hdot] at h
      have hlabel := h label (List.mem_singleton_self label)
      refine ⟨fun c hc => isLocalChar_of_label hlabel hc, label_ne_nil hlabel, ?_⟩
      intro hlast
      exact hdot (List.mem_of_getLast? hlast)
  | more label rest hdot ih =>
      rw [List.splitOn_append_cons_self_of_not_mem hdot] at h
      have hlabel := h label List.mem_cons_self
      have hrest := ih (List.forall_mem_cons.mp h).2
      refine ⟨?_, List.append_ne_nil_of_right_ne_nil label (List.cons_ne_nil '.' rest), ?_⟩
      · intro c hc
        rcases List.mem_append.mp hc with hc | hc
        · exact isLocalChar_of_label hlabel hc
        · rcases List.mem_cons.mp hc with hc | hc
          · rw [hc]
            rfl
          · exact hrest.chars c hc
      · rw [List.getLast?_append_of_ne_nil label (List.cons_ne_nil '.' rest),
          List.getLast?_cons_of_ne_nil hrest.nonempty]
        exact hrest.last

theorem isHalf_of_isValidDomain {domain : Str} (h : isValidDomain domain = true) :
    IsHalf domain := by
  simp only [isValidDomain, Bool.and_eq_true, List.all_eq_true] at h
  exact isHalf_of_labels h.2

/-!
# Bytes and characters
-/

theorem asciiChar_ofNat (h : c.toNat < 128) : asciiChar (UInt8.ofNat c.toNat) = c := by
  rw [asciiChar, UInt8.toNat_ofNat', Nat.mod_eq_of_lt (by omega), Char.ofNat_toNat]

theorem utf8_escape (h : forall c, c ∈ s -> c.toNat < 128) :
    utf8 (escape '-' '.' s) = escape hyphen dot (utf8 s) := by
  induction s with
  | nil => rfl
  | cons c s ih =>
      have hc := h c List.mem_cons_self
      have hletter : utf8 (escapeLetter '-' '.' c) =
          escapeLetter hyphen dot (UInt8.ofNat c.toNat) := by
        by_cases hhyphen : c = '-'
        · rw [hhyphen]
          rfl
        · by_cases hdot : c = '.'
          · rw [hdot]
            rfl
          · have hne : forall x : Char, x.toNat < 128 -> c ≠ x ->
                UInt8.ofNat c.toNat ≠ UInt8.ofNat x.toNat := by
              intro x hx hcx heq
              apply hcx
              rw [<- asciiChar_ofNat hc, heq, asciiChar_ofNat hx]
            have hmark : UInt8.ofNat c.toNat ≠ hyphen := hne '-' (by decide) hhyphen
            have hsep : UInt8.ofNat c.toNat ≠ dot := hne '.' (by decide) hdot
            rw [escapeLetter_other hhyphen hdot, escapeLetter_other hmark hsep, utf8,
              List.flatMap_singleton, utf8EncodeChar_ascii hc]
      have hcons : utf8 (c :: s) = UInt8.ofNat c.toNat :: utf8 s := by
        rw [utf8, List.flatMap_cons, utf8EncodeChar_ascii hc]
        rfl
      rw [escape_cons, utf8_append, hletter, ih (List.forall_mem_cons.mp h).2,
        hcons, escape_cons]

theorem escapeInto_eq (h : forall c, c ∈ s -> c.toNat < 128) : escapeInto s = escape '-' '.' s := by
  rw [escapeInto, <- utf8_escape h]
  apply map_asciiChar_utf8
  intro c hc
  rcases mem_escape hc with hc | hc
  · exact h c hc
  · rw [hc]
    decide

theorem lower_escape (s : Str) : lower (escape '-' '.' s) = escape '-' '.' (lower s) := by
  induction s with
  | nil => rfl
  | cons c s ih =>
      have hletter : lower (escapeLetter '-' '.' c) = escapeLetter '-' '.' c.toLower := by
        by_cases hhyphen : c = '-'
        · rw [hhyphen]
          rfl
        · by_cases hdot : c = '.'
          · rw [hdot]
            rfl
          · rw [escapeLetter_other hhyphen hdot, escapeLetter_other]
            · rfl
            · exact fun h => hhyphen ((toLower_eq_iff (by decide)).mp h)
            · exact fun h => hdot ((toLower_eq_iff (by decide)).mp h)
      have hlower : lower (c :: s) = c.toLower :: lower s := rfl
      rw [escape_cons, lower, List.map_append, <- lower, <- lower, hletter, ih, hlower,
        escape_cons]

/-!
# Legal local parts
-/

/-- `atext` of RFC 5322. -/
def isAtext (c : Char) : Bool :=
  c.isAlphanum || "!#$%&'*+-/=?^_\x60\x7b|\x7d~".toList.contains c

def IsDotAtom (s : Str) : Prop :=
  forall atom, atom ∈ s.splitOn '.' -> atom ≠ [] ∧ forall c, c ∈ atom -> isAtext c = true

/-- The same, read from the left; the flag says that the atom has a character. -/
def readsAtoms : Bool -> Str -> Bool
  | started, [] => started
  | started, c :: rest =>
      if c = '.' then started && readsAtoms false rest else isAtext c && readsAtoms true rest

theorem isDotAtom_of_readsAtoms {atom : Str} (hdot : '.' ∉ atom)
    (hatom : forall c, c ∈ atom -> isAtext c = true) (h : readsAtoms (!atom.isEmpty) s = true) :
    IsDotAtom (atom ++ s) := by
  induction s generalizing atom with
  | nil =>
      rw [readsAtoms, Bool.not_eq_true', List.isEmpty_eq_false_iff] at h
      rw [List.append_nil, IsDotAtom, List.splitOn_eq_singleton hdot]
      intro piece hpiece
      rw [List.mem_singleton.mp hpiece]
      exact ⟨h, hatom⟩
  | cons c rest ih =>
      rw [readsAtoms] at h
      split at h
      · rename_i hc
        rw [Bool.and_eq_true, Bool.not_eq_true', List.isEmpty_eq_false_iff] at h
        rw [hc, IsDotAtom, List.splitOn_append_cons_self_of_not_mem hdot]
        intro piece hpiece
        rcases List.mem_cons.mp hpiece with hpiece | hpiece
        · rw [hpiece]
          exact ⟨h.1, hatom⟩
        · have hempty : '.' ∉ ([] : Str) := List.not_mem_nil
          exact ih hempty (fun x hx => absurd hx List.not_mem_nil) h.2 piece hpiece
      · rename_i hc
        rw [Bool.and_eq_true] at h
        have hmore : '.' ∉ atom ++ [c] := by
          simp [hdot, Ne.symm hc]
        have hatoms : forall x, x ∈ atom ++ [c] -> isAtext x = true := by
          intro x hx
          rcases List.mem_append.mp hx with hx | hx
          · exact hatom x hx
          · rw [List.mem_singleton.mp hx]
            exact h.1
        have hstarted : (!(atom ++ [c]).isEmpty) = true := by
          cases atom <;> rfl
        have hrest := ih hmore hatoms (by rw [hstarted]; exact h.2)
        rwa [List.append_assoc] at hrest

def endsAtom (started : Bool) (s : Str) : Bool :=
  s.foldl (fun _ c => c != '.') started

theorem endsAtom_of_isHalf (h : IsHalf s) (started : Bool) : endsAtom started s = true := by
  have hsplit := List.dropLast_append_getLast h.nonempty
  have hlast : s.getLast h.nonempty ≠ '.' := by
    intro hdot
    exact h.last (by rw [List.getLast?_eq_some_getLast h.nonempty, hdot])
  rw [endsAtom, <- hsplit, List.foldl_append]
  exact bne_iff_ne.mpr hlast

theorem isAtext_of_isLocalChar (h : isLocalChar c = true) (hdot : c ≠ '.') : isAtext c = true := by
  simp only [isLocalChar, Bool.or_eq_true, beq_iff_eq] at h
  rcases h with (((h | h) | h) | h) | h
  · rw [isAtext, h]
    rfl
  · exact absurd h hdot
  all_goals
    rw [h]
    decide

theorem readsAtoms_escape (h : forall c, c ∈ s -> isLocalChar c = true) (started : Bool)
    (tail : Str) :
    readsAtoms started (escape '-' '.' s ++ tail) = readsAtoms (endsAtom started s) tail := by
  induction s generalizing started with
  | nil => rfl
  | cons c s ih =>
      have hletter : forall rest, readsAtoms started (escapeLetter '-' '.' c ++ rest) =
          readsAtoms (c != '.') rest := by
        intro rest
        by_cases hhyphen : c = '-'
        · rw [hhyphen]
          rfl
        · by_cases hdot : c = '.'
          · rw [hdot]
            rfl
          · rw [escapeLetter_other hhyphen hdot, List.singleton_append, readsAtoms, if_neg hdot,
              isAtext_of_isLocalChar (h c List.mem_cons_self) hdot, bne_iff_ne.mpr hdot]
            rfl
      rw [escape_cons, List.append_assoc, hletter, ih (List.forall_mem_cons.mp h).2]
      rfl

theorem isDotAtom_join (hlocal : IsHalf localPart) (hdomain : IsHalf nativeDomain) :
    IsDotAtom (escape '-' '.' localPart ++ '.' :: escape '-' '.' nativeDomain) := by
  have hreads : readsAtoms false
      (escape '-' '.' localPart ++ '.' :: escape '-' '.' nativeDomain) = true := by
    have hend := readsAtoms_escape hdomain.chars false []
    rw [List.append_nil, endsAtom_of_isHalf hdomain] at hend
    rw [readsAtoms_escape hlocal.chars, endsAtom_of_isHalf hlocal, readsAtoms, if_pos rfl, hend]
    rfl
  have hempty : '.' ∉ ([] : Str) := List.not_mem_nil
  have hatoms := isDotAtom_of_readsAtoms hempty (fun x hx => absurd hx List.not_mem_nil) hreads
  rwa [List.nil_append] at hatoms

/-!
# Encoding and decoding
-/

def join (localPart nativeDomain : Str) : Str :=
  escape '-' '.' localPart ++ '.' :: escape '-' '.' nativeDomain

theorem encode_eq_ok {out : Str} :
    encode localPart nativeDomain = Except.ok out <->
      isValidLocal (lower localPart) = true ∧ isValidDomain (lower nativeDomain) = true ∧
        out = join (lower localPart) (lower nativeDomain) ∧
        (utf8 out).length <= maxLocalpartLen := by
  rw [encode]
  by_cases hlocal : isValidLocal (lower localPart) = true
  · by_cases hdomain : isValidDomain (lower nativeDomain) = true
    · have hjoin : escapeInto (lower localPart) ++ '.' :: escapeInto (lower nativeDomain) =
          join (lower localPart) (lower nativeDomain) := by
        rw [escapeInto_eq (isHalf_of_isValidLocal hlocal).ascii,
          escapeInto_eq (isHalf_of_isValidDomain hdomain).ascii]
        rfl
      dsimp only
      rw [if_pos hlocal, if_pos hdomain, hjoin]
      split
      · rename_i hlong
        constructor
        · intro h
          cases h
        · intro h
          rw [h.2.2.1] at h
          exact absurd h.2.2.2 (Nat.not_le_of_lt hlong)
      · rename_i hfits
        constructor
        · intro h
          cases h
          exact ⟨hlocal, hdomain, rfl, Nat.le_of_not_lt hfits⟩
        · intro h
          rw [h.2.2.1]
    · dsimp only
      rw [if_pos hlocal, if_neg hdomain]
      simp [hdomain]
  · dsimp only
    rw [if_neg hlocal]
    simp [hlocal]

theorem lower_join (localPart nativeDomain : Str) :
    lower (join localPart nativeDomain) = join (lower localPart) (lower nativeDomain) := by
  rw [join, lower, List.map_append, List.map_cons, <- lower, <- lower, lower_escape, lower_escape]
  rfl

theorem decode_of_encode {out : Str} (h : encode localPart nativeDomain = Except.ok out)
    (hs : lower s = out) : decode s = some (lower localPart, lower nativeDomain) := by
  rcases encode_eq_ok.mp h with ⟨hlocal, hdomain, hout, hfits⟩
  have hlocalAscii := (isHalf_of_isValidLocal hlocal).ascii
  have hdomainAscii := (isHalf_of_isValidDomain hdomain).ascii
  have hne : dot ≠ hyphen := by decide
  have hdot : utf8 ('.' :: escape '-' '.' (lower nativeDomain)) =
      dot :: escape hyphen dot (utf8 (lower nativeDomain)) := by
    rw [<- utf8_escape hdomainAscii]
    rfl
  have hbytes : scan hyphen dot (utf8 out) =
      some (utf8 (lower localPart), escape hyphen dot (utf8 (lower nativeDomain))) := by
    rw [hout, join, utf8_append, utf8_escape hlocalAscii, hdot, scan_escape hne]
  have hagain : encode (lower localPart) (lower nativeDomain) = Except.ok out := by
    rw [encode_eq_ok, lower_lower, lower_lower]
    exact ⟨hlocal, hdomain, hout, hfits⟩
  rw [decode, hs]
  simp only [bind, Option.bind]
  rw [hbytes]
  dsimp only
  rw [unescape_escape hne]
  dsimp only
  rw [map_asciiChar_utf8 hlocalAscii, map_asciiChar_utf8 hdomainAscii, hlocal, hdomain, hagain,
    if_pos rfl]
  rfl

theorem encode_of_decode (h : decode s = some (localPart, nativeDomain)) :
    encode localPart nativeDomain = Except.ok (lower s) := by
  rw [decode] at h
  rcases Option.bind_eq_some_iff.mp h with ⟨⟨localBytes, rest⟩, -, h⟩
  rcases Option.bind_eq_some_iff.mp h with ⟨domainBytes, -, h⟩
  dsimp only at h
  split at h
  · split at h
    · rename_i hcanonical
      cases h
      exact hcanonical
    · cases h
  · cases h

theorem decode_eq_none (hdot : '.' ∉ s) (hhyphen : '-' ∉ s) : decode s = none := by
  have hbyte : forall c : Char, c.toNat < 65 -> c ∉ s -> UInt8.ofNat c.toNat ∉ utf8 (lower s) := by
    intro c hc hnot hmem
    have hchar := mem_of_mem_utf8 (by
      rw [UInt8.toNat_ofNat']
      omega) hmem
    rw [asciiChar_ofNat (Nat.lt_trans hc (by decide))] at hchar
    rcases List.mem_map.mp hchar with ⟨x, hx, hlower⟩
    rw [toLower_eq_iff hc] at hlower
    exact hnot (hlower ▸ hx)
  have hdots : dot ∉ utf8 (lower s) := hbyte '.' (by decide) hdot
  have hhyphens : hyphen ∉ utf8 (lower s) := hbyte '-' (by decide) hhyphen
  rw [decode]
  simp only [bind, Option.bind]
  rw [scan_eq_none hdots hhyphens]

/-!
# Tokens
-/

theorem decode_token (input : Bytes) : decode (encodeBase32Lower input) = none := by
  apply decode_eq_none
  · intro h
    exact absurd (mem_encodeBase32Lower h) (by decide)
  · intro h
    exact absurd (mem_encodeBase32Lower h) (by decide)

/-- Encoding and decoding are inverse to each other up to the case of letters, and the encodings
are legal local parts that no minted token can be taken for.  What is encoded is a valid pair
that fits. -/
theorem forwarded_bijection :
    (forall localPart nativeDomain out, encode localPart nativeDomain = Except.ok out ->
      IsDotAtom out ∧ (utf8 out).length <= 64 ∧
        forall s, eqIgnoreCase s out = true ->
          decode s = some (lower localPart, lower nativeDomain)) ∧
    (forall localPart nativeDomain localPart' nativeDomain' out,
      encode localPart nativeDomain = Except.ok out ->
      encode localPart' nativeDomain' = Except.ok out ->
        (lower localPart, lower nativeDomain) = (lower localPart', lower nativeDomain')) ∧
    (forall s localPart nativeDomain, decode s = some (localPart, nativeDomain) ->
      encode localPart nativeDomain = Except.ok (lower s)) ∧
    (forall rows row draws token rows',
      GatewayAliasMap.mintRow rows row draws = some (token, rows') -> decode token = none) ∧
    forall localPart nativeDomain out, encode localPart nativeDomain = Except.ok out <->
      isValidLocal (lower localPart) = true ∧ isValidDomain (lower nativeDomain) = true ∧
        out = join (lower localPart) (lower nativeDomain) ∧
        (utf8 out).length <= maxLocalpartLen := by
  have hlower : forall localPart nativeDomain out,
      encode localPart nativeDomain = Except.ok out -> lower out = out := by
    intro localPart nativeDomain out h
    rw [(encode_eq_ok.mp h).2.2.1, lower_join, lower_lower, lower_lower]
  refine ⟨?_, ?_, fun s localPart nativeDomain h => encode_of_decode h, ?_,
    fun localPart nativeDomain out => encode_eq_ok⟩
  · intro localPart nativeDomain out h
    rcases encode_eq_ok.mp h with ⟨hlocal, hdomain, hout, hfits⟩
    refine ⟨?_, hfits, ?_⟩
    · rw [hout]
      exact isDotAtom_join (isHalf_of_isValidLocal hlocal) (isHalf_of_isValidDomain hdomain)
    · intro s hs
      exact decode_of_encode h ((lower_eq_of_eqIgnoreCase hs).trans (hlower _ _ _ h))
  · intro localPart nativeDomain localPart' nativeDomain' out h h'
    have hout := hlower _ _ _ h
    exact Option.some.inj ((decode_of_encode h hout).symm.trans (decode_of_encode h' hout))
  · intro rows row draws token rows' h
    rw [GatewayAliasMap.mintRow, Option.map_eq_some_iff] at h
    rcases h with ⟨found, hfound, heq⟩
    cases heq
    rcases List.mem_map.mp (List.mem_of_find?_eq_some hfound) with ⟨draw, -, hdraw⟩
    rw [<- hdraw]
    exact decode_token draw

end ForwardedAddr
end Gateway
end Ephor
