import Ephor.Client.RelayBox

/-!
# What a sealed blob is bound to

The associated data is the sender, the recipient and the session with bars between them, in
version 2 with the header behind them, and the salt is the two ids with a colon between them.
They determine what they are made of if no bar is in the three, if each is encoded as itself,
and if the ids, in their order, can be cut at no other colon into ids in their order.
-/

namespace Ephor
namespace Client
namespace RelayBox

open Foundation
open Foundation.WebText
open Foundation.Json

/-!
# Headers
-/

/-- An object whose first name begins with `v` is opened in the text. -/
def marked : List Char -> Bool
  | [] => false
  | c :: text => ['{', '"', 'v'].isPrefixOf (c :: text) || marked text

theorem marked_cons {c : Char} (h : c ≠ '{') (text : List Char) :
    marked (c :: text) = marked text := by
  rw [marked, List.isPrefixOf, beq_false_of_ne h.symm, Bool.false_and, Bool.false_or]

theorem marked_append {front : List Char} (h : '{' ∉ front) (text : List Char) :
    marked (front ++ text) = marked text := by
  induction front with
  | nil => rfl
  | cons c front ih =>
      rw [List.cons_append, marked_cons (List.ne_of_not_mem_cons h).symm,
        ih (List.not_mem_of_not_mem_cons h)]

theorem marked_of_object (front text : List Char) :
    marked (front ++ '{' :: '"' :: 'v' :: text) = true := by
  induction front with
  | nil => rfl
  | cons c front ih => rw [List.cons_append, marked, ih, Bool.or_true]

theorem hexDigit_ne : forall d, d < 16 -> hexDigit d ≠ '{' := by
  decide

theorem quotePoint_shape (p : CodePoint) : quotePoint p = ['{'] ∨
    exists c text, quotePoint p = c :: text ∧ c ≠ '"' ∧ '{' ∉ c :: text := by
  have hescape : forall u, '{' ∉ unicodeEscape u := by
    intro u hmem
    have hu := u.toNat_lt
    simp only [unicodeEscape, List.mem_cons, List.not_mem_nil, or_false] at hmem
    rcases hmem with h | h | h | h | h | h
    · cases h
    · cases h
    all_goals exact hexDigit_ne _ (by omega) h.symm
  cases p with
  | inr u => exact Or.inr ⟨_, _, rfl, by decide, hescape u⟩
  | inl c =>
      rw [quotePoint]
      split
      · rename_i e he
        refine Or.inr ⟨_, _, rfl, by decide, ?_⟩
        have hne : '{' ≠ e := by
          intro heq
          subst heq
          simp only [shortEscape] at he
          repeat' split at he
          all_goals cases he
        simp [hne]
      · rename_i hnone
        have hquote : c ≠ '"' := by
          intro heq
          subst heq
          cases hnone
        split
        · exact Or.inr ⟨_, _, rfl, by decide, hescape _⟩
        · by_cases hbrace : c = '{'
          · exact Or.inl (congrArg (fun c => [c]) hbrace)
          · exact Or.inr ⟨c, [], rfl, hquote, by simpa using Ne.symm hbrace⟩

theorem marked_quote (s : JsString) {c : Char} (hc : c ≠ 'v') (text : List Char) :
    marked (quote s ++ c :: text) = marked (c :: text) := by
  have hbody : forall points : List CodePoint,
      marked (points.flatMap quotePoint ++ '"' :: c :: text) = marked (c :: text) := by
    intro points
    induction points with
    | nil => exact marked_cons (by decide) _
    | cons p points ih =>
        rw [List.flatMap_cons, List.append_assoc]
        rcases quotePoint_shape p with hbrace | ⟨a, more, hshape, _, hplain⟩
        · rw [hbrace, List.singleton_append, marked, ih]
          cases points with
          | nil =>
              rw [List.flatMap_nil, List.nil_append]
              simp [List.isPrefixOf, hc.symm]
          | cons q points =>
              rw [List.flatMap_cons]
              rcases quotePoint_shape q with hq | ⟨b, tail, hq, hb, _⟩
              · rw [hq]
                simp [List.isPrefixOf]
              · rw [hq]
                simp [List.isPrefixOf, hb.symm]
        · rw [hshape, marked_append hplain, ih]
  rw [quote, List.cons_append, marked_cons (by decide), List.append_assoc]
  exact hbody _

variable (platform : Platform)

def IsHeader (header : Bytes) : Prop :=
  exists (ek spkId : JsString) (opkId : Option JsString),
    header = v2HeaderBytes platform ek (some (Value.string spkId)) opkId

theorem isHeader_shape {header : Bytes} (h : IsHeader platform header) :
    exists text, header = Text.utf8 ('{' :: '"' :: 'v' :: text) ∧
      marked ('"' :: 'v' :: text) = false := by
  rcases h with ⟨ek, spkId, opkId, rfl⟩
  have hopk : marked (stringify platform.numerals (orNull (opkId.map Value.string)) ++ ['}']) =
      false := by
    cases opkId with
    | none => rfl
    | some id => exact marked_quote id (by decide) []
  have htwo : writeNumber platform.numerals (Number.finite 2) = ['2'] :=
    platform.numerals.write_digit 2 (by decide)
  have htext : stringify platform.numerals (v2Header ek (some (Value.string spkId)) opkId) =
      '{' :: '"' :: 'v' :: ("\":2,\"ek\":".toList ++ (quote ek ++ (",\"spk_id\":".toList ++
        (quote spkId ++ (",\"opk_id\":".toList ++
          (stringify platform.numerals (orNull (opkId.map Value.string)) ++ ['}'])))))) := by
    have hv : quote vName = ['"', 'v', '"'] := by decide
    have hek : quote ekName = "\"ek\"".toList := by decide
    have hspk : quote spkIdName = "\"spk_id\"".toList := by decide
    have hid : quote opkIdName = "\"opk_id\"".toList := by decide
    simp [v2Header, literalObject, stringify, memberTexts, List.intercalate, htwo, hv, hek, hspk,
      hid]
  refine ⟨_, congrArg Text.utf8 htext, ?_⟩
  have hplain : '{' ∉ '"' :: 'v' :: "\":2,\"ek\":".toList := by decide
  have hspk : '{' ∉ "\"spk_id\":".toList := by decide
  have hid : '{' ∉ "\"opk_id\":".toList := by decide
  rw [<- List.cons_append, <- List.cons_append, marked_append hplain]
  refine (marked_quote ek (by decide) _).trans ?_
  rw [marked_cons (by decide)]
  refine (marked_append hspk _).trans ((marked_quote spkId (by decide) _).trans ?_)
  rw [marked_cons (by decide)]
  exact (marked_append hid _).trans hopk

theorem header_append_inj {a a' : List Char} {header header' : Bytes}
    (h : IsHeader platform header) (h' : IsHeader platform header')
    (heq : Text.utf8 a' ++ header' = Text.utf8 a ++ header) : a' = a ∧ header' = header := by
  rcases isHeader_shape platform h with ⟨text, rfl, hquiet⟩
  rcases isHeader_shape platform h' with ⟨text', rfl, hquiet'⟩
  rw [<- Text.utf8_append, <- Text.utf8_append] at heq
  rcases List.append_eq_append_iff.mp (Text.utf8_injective heq) with
    ⟨between, hlonger, hrest⟩ | ⟨between, hlonger, hrest⟩
  · cases between with
    | nil => exact ⟨by rw [hlonger, List.append_nil], congrArg Text.utf8 hrest⟩
    | cons c between =>
        have hmarked := (congrArg marked (List.cons.inj hrest).2).trans (marked_of_object between text)
        exact (nomatch hmarked.symm.trans hquiet')
  · cases between with
    | nil => exact ⟨by rw [hlonger, List.append_nil], congrArg Text.utf8 hrest.symm⟩
    | cons c between =>
        have hmarked := (congrArg marked (List.cons.inj hrest).2).trans (marked_of_object between text')
        exact (nomatch hmarked.symm.trans hquiet)

/-!
# Conversations
-/

/-- The cipher opens nothing under other associated data than it was sealed with. -/
def Primitives.Authenticates (prim : Primitives) : Prop :=
  forall key nonce sealedAad plaintext key' nonce' openedAad, openedAad ≠ sealedAad ->
    prim.decrypt key' nonce' openedAad (prim.encrypt key nonce sealedAad plaintext) = none

structure Conversation where
  sender : JsString
  recipient : JsString
  session : JsString

namespace Conversation

variable (c d : Conversation)

def aad : Bytes :=
  RelayBox.aad c.sender c.recipient c.session

def v2Aad (header : Bytes) : Bytes :=
  RelayBox.v2Aad c.sender c.recipient c.session header

def salt : Option Bytes :=
  x3dhSalt platform (some (Value.string c.sender)) c.recipient

def SameParties : Prop :=
  (d.sender = c.sender ∧ d.recipient = c.recipient) ∨
    (d.sender = c.recipient ∧ d.recipient = c.sender)

/-- What is derived from the conversation is derived from no other one. -/
structure Bound : Prop where
  aad : forall d, d.aad = c.aad -> d = c
  v2Aad : forall d header header', IsHeader platform header -> IsHeader platform header' ->
    d.v2Aad header' = c.v2Aad header -> d = c ∧ header' = header
  salt_comm : forall d, c.SameParties d -> d.salt platform = c.salt platform
  salt : forall d, d.salt platform = c.salt platform -> c.SameParties d
  sealed : forall (prim : Primitives) nonce plaintext priv pub blob, prim.Authenticates ->
    sealRelayBlob platform prim nonce plaintext priv pub c.sender c.recipient c.session =
      some blob ->
    forall d priv pub, d ≠ c ->
      openRelayBlob platform prim blob priv pub d.sender d.recipient d.session = none
  sealedV2 : forall (prim : Primitives) key nonce plaintext (parsed : ParsedRelayBlobV2) header,
    prim.Authenticates -> IsHeader platform header -> IsHeader platform parsed.headerBytes ->
    parsed.sealed = prim.encrypt key nonce (c.v2Aad header) plaintext ->
    forall d key, d ≠ c ->
      openRelayBlobV2 prim parsed key d.sender d.recipient d.session = none

def parties : JsString :=
  if c.recipient < c.sender then c.recipient ++ 0x3A :: c.sender
  else c.sender ++ 0x3A :: c.recipient

/-- No bar is in a component, each is encoded as itself, and the ids as the salt has them can be
cut at a colon into no other ids that are in order. -/
structure Clear : Prop where
  bar : 0x7C ∉ c.sender ∧ 0x7C ∉ c.recipient ∧ 0x7C ∉ c.session
  faithful : Faithful c.sender ∧ Faithful c.recipient ∧ Faithful c.session
  colon : forall x y, x ++ 0x3A :: y = c.parties -> Not (y < x) ->
    (x = c.sender ∧ y = c.recipient) ∨ (x = c.recipient ∧ y = c.sender)

variable {platform} {c d : Conversation}

theorem aad_eq : c.aad =
    encode (c.sender ++ 0x7C :: (c.recipient ++ 0x7C :: c.session)) := by
  rw [aad, RelayBox.aad, List.append_assoc]
  rfl

theorem salt_eq : c.salt platform = some (encode c.parties) := by
  rw [salt, x3dhSalt, parties]
  show some (if platform.above _ _ then _ else _) = _
  rw [platform.above_string]
  by_cases h : c.recipient < c.sender
  · rw [if_pos (decide_eq_true h), if_pos h]
  · rw [if_neg (by simpa using h), if_neg h]

theorem parties_comm (h : c.SameParties d) : d.parties = c.parties := by
  rcases h with ⟨hsender, hrecipient⟩ | ⟨hsender, hrecipient⟩
  · rw [parties, parties, hsender, hrecipient]
  · rw [parties, parties, hsender, hrecipient]
    by_cases hlt : c.recipient < c.sender
    · rw [if_pos hlt, if_neg (List.lt_asymm hlt)]
    · by_cases hgt : c.sender < c.recipient
      · rw [if_neg hlt, if_pos hgt]
      · rw [List.le_antisymm hlt hgt]

theorem eq_of_separated {sep : UInt16} {a b a' b' : JsString} (ha : sep ∉ a) (ha' : sep ∉ a')
    (h : a' ++ sep :: b' = a ++ sep :: b) : a' = a ∧ b' = b := by
  induction a' generalizing a with
  | nil =>
      cases a with
      | nil => exact ⟨rfl, (List.cons.inj h).2⟩
      | cons u a => exact absurd (List.cons.inj h).1 (List.ne_of_not_mem_cons ha)
  | cons u' a' ih =>
      cases a with
      | nil => exact absurd (List.cons.inj h).1.symm (List.ne_of_not_mem_cons ha')
      | cons u a =>
          rcases ih (List.not_mem_of_not_mem_cons ha) (List.not_mem_of_not_mem_cons ha')
            (List.cons.inj h).2 with ⟨hfront, hback⟩
          exact ⟨by rw [hfront, (List.cons.inj h).1], hback⟩

theorem eq_of_aad (h : c.Clear) (heq : d.aad = c.aad) : d = c := by
  rcases h.bar with ⟨hsender, hrecipient, hsession⟩
  have hwhole : Faithful (c.sender ++ 0x7C :: (c.recipient ++ 0x7C :: c.session)) := by
    rw [faithful_append rfl rfl (by decide), faithful_append rfl rfl (by decide)]
    exact h.faithful
  rw [aad_eq, aad_eq] at heq
  have hunits := eq_of_encode hwhole heq
  -- Both texts have two bars, so there are none in the other conversation either.
  have hcount := congrArg (List.count 0x7C) hunits
  simp only [List.count_append, List.count_cons_self, List.count_eq_zero_of_not_mem hsender,
    List.count_eq_zero_of_not_mem hrecipient, List.count_eq_zero_of_not_mem hsession] at hcount
  have hsender' : (0x7C : UInt16) ∉ d.sender := List.count_eq_zero.mp (by omega)
  have hrecipient' : (0x7C : UInt16) ∉ d.recipient := List.count_eq_zero.mp (by omega)
  rcases eq_of_separated hsender hsender' hunits with ⟨hone, hrest⟩
  rcases eq_of_separated hrecipient hrecipient' hrest with ⟨htwo, hthree⟩
  cases c
  cases d
  cases hone
  cases htwo
  cases hthree
  rfl

theorem sameParties_of_salt (h : c.Clear) (heq : d.salt platform = c.salt platform) :
    c.SameParties d := by
  have hfaithful : Faithful c.parties := by
    rw [parties]
    split
    · exact (faithful_append rfl rfl (by decide)).mpr ⟨h.faithful.2.1, h.faithful.1⟩
    · exact (faithful_append rfl rfl (by decide)).mpr ⟨h.faithful.1, h.faithful.2.1⟩
  rw [salt_eq, salt_eq] at heq
  have hunits := eq_of_encode hfaithful (Option.some.inj heq)
  rw [parties] at hunits
  split at hunits
  · rename_i hlt
    rcases h.colon _ _ hunits (List.lt_asymm hlt) with hsame | hswapped
    · exact Or.inr ⟨hsame.2, hsame.1⟩
    · exact Or.inl ⟨hswapped.2, hswapped.1⟩
  · rename_i hle
    exact h.colon _ _ hunits hle

theorem append_bar_ne (x y : JsString) : x ++ 0x7C :: y ≠ x := by
  intro h
  have hlength := congrArg List.length h
  rw [List.length_append, List.length_cons] at hlength
  omega

theorem clear_of_bound (h : c.Bound platform) : c.Clear := by
  have hother : forall d : Conversation, d.aad = c.aad -> d ≠ c -> False :=
    fun d haad hne => hne (h.aad d haad)
  refine ⟨⟨?_, ?_, ?_⟩, ⟨?_, ?_, ?_⟩, ?_⟩
  · intro hmem
    rcases List.append_of_mem hmem with ⟨x, y, hcut⟩
    apply hother ⟨x, y ++ 0x7C :: c.recipient, c.session⟩
    · rw [aad_eq, aad_eq, hcut]
      simp only [List.append_assoc, List.cons_append]
    · exact fun heq =>
        append_bar_ne x y (hcut.symm.trans (congrArg Conversation.sender heq).symm)
  · intro hmem
    rcases List.append_of_mem hmem with ⟨x, y, hcut⟩
    apply hother ⟨c.sender ++ 0x7C :: x, y, c.session⟩
    · rw [aad_eq, aad_eq, hcut]
      simp only [List.append_assoc, List.cons_append]
    · exact fun heq => append_bar_ne _ x (congrArg Conversation.sender heq)
  · intro hmem
    rcases List.append_of_mem hmem with ⟨x, y, hcut⟩
    apply hother ⟨c.sender, c.recipient ++ 0x7C :: x, y⟩
    · rw [aad_eq, aad_eq, hcut]
      simp only [List.append_assoc, List.cons_append]
    · exact fun heq => append_bar_ne _ x (congrArg Conversation.recipient heq)
  · refine not_not.mp fun hlossy => ?_
    rcases exists_encode_eq hlossy with ⟨other, hne, hsame⟩
    apply hother { c with sender := other }
    · rw [aad_eq, aad_eq, encode_append rfl rfl, hsame, <- encode_append rfl rfl]
    · exact fun heq => hne (congrArg Conversation.sender heq)
  · refine not_not.mp fun hlossy => ?_
    rcases exists_encode_eq hlossy with ⟨other, hne, hsame⟩
    apply hother { c with recipient := other }
    · rw [aad_eq, aad_eq, encode_append rfl rfl, encode_append rfl rfl, hsame,
        <- encode_append rfl rfl, <- encode_append rfl rfl]
    · exact fun heq => hne (congrArg Conversation.recipient heq)
  · refine not_not.mp fun hlossy => ?_
    rcases exists_encode_eq hlossy with ⟨other, hne, hsame⟩
    apply hother { c with session := other }
    · rw [aad_eq, aad_eq, encode_append rfl rfl, encode_append rfl rfl, hsame,
        <- encode_append rfl rfl, <- encode_append rfl rfl]
    · exact fun heq => hne (congrArg Conversation.session heq)
  · intro x y hcut hle
    apply h.salt ⟨x, y, c.session⟩
    rw [salt_eq, salt_eq, <- hcut, parties, if_neg hle]

theorem eq_of_v2Aad (h : c.Clear) {header header' : Bytes} (hheader : IsHeader platform header)
    (hheader' : IsHeader platform header') (heq : d.v2Aad header' = c.v2Aad header) :
    d = c ∧ header' = header := by
  rcases header_append_inj platform hheader hheader' heq with ⟨htext, hsame⟩
  exact ⟨eq_of_aad h (congrArg Text.utf8 htext), hsame⟩

theorem openRelayBlob_of_ne (h : c.Clear) {prim : Primitives} (hauth : prim.Authenticates)
    {nonce : FixedBytes 24} {plaintext : Bytes} {priv : FixedBytes 32} {pub : Value}
    {blob : JsString} (hseal : sealRelayBlob platform prim nonce plaintext priv pub c.sender
      c.recipient c.session = some blob) (openPriv : FixedBytes 32) (openPub : Value)
    (hne : d ≠ c) :
    openRelayBlob platform prim blob openPriv openPub d.sender d.recipient d.session = none := by
  rcases Option.bind_eq_some_iff.mp hseal with ⟨recipientPub, _, hkey⟩
  rcases Option.bind_eq_some_iff.mp hkey with ⟨key, _, hblob⟩
  cases hblob
  refine Option.eq_none_iff_forall_ne_some.mpr fun text hopen => ?_
  rcases Option.bind_eq_some_iff.mp hopen with ⟨raw, hraw, hrest⟩
  rw [bytesToB64, atob_btoa] at hraw
  cases hraw
  split at hrest
  · exact nomatch hrest
  · split at hrest
    · exact nomatch hrest
    · rcases Option.bind_eq_some_iff.mp hrest with ⟨senderPub, _, hopenKey⟩
      rcases Option.bind_eq_some_iff.mp hopenKey with ⟨openKey, _, hdecrypt⟩
      have hdrop : forall sealed : Bytes,
          (boxVersion :: nonce.toBytes ++ sealed).drop (1 + nonceLen) = sealed := by
        intro sealed
        rw [List.cons_append, Nat.add_comm, List.drop_succ_cons]
        exact List.drop_left' nonce.length_eq
      rw [hdrop] at hdecrypt
      exact nomatch (hauth _ _ _ _ _ _ _ fun heq => hne (eq_of_aad h heq)).symm.trans hdecrypt

theorem bound_of_clear (h : c.Clear) : c.Bound platform where
  aad := fun _ heq => eq_of_aad h heq
  v2Aad := fun _ _ _ hheader hheader' heq => eq_of_v2Aad h hheader hheader' heq
  salt_comm := fun d hsame => by rw [salt_eq, salt_eq, parties_comm hsame]
  salt := fun _ heq => sameParties_of_salt h heq
  sealed := fun _ _ _ _ _ _ hauth hseal _ priv pub hne =>
    openRelayBlob_of_ne h hauth hseal priv pub hne
  sealedV2 := by
    intro prim key nonce plaintext parsed header hauth hheader hheader' hsealed d openKey hne
    rw [openRelayBlobV2, hsealed]
    exact hauth _ _ _ _ _ _ _ fun heq => hne (eq_of_v2Aad h hheader hheader' heq).1

theorem bound_iff_clear (platform : Platform) (c : Conversation) : c.Bound platform <-> c.Clear :=
  ⟨clear_of_bound, bound_of_clear⟩

theorem plain_ids_are_bound :
    (⟨ofText ['a'], ofText ['c'], ofText ['d']⟩ : Conversation).Bound samplePlatform := by
  refine (bound_iff_clear _ _).mpr ⟨by decide, by simp only [Faithful]; decide, ?_⟩
  intro x y h _
  have hcount := congrArg (List.count 0x3A) h
  rw [List.count_append, List.count_cons_self] at hcount
  have hcolon : 0x3A ∉ x := List.count_eq_zero.mp (Nat.eq_zero_of_add_eq_zero_right
    (Nat.succ.inj hcount))
  exact Or.inl (eq_of_separated (by decide) hcolon h)

theorem bar_moves_between_parties :
    Not ((⟨ofText ['a', '|', 'b'], ofText ['c'], ofText ['d']⟩ : Conversation).Bound
      samplePlatform) := by
  intro h
  have heq := h.aad ⟨ofText ['a'], ofText ['b', '|', 'c'], ofText ['d']⟩ (by decide)
  revert heq
  exact fun heq => absurd (congrArg Conversation.sender heq) (by decide)

end Conversation

end RelayBox
end Client
end Ephor
