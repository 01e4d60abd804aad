import Ephor.Foundation.Transition
import Ephor.Gateway.AliasAllocator

/-!
# Names that keep their owners

Runs of `AliasAllocator`.  It keeps each chosen name twice, in the map from names to keys and in
the list that goes back, and a reservation takes a name out of both.
-/

namespace Ephor
namespace Gateway
namespace AliasAllocator

open Foundation
open Foundation.Text
open Foundation.Transition

inductive Call where
  | reserveLocalpart (name : Str)
  | reserveDirectoryAddress (email : Str)
  | allocateVanity (publicKey : Bytes) (name : Str)
  | releaseVanity (publicKey : Bytes)
deriving DecidableEq

def step (a : AliasAllocator) : Call -> AliasAllocator
  | .reserveLocalpart name => a.reserveLocalpart name
  | .reserveDirectoryAddress email => a.reserveDirectoryAddress email
  | .allocateVanity publicKey name => (a.allocateVanity publicKey name).2
  | .releaseVanity publicKey => (a.releaseVanity publicKey).2

def aliasFor (contentDigest : Bytes -> FixedBytes 32) (a : AliasAllocator) (publicKey : Bytes) :
    Str :=
  a.qualify (((a.reverse.find? fun held => held.1 == publicKey).map Prod.snd).getD
    (keyDerivedLocalpart contentDigest publicKey))

structure Indexed (a : AliasAllocator) : Prop where
  inverse : forall name key, a.vanity.lookup name = some key <-> (key, name) ∈ a.reverse
  keys : (a.reverse.map Prod.fst).Nodup
  names : (a.reverse.map Prod.snd).Nodup

structure Free (a : AliasAllocator) (name : Str) : Prop where
  dotless : '.' ∉ name
  unprefixed : reservedAliasPrefix.isPrefixOf name = false
  chosen : isKeyDerivedForm name = false
  unreserved : name ∉ a.reserved
  charset : isValidVanityCharset name = true
  folded : lower name = name

structure Kept (a : AliasAllocator) : Prop extends Indexed a where
  free : forall held, held ∈ a.reverse -> Free a held.2

variable {a b : AliasAllocator} {key publicKey : Bytes} {name text lp : Str}

/-!
# What the calls do
-/

theorem eraseIdx_findIdx {held : List (Bytes × Str)} (h : (held.map Prod.fst).Nodup) :
    held.eraseIdx (held.findIdx fun entry => entry.1 == key) =
      held.filter fun entry => entry.1 != key := by
  induction held with
  | nil => rfl
  | cons entry rest ih =>
      rw [List.map_cons, List.nodup_cons] at h
      by_cases heq : entry.1 = key
      · have hrest : rest.filter (fun entry => entry.1 != key) = rest := by
          apply List.filter_eq_self.mpr
          intro other hother
          rw [bne_iff_ne, <- heq]
          exact fun hsame => h.1 (List.mem_map.mpr ⟨other, hother, hsame⟩)
        simp [List.findIdx_cons, heq, hrest]
      · have hne : (entry.1 == key) = false := beq_false_of_ne heq
        rw [List.findIdx_cons, hne, cond_false, List.eraseIdx_cons_succ, ih h.2]
        simp [heq]

theorem dropName_eq (h : Indexed a) (publicKey : Bytes) :
    (a.dropName publicKey).reverse = a.reverse.filter (fun held => held.1 != publicKey) ∧
      forall name key, (a.dropName publicKey).vanity.lookup name = some key <->
        a.vanity.lookup name = some key ∧ key ≠ publicKey := by
  unfold dropName
  cases hfind : a.reverse.find? fun held => held.1 == publicKey with
  | none =>
      have hnone : forall held, held ∈ a.reverse -> held.1 ≠ publicKey := by
        simpa using List.find?_eq_none.mp hfind
      refine ⟨(List.filter_eq_self.mpr ?_).symm, ?_⟩
      · exact fun held hheld => bne_iff_ne.mpr (hnone held hheld)
      intro name key
      exact ⟨fun hheld => ⟨hheld, hnone _ ((h.inverse name key).mp hheld)⟩, And.left⟩
  | some held =>
      have hmem := List.mem_of_find?_eq_some hfind
      have hkey : held.1 = publicKey := by simpa using List.find?_some hfind
      refine ⟨eraseIdx_findIdx h.keys, ?_⟩
      intro name key
      rw [FiniteMap.lookup_erase_eq_some]
      have hheld : a.vanity.lookup held.2 = some publicKey :=
        (h.inverse held.2 publicKey).mpr (hkey ▸ hmem)
      constructor
      · intro hlookup
        refine ⟨hlookup.2, fun hsame => hlookup.1 ?_⟩
        have hother := (h.inverse name key).mp hlookup.2
        have hpair := List.inj_on_of_nodup_map h.keys hother hmem (hsame.trans hkey.symm)
        exact congrArg Prod.snd hpair
      · intro hlookup
        refine ⟨fun hsame => hlookup.2 ?_, hlookup.1⟩
        rw [hsame, hheld] at hlookup
        exact (Option.some.inj hlookup.1).symm

@[simp] theorem reserved_dropName : (a.dropName publicKey).reserved = a.reserved := by
  unfold dropName
  split <;> rfl

@[simp] theorem domain_dropName : (a.dropName publicKey).domain = a.domain := by
  unfold dropName
  split <;> rfl

theorem free_of_checkVanity (h : a.checkVanity text = .ok lp) : lp = lower text ∧ Free a lp := by
  unfold checkVanity at h
  dsimp only at h
  split at h
  · cases h
  rename_i hdot
  split at h
  · cases h
  rename_i hcharset
  split at h
  · cases h
  rename_i hform
  split at h
  · cases h
  rename_i hreserved
  cases h
  simp only [Bool.or_eq_true, not_or, Bool.not_eq_true] at hform
  refine ⟨rfl, ?_, hform.1, hform.2, hreserved, by simpa using hcharset, lower_lower text⟩
  intro hmem
  rcases List.mem_map.mp hmem with ⟨c, hc, hlower⟩
  rw [toLower_eq_iff (by decide)] at hlower
  exact hdot (List.contains_iff_mem.mpr (hlower ▸ hc))

/-- What an allocation comes to: it is refused, the key has the name already, or it is given the
free name in place of its own. -/
inductive Allocates (a : AliasAllocator) (publicKey : Bytes) (text : Str) :
    Except AliasError Str × AliasAllocator -> Prop where
  | refused (e : AliasError) : Allocates a publicKey text (.error e, a)
  | held (addr : Str) : Allocates a publicKey text (.ok addr, a)
  | given (addr : Str) (hfree : Free a (lower text))
      (hnone : a.vanity.lookup (lower text) = none) :
      Allocates a publicKey text (.ok addr,
        { a.dropName publicKey with
          vanity := (a.dropName publicKey).vanity.insert (lower text) publicKey
          reverse := (a.dropName publicKey).reverse ++ [(publicKey, lower text)] })

theorem allocates (a : AliasAllocator) (publicKey : Bytes) (text : Str) :
    Allocates a publicKey text (a.allocateVanity publicKey text) := by
  rw [allocateVanity]
  cases hcheck : a.checkVanity text with
  | error e => exact .refused e
  | ok lp =>
      rcases free_of_checkVanity hcheck with ⟨rfl, hfree⟩
      dsimp only
      split
      · split
        · exact .held _
        · exact .refused _
      · rename_i hnone
        exact .given _ hfree hnone

theorem allocateVanity_of_error {e : AliasError}
    (h : (a.allocateVanity publicKey text).1 = .error e) :
    (a.allocateVanity publicKey text).2 = a := by
  have hallocates := allocates a publicKey text
  generalize a.allocateVanity publicKey text = outcome at h hallocates
  cases hallocates with
  | refused e' | held addr => rfl
  | given addr _ _ => cases h

/-!
# The invariant
-/

theorem Free.of_reserved (h : Free a name) (hsame : b.reserved = a.reserved) : Free b name :=
  ⟨h.dotless, h.unprefixed, h.chosen, hsame ▸ h.unreserved, h.charset, h.folded⟩

theorem kept_reserveLocalpart (h : Kept a) (text : Str) : Kept (a.reserveLocalpart text) := by
  have hmem : forall held : Bytes × Str, held ∈ (a.reserveLocalpart text).reverse <->
      held ∈ a.reverse ∧ held.2 ≠ lower (trim text) := by
    intro held
    simp [reserveLocalpart, List.mem_filter]
  have hsub : (a.reserveLocalpart text).reverse.Sublist a.reverse := List.filter_sublist
  constructor
  · constructor
    · intro name key
      rw [hmem, <- h.inverse]
      simp [reserveLocalpart, FiniteMap.lookup_erase_eq_some, and_comm]
    · exact h.keys.sublist (hsub.map Prod.fst)
    · exact h.names.sublist (hsub.map Prod.snd)
  · intro held hheld
    rcases (hmem held).mp hheld with ⟨hold, hne⟩
    have hfree := h.free held hold
    refine ⟨hfree.dotless, hfree.unprefixed, hfree.chosen, ?_, hfree.charset, hfree.folded⟩
    intro hreserved
    rcases Finset.mem_insert.mp hreserved with heq | hin
    · exact hne heq
    · exact hfree.unreserved hin

theorem kept_dropName (h : Kept a) (publicKey : Bytes) : Kept (a.dropName publicKey) := by
  rcases dropName_eq h.toIndexed publicKey with ⟨hreverse, hlookup⟩
  have hsub : (a.dropName publicKey).reverse.Sublist a.reverse := by
    rw [hreverse]
    exact List.filter_sublist
  constructor
  · constructor
    · intro name key
      rw [hlookup, h.inverse, hreverse, List.mem_filter, bne_iff_ne]
    · exact h.keys.sublist (hsub.map Prod.fst)
    · exact h.names.sublist (hsub.map Prod.snd)
  · intro held hheld
    exact (h.free held (hsub.subset hheld)).of_reserved reserved_dropName

theorem kept_given (h : Kept a) (hname : a.vanity.lookup name = none)
    (hkey : forall held, held ∈ a.reverse -> held.1 ≠ publicKey) (hfree : Free a name) :
    Kept { a with
      vanity := a.vanity.insert name publicKey
      reverse := a.reverse ++ [(publicKey, name)] } := by
  have hnew : forall held, held ∈ a.reverse -> held.2 ≠ name := by
    intro held hheld heq
    have hlookup := (h.inverse held.2 held.1).mpr hheld
    rw [heq, hname] at hlookup
    cases hlookup
  constructor
  · constructor
    · intro other key
      rw [FiniteMap.lookup_insert_eq_some, List.mem_append, List.mem_singleton, Prod.mk.injEq,
        h.inverse]
      constructor
      · intro hheld
        rcases hheld with ⟨hother, hsame⟩ | ⟨_, hmem⟩
        · exact Or.inr ⟨hsame, hother⟩
        · exact Or.inl hmem
      · intro hheld
        rcases hheld with hmem | ⟨hsame, hother⟩
        · exact Or.inr ⟨hnew _ hmem, hmem⟩
        · exact Or.inl ⟨hother, hsame⟩
    · rw [List.map_append, List.nodup_append]
      refine ⟨h.keys, List.nodup_singleton _, ?_⟩
      intro x hx y hy
      rcases List.mem_map.mp hx with ⟨held, hheld, rfl⟩
      rw [List.mem_singleton.mp hy]
      exact hkey held hheld
    · rw [List.map_append, List.nodup_append]
      refine ⟨h.names, List.nodup_singleton _, ?_⟩
      intro x hx y hy
      rcases List.mem_map.mp hx with ⟨held, hheld, rfl⟩
      rw [List.mem_singleton.mp hy]
      exact hnew held hheld
  · intro held hheld
    rcases List.mem_append.mp hheld with hold | hlast
    · exact (h.free held hold).of_reserved rfl
    · rw [List.mem_singleton.mp hlast]
      exact hfree.of_reserved rfl

theorem kept_step (h : Kept a) (c : Call) : Kept (step a c) := by
  cases c with
  | reserveLocalpart text => exact kept_reserveLocalpart h text
  | reserveDirectoryAddress email =>
      rw [step, reserveDirectoryAddress]
      split
      · split
        · exact kept_reserveLocalpart h _
        · exact h
      · exact h
  | releaseVanity publicKey => exact kept_dropName h publicKey
  | allocateVanity publicKey text =>
      rw [step]
      have hallocates := allocates a publicKey text
      generalize a.allocateVanity publicKey text = outcome at hallocates ⊢
      cases hallocates with
      | refused e | held addr => exact h
      | given addr hfree hnone =>
          rcases dropName_eq h.toIndexed publicKey with ⟨hreverse, hlookup⟩
          apply kept_given (kept_dropName h publicKey)
          · rw [Option.eq_none_iff_forall_ne_some]
            intro key hkey
            rw [hlookup, hnone] at hkey
            cases hkey.1
          · intro held hheld
            rw [hreverse, List.mem_filter, bne_iff_ne] at hheld
            exact hheld.2
          · exact hfree.of_reserved reserved_dropName

theorem domain_step (a : AliasAllocator) (c : Call) : (step a c).domain = a.domain := by
  cases c with
  | reserveLocalpart text => rfl
  | reserveDirectoryAddress email =>
      rw [step, reserveDirectoryAddress]
      split
      · split <;> rfl
      · rfl
  | releaseVanity publicKey => exact domain_dropName
  | allocateVanity publicKey text =>
      rw [step]
      have hallocates := allocates a publicKey text
      generalize a.allocateVanity publicKey text = outcome at hallocates ⊢
      cases hallocates with
      | refused e | held addr => rfl
      | given addr _ _ => exact domain_dropName

def GivesUp (a : AliasAllocator) (key : Bytes) (name : Str) : Call -> Prop
  | .releaseVanity publicKey => publicKey = key
  | .allocateVanity publicKey text =>
      publicKey = key ∧ lower text ≠ name ∧ (a.allocateVanity publicKey text).1.isOk
  | .reserveLocalpart text => lower (trim text) = name
  | .reserveDirectoryAddress email =>
      exists local' domain, rsplitOnce '@' email = some (local', domain) ∧
        eqIgnoreCase (trim domain) a.domain = true ∧ lower (trim local') = name

theorem lost_reserveLocalpart (hheld : a.vanity.lookup name = some key)
    (hlost : (a.reserveLocalpart text).vanity.lookup name ≠ some key) :
    lower (trim text) = name := by
  by_contra hne
  apply hlost
  rw [reserveLocalpart, FiniteMap.lookup_erase_eq_some]
  exact ⟨fun heq => hne heq.symm, hheld⟩

theorem lost_dropName (h : Indexed a) (hheld : a.vanity.lookup name = some key)
    (hlost : (a.dropName publicKey).vanity.lookup name ≠ some key) : publicKey = key := by
  by_contra hne
  exact hlost (((dropName_eq h publicKey).2 name key).mpr ⟨hheld, fun heq => hne heq.symm⟩)

theorem lost_step {c : Call} (h : Kept a) (hheld : a.vanity.lookup name = some key)
    (hlost : (step a c).vanity.lookup name ≠ some key) : GivesUp a key name c := by
  cases c with
  | reserveLocalpart text => exact lost_reserveLocalpart hheld hlost
  | releaseVanity publicKey => exact lost_dropName h.toIndexed hheld hlost
  | reserveDirectoryAddress email =>
      rw [step, reserveDirectoryAddress] at hlost
      split at hlost
      · rename_i local' domain hsplit
        split at hlost
        · rename_i hon
          exact ⟨local', domain, hsplit, hon, lost_reserveLocalpart hheld hlost⟩
        · exact absurd hheld hlost
      · exact absurd hheld hlost
  | allocateVanity publicKey text =>
      rw [step] at hlost
      rw [GivesUp]
      have hallocates := allocates a publicKey text
      generalize a.allocateVanity publicKey text = outcome at hallocates hlost ⊢
      cases hallocates with
      | refused e | held addr => exact absurd hheld hlost
      | given addr _ hnone =>
          have hne : lower text ≠ name := by
            intro heq
            rw [heq, hheld] at hnone
            cases hnone
          refine ⟨lost_dropName h.toIndexed hheld ?_, hne, rfl⟩
          intro hstill
          exact hlost (FiniteMap.lookup_insert_eq_some.mpr (Or.inr ⟨hne.symm, hstill⟩))

/-!
# Addresses
-/

theorem foldl_base32Byte (input : Bytes) :
    (input.foldl base32Byte (0, 0, [])).2.1 = 8 * input.length % 5 ∧
      (input.foldl base32Byte (0, 0, [])).2.2.length = 8 * input.length / 5 := by
  induction input using List.reverseRecOn with
  | nil => exact ⟨rfl, rfl⟩
  | append_singleton input b ih =>
      rw [List.foldl_append, List.foldl_cons, List.foldl_nil, base32Byte]
      rcases ih with ⟨hnbits, hlen⟩
      simp only [hnbits, List.length_append, List.length_map, List.length_range,
        List.length_singleton, hlen]
      omega

theorem derived_shape (contentDigest : Bytes -> FixedBytes 32) (key : Bytes) :
    exists rest, keyDerivedLocalpart contentDigest key = 'k' :: rest ∧ rest.length = 16 ∧
      forall c, c ∈ rest -> c ∈ base32Lower := by
  refine ⟨_, rfl, ?_, fun _ => mem_encodeBase32Lower⟩
  have hten : ((contentDigest key).toBytes.take 10).length = 10 := by
    rw [List.length_take, (contentDigest key).length_eq]
    rfl
  have hfold := foldl_base32Byte ((contentDigest key).toBytes.take 10)
  rw [hten] at hfold
  rw [encodeBase32Lower]
  generalize ((contentDigest key).toBytes.take 10).foldl base32Byte (0, 0, []) = run at hfold
  rcases run with ⟨bits, nbits, out⟩
  dsimp only at hfold ⊢
  rw [hfold.1, if_neg (by decide)]
  exact hfold.2

theorem isKeyDerivedForm_derived (contentDigest : Bytes -> FixedBytes 32) (key : Bytes) :
    isKeyDerivedForm (keyDerivedLocalpart contentDigest key) = true := by
  have hascii : forall c, c ∈ base32Lower -> c.toNat < 128 := by
    simpa using List.all_eq_true.mp (by decide : base32Lower.all (fun c => c.toNat < 128) = true)
  rcases derived_shape contentDigest key with ⟨rest, heq, hlen, hmem⟩
  have hstrip : stripPrefix ['k'] ('k' :: rest) = some rest := by simp [stripPrefix]
  rw [heq, isKeyDerivedForm, hstrip]
  dsimp only
  rw [length_utf8_of_ascii fun c hc => hascii c (hmem c hc), hlen, Bool.and_eq_true,
    List.all_eq_true]
  exact ⟨rfl, fun c hc => List.contains_iff_mem.mpr (hmem c hc)⟩

def Plain (c : Char) : Prop :=
  c.toLower = c ∧ isWhiteSpace c = false ∧ c ≠ '@'

/-- The two halves of an address that an allocator presents. -/
structure Half (half : Str) : Prop where
  nonempty : half ≠ []
  plain : forall c, c ∈ half -> Plain c

theorem lower_of_plain (h : forall c, c ∈ text -> Plain c) : lower text = text := by
  rw [lower]
  exact (List.map_congr_left fun c hc => (h c hc).1).trans (List.map_id text)

theorem rsplitOnce_address {domain : Str} (hname : Half name) (hdomain : Half domain) :
    rsplitOnce '@' (lower (trim (name ++ '@' :: domain))) = some (name, domain) := by
  have hat : ('@').toLower = '@' := by decide
  have htrim : trim (name ++ '@' :: domain) = name ++ '@' :: domain := by
    apply trim_of_ends
    · intro c hc
      rw [List.head?_append_of_ne_nil _ hname.nonempty] at hc
      exact (hname.plain c (List.mem_of_mem_head? hc)).2.1
    · intro c hc
      rw [List.getLast?_append_of_ne_nil _ (List.cons_ne_nil _ _), List.getLast?_cons,
        List.getLast?_eq_some_getLast hdomain.nonempty, Option.getD_some, Option.mem_some_iff] at hc
      exact (hdomain.plain c (hc ▸ List.getLast_mem hdomain.nonempty)).2.1
  have hlower : lower (name ++ '@' :: domain) = name ++ '@' :: domain := by
    rw [lower, List.map_append, List.map_cons, hat]
    exact congrArg₂ _ (lower_of_plain hname.plain) (congrArg _ (lower_of_plain hdomain.plain))
  rw [htrim, hlower]
  exact rsplitOnce_cons name fun hmem => (hdomain.plain '@' hmem).2.2 rfl

theorem plain_of_charset {c : Char} (hlower : c.toLower = c)
    (h : c.isAlphanum = true ∨ c ∈ ['-', '_', '+', '.']) : Plain c := by
  refine ⟨hlower, ?_, ?_⟩
  · rcases h with halnum | hmark
    · have hbounds := isAlphanum_bounds halnum
      simp only [isWhiteSpace, Bool.or_eq_false_iff, Bool.and_eq_false_iff, decide_eq_false_iff_not,
        beq_eq_false_iff_ne]
      omega
    · have hmarks : ['-', '_', '+', '.'].all (fun x => !isWhiteSpace x) = true := by decide
      simpa using List.all_eq_true.mp hmarks c hmark
  · intro heq
    subst heq
    rcases h with halnum | hmark
    · exact absurd halnum (by decide)
    · exact absurd hmark (by decide)

theorem toLower_of_lower (h : lower text = text) {c : Char} (hc : c ∈ text) : c.toLower = c :=
  List.map_inj_left.mp (h.trans (List.map_id text).symm) c hc

theorem Free.half (h : Free a name) : Half name := by
  have hcharset := h.charset
  simp only [isValidVanityCharset, Bool.and_eq_true, Bool.not_eq_true', Bool.or_eq_false_iff,
    List.all_eq_true] at hcharset
  refine ⟨List.isEmpty_eq_false_iff.mp hcharset.1.1, fun c hc => ?_⟩
  apply plain_of_charset (toLower_of_lower h.folded hc)
  have hchar := hcharset.2 c hc
  simp only [Bool.or_eq_true, beq_iff_eq] at hchar
  simp only [List.mem_cons]
  tauto

theorem half_derived (contentDigest : Bytes -> FixedBytes 32) (key : Bytes) :
    Half (keyDerivedLocalpart contentDigest key) := by
  have hletters : base32Lower.all (fun c =>
      decide (c.toLower = c ∧ isWhiteSpace c = false ∧ c ≠ '@')) = true := by decide
  rcases derived_shape contentDigest key with ⟨rest, heq, _, hmem⟩
  rw [heq]
  refine ⟨List.cons_ne_nil _ _, fun c hc => ?_⟩
  apply of_decide_eq_true (List.all_eq_true.mp hletters c _)
  rcases List.mem_cons.mp hc with rfl | hrest
  · decide
  · exact hmem c hrest

theorem half_domain (h : forDomain text = .ok a) : Half a.domain := by
  unfold forDomain at h
  dsimp only at h
  split at h
  · rename_i hvalid
    cases h
    dsimp only
    simp only [isValidDnsDomain, Bool.and_eq_true, Bool.not_eq_true', Bool.or_eq_false_iff,
      List.all_eq_true] at hvalid
    refine ⟨List.isEmpty_eq_false_iff.mp hvalid.1.1, fun c hc => ?_⟩
    apply plain_of_charset (toLower_of_lower (lower_lower _) hc)
    have htext : ['.'].intercalate ((lower (trim text)).splitOn '.') = lower (trim text) :=
      List.intercalate_splitOn '.'
    rw [<- htext] at hc
    revert c hc
    apply forall_mem_intercalate
    · intro c hc
      rw [List.mem_singleton.mp hc]
      exact Or.inr (by decide)
    · intro label hlabel c hc
      have hchars := hvalid.2 label hlabel
      simp only [isValidDnsLabel, Bool.and_eq_true, List.all_eq_true, Bool.or_eq_true,
        beq_iff_eq] at hchars
      rcases hchars.2 c hc with halnum | rfl
      · exact Or.inl halnum
      · exact Or.inr (by decide)
  · cases h

theorem kept_forDomain (h : forDomain text = .ok a) : Kept a := by
  unfold forDomain at h
  dsimp only at h
  split at h
  · cases h
    refine ⟨⟨fun name key => ?_, List.nodup_nil, List.nodup_nil⟩, fun _ hheld => ?_⟩
    · rw [Finmap.lookup_empty]
      exact ⟨fun hnone => (Option.some_ne_none key hnone.symm).elim,
        fun hmem => absurd hmem List.not_mem_nil⟩
    · exact absurd hheld List.not_mem_nil
  · cases h

theorem resolve_aliasFor (contentDigest : Bytes -> FixedBytes 32) (h : Kept a)
    (hdomain : Half a.domain) {registered : List Bytes}
    (hdistinct : forall k, k ∈ registered -> keyDerivedLocalpart contentDigest k =
      keyDerivedLocalpart contentDigest key -> k = key) (hkey : key ∈ registered) :
    a.resolve contentDigest (aliasFor contentDigest a key) registered = some key := by
  rw [aliasFor, resolve, qualify]
  cases hfind : a.reverse.find? fun held => held.1 == key with
  | some held =>
      have hmem := List.mem_of_find?_eq_some hfind
      have hheld : held.1 = key := by simpa using List.find?_some hfind
      dsimp only [Option.map_some, Option.getD_some]
      rw [rsplitOnce_address (h.free held hmem).half hdomain]
      dsimp only
      rw [if_pos rfl, (h.inverse held.2 held.1).mpr hmem, hheld]
      rfl
  | none =>
      dsimp only [Option.map_none, Option.getD_none]
      rw [rsplitOnce_address (half_derived contentDigest key) hdomain]
      dsimp only
      rw [if_pos rfl]
      have hnone : a.vanity.lookup (keyDerivedLocalpart contentDigest key) = none := by
        rw [Option.eq_none_iff_forall_ne_some]
        intro other hother
        have hchosen := (h.free _ ((h.inverse _ _).mp hother)).chosen
        rw [isKeyDerivedForm_derived] at hchosen
        cases hchosen
      rw [hnone, Option.none_or]
      cases hfound : registered.find? fun k =>
          keyDerivedLocalpart contentDigest k == keyDerivedLocalpart contentDigest key with
      | none => simpa using List.find?_eq_none.mp hfound key hkey
      | some k =>
          have heq := List.find?_some hfound
          rw [hdistinct k (List.mem_of_find?_eq_some hfound) (by simpa using heq)]

/--
After any calls the two indexes are inverse, every name that is held may be held, and an address
that is presented for a registered key leads back to it.  A refused allocation changes nothing, and
a name leaves its key in a call of the holder, or in a reservation of the name.
-/
theorem names_keep_their_owners (contentDigest : Bytes -> FixedBytes 32) {domain : Str}
    (hnew : forDomain domain = .ok a) (calls : List Call) :
    Indexed (after step a calls) ∧
    (forall held, held ∈ (after step a calls).reverse -> Free (after step a calls) held.2) ∧
    (forall publicKey name e, ((after step a calls).allocateVanity publicKey name).1 = .error e ->
      after step a (calls ++ [.allocateVanity publicKey name]) = after step a calls) ∧
    (forall name key more, (after step a calls).vanity.lookup name = some key ->
      (after step a (calls ++ more)).vanity.lookup name ≠ some key ->
      exists front c rest, more = front ++ c :: rest ∧
        (after step a (calls ++ front)).vanity.lookup name = some key ∧
        GivesUp (after step a (calls ++ front)) key name c) ∧
    forall registered : List Bytes,
      (forall k l, k ∈ registered -> l ∈ registered -> keyDerivedLocalpart contentDigest k =
        keyDerivedLocalpart contentDigest l -> k = l) ->
      forall key, key ∈ registered -> (after step a calls).resolve contentDigest
        (aliasFor contentDigest (after step a calls) key) registered = some key := by
  have hkept : forall events, Kept (after step a events) := fun events =>
    invariant_after (fun _ c hs _ => kept_step hs c) (kept_forDomain hnew)
      (stepsMeet_true step a events)
  have hdomain : (after step a calls).domain = a.domain :=
    invariant_after (fun s c hs _ => (domain_step s c).trans hs) rfl (stepsMeet_true step a calls)
  refine ⟨(hkept calls).toIndexed, (hkept calls).free, ?_, ?_, ?_⟩
  · intro publicKey name e herror
    rw [after_concat]
    exact allocateVanity_of_error herror
  · intro name key more hheld hlost
    rw [after_append] at hlost
    rcases exists_lost (fun s : AliasAllocator => s.vanity.lookup name = some key) hheld hlost
      with ⟨front, c, rest, hmore, hfront, hstep⟩
    rw [after_concat, <- after_append] at hstep
    rw [<- after_append] at hfront
    exact ⟨front, c, rest, hmore, hfront, lost_step (hkept _) hfront hstep⟩
  · intro registered hdistinct key hkey
    apply resolve_aliasFor contentDigest (hkept calls) _ _ hkey
    · rw [hdomain]
      exact half_domain hnew
    · exact fun k hk heq => hdistinct k key hk hkey heq

theorem reserved_name_is_given_up :
    exists a, forDomain "Mail.Example".toList = .ok a ∧ Indexed (after step a
      [.allocateVanity [1] "anna".toList, .reserveLocalpart "Anna".toList]) := by
  have hvalid : isValidDnsDomain (lower (trim "Mail.Example".toList)) = true := by decide
  have hnew : forDomain "Mail.Example".toList = .ok
      ⟨lower (trim "Mail.Example".toList), ∅, [], ∅⟩ := by
    rw [forDomain]
    exact if_pos hvalid
  exact ⟨_, hnew, (names_keep_their_owners (fun _ => ⟨List.replicate 32 0, rfl⟩) hnew _).1⟩

end AliasAllocator
end Gateway
end Ephor
