import Ephor.Foundation.Base64
import Ephor.Foundation.GoText
import Ephor.Foundation.GoUrl
import Ephor.Foundation.Strconv

/-!
# Feed ranges

`serveFeed` of `pubcache/service.go` asks the upstreams for a range of feed entries, which
`parseFeedRange` bounds.  The test of the bound is made in wrapping arithmetic, and the
range is written into the path of the upstream URL, where rendering escapes its question
mark.
-/

namespace Ephor
namespace Pubcache

open Foundation
open Foundation.GoText (lit)
open Foundation.GoUrl (Url Values)
open Foundation.Strconv (formatUint parseUint)

/-!
# The range
-/

def parseFeedRange (q : Values) (max : UInt64) : Option (UInt64 × UInt64) :=
  let fs := GoUrl.get q (lit "from")
  let ts := GoUrl.get q (lit "to")
  if fs = [] ∨ ts = [] then
    none
  else do
    let lo <- parseUint fs
    let hi <- parseUint ts
    if hi < lo then
      none
    else if max < hi - lo + 1 then
      none
    else
      some (lo, hi)

def maxFeedKeyB64Len : Nat := 64

def validFeedKey (s : List Char) : Bool :=
  if s = [] ∨ maxFeedKeyB64Len < (Text.utf8 s).length then
    false
  else
    match Base64.decode s with
    | none => false
    | some raw => raw.length == 32 && Base64.encode raw == s

/-!
# The upstreams
-/

/-- An upstream as the operator wrote it: the pieces that `url.Parse` finds, with the path
as it stands in the text. -/
structure UpstreamText where
  scheme : Bytes
  host : Bytes
  hasUser : Bool
  path : Bytes
  forceQuery : Bool
  rawQuery : Bytes
  fragment : Bytes

/-- What `parseUpstreams` makes of one of them, with `none` for every refusal. -/
def parseUpstream (text : UpstreamText) : Option Url := do
  let (path, rawPath) <- GoUrl.setPath text.path
  if text.scheme ≠ lit "http" ∧ text.scheme ≠ lit "https" then
    none
  else if text.host = [] then
    none
  else if text.hasUser then
    none
  else if text.rawQuery ≠ [] ∨ text.fragment ≠ [] then
    none
  else
    some ⟨text.scheme, text.host, GoText.trimSuffix path (lit "/"), rawPath, text.forceQuery⟩

def upstreamURL (base : Url) (suffix : Bytes) : Url :=
  { base with path := base.path ++ suffix }

/-!
# The request
-/

/-- The part of `Config` that `serveFeed` reads. -/
structure FeedConfig where
  serveFeeds : Bool
  maxFeedRange : UInt64

/-- The suffix that `serveFeed` gives to `fetch.do`, and `none` where it refuses. -/
def feedSuffix (cfg : FeedConfig) (q : Values) (pub : List Char) (op : Bytes) : Option Bytes :=
  let suffix := lit "/feed/" ++ Text.utf8 pub ++ lit "/" ++ op
  if cfg.serveFeeds = false then
    none
  else if validFeedKey pub = false then
    none
  else if op = lit "range" then
    (parseFeedRange q cfg.maxFeedRange).map fun range =>
      suffix ++ lit "?from=" ++ formatUint range.1 ++ lit "&to=" ++ formatUint range.2
  else
    some suffix

variable {suffix : Bytes} {text : UpstreamText} {base : Url}

/-!
# What a query asks for
-/

theorem toNat_span {lo hi : UInt64} (h : lo <= hi) :
    (hi - lo + 1).toNat = (hi.toNat - lo.toNat + 1) % 2 ^ 64 := by
  rw [UInt64.toNat_add, UInt64.toNat_sub_of_le hi lo h]
  rfl

theorem parseUint_nil : parseUint [] = none := by decide

theorem parseFeedRange_eq_some {q : Values} {max lo hi : UInt64} :
    parseFeedRange q max = some (lo, hi) <->
      parseUint (GoUrl.get q (lit "from")) = some lo ∧
        parseUint (GoUrl.get q (lit "to")) = some hi ∧ lo <= hi ∧ hi - lo + 1 <= max := by
  have hne : forall {s : Bytes} {n : UInt64}, parseUint s = some n -> s ≠ [] := by
    intro s n hs heq
    rw [heq, parseUint_nil] at hs
    cases hs
  unfold parseFeedRange
  dsimp only
  constructor
  · intro h
    split at h
    · cases h
    · rcases Option.bind_eq_some_iff.mp h with ⟨lo', hlo, h⟩
      rcases Option.bind_eq_some_iff.mp h with ⟨hi', hhi, h⟩
      split at h
      · cases h
      · rename_i horder
        split at h
        · cases h
        · rename_i hspan
          injection h with h
          injection h with hlow hhigh
          rw [<- hlow, <- hhigh]
          exact ⟨hlo, hhi, UInt64.not_lt.mp horder, UInt64.not_lt.mp hspan⟩
  · intro h
    rcases h with ⟨hlo, hhi, horder, hspan⟩
    rw [if_neg (not_or.mpr ⟨hne hlo, hne hhi⟩), hlo, hhi]
    simp only [bind, Option.bind]
    rw [if_neg (UInt64.not_lt.mpr horder), if_neg (UInt64.not_lt.mpr hspan)]

def RangeBounded (q : Values) (max : UInt64) : Prop :=
  forall lo hi, parseFeedRange q max = some (lo, hi) ->
    lo.toNat <= hi.toNat ∧ hi.toNat - lo.toNat + 1 <= max.toNat

/-- The query asks for all the numbers of 64 bits. -/
def WholeSpan (q : Values) : Prop :=
  parseUint (GoUrl.get q (lit "from")) = some 0 ∧
    parseUint (GoUrl.get q (lit "to")) = some 0xFFFFFFFFFFFFFFFF

instance (q : Values) : Decidable (WholeSpan q) :=
  inferInstanceAs (Decidable (_ ∧ _))

theorem rangeBounded_iff (q : Values) (max : UInt64) :
    RangeBounded q max <-> Not (WholeSpan q) := by
  constructor
  · intro h hwhole
    have haccepted : parseFeedRange q max = some (0, 0xFFFFFFFFFFFFFFFF) := by
      refine parseFeedRange_eq_some.mpr ⟨hwhole.1, hwhole.2, by decide, ?_⟩
      rw [UInt64.le_iff_toNat_le]
      exact Nat.zero_le _
    have hbound := (h _ _ haccepted).2
    have hmax := UInt64.toNat_lt max
    have hspan : (0xFFFFFFFFFFFFFFFF : UInt64).toNat - (0 : UInt64).toNat + 1 = 2 ^ 64 := rfl
    omega
  · intro h lo hi haccepted
    rcases parseFeedRange_eq_some.mp haccepted with ⟨hlo, hhi, horder, hspan⟩
    have hspan' := UInt64.le_iff_toNat_le.mp hspan
    have hlow := UInt64.le_iff_toNat_le.mp horder
    have htop := UInt64.toNat_lt hi
    rw [toNat_span horder] at hspan'
    refine ⟨hlow, ?_⟩
    by_cases hfull : hi.toNat - lo.toNat + 1 = 2 ^ 64
    · have hlo0 : lo = 0 := UInt64.toNat_inj.mp (by rw [UInt64.toNat_zero]; omega)
      have hhi0 : hi = 0xFFFFFFFFFFFFFFFF := UInt64.toNat_inj.mp (by
        have hlast : (0xFFFFFFFFFFFFFFFF : UInt64).toNat = 2 ^ 64 - 1 := rfl
        omega)
      rw [hlo0] at hlo
      rw [hhi0] at hhi
      exact absurd ⟨hlo, hhi⟩ h
    · rw [Nat.mod_eq_of_lt (by omega)] at hspan'
      exact hspan'

/-!
# What an upstream is asked for
-/

theorem length_le_of_parseUpstream (h : parseUpstream text = some base) {path : Bytes}
    (hraw : GoUrl.unescape false base.rawPath = some path) :
    base.rawPath = [] ∨ path.length <= base.path.length + 1 := by
  rcases Option.bind_eq_some_iff.mp h with ⟨⟨path', rawPath⟩, hset, h⟩
  rcases Option.bind_eq_some_iff.mp hset with ⟨p, hp, hset⟩
  injection hset with hset
  injection hset with hpath hrawPath
  dsimp only at h
  split at h
  · cases h
  · split at h
    · cases h
    · split at h
      · cases h
      · split at h
        · cases h
        · injection h with h
          rw [<- h] at hraw ⊢
          rw [<- hrawPath] at hraw ⊢
          split at hraw
          · rename_i hsame
            rw [if_pos hsame]
            exact Or.inl rfl
          · rw [hp] at hraw
            injection hraw with hraw
            right
            rw [<- hraw, <- hpath]
            change p.length <= (GoText.trimSuffix p (lit "/")).length + 1
            rw [GoText.trimSuffix]
            split
            · rw [List.length_take]
              have hone : (lit "/").length = 1 := by decide
              omega
            · omega

theorem escapedPath_upstreamURL (h : parseUpstream text = some base)
    (hsuffix : 2 <= suffix.length) :
    GoUrl.escapedPath (upstreamURL base suffix) = GoUrl.escape (base.path ++ suffix) := by
  have hlen : (base.path ++ suffix).length = base.path.length + suffix.length :=
    List.length_append
  have hraw : Not (base.rawPath ≠ [] ∧ GoUrl.validEncoded base.rawPath = true ∧
      GoUrl.unescape false base.rawPath = some (base.path ++ suffix)) := by
    intro hraw
    rcases length_le_of_parseUpstream h hraw.2.2 with hnil | hle
    · exact hraw.1 hnil
    · omega
  have hstar : base.path ++ suffix ≠ [0x2A] := by
    intro heq
    rw [heq] at hlen
    have hone : ([0x2A] : Bytes).length = 1 := rfl
    omega
  unfold GoUrl.escapedPath upstreamURL
  dsimp only
  rw [if_neg hraw, if_neg hstar]

theorem readTarget_upstreamURL (h : parseUpstream text = some base) (hsuffix : 2 <= suffix.length) :
    GoUrl.readTarget (GoUrl.target (upstreamURL base suffix)) = some (base.path ++ suffix, []) := by
  rw [GoUrl.target, escapedPath_upstreamURL h hsuffix]
  exact GoUrl.readTarget_escape (base.path ++ suffix) base.forceQuery

/-- The request asks for the path of the range, and for these two numbers. -/
def AsksFor (request base : Url) (pub : List Char) (lo hi : UInt64) : Prop :=
  exists q, GoUrl.readTarget (GoUrl.target request) =
      some (base.path ++ lit "/feed/" ++ Text.utf8 pub ++ lit "/range", q) ∧
    parseUint (GoUrl.get q (lit "from")) = some lo ∧
      parseUint (GoUrl.get q (lit "to")) = some hi

/-- Every range request to an upstream asks for the range that was accepted. -/
def RangeForwarded (cfg : FeedConfig) (base : Url) (pub : List Char) (q : Values) : Prop :=
  forall lo hi suffix, parseFeedRange q cfg.maxFeedRange = some (lo, hi) ->
    feedSuffix cfg q pub (lit "range") = some suffix ->
      AsksFor (upstreamURL base suffix) base pub lo hi

def IssuesRange (cfg : FeedConfig) (pub : List Char) (q : Values) : Prop :=
  cfg.serveFeeds = true ∧ validFeedKey pub = true ∧
    exists lo hi, parseUint (GoUrl.get q (lit "from")) = some lo ∧
      parseUint (GoUrl.get q (lit "to")) = some hi ∧ lo <= hi ∧ hi - lo + 1 <= cfg.maxFeedRange

theorem not_asksFor (h : parseUpstream text = some base) (hsuffix : 2 <= suffix.length)
    (pub : List Char) (lo hi : UInt64) :
    Not (AsksFor (upstreamURL base suffix) base pub lo hi) := by
  intro hasks
  rcases hasks with ⟨q, hread, hfrom, _⟩
  rw [readTarget_upstreamURL h hsuffix] at hread
  injection hread with hread
  injection hread with _ hq
  rw [<- hq] at hfrom
  have hnone : parseUint (GoUrl.get [] (lit "from")) = none := by decide
  rw [hnone] at hfrom
  cases hfrom

theorem feedSuffix_range {cfg : FeedConfig} {pub : List Char} {q : Values}
    (hserve : cfg.serveFeeds = true) (hpub : validFeedKey pub = true) {lo hi : UInt64}
    (hrange : parseFeedRange q cfg.maxFeedRange = some (lo, hi)) :
    feedSuffix cfg q pub (lit "range") =
      some (lit "/feed/" ++ Text.utf8 pub ++ lit "/" ++ lit "range" ++ lit "?from=" ++
        formatUint lo ++ lit "&to=" ++ formatUint hi) := by
  unfold feedSuffix
  dsimp only
  rw [if_neg (by rw [hserve]; decide), if_neg (by rw [hpub]; decide), if_pos rfl, hrange]
  rfl

theorem rangeForwarded_iff (h : parseUpstream text = some base) (cfg : FeedConfig)
    (pub : List Char) (q : Values) :
    RangeForwarded cfg base pub q <-> Not (IssuesRange cfg pub q) := by
  constructor
  · intro hforward hissues
    rcases hissues with ⟨hserve, hpub, lo, hi, hrange⟩
    have haccepted := parseFeedRange_eq_some.mpr hrange
    have hsuffix := feedSuffix_range hserve hpub haccepted
    refine not_asksFor h ?_ pub lo hi (hforward lo hi _ haccepted hsuffix)
    have hsix : (lit "/feed/").length = 6 := by decide
    simp only [List.length_append, hsix]
    omega
  · intro hnone lo hi suffix haccepted hsuffix
    have hrange := parseFeedRange_eq_some.mp haccepted
    unfold feedSuffix at hsuffix
    dsimp only at hsuffix
    split at hsuffix
    · cases hsuffix
    · rename_i hserve
      split at hsuffix
      · cases hsuffix
      · rename_i hpub
        rw [Bool.not_eq_false] at hserve hpub
        exact absurd ⟨hserve, hpub, lo, hi, hrange⟩ hnone

/-!
# Bounded and forwarded
-/

/--
For every upstream, configuration, key and query: the accepted ranges are bounded unless
the query asks for the whole span, and the range reaches the upstream only where no request
is issued at all.
-/
theorem feedRange_iff {text : UpstreamText} {base : Url} (h : parseUpstream text = some base)
    (cfg : FeedConfig) (pub : List Char) (q : Values) :
    (RangeBounded q cfg.maxFeedRange ∧ RangeForwarded cfg base pub q <->
      Not (WholeSpan q) ∧ Not (IssuesRange cfg pub q)) ∧
      (RangeBounded q cfg.maxFeedRange <-> Not (WholeSpan q)) ∧
        (RangeForwarded cfg base pub q <-> Not (IssuesRange cfg pub q)) := by
  have hbounded := rangeBounded_iff q cfg.maxFeedRange
  have hforwarded := rangeForwarded_iff h cfg pub q
  exact ⟨and_congr hbounded hforwarded, hbounded, hforwarded⟩

def plainUpstream : UpstreamText where
  scheme := lit "https"
  host := lit "pub.example"
  hasUser := false
  path := []
  forceQuery := false
  rawQuery := []
  fragment := []

def plainBase : Url :=
  ⟨lit "https", lit "pub.example", [], [], false⟩

def zeroKey : List Char :=
  Base64.encode (List.replicate 32 0)

def feedRangeQuery (lo hi : String) : Values :=
  [(lit "from", lit lo), (lit "to", lit hi)]

theorem feedRange_iff_plain :
    parseUpstream plainUpstream = some plainBase ∧
      (RangeBounded (feedRangeQuery "0" "9") 1024 <-> Not (WholeSpan (feedRangeQuery "0" "9"))) :=
  ⟨by decide +kernel,
    (feedRange_iff (show parseUpstream plainUpstream = some plainBase by decide +kernel)
      ⟨true, 1024⟩ zeroKey (feedRangeQuery "0" "9")).2.1⟩

/-- The whole span is accepted whatever the bound is; and ten entries are asked for with a
path that holds the range and with no query. -/
theorem feedRange_broken :
    Not (forall (q : Values) (max : UInt64), RangeBounded q max) ∧
      Not (forall (text : UpstreamText) (base : Url), parseUpstream text = some base ->
        forall (cfg : FeedConfig) (pub : List Char) (q : Values),
          RangeForwarded cfg base pub q) ∧
      GoUrl.target (upstreamURL plainBase (lit "/feed/k/range?from=0&to=9")) =
        lit "/feed/k/range%3Ffrom=0&to=9" := by
  have hwhole : WholeSpan (feedRangeQuery "0" "18446744073709551615") := by decide +kernel
  have hten : parseUint (lit "0") = some 0 ∧ parseUint (lit "9") = some 9 ∧
      validFeedKey zeroKey = true := by decide +kernel
  refine ⟨?_, ?_, by decide +kernel⟩
  · intro h
    exact (rangeBounded_iff _ 1024).mp (h _ 1024) hwhole
  · intro h
    have hbase : parseUpstream plainUpstream = some plainBase := by decide +kernel
    exact (rangeForwarded_iff hbase ⟨true, 1024⟩ zeroKey (feedRangeQuery "0" "9")).mp
      (h plainUpstream plainBase hbase ⟨true, 1024⟩ zeroKey (feedRangeQuery "0" "9"))
      ⟨rfl, hten.2.2, 0, 9, hten.1, hten.2.1, by decide, by decide⟩

end Pubcache
end Ephor
