import Ephor.Keyauth.Replay

/-!
# Runs of the replay guard

A captured request can be presented again at any later moment.  The seen-set
entry of an accepted request lives until the clock has advanced by the skew, and
its timestamp stays fresh until the clock has passed the timestamp by the skew.
The entry outlives the timestamp exactly when the timestamp was strictly behind
the clock at acceptance; this module proves that runs of such requests accept no
request twice, and that any other accepted request can be replayed.
-/

namespace Ephor
namespace Keyauth

open Foundation
open Foundation.GoTime

/-!
# Runs
-/

/-- The arguments of one call of `CheckAndRecord`. -/
structure Call where
  key : String
  nonce : String
  ts : Int64
  now : Int
deriving DecidableEq

def Call.triple (c : Call) : String × String × Int64 :=
  (c.key, c.nonce, c.ts)

def Call.id (c : Call) : String :=
  nonceId c.key c.nonce

def Guard.call (g : Guard) (c : Call) : Bool × Guard :=
  g.checkAndRecord c.key c.nonce c.ts c.now

def Guard.after (g : Guard) : List Call -> Guard
  | [] => g
  | c :: rest => (g.call c).2.after rest

def Guard.accepted (g : Guard) : List Call -> List Call
  | [] => []
  | c :: rest =>
      if (g.call c).1 then
        c :: (g.call c).2.accepted rest
      else
        (g.call c).2.accepted rest

/-- The clock never runs backwards. -/
def ClockOrdered (calls : List Call) : Prop :=
  calls.Pairwise fun a b => a.now <= b.now

/-- No (key, nonce, timestamp) triple is accepted twice. -/
def NoReplay (g : Guard) (calls : List Call) : Prop :=
  ((g.accepted calls).map Call.triple).Nodup

/--
The request's timestamp is strictly behind the node's clock, and the skew is not
the largest duration, so the nonce entry outlives the timestamp.
-/
def EntryOutlivesTimestamp (skew : Duration) (c : Call) : Prop :=
  skew ≠ maxDuration ∧ unix c.ts < c.now

theorem accepted_append (g : Guard) (xs ys : List Call) :
    g.accepted (xs ++ ys) = g.accepted xs ++ (g.after xs).accepted ys := by
  induction xs generalizing g with
  | nil => rfl
  | cons c rest ih =>
      rw [List.cons_append, Guard.accepted, Guard.accepted, Guard.after, ih]
      split <;> rfl

/-!
# The freshness window
-/

variable {g : Guard} {clock : Int} {a c : Call} {calls : List Call}

theorem freshTimestamp_iff (hskew : 0 < g.skew) (ts : Int64) (now : Int) :
    g.freshTimestamp ts now = true <->
      0 < ts ∧
        ((now - unix ts <= g.skew.toInt ∧ unix ts - now <= g.skew.toInt) ∨
          now - unix ts <= -2 ^ 63 ∨
          (g.skew = maxDuration ∧ unix ts <= now)) := by
  rw [<- abs_sub_le_iff now (unix ts) hskew]
  unfold Guard.freshTimestamp
  by_cases hts : ts <= 0
  · simp [hts]
  · have hpos : 0 < ts := by
      rw [Int64.le_iff_toInt_le] at hts
      rw [Int64.lt_iff_toInt_lt]
      omega
    simp [hts, hpos]

theorem now_le_of_freshTimestamp {ts : Int64} {now : Int} (hskew : 0 < g.skew)
    (hmax : g.skew ≠ maxDuration) (hbehind : unix ts < now) (h : g.freshTimestamp ts now = true) :
    now <= unix ts + g.skew.toInt := by
  rcases (freshTimestamp_iff hskew ts now).mp h with ⟨_, hwindow⟩
  rcases hwindow with ⟨hle, _⟩ | hfar | ⟨heq, _⟩
  · omega
  · omega
  · exact absurd heq hmax

/-!
# What the guard remembers

The invariant of a run: an accepted call still has an entry that lives until its
own expiry, or the clock has reached that expiry.
-/

def Remembers (g : Guard) (clock : Int) (a : Call) : Prop :=
  (exists exp, g.seen.lookup a.id = some exp ∧ add a.now g.skew <= exp) ∨
    add a.now g.skew <= clock

theorem remembers_mono {clock' : Int} (hclock : clock <= clock') (h : Remembers g clock a) :
    Remembers g clock' a := by
  rcases h with hlive | hexpired
  · exact Or.inl hlive
  · exact Or.inr (le_trans hexpired hclock)

theorem remembers_sweepLocked {now : Int} (hclock : clock <= now) (h : Remembers g clock a) :
    Remembers (g.sweepLocked now) now a := by
  unfold Remembers
  rw [sweepLocked_skew]
  rcases h with ⟨exp, hexp, hle⟩ | hexpired
  · by_cases hlive : now < exp
    · exact Or.inl ⟨exp, sweepLocked_lookup hexp hlive, hle⟩
    · exact Or.inr (by omega)
  · exact Or.inr (le_trans hexpired hclock)

theorem remembers_remember {now : Int} (id : String) (hnow : a.now <= now) (h : Remembers g now a) :
    Remembers (g.remember id now) now a := by
  rcases h with ⟨exp, hexp, hle⟩ | hexpired
  · by_cases hid : a.id = id
    · refine Or.inl ⟨add now g.skew, ?_, ?_⟩
      · rw [hid]
        exact Finmap.lookup_insert g.seen
      · change a.now + g.skew.toInt <= now + g.skew.toInt
        omega
    · refine Or.inl ⟨exp, ?_, hle⟩
      change (g.seen.insert id (add now g.skew)).lookup a.id = some exp
      rw [Finmap.lookup_insert_of_ne g.seen hid, hexp]
  · exact Or.inr hexpired

theorem remembers_self (g : Guard) (c : Call) : Remembers (g.remember c.id c.now) c.now c :=
  Or.inl ⟨add c.now g.skew, Finmap.lookup_insert g.seen, le_refl _⟩

theorem remembers_call (c : Call) (hclock : clock <= c.now) (ha : a.now <= c.now)
    (h : Remembers g clock a) : Remembers (g.call c).2 c.now a := by
  unfold Guard.call
  rcases checkAndRecord_cases g c.key c.nonce c.ts c.now with
    ⟨g', heq, hg'⟩ | ⟨_, _, _, heq⟩
  · rw [heq]
    rcases hg' with rfl | rfl
    · exact remembers_mono hclock h
    · exact remembers_sweepLocked hclock h
  · rw [heq]
    exact remembers_remember _ ha (remembers_sweepLocked hclock h)

theorem remembers_accepted (h : (g.call c).1 = true) : Remembers (g.call c).2 c.now c := by
  unfold Guard.call at h ⊢
  rcases checkAndRecord_cases g c.key c.nonce c.ts c.now with
    ⟨g', heq, _⟩ | ⟨_, _, _, heq⟩
  · rw [heq] at h
    cases h
  · rw [heq]
    exact remembers_self (g.sweepLocked c.now) c

theorem call_skew (g : Guard) (c : Call) : (g.call c).2.skew = g.skew := by
  unfold Guard.call
  rcases checkAndRecord_cases g c.key c.nonce c.ts c.now with
    ⟨g', heq, rfl | rfl⟩ | ⟨_, _, _, heq⟩
  · rw [heq]
  · rw [heq]
    exact sweepLocked_skew g c.now
  · rw [heq]
    exact sweepLocked_skew g c.now

theorem call_ne_triple_of_remembers (hskew : 0 < g.skew)
    (hlives : EntryOutlivesTimestamp g.skew a) (hclock : clock <= c.now) (ha : a.now <= c.now)
    (hmem : Remembers g clock a) (hacc : (g.call c).1 = true) : a.triple ≠ c.triple := by
  intro htriple
  have hkey : a.key = c.key := congrArg (fun t => t.1) htriple
  have hnonce : a.nonce = c.nonce := congrArg (fun t => t.2.1) htriple
  have hts : a.ts = c.ts := congrArg (fun t => t.2.2) htriple
  have hid : a.id = nonceId c.key c.nonce := by
    rw [Call.id, hkey, hnonce]
  unfold Guard.call at hacc
  rcases checkAndRecord_cases g c.key c.nonce c.ts c.now with
    ⟨g', heq, _⟩ | ⟨_, hfresh, hexpired, _⟩
  · rw [heq] at hacc
    cases hacc
  · rcases hlives with ⟨hmax, hbehind⟩
    rw [hts] at hbehind
    have hwindow : c.now <= unix c.ts + g.skew.toInt :=
      now_le_of_freshTimestamp hskew hmax (lt_of_lt_of_le hbehind ha) hfresh
    have hlive : c.now < add a.now g.skew := by
      change c.now < a.now + g.skew.toInt
      omega
    have hswept := remembers_sweepLocked hclock hmem
    unfold Remembers at hswept
    rw [sweepLocked_skew] at hswept
    rcases hswept with ⟨exp, hexp, hle⟩ | hpast
    · rw [hid] at hexp
      have hdead := hexpired exp hexp
      omega
    · omega

/-!
# No replay along a run
-/

theorem accepted_ne_triple_of_remembers (hskew : 0 < g.skew)
    (hlives : EntryOutlivesTimestamp g.skew a) (ha : a.now <= clock)
    (hordered : ClockOrdered calls) (hclock : forall c, c ∈ calls -> clock <= c.now)
    (hmem : Remembers g clock a) : forall c, c ∈ g.accepted calls -> a.triple ≠ c.triple := by
  induction calls generalizing g clock with
  | nil =>
      intro c hc
      cases hc
  | cons d rest ih =>
      intro c hc
      have hd : clock <= d.now := hclock d List.mem_cons_self
      have had : a.now <= d.now := le_trans ha hd
      have hrest : forall e, e ∈ rest -> d.now <= e.now :=
        (List.pairwise_cons.mp hordered).left
      have htail : forall e, e ∈ (g.call d).2.accepted rest ->
          a.triple ≠ e.triple := by
        apply ih
        · rwa [call_skew]
        · rwa [call_skew]
        · exact had
        · exact (List.pairwise_cons.mp hordered).right
        · exact hrest
        · exact remembers_call d hd had hmem
      rw [Guard.accepted] at hc
      split at hc
      · rename_i hacc
        rcases List.mem_cons.mp hc with rfl | hc'
        · exact call_ne_triple_of_remembers hskew hlives hd had hmem hacc
        · exact htail c hc'
      · exact htail c hc

theorem noReplay_of_entryOutlivesTimestamp (hskew : 0 < g.skew) (hordered : ClockOrdered calls)
    (hlives : forall c, c ∈ calls -> EntryOutlivesTimestamp g.skew c) : NoReplay g calls := by
  induction calls generalizing g with
  | nil => exact List.nodup_nil
  | cons d rest ih =>
      have hrest : NoReplay (g.call d).2 rest := by
        apply ih
        · rwa [call_skew]
        · exact (List.pairwise_cons.mp hordered).right
        · intro c hc
          rw [call_skew]
          exact hlives c (List.mem_cons_of_mem d hc)
      unfold NoReplay
      rw [Guard.accepted]
      split
      · rename_i hacc
        rw [List.map_cons, List.nodup_cons]
        refine ⟨?_, hrest⟩
        intro hmem
        rcases List.mem_map.mp hmem with ⟨c, hc, htriple⟩
        have hskew' : 0 < (g.call d).2.skew := by
          rwa [call_skew]
        have hlives' : EntryOutlivesTimestamp (g.call d).2.skew d := by
          rw [call_skew]
          exact hlives d List.mem_cons_self
        exact accepted_ne_triple_of_remembers hskew' hlives' (le_refl d.now)
          (List.pairwise_cons.mp hordered).right
          (List.pairwise_cons.mp hordered).left
          (remembers_accepted hacc) c hc htriple.symm
      · exact hrest

/-!
# Replays of every other accepted call

The converse: when an accepted call's timestamp is not strictly behind the
clock, some later moment lies past the entry's expiry and inside the timestamp's
window, and the same request is accepted there.
-/

def EntriesExpireBy (g : Guard) (clock : Int) : Prop :=
  forall id exp, g.seen.lookup id = some exp -> exp <= add clock g.skew

theorem call_maxKeys (g : Guard) (c : Call) : (g.call c).2.maxKeys = g.maxKeys := by
  unfold Guard.call
  rcases checkAndRecord_cases g c.key c.nonce c.ts c.now with
    ⟨g', heq, rfl | rfl⟩ | ⟨_, _, _, heq⟩
  · rw [heq]
  · rw [heq]
    exact sweepLocked_maxKeys g c.now
  · rw [heq]
    exact sweepLocked_maxKeys g c.now

theorem entriesExpireBy_sweepLocked (now : Int) (h : EntriesExpireBy g clock) :
    EntriesExpireBy (g.sweepLocked now) clock := by
  intro id exp hexp
  rw [sweepLocked_skew]
  exact h id exp (sweepLocked_lookup_of_some hexp)

theorem entriesExpireBy_call (hnow : c.now <= clock) (h : EntriesExpireBy g clock) :
    EntriesExpireBy (g.call c).2 clock := by
  unfold Guard.call
  rcases checkAndRecord_cases g c.key c.nonce c.ts c.now with
    ⟨g', heq, rfl | rfl⟩ | ⟨_, _, _, heq⟩
  · rw [heq]
    exact h
  · rw [heq]
    exact entriesExpireBy_sweepLocked c.now h
  · rw [heq]
    intro id exp hexp
    rcases FiniteMap.lookup_insert_eq_some.mp hexp with ⟨_, rfl⟩ | ⟨_, hold⟩
    · change c.now + (g.sweepLocked c.now).skew.toInt <=
        clock + (g.sweepLocked c.now).skew.toInt
      omega
    · exact entriesExpireBy_sweepLocked c.now h id exp hold

theorem after_skew (g : Guard) (calls : List Call) : (g.after calls).skew = g.skew := by
  induction calls generalizing g with
  | nil => rfl
  | cons c rest ih => rw [Guard.after, ih, call_skew]

theorem after_maxKeys (g : Guard) (calls : List Call) : (g.after calls).maxKeys = g.maxKeys := by
  induction calls generalizing g with
  | nil => rfl
  | cons c rest ih => rw [Guard.after, ih, call_maxKeys]

theorem entriesExpireBy_after (hnow : forall c, c ∈ calls -> c.now <= clock)
    (h : EntriesExpireBy g clock) : EntriesExpireBy (g.after calls) clock := by
  induction calls generalizing g with
  | nil => exact h
  | cons c rest ih =>
      apply ih
      · intro d hd
        exact hnow d (List.mem_cons_of_mem c hd)
      · exact entriesExpireBy_call (hnow c List.mem_cons_self) h

theorem record_again {id : String} {exp later : Int} (hmax : 0 < g.maxKeys)
    (hid : g.seen.lookup id = some exp)
    (hexpired : forall k e, g.seen.lookup k = some e -> e <= later) :
    ((g.sweepLocked later).record id later).1 = true := by
  have hreplayed : (g.sweepLocked later).replayed id later = false := by
    apply replayed_eq_false.mpr
    intro e he
    exact hexpired id e (sweepLocked_lookup_of_some he)
  have hroom : Not ((g.sweepLocked later).maxKeys <=
      (g.sweepLocked later).seen.size ∧
        ((g.sweepLocked later).seen.lookup id).isNone = true) := by
    intro h
    rcases h with ⟨hfull, hnone⟩
    rcases sweepLocked_seen_cases g later with hseen | hseen
    · rw [hseen, hid] at hnone
      cases hnone
    · have hempty : (g.sweepLocked later).seen.size = 0 := by
        rw [hseen]
        apply FiniteMap.size_eq_zero_of_lookup
        intro k
        apply FiniteMap.lookup_filter_eq_none.mpr
        intro e he
        exact decide_eq_false (not_lt.mpr (hexpired k e he))
      rw [hempty, sweepLocked_maxKeys] at hfull
      omega
  unfold Guard.record
  rw [hreplayed, if_neg Bool.false_ne_true, if_neg hroom]

theorem call_again {later : Int} (hmax : 0 < g.maxKeys) (hbound : EntriesExpireBy g c.now)
    (hacc : (g.call c).1 = true) (hlater : add c.now g.skew <= later)
    (hfresh : g.freshTimestamp c.ts later = true) :
    ((g.call c).2.call { c with now := later }).1 = true := by
  have hskew := call_skew g c
  have hmaxKeys := call_maxKeys g c
  have hbound' := entriesExpireBy_call (le_refl c.now) hbound
  have hnonce : c.nonce ≠ "" ∧
      (g.call c).2 = (g.sweepLocked c.now).remember c.id c.now := by
    unfold Guard.call at hacc ⊢
    rcases checkAndRecord_cases g c.key c.nonce c.ts c.now with
      ⟨g', heq, _⟩ | ⟨hne, _, _, heq⟩
    · rw [heq] at hacc
      cases hacc
    · exact ⟨hne, by rw [heq]; rfl⟩
  have hfresh' : (g.call c).2.freshTimestamp c.ts later = true := by
    unfold Guard.freshTimestamp at hfresh ⊢
    rw [hskew]
    exact hfresh
  have hgate : Not (c.nonce = "" ∨
      (g.call c).2.freshTimestamp c.ts later = false) := by
    rw [hfresh']
    simp [hnonce.left]
  change ((g.call c).2.checkAndRecord c.key c.nonce c.ts later).1 = true
  unfold Guard.checkAndRecord
  rw [if_neg hgate]
  have hentry : (g.call c).2.seen.lookup c.id =
      some (add c.now (g.sweepLocked c.now).skew) := by
    rw [hnonce.right]
    exact Finmap.lookup_insert (g.sweepLocked c.now).seen
  apply record_again _ hentry
  · intro k e he
    have hle := hbound' k e he
    rw [hskew] at hle
    exact le_trans hle hlater
  · rw [hmaxKeys]
    exact hmax

/-- The moment at which a request that is not behind the clock can be replayed. -/
def replayTime (skew : Duration) (c : Call) : Int :=
  max (add c.now skew) (unix c.ts - skew.toInt)

theorem freshTimestamp_replayTime (hskew : 0 < g.skew)
    (hfresh : g.freshTimestamp c.ts c.now = true) (hbad : Not (EntryOutlivesTimestamp g.skew c)) :
    g.freshTimestamp c.ts (replayTime g.skew c) = true := by
  have hpos : (0 : Int) < g.skew.toInt := Int64.lt_iff_toInt_lt.mp hskew
  have hts := ((freshTimestamp_iff hskew c.ts c.now).mp hfresh).left
  apply (freshTimestamp_iff hskew c.ts (replayTime g.skew c)).mpr
  refine ⟨hts, ?_⟩
  have hreplay : replayTime g.skew c =
      max (c.now + g.skew.toInt) (unix c.ts - g.skew.toInt) := rfl
  by_cases hmax : g.skew = maxDuration
  · by_cases hpast : unix c.ts <= replayTime g.skew c
    · exact Or.inr (Or.inr ⟨hmax, hpast⟩)
    · exact Or.inl (by omega)
  · have hahead : c.now <= unix c.ts := by
      by_contra hbehind
      exact hbad ⟨hmax, by omega⟩
    exact Or.inl (by omega)

theorem call_replayTime (hskew : 0 < g.skew) (hmax : 0 < g.maxKeys)
    (hbound : EntriesExpireBy g c.now) (hacc : (g.call c).1 = true)
    (hbad : Not (EntryOutlivesTimestamp g.skew c)) :
    ((g.call c).2.call { c with now := replayTime g.skew c }).1 = true := by
  have hfresh : g.freshTimestamp c.ts c.now = true := by
    unfold Guard.call at hacc
    rcases checkAndRecord_cases g c.key c.nonce c.ts c.now with
      ⟨g', heq, _⟩ | ⟨_, hfresh, _, _⟩
    · rw [heq] at hacc
      cases hacc
    · exact hfresh
  exact call_again hmax hbound hacc (le_max_left _ _)
    (freshTimestamp_replayTime hskew hfresh hbad)

theorem le_replayTime {skew : Duration} (hskew : 0 < skew) (c : Call) :
    c.now <= replayTime skew c := by
  have hpos : (0 : Int) < skew.toInt := Int64.lt_iff_toInt_lt.mp hskew
  have hle : c.now <= c.now + skew.toInt := by omega
  exact le_trans hle (le_max_left _ _)

theorem not_noReplay_append {d : Call} (htriple : c.triple = d.triple)
    (hc : ((g.after calls).call c).1 = true) (hd : (((g.after calls).call c).2.call d).1 = true) :
    Not (NoReplay g (calls ++ [c, d])) := by
  unfold NoReplay
  rw [accepted_append, Guard.accepted, if_pos hc, Guard.accepted, if_pos hd,
    Guard.accepted, List.map_append]
  intro hnodup
  have htail := (List.nodup_append.mp hnodup).right.left
  simp [htriple] at htail

/-!
# The guard over whole runs

The nonce entry is kept for the skew after acceptance, which is enough exactly
for requests whose timestamp is strictly behind the clock.  Runs of such
requests accept nothing twice; and in any run, an accepted request that is not
of this kind is accepted again at its replay time.
-/

theorem checkAndRecord_noReplay_iff_entryOutlivesTimestamp
    (skew : Duration) (maxKeys : Int) (calls : List Call) (hskew : 0 < skew)
    (hordered : ClockOrdered calls) :
    ((forall c, c ∈ calls -> EntryOutlivesTimestamp skew c) ->
      NoReplay (newGuard skew maxKeys) calls) ∧
    (forall c, ClockOrdered (calls ++ [c]) ->
      (((newGuard skew maxKeys).after calls).call c).1 = true ->
      Not (EntryOutlivesTimestamp skew c) ->
      exists later, c.now <= later ∧
        Not (NoReplay (newGuard skew maxKeys)
          (calls ++ [c, { c with now := later }]))) := by
  have hgskew : (newGuard skew maxKeys).skew = skew := newGuard_skew maxKeys hskew
  constructor
  · intro hlives
    apply noReplay_of_entryOutlivesTimestamp
    · rwa [hgskew]
    · exact hordered
    · intro c hc
      rw [hgskew]
      exact hlives c hc
  · intro c hc hacc hbad
    have hnow : forall d, d ∈ calls -> d.now <= c.now := by
      intro d hd
      exact (List.pairwise_append.mp hc).right.right d hd c
        (List.mem_singleton_self c)
    have hrun : ((newGuard skew maxKeys).after calls).skew = skew := by
      rw [after_skew, hgskew]
    have hmax : 0 < ((newGuard skew maxKeys).after calls).maxKeys := by
      rw [after_maxKeys]
      exact newGuard_maxKeys_pos skew maxKeys
    have hbound : EntriesExpireBy ((newGuard skew maxKeys).after calls) c.now := by
      apply entriesExpireBy_after hnow
      intro id exp hexp
      cases hexp
    have hagain :
        ((((newGuard skew maxKeys).after calls).call c).2.call
          { c with now := replayTime skew c }).1 = true := by
      generalize (newGuard skew maxKeys).after calls = g at hrun hmax hbound hacc ⊢
      subst hrun
      exact call_replayTime hskew hmax hbound hacc hbad
    have htriple :
        c.triple = ({ c with now := replayTime skew c } : Call).triple := by
      unfold Call.triple
      dsimp only
    exact ⟨replayTime skew c, le_replayTime hskew c,
      not_noReplay_append htriple hacc hagain⟩

/-- A request stamped `ahead` seconds after the clock of its first presentation. -/
def stampedCall (ahead : Int64) (age : Int) : Call :=
  { key := "k"
    nonce := "n"
    ts := 1700000000 + ahead
    now := unix 1700000000 + age * second }

theorem stampedCall_noReplay_and_replayed :
    NoReplay (newGuard defaultClockSkew 10)
        [stampedCall (-1) 0, stampedCall (-1) 299] ∧
      exists later, (stampedCall 100 0).now <= later ∧
        Not (NoReplay (newGuard defaultClockSkew 10)
          ([] ++ [stampedCall 100 0, { stampedCall 100 0 with now := later }])) := by
  constructor
  · apply (checkAndRecord_noReplay_iff_entryOutlivesTimestamp defaultClockSkew 10
      [stampedCall (-1) 0, stampedCall (-1) 299] (by decide)
      (by unfold ClockOrdered; decide)).left
    unfold EntryOutlivesTimestamp
    decide
  · exact (checkAndRecord_noReplay_iff_entryOutlivesTimestamp defaultClockSkew 10
      [] (by decide) List.Pairwise.nil).right (stampedCall 100 0)
      (by unfold ClockOrdered; decide) (by decide)
      (by unfold EntryOutlivesTimestamp; decide)

/-- A request stamped 100 s ahead of the clock is accepted again 300 s later. -/
theorem stampedCall_accepted_twice :
    Not (forall (skew : Duration) (maxKeys : Int) (calls : List Call),
      0 < skew ->
      (forall c, c ∈ calls -> '\x00' ∉ c.key.toList) ->
      ClockOrdered calls ->
      NoReplay (newGuard skew maxKeys) calls) := by
  intro h
  have hrun := h defaultClockSkew 10 [stampedCall 100 0, stampedCall 100 300]
    (by decide) (by decide) (by unfold ClockOrdered; decide)
  unfold NoReplay at hrun
  exact absurd hrun (by decide)

end Keyauth
end Ephor
