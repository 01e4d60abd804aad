import Ephor.Server.Gate

/-!
# An over-quota mark

`markOverQuota` of `tunnel/server/gate.go` writes the cache entry that a refresh writes whole.
A refresh whose read was out when the mark was made may still store what it read, and the mark
is gone.  No other step lets a call through before the marked entry expires.
-/

namespace Ephor
namespace Server
namespace Gate

open Foundation
open Foundation.Transition (after emitted StepsMeet)

/-- The call's read was out, or its answer not yet stored, when the mark was made. -/
def begunBefore (marked : State) (i : Nat) : Bool :=
  match marked.calls i with
  | .reading _ _ => true
  | .storing _ _ _ _ => true
  | _ => false

def markedUntil (marked : State) (accountID : String) : Int :=
  ((marked.cache.lookup accountID).getD .zero).expires

/-- A read that was begun after the mark has answered not over quota. -/
def FreshAnswer (marked : State) (accountID : String) (notes : List Note) : Prop :=
  exists i ent, Note.read i accountID ent ∈ notes ∧ ent.overQuota = false ∧
    begunBefore marked i = false

variable (g : EntitlementGate)

/-- From the marked state on, no admitting call is let through before the entry has expired or a
read begun after the mark has answered not over quota. -/
def KeepsMark (marked : State) (accountID : String) (later : List Event) : Prop :=
  forall events e rest, later = events ++ e :: rest -> forall i kind, kind.Admits ->
    (after (step g) marked events).calls i ≠ .returned kind accountID true ->
    (after (step g) marked (events ++ [e])).calls i = .returned kind accountID true ->
    markedUntil marked accountID < (after (step g) marked events).now ∨
      FreshAnswer marked accountID (emitted (step g) (emit g) marked events)

/-- A call stored a decision that permits the account, made of a read begun before the mark. -/
def Note.stalePermit (marked : State) (accountID : String) : Note -> Bool
  | .stored i account _ _ d => account == accountID && d.permits && begunBefore marked i
  | _ => false

/-- The step undoes the mark before its entry has expired. -/
def StalePermit (marked : State) (accountID : String) (s : State) (e : Event) : Prop :=
  s.now <= markedUntil marked accountID ∧
    exists note, note ∈ emit g s e ∧ note.stalePermit marked accountID = true

instance (marked : State) (accountID : String) (s : State) (e : Event) :
    Decidable (StalePermit g marked accountID s e) :=
  inferInstanceAs (Decidable (_ ∧ _))

variable {g} {marked s : State} {accountID : String} {notes : List Note}

/-!
## What the mark leaves
-/

theorem denied_mark (hgates : g.gates accountID = true) (s : State) :
    Denied (step g s (.markOverQuota accountID)) accountID := by
  simp only [step]
  rw [if_pos hgates]
  exact ⟨_, Finmap.lookup_insert _, permits_of_overQuota rfl⟩

/-- An answer that a call begun after the mark is about to store was read after the mark. -/
def ReadSince (marked s : State) (accountID : String) (notes : List Note) : Prop :=
  forall i kind ent expires, s.calls i = .storing kind accountID ent expires ->
    begunBefore marked i = false -> Note.read i accountID ent ∈ notes

/-- The mark is spent, or the account is still denied. -/
structure Watched (marked s : State) (accountID : String) (notes : List Note) : Prop where
  reads : ReadSince marked s accountID notes
  denies : markedUntil marked accountID < s.now ∨ FreshAnswer marked accountID notes ∨
    Denied s accountID

theorem FreshAnswer.mono {more : List Note} (h : FreshAnswer marked accountID notes) :
    FreshAnswer marked accountID (notes ++ more) := by
  rcases h with ⟨i, ent, hread, hquota, hbegun⟩
  exact ⟨i, ent, List.mem_append_left more hread, hquota, hbegun⟩

theorem readSince_step {e : Event} (h : ReadSince marked s accountID notes) :
    ReadSince marked (step g s e) accountID (notes ++ emit g s e) := by
  intro i kind ent expires hcall hbegun
  have hmoves := moves_step g s e i
  rw [hcall] at hmoves
  generalize hc : Call.storing kind accountID ent expires = c at hmoves
  cases hmoves with
  | same => exact List.mem_append_left _ (h i kind ent expires hc.symm hbegun)
  | pending c hpending =>
      rw [<- hc] at hpending
      cases hpending
  | read kind' account' ent' a hevent hreading hread =>
      cases hc
      subst hevent
      exact List.mem_append_right _ (mem_emit_read hreading hread)
  | returns kind' account' b _ => cases hc

theorem storesNoPermit_of_watched {e : Event} (h : ReadSince marked s accountID notes)
    (hstale : ¬ StalePermit g marked accountID s e) :
    markedUntil marked accountID < s.now ∨ FreshAnswer marked accountID notes ∨
      StoresNoPermit accountID (emit g s e) := by
  by_contra hnone
  simp only [not_or] at hnone
  rcases hnone with ⟨hnow, hfresh, hstores⟩
  apply hstores
  intro i now ent d hmem
  by_contra hpermits
  have hpermits := Bool.eq_true_of_not_eq_false hpermits
  cases hbegun : begunBefore marked i with
  | true =>
      refine hstale ⟨Int.not_lt.mp hnow, _, hmem, ?_⟩
      simp [Note.stalePermit, hpermits, hbegun]
  | false =>
      rcases storing_of_stored hmem with ⟨kind, expires, hcall, rfl⟩
      have hgrants := grants_of_permits_settle hpermits
      exact hfresh ⟨i, ent, h i kind ent expires hcall hbegun, hgrants.1.2.1, hbegun⟩

theorem watched_step {e : Event} (h : Watched marked s accountID notes)
    (hstale : ¬ StalePermit g marked accountID s e) :
    Watched marked (step g s e) accountID (notes ++ emit g s e) := by
  refine ⟨readSince_step h.reads, ?_⟩
  have hlater := now_le_step g s e
  rcases h.denies with hnow | hfresh | hdenied
  · exact Or.inl (Int.lt_of_lt_of_le hnow hlater)
  · exact Or.inr (Or.inl hfresh.mono)
  · rcases storesNoPermit_of_watched h.reads hstale with hnow | hfresh | hstores
    · exact Or.inl (Int.lt_of_lt_of_le hnow hlater)
    · exact Or.inr (Or.inl hfresh.mono)
    · exact Or.inr (Or.inr (denied_step hdenied hstores))

theorem watched_mark (hgates : g.gates accountID = true) (s : State) :
    Watched (step g s (.markOverQuota accountID)) (step g s (.markOverQuota accountID)) accountID
      [] := by
  refine ⟨?_, Or.inr (Or.inr (denied_mark hgates s))⟩
  intro i kind ent expires hcall hbegun
  rw [begunBefore, hcall] at hbegun
  cases hbegun

/-!
## Whole runs
-/

/-- In a run in which no read begun before the mark stores a permit before the marked entry has
expired, the mark is kept. -/
theorem mark_kept (accountID : String) (hgates : g.gates accountID = true) (now : Int)
    (front later : List Event)
    (hmeet : StepsMeet (step g)
      (fun s e => ¬ StalePermit g (g.run now (front ++ [.markOverQuota accountID])) accountID s e)
      (g.run now (front ++ [.markOverQuota accountID])) later) :
    KeepsMark g (g.run now (front ++ [.markOverQuota accountID])) accountID later := by
  have hmark := watched_mark hgates (g.run now front)
  have hrun : step g (g.run now front) (.markOverQuota accountID) =
      g.run now (front ++ [.markOverQuota accountID]) :=
    (Transition.after_append (step g) (State.init now) front [.markOverQuota accountID]).symm
  rw [hrun] at hmark
  generalize g.run now (front ++ [.markOverQuota accountID]) = marked at hmark hmeet ⊢
  have hstep : forall s notes e, Watched marked s accountID notes ->
      ¬ StalePermit g marked accountID s e ->
      Watched marked (step g s e) accountID (notes ++ emit g s e) :=
    fun s notes e hwatched hstale => watched_step hwatched hstale
  intro events e rest hlater i kind hkind hnot hreturned
  rw [hlater] at hmeet
  rcases Transition.stepsMeet_of_append hmeet with ⟨hbefore, hhere, -⟩
  have hwatched := Transition.invariant_emitted hstep hmark hbefore
  rw [List.nil_append] at hwatched
  rw [Transition.after_append] at hreturned
  rcases storesNoPermit_of_watched hwatched.reads hhere with hnow | hfresh | hstores
  · exact Or.inl hnow
  · exact Or.inr hfresh
  · rcases hwatched.denies with hnow | hfresh | hdenied
    · exact Or.inl hnow
    · exact Or.inr hfresh
    · exact absurd hreturned (refuses_step hkind hgates hdenied hstores hnot)

/-- A tunnel that is connected when its account is marked: the next call cuts it. -/
theorem connected_mark_kept :
    KeepsMark sampleGate (sampleGate.run 0 (grantedConnect ++ [.markOverQuota "acct"])) "acct"
      [.begin 1 .allowContinue "acct", .advance 1, .advance 1] :=
  mark_kept "acct" (by decide) 0 grantedConnect _ (by decide +kernel)

/-!
The read of a connect is out when the mark is made.  Its answer is stored afterwards, and a call
that begins then is let through.
-/

def readOut : List Event :=
  [.begin 0 .allowConnect "acct", .advance 0]

def readReturns : List Event :=
  [.answer 0 grantingAnswer, .advance 0, .begin 1 .allowContinue "acct", .advance 1]

def readOutMarked : State :=
  sampleGate.run 0 (readOut ++ [.markOverQuota "acct"])

def readReturned : State :=
  after (step sampleGate) readOutMarked readReturns

theorem mark_is_lost :
    ¬ forall (g : EntitlementGate) accountID now front later, g.gates accountID = true ->
      KeepsMark g (g.run now (front ++ [.markOverQuota accountID])) accountID later := by
  intro h
  have hlookedUp : readReturned.calls 1 ≠ .returned .allowContinue "acct" true ∧
      (step sampleGate readReturned (.advance 1)).calls 1 =
        .returned .allowContinue "acct" true := by
    decide +kernel
  have hmarked : ¬ markedUntil readOutMarked "acct" < readReturned.now ∧
      begunBefore readOutMarked 0 = true := by
    decide +kernel
  have hnotes : emitted (step sampleGate) (emit sampleGate) readOutMarked readReturns =
      [.read 0 "acct" ⟨true, false, false⟩,
        .stored 0 "acct" 0 ⟨true, false, false⟩ ⟨true, false, false, 30000000000⟩] := by
    decide +kernel
  have hreturned : (after (step sampleGate) readOutMarked (readReturns ++ [.advance 1])).calls 1 =
      .returned .allowContinue "acct" true := by
    rw [Transition.after_append]
    exact hlookedUp.2
  rcases h sampleGate "acct" 0 readOut _ (by decide) readReturns (.advance 1) [] rfl 1
    .allowContinue Kind.noConfusion hlookedUp.1 hreturned with hexpired | hfresh
  · exact hmarked.1 hexpired
  · rcases hfresh with ⟨i, ent, hread, -, hbegun⟩
    change Note.read i "acct" ent ∈
      emitted (step sampleGate) (emit sampleGate) readOutMarked readReturns at hread
    rw [hnotes] at hread
    simp only [List.mem_cons, Note.read.injEq, List.not_mem_nil, or_false] at hread
    rcases hread with ⟨hi, -⟩ | hstored
    · rw [hi] at hbegun
      exact absurd (hmarked.2.symm.trans hbegun) (by decide)
    · cases hstored

end Gate
end Server
end Ephor
