import Mathlib.Algebra.Order.BigOperators.Group.List
import Mathlib.Algebra.Order.Group.Nat
import Ephor.Gateway.LegacyNet

/-!
# Submission

`pier-gateway/src/smtp_submission.rs`: `SmtpLine` feeds the lines of a connection to a
session of kotva-mail and hands every submission that the session accepts to the sink, once
for each recipient.  The session and the conversion to a draft are not part of the repository
and stay abstract; of the session it is assumed how it reads a message.  A submission's
delivery options are read by nothing here and are left out.
-/

namespace Ephor
namespace Gateway
namespace SmtpSubmission

open Foundation
open Foundation.Text
open LegacyNet

/-!
# Routing
-/

structure Submission where
  mailFrom : Str
  rcptTo : List Str
  data : Bytes
deriving DecidableEq

inductive Destination where
  | native
  | legacy
deriving DecidableEq

structure RoutedSubmission (Mote : Type) where
  mailFrom : Str
  rcptTo : Str
  destination : Destination
  rfc5322 : Bytes
  mote : Mote
deriving DecidableEq

def domainOf (addr : Str) : Option Str :=
  let a := ((trim addr).dropWhile fun c => c == '<').rdropWhile fun c => c == '>'
  (((rsplitOnce '@' a).map Prod.snd).filter fun d => !d.isEmpty).map lower

structure SmtpSession (σ : Type) where
  feedLineBytes : σ -> Bytes -> Str × σ
  takeSubmissions : σ -> List Submission × σ

/-- What an `SmtpLine` is set up with, `build_mote_draft`, and what its readings of the clock
return, one after the other. -/
structure Setting (Mote : Type) where
  nativeDomains : List Str
  buildMoteDraft : Bytes -> Nat -> Mote
  nowMs : Nat -> Nat

/-- `SmtpLine`, with the calls of `SubmissionSink::deliver` so far. -/
structure SmtpLine (σ Mote : Type) where
  session : σ
  readings : Nat
  delivered : List (RoutedSubmission Mote)

section Line

variable {σ Mote : Type} (setting : Setting Mote) (smtp : SmtpSession σ)

def isNative (rcpt : Str) : Bool :=
  match domainOf rcpt with
  | some d => setting.nativeDomains.contains d
  | none => false

def routed (now : Nat) (sub : Submission) (rcpt : Str) : RoutedSubmission Mote where
  mailFrom := sub.mailFrom
  rcptTo := rcpt
  destination := if isNative setting rcpt then Destination.native else Destination.legacy
  rfc5322 := sub.data
  mote := setting.buildMoteDraft sub.data now

def routeOne (now : Nat) (sub : Submission) : List (RoutedSubmission Mote) :=
  sub.rcptTo.map (routed setting now sub)

def routePending (s : SmtpLine σ Mote) : SmtpLine σ Mote :=
  let taken := smtp.takeSubmissions s.session
  { session := taken.2
    readings := s.readings + 1
    delivered := s.delivered ++ taken.1.flatMap (routeOne setting (setting.nowMs s.readings)) }

def feedLineBytes (s : SmtpLine σ Mote) (line : Bytes) : Str × SmtpLine σ Mote :=
  let fed := smtp.feedLineBytes s.session line
  (fed.1, routePending setting smtp { s with session := fed.2 })

def isQuit (line : Str) : Bool :=
  verbOf line == "QUIT".toList

/-- `impl LineProtocol for SmtpLine`. -/
def lineProtocol : LineProtocol (SmtpLine σ Mote) where
  feedLineBytes := feedLineBytes setting smtp
  isStarttls := fun line => verbOf line == "STARTTLS".toList
  acceptsUpgrade := fun reply => "220".toList.isPrefixOf reply
  isQuit := isQuit

end Line

/-!
# A message in the data phase
-/

/-- How a session reads a message: `inData` says what it has of it. -/
structure ReadsData {σ : Type} (smtp : SmtpSession σ)
    (inData : σ -> Str -> List Str -> Bytes -> Prop) : Prop where
  content : forall {s : σ} {mailFrom : Str} {rcptTo : List Str} {data line : Bytes},
    inData s mailFrom rcptTo data -> line ≠ MxSession.dot ->
      (smtp.takeSubmissions (smtp.feedLineBytes s line).2).1 = [] ∧
        inData (smtp.takeSubmissions (smtp.feedLineBytes s line).2).2 mailFrom rcptTo
          (data ++ (MxSession.unstuff line ++ crlf))
  completes : forall {s : σ} {mailFrom : Str} {rcptTo : List Str} {data : Bytes},
    inData s mailFrom rcptTo data ->
      (smtp.takeSubmissions (smtp.feedLineBytes s MxSession.dot).2).1 = [⟨mailFrom, rcptTo, data⟩]

/-- Every line feed comes after a carriage return, and the message ends in both. -/
def Framed (message : Bytes) : Prop :=
  crlf <:+ message ∧ forall front back, message = front ++ lineFeed :: back ->
    front.getLast? = some carriageReturn

/-- The lines of the message, each with the carriage return before its line feed and the dot
that is added to it, fit what `read_line_capped` holds. -/
def LinesFit (message : Bytes) : Prop :=
  forall line, line ∈ sentLines message -> (stuff line).length <= LegacyNet.maxLine

section Carried

variable {σ Mote : Type} (setting : Setting Mote) (smtp : SmtpSession σ)
variable (handshake : Reader -> Option Reader)

def served (n : Nat) (c : Connection (SmtpLine σ Mote)) : Connection (SmtpLine σ Mote) :=
  (turn (lineProtocol setting smtp) handshake)^[n] c

/--
The loop gets to the terminating dot: it is still serving, has upgraded nothing and has called
nothing.  The next turn reads the dot and calls the sink with the message, once for each
recipient.
-/
def Carried (c : Connection (SmtpLine σ Mote)) (sub : Submission) (rest : Bytes) : Prop :=
  exists n now,
    (served setting smtp handshake n c).status = Status.serving ∧
    (served setting smtp handshake n c).upgrades = c.upgrades ∧
    (served setting smtp handshake n c).reader.pending = MxSession.dot ++ crlf ++ rest ∧
    (served setting smtp handshake n c).proto.delivered = c.proto.delivered ∧
    (served setting smtp handshake (n + 1) c).proto.delivered =
      c.proto.delivered ++ sub.rcptTo.map (routed setting now sub)

end Carried

/-!
# What the session is fed
-/

/-- The line is not taken for the command that ends a session. -/
def Quiet (line : Bytes) : Prop :=
  isQuit (fromUtf8Lossy (command (stuff line))) = false

def received (lines : List Bytes) : Bytes :=
  lines.flatMap fun line => command line ++ crlf

theorem command_stuff_ne_dot (line : Bytes) : command (stuff line) ≠ MxSession.dot := by
  rw [command_stuff]
  exact stuff_ne_dot (command line)

theorem flatMap_eq_flatMap_iff {α β : Type} {f g : α -> List β} {xs : List α}
    (h : forall x, x ∈ xs -> (f x).length <= (g x).length) :
    xs.flatMap f = xs.flatMap g <-> forall x, x ∈ xs -> f x = g x := by
  constructor
  · intro heq
    induction xs with
    | nil => exact fun x hx => absurd hx List.not_mem_nil
    | cons a xs ih =>
        have htail : forall x, x ∈ xs -> (f x).length <= (g x).length :=
          (List.forall_mem_cons.mp h).2
        have hle : (xs.flatMap f).length <= (xs.flatMap g).length := by
          rw [List.length_flatMap, List.length_flatMap]
          exact List.sum_le_sum htail
        have hhead := h a List.mem_cons_self
        rw [List.flatMap_cons, List.flatMap_cons] at heq
        have hlength := congrArg List.length heq
        rw [List.length_append, List.length_append] at hlength
        rcases List.append_inj heq (by omega) with ⟨hfirst, hrest⟩
        intro x hx
        rcases List.mem_cons.mp hx with hxa | hmem
        · rw [hxa]
          exact hfirst
        · exact ih htail hrest x hmem
  · exact List.flatMap_congr

theorem command_eq_iff {front : Bytes} (hfront : lineFeed ∉ front) :
    command (front ++ [carriageReturn]) ++ crlf = front ++ [carriageReturn] ++ [lineFeed] <->
      Not ([carriageReturn, carriageReturn] <:+ front ++ [carriageReturn]) := by
  rw [command_return]
  change command front ++ ([carriageReturn] ++ [lineFeed]) = _ <-> _
  rw [<- List.append_assoc, List.append_left_inj, List.append_left_inj,
    command_eq_self_iff hfront]
  apply not_congr
  constructor
  · intro hlast
    rcases List.getLast?_eq_some_iff.mp hlast with ⟨before, rfl⟩
    exact ⟨before, by rw [List.append_assoc]; rfl⟩
  · intro ⟨before, hbefore⟩
    have hcut : before ++ [carriageReturn] ++ [carriageReturn] = front ++ [carriageReturn] := by
      rw [<- hbefore, List.append_assoc]
      rfl
    rw [<- List.append_cancel_right hcut, List.getLast?_concat]

theorem getLast?_join (lines : List Bytes) :
    (Lines.join lineFeed lines).getLast? ≠ some carriageReturn := by
  induction lines using List.reverseRecOn with
  | nil => exact fun h => nomatch h
  | append_singleton lines line =>
      rw [Lines.join_append, Lines.join_cons]
      change (Lines.join lineFeed lines ++ (line ++ [lineFeed])).getLast? ≠ _
      rw [<- List.append_assoc, List.getLast?_concat]
      decide

theorem ends_of_framed {message line : Bytes} (h : Framed message)
    (hline : line ∈ sentLines message) : exists front, line = front ++ [carriageReturn] := by
  rcases List.append_of_mem hline with ⟨before, behind, hsplit⟩
  have hmessage : message = Lines.join lineFeed before ++ line ++
      lineFeed :: Lines.join lineFeed behind := by
    have hjoin := join_sentLines message
    rw [completed, if_pos h.1, List.append_nil, hsplit, Lines.join_append, Lines.join_cons,
      <- List.append_assoc] at hjoin
    exact hjoin.symm
  have hlast := h.2 _ _ hmessage
  cases line using List.reverseRecOn with
  | nil =>
      rw [List.append_nil] at hlast
      exact absurd hlast (getLast?_join before)
  | append_singleton front b =>
      rw [<- List.append_assoc, List.getLast?_concat] at hlast
      injection hlast with hb
      exact ⟨front, by rw [hb]⟩

theorem framed_iff {message : Bytes} :
    Framed message <-> crlf <:+ message ∧
      forall line, line ∈ sentLines message -> line.getLast? = some carriageReturn := by
  constructor
  · intro h
    refine ⟨h.1, ?_⟩
    intro line hline
    rcases ends_of_framed h hline with ⟨front, rfl⟩
    exact List.getLast?_concat
  · intro ⟨hends, hlines⟩
    refine ⟨hends, ?_⟩
    intro front back hmessage
    -- What stands before the line feed on its line.
    have hfree := Lines.mark_not_mem_split lineFeed front
    have hfront := Lines.join_split lineFeed front
    have hline : (Lines.split lineFeed front).2 ∈ sentLines message := by
      have hsplit := Lines.split_join_append lineFeed hfree.1
        ((Lines.split lineFeed front).2 ++ lineFeed :: back)
      rw [<- List.append_assoc, hfront, Lines.split_line lineFeed hfree.2] at hsplit
      rw [sentLines, completed, if_pos hends, List.append_nil, hmessage, hsplit]
      exact List.mem_append_right _ List.mem_cons_self
    rw [<- hfront, List.getLast?_append, hlines _ hline]
    rfl

instance (message : Bytes) : Decidable (Framed message) :=
  decidable_of_iff _ framed_iff.symm

instance (message : Bytes) : Decidable (LinesFit message) :=
  inferInstanceAs (Decidable (forall line, line ∈ sentLines message -> _))

instance (line : Bytes) : Decidable (Quiet line) :=
  inferInstanceAs (Decidable (_ = _))

theorem received_eq_iff {message : Bytes} (h : Framed message) :
    received (sentLines message) = message <->
      forall line, line ∈ sentLines message ->
        Not ([carriageReturn, carriageReturn] <:+ line) := by
  have hjoin : (sentLines message).flatMap (fun line => line ++ [lineFeed]) = message := by
    have hjoin := join_sentLines message
    rw [completed, if_pos h.1, List.append_nil] at hjoin
    exact hjoin
  have hshort : forall line, line ∈ sentLines message ->
      (command line ++ crlf).length <= (line ++ [lineFeed]).length := by
    intro line hline
    rcases ends_of_framed h hline with ⟨front, rfl⟩
    have hle := length_command_le front
    rw [command_return, List.length_append, List.length_append, List.length_append]
    change _ + 2 <= _ + 1 + 1
    omega
  have hpieces := flatMap_eq_flatMap_iff hshort
  rw [hjoin] at hpieces
  rw [received, hpieces]
  apply forall₂_congr
  intro line hline
  have hfeed := lineFeed_not_mem hline
  rcases ends_of_framed h hline with ⟨front, rfl⟩
  rw [List.mem_append, not_or] at hfeed
  exact command_eq_iff hfeed.1

section Reading

variable {σ Mote : Type} (setting : Setting Mote) {smtp : SmtpSession σ}
variable (handshake : Reader -> Option Reader)
variable {inData : σ -> Str -> List Str -> Bytes -> Prop}

variable (inData) in
/-- A connection in the data phase: what its session has, and what is still to come. -/
structure AtData (c : Connection (SmtpLine σ Mote)) (sub : Submission) (pending : Bytes) :
    Prop where
  secured : c.secured = true
  serving : c.status = Status.serving
  pending : c.reader.pending = pending
  session : inData c.proto.session sub.mailFrom sub.rcptTo sub.data

theorem turn_content (hreads : ReadsData smtp inData) {c : Connection (SmtpLine σ Mote)}
    {mailFrom : Str} {rcptTo : List Str} {data line rest : Bytes}
    (hdata : AtData inData c ⟨mailFrom, rcptTo, data⟩ (stuff line ++ lineFeed :: rest))
    (hline : lineFeed ∉ line) (hfits : (stuff line).length <= LegacyNet.maxLine) :
    exists next, (forall n, served setting smtp handshake (n + 1) c =
        served setting smtp handshake n next) ∧
      next.upgrades = c.upgrades ∧ next.proto.delivered = c.proto.delivered ∧
      (Quiet line ->
        AtData inData next ⟨mailFrom, rcptTo, data ++ (command line ++ crlf)⟩ rest) ∧
      (Not (Quiet line) -> next.status ≠ Status.serving) := by
  rcases @turn_line _ (lineProtocol setting smtp) handshake c hdata.secured hdata.serving
    (stuff line) rest (lineFeed_not_mem_stuff hline) hdata.pending hfits
    with ⟨reader, written, hpending, hturn⟩
  rcases hreads.content hdata.session (command_stuff_ne_dot line) with ⟨hnone, hsession⟩
  rw [command_stuff, unstuff_stuff, <- command_stuff] at hsession
  refine ⟨turn (lineProtocol setting smtp) handshake c, fun _ => rfl, ?_⟩
  rw [hturn]
  refine ⟨rfl, ?_, ?_, ?_⟩
  · change c.proto.delivered ++ List.flatMap _ _ = _
    rw [hnone, List.flatMap_nil, List.append_nil]
  · intro hquiet
    exact ⟨hdata.secured, if_neg (Bool.eq_false_iff.mp hquiet), hpending, hsession⟩
  · intro hloud
    -- The session was ended inside the message.
    change (if isQuit _ then Status.ended else Status.serving) ≠ Status.serving
    rw [if_pos (Bool.of_not_eq_false hloud)]
    decide

theorem turn_dot (hreads : ReadsData smtp inData) {c : Connection (SmtpLine σ Mote)}
    {sub : Submission} {rest : Bytes}
    (hdata : AtData inData c sub (MxSession.dot ++ crlf ++ rest)) :
    (turn (lineProtocol setting smtp) handshake c).reader.pending = rest ∧
      exists now, (turn (lineProtocol setting smtp) handshake c).proto.delivered =
        c.proto.delivered ++ sub.rcptTo.map (routed setting now sub) := by
  rcases @turn_line _ (lineProtocol setting smtp) handshake c hdata.secured hdata.serving
    [0x2E, carriageReturn] rest (by decide) hdata.pending (by decide)
    with ⟨reader, written, hpending, hturn⟩
  rw [hturn]
  refine ⟨hpending, setting.nowMs c.proto.readings, ?_⟩
  change c.proto.delivered ++ List.flatMap _
    (smtp.takeSubmissions (smtp.feedLineBytes c.proto.session MxSession.dot).2).1 = _
  rw [hreads.completes hdata.session, List.flatMap_singleton]
  rfl

theorem served_content (hreads : ReadsData smtp inData) {c : Connection (SmtpLine σ Mote)}
    {mailFrom : Str} {rcptTo : List Str} {data tail : Bytes} {lines : List Bytes}
    (hdata : AtData inData c ⟨mailFrom, rcptTo, data⟩
      (Lines.join lineFeed (lines.map stuff) ++ tail))
    (hlines : forall line, line ∈ lines -> lineFeed ∉ line)
    (hfits : forall line, line ∈ lines -> (stuff line).length <= LegacyNet.maxLine)
    (hquiet : forall line, line ∈ lines -> Quiet line) :
    AtData inData (served setting smtp handshake lines.length c)
        ⟨mailFrom, rcptTo, data ++ received lines⟩ tail ∧
      (served setting smtp handshake lines.length c).upgrades = c.upgrades ∧
      (served setting smtp handshake lines.length c).proto.delivered = c.proto.delivered := by
  induction lines generalizing c data with
  | nil =>
      refine ⟨?_, rfl, rfl⟩
      have heq : data ++ received [] = data := List.append_nil data
      rw [heq]
      exact hdata
  | cons line lines ih =>
      rw [List.map_cons, Lines.join_cons, List.append_assoc, List.cons_append] at hdata
      rcases turn_content setting handshake hreads hdata
        (hlines line List.mem_cons_self) (hfits line List.mem_cons_self)
        with ⟨next, hstep, hupgrades, hdelivered, hnext, _⟩
      have hrest := ih (hnext (hquiet line List.mem_cons_self))
        (List.forall_mem_cons.mp hlines).2
        (List.forall_mem_cons.mp hfits).2
        (List.forall_mem_cons.mp hquiet).2
      rw [List.length_cons, hstep, <- hupgrades, <- hdelivered]
      rw [List.append_assoc] at hrest
      exact hrest

theorem quiet_of_served (hreads : ReadsData smtp inData) {c : Connection (SmtpLine σ Mote)}
    {mailFrom : Str} {rcptTo : List Str} {data rest : Bytes} {lines : List Bytes}
    (hdata : AtData inData c ⟨mailFrom, rcptTo, data⟩
      (Lines.join lineFeed (lines.map stuff) ++ (MxSession.dot ++ crlf ++ rest)))
    (hlines : forall line, line ∈ lines -> lineFeed ∉ line)
    (hfits : forall line, line ∈ lines -> (stuff line).length <= LegacyNet.maxLine)
    {n : Nat} (hserving : (served setting smtp handshake n c).status = Status.serving)
    (hpending : (served setting smtp handshake n c).reader.pending =
      MxSession.dot ++ crlf ++ rest) :
    n = lines.length ∧ forall line, line ∈ lines -> Quiet line := by
  induction lines generalizing c data n with
  | nil =>
      cases n with
      | zero => exact ⟨rfl, fun line hline => absurd hline List.not_mem_nil⟩
      | succ n =>
          -- Past the dot there is less to come.
          have hturn := (turn_dot setting handshake hreads hdata).1
          have hsecured := (@turn_pending _ (lineProtocol setting smtp) handshake c
            hdata.secured).1
          have hle := @iterate_pending_le _ (lineProtocol setting smtp) handshake _ hsecured n
          rw [served, Function.iterate_succ_apply] at hpending
          rw [hpending, hturn, List.length_append] at hle
          have hpos : 0 < (MxSession.dot ++ crlf).length := by decide
          omega
  | cons line lines ih =>
      rw [List.map_cons, Lines.join_cons, List.append_assoc, List.cons_append] at hdata
      cases n with
      | zero =>
          have hlength := congrArg List.length (hdata.pending.symm.trans hpending)
          simp only [List.length_append, List.length_cons] at hlength
          omega
      | succ n =>
          rcases turn_content setting handshake hreads hdata
            (hlines line List.mem_cons_self) (hfits line List.mem_cons_self)
            with ⟨next, hstep, _, _, hnext, hended⟩
          rw [hstep] at hserving hpending
          by_cases hquiet : Quiet line
          · rcases ih (hnext hquiet) (List.forall_mem_cons.mp hlines).2
              (List.forall_mem_cons.mp hfits).2 hserving hpending
              with ⟨hn, hall⟩
            refine ⟨by rw [hn, List.length_cons], ?_⟩
            intro l hl
            rcases List.mem_cons.mp hl with heq | hmem
            · rw [heq]
              exact hquiet
            · exact hall l hmem
          · rw [served, iterate_of_not_serving (hended hquiet)] at hserving
            exact absurd hserving (hended hquiet)

theorem served_calls (hreads : ReadsData smtp inData) {c : Connection (SmtpLine σ Mote)}
    {mailFrom : Str} {rcptTo : List Str} {rest : Bytes} {lines : List Bytes}
    (hdata : AtData inData c ⟨mailFrom, rcptTo, []⟩
      (Lines.join lineFeed (lines.map stuff) ++ (MxSession.dot ++ crlf ++ rest)))
    (hlines : forall line, line ∈ lines -> lineFeed ∉ line)
    (hfits : forall line, line ∈ lines -> (stuff line).length <= LegacyNet.maxLine)
    (hquiet : forall line, line ∈ lines -> Quiet line) :
    exists now, (served setting smtp handshake (lines.length + 1) c).proto.delivered =
      c.proto.delivered ++ rcptTo.map (routed setting now ⟨mailFrom, rcptTo, received lines⟩) := by
  rcases served_content setting handshake hreads hdata hlines hfits hquiet
    with ⟨hat, _, hdelivered⟩
  rcases (turn_dot setting handshake hreads hat).2 with ⟨now, hcall⟩
  refine ⟨now, ?_⟩
  rw [served, Function.iterate_succ_apply']
  rw [hdelivered] at hcall
  exact hcall

theorem atData_lines {c : Connection (SmtpLine σ Mote)} {sub : Submission} {message rest : Bytes}
    (hdata : AtData inData c sub (dataBytes message ++ rest)) :
    AtData inData c sub (Lines.join lineFeed ((sentLines message).map stuff) ++
      (MxSession.dot ++ crlf ++ rest)) := by
  rw [dataBytes_eq, Lines.join_append, List.append_assoc] at hdata
  exact hdata

section Message

variable {c : Connection (SmtpLine σ Mote)} {mailFrom : Str} {rcptTo : List Str}
variable {message rest : Bytes} (hreads : ReadsData smtp inData)
  (hdata : AtData inData c ⟨mailFrom, rcptTo, []⟩ (dataBytes message ++ rest))

include hreads hdata

theorem quiet_of_carried (hfits : LinesFit message)
    (h : Carried setting smtp handshake c ⟨mailFrom, rcptTo, message⟩ rest)
    {line : Bytes} (hline : line ∈ sentLines message) : Quiet line := by
  rcases h with ⟨n, now, hserving, _, hpending, _⟩
  exact (quiet_of_served setting handshake hreads (atData_lines hdata)
    (fun l hl => lineFeed_not_mem hl) hfits hserving hpending).2 line hline

theorem received_of_carried (hfits : LinesFit message)
    (h : Carried setting smtp handshake c ⟨mailFrom, rcptTo, message⟩ rest)
    (hrcpt : rcptTo ≠ []) : received (sentLines message) = message := by
  rcases h with ⟨n, now, hserving, _, hpending, _, hdelivered⟩
  have hsent := atData_lines hdata
  have hlines : forall line, line ∈ sentLines message -> lineFeed ∉ line :=
    fun line hline => lineFeed_not_mem hline
  rcases quiet_of_served setting handshake hreads hsent hlines hfits hserving hpending
    with ⟨rfl, hquiet⟩
  rcases served_calls setting handshake hreads hsent hlines hfits hquiet with ⟨now', hcall⟩
  rw [hcall, List.append_cancel_left_eq] at hdelivered
  cases rcptTo with
  | nil => exact absurd rfl hrcpt
  | cons rcpt rcptTo =>
      injection hdelivered with hfirst _
      exact congrArg RoutedSubmission.rfc5322 hfirst

theorem carried_of_received (hfits : LinesFit message) (hquiet : forall line, line ∈ sentLines message -> Quiet line)
    (hexact : rcptTo = [] ∨ received (sentLines message) = message) :
    Carried setting smtp handshake c ⟨mailFrom, rcptTo, message⟩ rest := by
  have hsent := atData_lines hdata
  have hlines : forall line, line ∈ sentLines message -> lineFeed ∉ line :=
    fun line hline => lineFeed_not_mem hline
  rcases served_content setting handshake hreads hsent hlines hfits hquiet
    with ⟨hat, hupgrades, hdelivered⟩
  rcases served_calls setting handshake hreads hsent hlines hfits hquiet with ⟨now, hcall⟩
  refine ⟨_, now, hat.serving, hupgrades, hat.pending, hdelivered, ?_⟩
  rw [hcall]
  rcases hexact with rfl | hreceived
  · rfl
  · rw [hreceived]

/--
A message is carried exactly when no line of it starts with the word `QUIT` and, unless nobody
is to get it, no line ends in more than the one carriage return.
-/
theorem carried_iff (hframed : Framed message) (hfits : LinesFit message) :
    Carried setting smtp handshake c ⟨mailFrom, rcptTo, message⟩ rest <->
      (forall line, line ∈ sentLines message -> Quiet line) ∧
        (rcptTo = [] ∨ forall line, line ∈ sentLines message ->
          Not ([carriageReturn, carriageReturn] <:+ line)) := by
  rw [<- received_eq_iff hframed]
  constructor
  · intro h
    have hquiet := fun line => @quiet_of_carried σ Mote setting smtp handshake inData c mailFrom
      rcptTo message rest hreads hdata hfits h line
    refine ⟨hquiet, ?_⟩
    by_cases hrcpt : rcptTo = []
    · exact Or.inl hrcpt
    · exact Or.inr (received_of_carried setting handshake hreads hdata hfits h hrcpt)
  · intro ⟨hquiet, hexact⟩
    exact carried_of_received setting handshake hreads hdata hfits hquiet hexact

end Message

end Reading

/-!
# A session
-/

/-- A session in the data phase, with the submissions that were not taken yet. -/
structure DataSession where
  receiving : Bool
  envelope : Submission
  accepted : List Submission

def dataSession : SmtpSession DataSession where
  feedLineBytes := fun s line =>
    if s.receiving then
      if line = MxSession.dot then
        ("250 queued\r\n".toList, ⟨false, ⟨[], [], []⟩, s.accepted ++ [s.envelope]⟩)
      else
        ([], { s with envelope :=
          { s.envelope with data := s.envelope.data ++ (MxSession.unstuff line ++ crlf) } })
    else
      ("503 bad sequence\r\n".toList, s)
  takeSubmissions := fun s => (s.accepted, { s with accepted := [] })

theorem dataSession_readsData : ReadsData dataSession fun s mailFrom rcptTo data =>
    s = ⟨true, ⟨mailFrom, rcptTo, data⟩, []⟩ where
  content := by
    intro s mailFrom rcptTo data line hs hline
    subst hs
    dsimp only [dataSession]
    rw [if_pos rfl, if_neg hline]
    exact ⟨rfl, rfl⟩
  completes := by
    intro s mailFrom rcptTo data hs
    subst hs
    rfl

def plainSetting : Setting Bytes where
  nativeDomains := ["example.org".toList]
  buildMoteDraft := fun data _ => data
  nowMs := id

/-- A secured connection to a session in its data phase, on which the bytes arrive in one
read. -/
def receiving (rcptTo : List Str) (first : UInt8) (more : Bytes) :
    Connection (SmtpLine DataSession Bytes) where
  reader := ⟨[], [⟨first :: more, List.cons_ne_nil first more⟩]⟩
  secured := true
  status := Status.serving
  upgrades := 0
  written := []
  proto := ⟨⟨true, ⟨"a@example.org".toList, rcptTo, []⟩, []⟩, 0, []⟩

theorem receiving_atData (rcptTo : List Str) (first : UInt8) (more : Bytes) :
    AtData (fun s mailFrom rcptTo data => s = ⟨true, ⟨mailFrom, rcptTo, data⟩, []⟩)
      (receiving rcptTo first more) ⟨"a@example.org".toList, rcptTo, []⟩ (first :: more) :=
  ⟨rfl, rfl, List.append_nil (first :: more), rfl⟩

theorem quite_carried :
    Carried plainSetting dataSession (fun _ => none)
      (receiving ["b@example.org".toList] 0x71
        [0x75, 0x69, 0x74, 0x65, 0x0D, 0x0A, 0x2E, 0x0D, 0x0A])
      ⟨"a@example.org".toList, ["b@example.org".toList], [0x71, 0x75, 0x69, 0x74, 0x65, 0x0D, 0x0A]⟩
      [] :=
  (carried_iff plainSetting (fun _ => none) dataSession_readsData
    (receiving_atData ["b@example.org".toList] 0x71
      [0x75, 0x69, 0x74, 0x65, 0x0D, 0x0A, 0x2E, 0x0D, 0x0A])
    (by decide) (by decide)).mpr ⟨by decide, Or.inr (by decide)⟩

/--
`QUIT` on a line of its own ends the session inside the message, and of a line with two carriage
returns at its end the sink gets one.
-/
theorem quit_not_carried :
    (Framed [0x51, 0x55, 0x49, 0x54, 0x0D, 0x0A] ∧
      Not (Carried plainSetting dataSession (fun _ => none)
        (receiving ["b@example.org".toList] 0x51
          [0x55, 0x49, 0x54, 0x0D, 0x0A, 0x2E, 0x0D, 0x0A])
        ⟨"a@example.org".toList, ["b@example.org".toList], [0x51, 0x55, 0x49, 0x54, 0x0D, 0x0A]⟩
        [])) ∧
    Framed [0x61, 0x0D, 0x0D, 0x0A] ∧
      Not (Carried plainSetting dataSession (fun _ => none)
        (receiving ["b@example.org".toList] 0x61 [0x0D, 0x0D, 0x0A, 0x2E, 0x0D, 0x0A])
        ⟨"a@example.org".toList, ["b@example.org".toList], [0x61, 0x0D, 0x0D, 0x0A]⟩ []) := by
  refine ⟨⟨by decide, ?_⟩, by decide, ?_⟩
  · intro h
    have hquiet := quiet_of_carried plainSetting (fun _ => none) dataSession_readsData
      (receiving_atData ["b@example.org".toList] 0x51
        [0x55, 0x49, 0x54, 0x0D, 0x0A, 0x2E, 0x0D, 0x0A]) (by decide) h
      (by decide : [0x51, 0x55, 0x49, 0x54, 0x0D] ∈
        sentLines [0x51, 0x55, 0x49, 0x54, 0x0D, 0x0A])
    exact absurd hquiet (by decide)
  · intro h
    have hreceived := received_of_carried plainSetting (fun _ => none) dataSession_readsData
      (receiving_atData ["b@example.org".toList] 0x61 [0x0D, 0x0D, 0x0A, 0x2E, 0x0D, 0x0A])
      (by decide) h (List.cons_ne_nil _ _)
    exact absurd hreceived (by decide)

end SmtpSubmission
end Gateway
end Ephor
