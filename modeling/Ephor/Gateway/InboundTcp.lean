import Ephor.Foundation.Transition
import Ephor.Gateway.Inbound

/-!
# The socket driver

`pier-gateway/src/inbound_tcp.rs` reads lines from a connection, answers some commands
itself and feeds the rest to the session.  It has its own parser for the verb and its own
flag for the message phase.  Beside it runs a session that is fed every line as it was
read, until `QUIT`.  The wall-clock deadline and a failing write only cut a run short and
are left out.
-/

namespace Ephor
namespace Gateway

open Foundation
open Foundation.Text

/-!
# Framing
-/

/-- What `read_line` returns: the end of the stream, an error, or a line. -/
inductive ReadLine where
  | eof
  | failed
  | line (bytes rest : Bytes)
deriving DecidableEq

def maxLine : Nat := 64 * 1024

/-- A line feed ends the line, and a carriage return before it goes too. -/
def stripReturn (buf : Bytes) : Bytes :=
  if buf.getLast? = some 0x0D then buf.dropLast else buf

/-- The loop of `read_line`, with the bytes read so far. -/
def readLineLoop : Bytes -> Bytes -> ReadLine
  | buf, [] => if buf = [] then ReadLine.eof else ReadLine.failed
  | buf, byte :: stream =>
      if byte = 0x0A then
        ReadLine.line (stripReturn buf) stream
      else if maxLine < (buf ++ [byte]).length then
        ReadLine.failed
      else
        readLineLoop (buf ++ [byte]) stream

def readLine (stream : Bytes) : ReadLine :=
  readLineLoop [] stream

def readLinesFrom : Bytes -> Bytes -> List Bytes
  | _, [] => []
  | buf, byte :: stream =>
      if byte = 0x0A then
        stripReturn buf :: readLinesFrom [] stream
      else if maxLine < (buf ++ [byte]).length then
        []
      else
        readLinesFrom (buf ++ [byte]) stream

def readLines (stream : Bytes) : List Bytes :=
  readLinesFrom [] stream

/-- The lines of a stream, with what the gateway is answered during each. -/
def dialog (answers : Nat -> Answers) (stream : Bytes) : List Line :=
  (readLines stream).zipIdx.map fun entry => ⟨answers entry.2, entry.1⟩

/-!
# The driver
-/

inductive SocketVerb where
  | helo
  | startTls
  | quit
  | data
  | other
deriving DecidableEq

/-- `line.split(' ').next()`, in upper case. -/
def socketWord (text : Str) : Str :=
  upper ((splitOnce ' ' text).elim text Prod.fst)

def SocketVerb.ofText (verb : Str) : SocketVerb :=
  if verb = "EHLO".toList ∨ verb = "HELO".toList then SocketVerb.helo
  else if verb = "STARTTLS".toList then SocketVerb.startTls
  else if verb = "QUIT".toList then SocketVerb.quit
  else if verb = "DATA".toList then SocketVerb.data
  else SocketVerb.other

def socketVerb (text : Str) : SocketVerb :=
  SocketVerb.ofText (socketWord text)

def sessionVerb (text : Str) : Verb :=
  Verb.ofText (splitCommand text).1

structure Driver where
  session : MxSession
  inData : Bool
  secured : Bool
  closed : Bool
deriving DecidableEq

/-- What the driver does with a line: it goes on, writes to the peer and may deliver. -/
structure Served where
  driver : Driver
  written : List String
  delivery : Option Delivery
deriving DecidableEq

namespace Driver

variable (gw : InboundGateway) (tls : Bool) (d : Driver) (line : Line)

def serveData : Served :=
  let fed := d.session.feedLineBytes gw line.answers line.bytes
  if fed.reply.code ≠ 0 then
    ⟨{ d with session := fed.session, inData := false }, [fed.reply.wire], fed.delivery⟩
  else
    ⟨{ d with session := fed.session }, [], fed.delivery⟩

def serveStartTls : Served :=
  if tls then
    if d.secured then
      ⟨d, [(⟨503, "5.5.1 already secured"⟩ : SmtpReply).wire], none⟩
    else
      ⟨{ d with session := MxSession.new d.session.peer d.session.now, secured := true },
        [(⟨220, "2.0.0 ready to start TLS"⟩ : SmtpReply).wire], none⟩
  else
    ⟨d, [(⟨502, "5.5.1 STARTTLS not available"⟩ : SmtpReply).wire], none⟩

def serveCommand : Served :=
  let text := fromUtf8Lossy line.bytes
  match socketVerb text with
  | SocketVerb.helo =>
      let written :=
        if tls && !d.secured then
          ["250-pier-gateway at your service\r\n", "250 STARTTLS\r\n"]
        else
          ["250 pier-gateway at your service\r\n"]
      ⟨d, written, none⟩
  | SocketVerb.startTls => d.serveStartTls tls
  | SocketVerb.quit =>
      let fed := d.session.feedLine gw line.answers "QUIT".toList
      ⟨{ d with session := fed.session, closed := true }, [fed.reply.wire], fed.delivery⟩
  | SocketVerb.data =>
      let fed := d.session.feedLine gw line.answers "DATA".toList
      ⟨{ d with session := fed.session, inData := fed.reply.code == 354 },
        [fed.reply.wire], fed.delivery⟩
  | SocketVerb.other =>
      let fed := d.session.feedLine gw line.answers text
      ⟨{ d with session := fed.session }, [fed.reply.wire], fed.delivery⟩

/-- One turn of the loop of `handle_connection`. -/
def serve : Served :=
  if d.closed then
    ⟨d, [], none⟩
  else if d.inData then
    d.serveData gw line
  else
    d.serveCommand gw tls line

end Driver

/-!
# The session alone
-/

/-- A session that is fed every line as it was read. -/
structure Reference where
  session : MxSession
  closed : Bool
deriving DecidableEq

namespace Reference

variable (gw : InboundGateway) (r : Reference) (line : Line)

/-- The session is at a command, and the command is `QUIT`. -/
def quits : Bool :=
  r.session.phase == Phase.command && sessionVerb (fromUtf8Lossy line.bytes) == Verb.quit

def feed : Reference × Option Delivery :=
  if r.closed then
    (r, none)
  else
    let fed := r.session.feedLineBytes gw line.answers line.bytes
    (⟨fed.session, r.quits line⟩, fed.delivery)

end Reference

/-- The driver and the session alone, on the same lines. -/
structure Sides where
  driver : Driver
  reference : Reference
deriving DecidableEq

namespace Sides

def start (peer : Peer) (now : UInt64) : Sides where
  driver := ⟨MxSession.new peer now, false, false, false⟩
  reference := ⟨MxSession.new peer now, false⟩

variable (gw : InboundGateway) (tls : Bool)

def step (s : Sides) (line : Line) : Sides where
  driver := (s.driver.serve gw tls line).driver
  reference := (s.reference.feed gw line).1

/-- Both are in the same state, and the driver's flag says which phase it is. -/
structure InStep (s : Sides) : Prop where
  session : s.driver.session = s.reference.session
  closed : s.driver.closed = s.reference.closed
  inData : s.driver.inData = true <-> s.driver.session.phase = Phase.data

instance (s : Sides) : Decidable s.InStep :=
  decidable_of_iff
    (s.driver.session = s.reference.session ∧ s.driver.closed = s.reference.closed ∧
      (s.driver.inData = true <-> s.driver.session.phase = Phase.data))
    ⟨fun h => ⟨h.1, h.2.1, h.2.2⟩, fun h => ⟨h.session, h.closed, h.inData⟩⟩

/-- A line on which the connection stays in plaintext leads both to the same state, and to
the same delivery. -/
def Agrees (s : Sides) (line : Line) : Prop :=
  (s.step gw tls line).driver.secured = false ->
    (s.step gw tls line).InStep ∧
      (s.driver.serve gw tls line).delivery = (s.reference.feed gw line).2

instance (s : Sides) (line : Line) : Decidable (s.Agrees gw tls line) :=
  inferInstanceAs (Decidable (_ -> _ ∧ _))

/-- The line is a word with white space around it, none of it a space. -/
def Padded (word text : Str) : Prop :=
  splitOnce ' ' text = none ∧ upper (trim text) = word ∧ upper text ≠ word

instance (word text : Str) : Decidable (Padded word text) :=
  inferInstanceAs (Decidable (_ ∧ _ ∧ _))

/-- The line is a `HELO` or `EHLO` with a name. -/
def NamesHost (text : Str) : Prop :=
  sessionVerb text = Verb.helo ∧ trim (splitCommand text).2 ≠ []

instance (text : Str) : Decidable (NamesHost text) :=
  inferInstanceAs (Decidable (_ ∧ _))

/-- The command lines that the driver and the session treat differently. -/
def Irregular (session : MxSession) (text : Str) : Prop :=
  NamesHost text ∨
    Padded "DATA".toList text ∧ session.mailFrom ≠ none ∧ session.rcptTo ≠ none ∨
    Padded "QUIT".toList text

instance (session : MxSession) (text : Str) : Decidable (Irregular session text) :=
  inferInstanceAs (Decidable (_ ∨ _ ∧ _ ∧ _ ∨ _))

def Regular (s : Sides) (line : Line) : Prop :=
  s.driver.secured = false -> s.driver.closed = false -> s.driver.inData = false ->
    Not (Irregular s.driver.session (fromUtf8Lossy line.bytes))

instance (s : Sides) (line : Line) : Decidable (s.Regular line) :=
  inferInstanceAs (Decidable (_ -> _ -> _ -> Not _))

end Sides

/-!
# The two parsers
-/

variable {word text : Str}

theorem word_of_verb {verb : Verb} (h : Verb.ofText word = verb) :
    match verb with
    | Verb.helo => word = "HELO".toList ∨ word = "EHLO".toList
    | Verb.mail => word = "MAIL".toList
    | Verb.rcpt => word = "RCPT".toList
    | Verb.data => word = "DATA".toList
    | Verb.rset => word = "RSET".toList
    | Verb.noop => word = "NOOP".toList
    | Verb.quit => word = "QUIT".toList
    | Verb.unknown => True := by
  unfold Verb.ofText at h
  repeat' split at h
  all_goals
    subst h
    first
    | assumption
    | trivial

theorem verb_eq_data_iff :
    Verb.ofText word = Verb.data <-> word = "DATA".toList := by
  constructor
  · intro h
    exact word_of_verb h
  · intro h
    rw [h]
    rfl

theorem verb_eq_quit_iff :
    Verb.ofText word = Verb.quit <-> word = "QUIT".toList := by
  constructor
  · intro h
    exact word_of_verb h
  · intro h
    rw [h]
    rfl

theorem socketVerb_cases (text : Str) :
    socketVerb text = SocketVerb.helo ∧
        (socketWord text = "EHLO".toList ∨ socketWord text = "HELO".toList) ∨
      socketVerb text = SocketVerb.startTls ∧ socketWord text = "STARTTLS".toList ∨
      socketVerb text = SocketVerb.quit ∧ socketWord text = "QUIT".toList ∨
      socketVerb text = SocketVerb.data ∧ socketWord text = "DATA".toList ∨
      socketVerb text = SocketVerb.other ∧ socketWord text ≠ "DATA".toList ∧
        socketWord text ≠ "QUIT".toList ∧ socketWord text ≠ "EHLO".toList ∧
        socketWord text ≠ "HELO".toList := by
  unfold socketVerb SocketVerb.ofText
  split
  · rename_i hhelo
    exact Or.inl ⟨rfl, hhelo⟩
  · rename_i hhelo
    split
    · rename_i htls
      exact Or.inr (Or.inl ⟨rfl, htls⟩)
    · split
      · rename_i hquit
        exact Or.inr (Or.inr (Or.inl ⟨rfl, hquit⟩))
      · rename_i hquit
        split
        · rename_i hdata
          exact Or.inr (Or.inr (Or.inr (Or.inl ⟨rfl, hdata⟩)))
        · rename_i hdata
          refine Or.inr (Or.inr (Or.inr (Or.inr ⟨rfl, hdata, hquit, ?_, ?_⟩)))
          · exact fun h => hhelo (Or.inl h)
          · exact fun h => hhelo (Or.inr h)

theorem splitCommand_of_socketWord (hword : trim word = word) (h : socketWord text = word) :
    (splitCommand text).1 = word := by
  unfold socketWord at h
  unfold splitCommand
  cases hsplit : splitOnce ' ' text with
  | some parts =>
      rw [hsplit] at h
      exact h
  | none =>
      rw [hsplit] at h
      show upper (trim text) = word
      rw [upper_trim]
      exact (congrArg trim h).trans hword

theorem misread_iff_padded (text word : Str) :
    (splitCommand text).1 = word ∧ socketWord text ≠ word <-> Sides.Padded word text := by
  unfold socketWord splitCommand Sides.Padded
  cases hsplit : splitOnce ' ' text with
  | some parts =>
      constructor
      · intro h
        exact absurd h.1 h.2
      · intro h
        cases h.1
  | none =>
      constructor
      · intro h
        exact ⟨rfl, h.1, h.2⟩
      · intro h
        exact h.2

theorem not_namesHost_of_socketWord (hehlo : socketWord text ≠ "EHLO".toList)
    (hhelo : socketWord text ≠ "HELO".toList) : Not (Sides.NamesHost text) := by
  intro h
  rcases h with ⟨hverb, harg⟩
  unfold sessionVerb splitCommand at hverb
  unfold splitCommand at harg
  unfold socketWord at hehlo hhelo
  cases hsplit : splitOnce ' ' text with
  | none =>
      rw [hsplit] at harg
      exact harg rfl
  | some parts =>
      rw [hsplit] at hverb hehlo hhelo
      dsimp only [Option.elim] at hverb hehlo hhelo
      rcases word_of_verb hverb with hword | hword
      · exact hhelo hword
      · exact hehlo hword

/-!
# The phase of the session
-/

namespace MxSession

variable {gw : InboundGateway} {answers : Answers} {s : MxSession}

theorem feedCommand_eq (text : Str) :
    s.feedCommand gw answers text =
      match sessionVerb text with
      | Verb.helo => s.cmdHelo (splitCommand text).2
      | Verb.mail => s.cmdMail gw answers (splitCommand text).2
      | Verb.rcpt => s.cmdRcpt gw answers (splitCommand text).2
      | Verb.data => s.cmdData
      | Verb.rset => ⟨s.resetTransaction, ⟨250, "2.0.0 flushed"⟩, none⟩
      | Verb.noop => s.refuse ⟨250, "2.0.0 ok"⟩
      | Verb.quit => s.refuse ⟨221, "2.0.0 bye"⟩
      | Verb.unknown => s.refuse ⟨502, "5.5.1 command not implemented"⟩ :=
  rfl

theorem feedLineBytes_command {line : Bytes} (h : s.phase = Phase.command) :
    s.feedLineBytes gw answers line = s.feedCommand gw answers (fromUtf8Lossy line) := by
  rw [feedLineBytes, h]

theorem feedLineBytes_data {line : Bytes} (h : s.phase = Phase.data) :
    s.feedLineBytes gw answers line = s.feedData gw answers line := by
  rw [feedLineBytes, h]

theorem feedLine_command (h : s.phase = Phase.command) :
    s.feedLine gw answers text = s.feedCommand gw answers text := by
  rw [feedLine, feedLineBytes_command h, fromUtf8Lossy_utf8]

theorem cmdHelo_session {rest : Str} (hrest : trim rest = []) (h : s.helo = none) :
    (s.cmdHelo rest).session = s := by
  rw [cmdHelo, if_pos hrest, <- h]

theorem cmdData_code : s.cmdData.reply.code = 354 <->
    s.mailFrom ≠ none ∧ s.rcptTo ≠ none := by
  unfold cmdData
  split
  · rename_i hmissing
    constructor
    · intro h
      exact absurd h (by simp [refuse])
    · intro h
      rcases hmissing with hnone | hnone
      · exact absurd hnone h.1
      · exact absurd hnone h.2
  · rename_i hready
    constructor
    · intro _
      exact ⟨fun hnone => hready (Or.inl hnone), fun hnone => hready (Or.inr hnone)⟩
    · intro _
      rfl

theorem cmdData_phase (h : s.phase = Phase.command) :
    s.cmdData.session.phase = Phase.data <-> s.mailFrom ≠ none ∧ s.rcptTo ≠ none := by
  rw [<- cmdData_code]
  unfold cmdData
  split
  · constructor
    · intro hdata
      exact absurd (h.symm.trans hdata) (by decide)
    · intro hcode
      exact absurd hcode (by simp [refuse])
  · exact ⟨fun _ => rfl, fun _ => rfl⟩

theorem phase_moves {t : MxSession} {verb : Verb} {rest : Str} {reply : SmtpReply}
    (hmoves : CommandMoves s verb rest reply t) (h : s.phase = Phase.command) :
    t.phase = Phase.data <-> verb = Verb.data ∧ s.mailFrom ≠ none ∧ s.rcptTo ≠ none := by
  have hkept : verb ≠ Verb.data -> (s.phase = Phase.data <->
      verb = Verb.data ∧ s.mailFrom ≠ none ∧ s.rcptTo ≠ none) := by
    intro hverb
    rw [h]
    exact ⟨(fun hdata => nomatch hdata), fun hready => absurd hready.1 hverb⟩
  cases hmoves with
  | kept _ _ _ hmissing =>
      rw [h]
      constructor
      · intro hdata
        cases hdata
      · intro hready
        rcases hmissing hready.1 with hnone | hnone
        · exact absurd hnone hready.2.1
        · exact absurd hnone hready.2.2
  | started hverb hmail hrcpt => exact ⟨fun _ => ⟨hverb, hmail, hrcpt⟩, fun _ => rfl⟩
  | named hverb | sender addr outcome hverb | recipient addr hverb _ _ | flushed hverb =>
      exact hkept (by simp [hverb])

theorem feedCommand_phase (h : s.phase = Phase.command) :
    (s.feedCommand gw answers text).session.phase = Phase.data <->
      sessionVerb text = Verb.data ∧ s.mailFrom ≠ none ∧ s.rcptTo ≠ none :=
  phase_moves (feedCommand_moves gw answers s text) h

theorem feedData_phase (line : Bytes) (h : s.phase = Phase.data) :
    (s.feedData gw answers line).session.phase = Phase.data <->
      (s.feedData gw answers line).reply.code = 0 := by
  unfold feedData
  split
  · have hcode : (s.endData gw answers).reply.code ≠ 0 := by
      unfold endData
      dsimp only
      split
      · simp
      · have hmem := InboundGateway.acceptMessage_code gw answers (s.mailFrom.getD [])
          (s.rcptTo.getD []) s.data s.now s.spfOutcome
        intro hzero
        rw [hzero] at hmem
        exact absurd hmem (by decide)
    rw [endData_session]
    exact ⟨(fun hdata => nomatch hdata), fun hzero => absurd hzero hcode⟩
  · rw [(appendData_keeps gw s line).2]
    exact ⟨fun _ => rfl, fun _ => h⟩

theorem helo_moves {t : MxSession} {verb : Verb} {rest : Str} {reply : SmtpReply}
    (hmoves : CommandMoves s verb rest reply t) (h : s.helo = none)
    (hname : Not (verb = Verb.helo ∧ trim rest ≠ [])) : t.helo = none := by
  cases hmoves with
  | named hverb =>
      refine if_pos ?_
      by_contra hrest
      exact hname ⟨hverb, hrest⟩
  | _ => exact h

theorem feedCommand_helo (h : s.helo = none) (hname : Not (Sides.NamesHost text)) :
    (s.feedCommand gw answers text).session.helo = none :=
  helo_moves (feedCommand_moves gw answers s text) h hname

theorem feedData_helo (line : Bytes) (h : s.helo = none) :
    (s.feedData gw answers line).session.helo = none := by
  unfold feedData
  split
  · rw [endData_session]
    exact h
  · unfold appendData
    split
    · exact h
    · split
      · exact h
      · exact h

end MxSession

/-!
# One line on both sides
-/

namespace Sides

theorem irregular_iff {session : MxSession} :
    Irregular session text <->
      NamesHost text ∨
        ((splitCommand text).1 = "DATA".toList ∧ socketWord text ≠ "DATA".toList) ∧
          session.mailFrom ≠ none ∧ session.rcptTo ≠ none ∨
        (splitCommand text).1 = "QUIT".toList ∧ socketWord text ≠ "QUIT".toList := by
  rw [misread_iff_padded, misread_iff_padded]
  exact Iff.rfl

theorem not_irregular_of_word {session : MxSession} (hword : trim word = word)
    (h : socketWord text = word) (hname : Not (NamesHost text)) : Not (Irregular session text) := by
  have hsplit := splitCommand_of_socketWord hword h
  intro hirregular
  rcases irregular_iff.mp hirregular with hhost | ⟨⟨hdata, hnot⟩, _⟩ | ⟨hquit, hnot⟩
  · exact hname hhost
  · exact hnot (h.trans (hsplit.symm.trans hdata))
  · exact hnot (h.trans (hsplit.symm.trans hquit))

variable {gw : InboundGateway} {tls : Bool} {s : Sides} {line : Line}

theorem agrees_of_closed (h : s.InStep) (hclosed : s.driver.closed = true) :
    s.Agrees gw tls line := by
  have hserve : s.driver.serve gw tls line = ⟨s.driver, [], none⟩ := by
    rw [Driver.serve, if_pos hclosed]
  have hfeed : s.reference.feed gw line = (s.reference, none) := by
    rw [Reference.feed, if_pos (h.closed.symm.trans hclosed)]
  intro _
  rw [step, hserve, hfeed]
  exact ⟨h, rfl⟩

theorem agrees_of_inData (h : s.InStep) (hopen : s.driver.closed = false)
    (hdata : s.driver.inData = true) : s.Agrees gw tls line := by
  have hphase := h.inData.mp hdata
  have hserve : s.driver.serve gw tls line = s.driver.serveData gw line := by
    rw [Driver.serve, if_neg (by simp [hopen]), if_pos hdata]
  have hfeed : s.reference.feed gw line =
      (⟨(s.driver.session.feedLineBytes gw line.answers line.bytes).session, false⟩,
        (s.driver.session.feedLineBytes gw line.answers line.bytes).delivery) := by
    rw [Reference.feed, if_neg (by simp [<- h.closed, hopen]), h.session]
    have hquits : s.reference.quits line = false := by
      rw [Reference.quits, <- h.session, hphase]
      rfl
    rw [hquits]
  have hend : (s.driver.session.feedData gw line.answers line.bytes).session.phase =
      Phase.data <-> _ :=
    MxSession.feedData_phase line.bytes hphase
  rw [<- MxSession.feedLineBytes_data hphase] at hend
  intro _
  rw [step, hserve, hfeed, Driver.serveData]
  dsimp only
  split
  · rename_i hcode
    refine ⟨⟨rfl, hopen, ?_⟩, rfl⟩
    exact ⟨(fun hflag => nomatch hflag), fun hstill => absurd (hend.mp hstill) hcode⟩
  · rename_i hcode
    refine ⟨⟨rfl, hopen, ?_⟩, rfl⟩
    exact ⟨fun _ => hend.mpr (not_not.mp hcode), fun _ => hdata⟩

/-- Both sides are at a command, the connection is in plaintext and no name is set. -/
structure AtCommand (s : Sides) : Prop where
  inStep : s.InStep
  isOpen : s.driver.closed = false
  inData : s.driver.inData = false
  phase : s.driver.session.phase = Phase.command
  helo : s.driver.session.helo = none
  plain : s.driver.secured = false

theorem serve_command (h : s.AtCommand) :
    s.driver.serve gw tls line = s.driver.serveCommand gw tls line := by
  rw [Driver.serve, if_neg (by simp [h.isOpen]), if_neg (by simp [h.inData])]

theorem feed_command (h : s.AtCommand) :
    s.reference.feed gw line =
      (⟨(s.driver.session.feedCommand gw line.answers (fromUtf8Lossy line.bytes)).session,
          sessionVerb (fromUtf8Lossy line.bytes) == Verb.quit⟩,
        (s.driver.session.feedCommand gw line.answers (fromUtf8Lossy line.bytes)).delivery) := by
  have hquits : s.reference.quits line =
      (sessionVerb (fromUtf8Lossy line.bytes) == Verb.quit) := by
    rw [Reference.quits, <- h.inStep.session, h.phase]
    rfl
  rw [Reference.feed, if_neg (by simp [<- h.inStep.closed, h.isOpen]), hquits,
    <- h.inStep.session, MxSession.feedLineBytes_command h.phase]

/-- What both sides do with the line is the same. -/
def Meets (gw : InboundGateway) (tls : Bool) (s : Sides) (line : Line) : Prop :=
  (s.step gw tls line).InStep ∧
    (s.driver.serve gw tls line).delivery = (s.reference.feed gw line).2

theorem meets_helo_iff (h : s.AtCommand) (hword : trim word = word)
    (hhelo : Verb.ofText word = Verb.helo)
    (hverb : socketVerb (fromUtf8Lossy line.bytes) = SocketVerb.helo)
    (hsocket : socketWord (fromUtf8Lossy line.bytes) = word) :
    s.Meets gw tls line <-> Not (Irregular s.driver.session (fromUtf8Lossy line.bytes)) := by
  have hsplit := splitCommand_of_socketWord hword hsocket
  have hsession : sessionVerb (fromUtf8Lossy line.bytes) = Verb.helo := by
    rw [sessionVerb, hsplit, hhelo]
  have hserved : (s.driver.serve gw tls line).driver = s.driver ∧
      (s.driver.serve gw tls line).delivery = none := by
    rw [serve_command h, Driver.serveCommand, hverb]
    exact ⟨rfl, rfl⟩
  have hfeed : s.reference.feed gw line =
      (⟨(s.driver.session.cmdHelo (splitCommand (fromUtf8Lossy line.bytes)).2).session,
        false⟩, none) := by
    rw [feed_command h, MxSession.feedCommand_eq, hsession]
    rfl
  have hhost : NamesHost (fromUtf8Lossy line.bytes) <->
      trim (splitCommand (fromUtf8Lossy line.bytes)).2 ≠ [] :=
    and_iff_right hsession
  have hlost : Irregular s.driver.session (fromUtf8Lossy line.bytes) <->
      trim (splitCommand (fromUtf8Lossy line.bytes)).2 ≠ [] := by
    rw [<- hhost]
    constructor
    · intro hirregular
      by_contra hname
      exact not_irregular_of_word hword hsocket hname hirregular
    · intro hname
      exact Or.inl hname
  rw [hlost, not_not, Meets, step, hserved.1, hserved.2, hfeed]
  constructor
  · intro hmeets
    have hname := congrArg MxSession.helo hmeets.1.session
    rw [h.helo] at hname
    by_contra hne
    rw [MxSession.cmdHelo, if_neg hne] at hname
    cases hname
  · intro hempty
    have hkept := MxSession.cmdHelo_session hempty h.helo
    exact ⟨⟨hkept.symm, h.isOpen, h.inStep.inData⟩, rfl⟩

theorem regular_of_word (session : MxSession) (hword : trim word = word)
    (hsocket : socketWord text = word) (hverb : Verb.ofText word ≠ Verb.helo) :
    sessionVerb text = Verb.ofText word ∧ Not (Irregular session text) := by
  have hsession : sessionVerb text = Verb.ofText word := by
    rw [sessionVerb, splitCommand_of_socketWord hword hsocket]
  refine ⟨hsession, not_irregular_of_word hword hsocket ?_⟩
  intro hhost
  exact hverb (hsession.symm.trans hhost.1)

theorem meets_startTls (h : s.AtCommand)
    (hverb : socketVerb (fromUtf8Lossy line.bytes) = SocketVerb.startTls)
    (hsession : sessionVerb (fromUtf8Lossy line.bytes) = Verb.unknown) (htls : tls = false) :
    s.Meets gw tls line := by
  rw [Meets, step, serve_command h, Driver.serveCommand, hverb, feed_command h,
    MxSession.feedCommand_eq, hsession]
  dsimp only
  rw [Driver.serveStartTls, htls]
  exact ⟨⟨rfl, h.isOpen, h.inStep.inData⟩, rfl⟩

theorem meets_quit (h : s.AtCommand)
    (hverb : socketVerb (fromUtf8Lossy line.bytes) = SocketVerb.quit)
    (hsession : sessionVerb (fromUtf8Lossy line.bytes) = Verb.quit) : s.Meets gw tls line := by
  have hquit : sessionVerb "QUIT".toList = Verb.quit := rfl
  rw [Meets, step, serve_command h, Driver.serveCommand, hverb, feed_command h,
    MxSession.feedCommand_eq, hsession]
  dsimp only
  rw [MxSession.feedLine_command h.phase, MxSession.feedCommand_eq, hquit]
  exact ⟨⟨rfl, rfl, h.inStep.inData⟩, rfl⟩

theorem meets_data (h : s.AtCommand)
    (hverb : socketVerb (fromUtf8Lossy line.bytes) = SocketVerb.data)
    (hsession : sessionVerb (fromUtf8Lossy line.bytes) = Verb.data) : s.Meets gw tls line := by
  have hdata : sessionVerb "DATA".toList = Verb.data := rfl
  rw [Meets, step, serve_command h, Driver.serveCommand, hverb, feed_command h,
    MxSession.feedCommand_eq, hsession]
  dsimp only
  rw [MxSession.feedLine_command h.phase, MxSession.feedCommand_eq, hdata]
  dsimp only
  refine ⟨⟨rfl, h.isOpen, ?_⟩, rfl⟩
  rw [beq_iff_eq, MxSession.cmdData_code, <- MxSession.cmdData_phase h.phase]

theorem meets_other_iff (h : s.AtCommand)
    (hverb : socketVerb (fromUtf8Lossy line.bytes) = SocketVerb.other)
    (hdata : socketWord (fromUtf8Lossy line.bytes) ≠ "DATA".toList)
    (hquit : socketWord (fromUtf8Lossy line.bytes) ≠ "QUIT".toList)
    (hname : Not (NamesHost (fromUtf8Lossy line.bytes))) :
    s.Meets gw tls line <-> Not (Irregular s.driver.session (fromUtf8Lossy line.bytes)) := by
  have hphase :
      (s.driver.session.feedCommand gw line.answers (fromUtf8Lossy line.bytes)).session.phase =
        Phase.data <-> _ :=
    MxSession.feedCommand_phase h.phase
  rw [sessionVerb, verb_eq_data_iff] at hphase
  rw [irregular_iff, Meets, step, serve_command h, Driver.serveCommand, hverb,
    feed_command h]
  dsimp only
  rw [MxSession.feedLine_command h.phase]
  constructor
  · intro hmeets hirregular
    rcases hirregular with hhost | ⟨⟨hword, _⟩, hready⟩ | ⟨hword, _⟩
    · exact hname hhost
    · have hflag := hmeets.1.inData.mpr (hphase.mpr ⟨hword, hready⟩)
      exact absurd (h.inData.symm.trans hflag) (by decide)
    · have hclosed : false = (sessionVerb (fromUtf8Lossy line.bytes) == Verb.quit) :=
        h.isOpen.symm.trans hmeets.1.closed
      rw [sessionVerb, hword] at hclosed
      exact absurd hclosed (by decide)
  · intro hregular
    refine ⟨⟨rfl, ?_, ?_⟩, rfl⟩
    · show s.driver.closed = (sessionVerb (fromUtf8Lossy line.bytes) == Verb.quit)
      rw [h.isOpen]
      symm
      rw [beq_eq_false_iff_ne]
      intro hverb
      exact hregular (Or.inr (Or.inr ⟨verb_eq_quit_iff.mp hverb, hquit⟩))
    · constructor
      · intro hflag
        exact absurd (h.inData.symm.trans hflag) (by decide)
      · intro hstarted
        rcases hphase.mp hstarted with ⟨hword, hready⟩
        exact absurd (Or.inr (Or.inl ⟨⟨hword, hdata⟩, hready⟩)) hregular

theorem secured_startTls (h : s.AtCommand)
    (hverb : socketVerb (fromUtf8Lossy line.bytes) = SocketVerb.startTls) (htls : tls = true) :
    (s.step gw tls line).driver.secured = true := by
  rw [step, serve_command h, Driver.serveCommand, hverb]
  dsimp only
  rw [Driver.serveStartTls, if_pos htls, if_neg (by simp [h.plain])]

theorem agrees_iff_meets (h : s.AtCommand)
    (hverb : socketVerb (fromUtf8Lossy line.bytes) ≠ SocketVerb.startTls) :
    s.Agrees gw tls line <-> s.Meets gw tls line := by
  have hplain : (s.step gw tls line).driver.secured = false := by
    rw [step, serve_command h, Driver.serveCommand]
    cases hread : socketVerb (fromUtf8Lossy line.bytes) with
    | startTls => exact absurd hread hverb
    | _ => exact h.plain
  constructor
  · intro hagrees
    exact hagrees hplain
  · intro hmeets _
    exact hmeets

theorem agrees_command_iff (h : s.AtCommand) : s.Agrees gw tls line <-> s.Regular line := by
  have hregular : s.Regular line <->
      Not (Irregular s.driver.session (fromUtf8Lossy line.bytes)) := by
    constructor
    · intro hregular
      exact hregular h.plain h.isOpen h.inData
    · intro hregular _ _ _
      exact hregular
  rw [hregular]
  rcases socketVerb_cases (fromUtf8Lossy line.bytes) with
    ⟨hverb, hword⟩ | ⟨hverb, hword⟩ | ⟨hverb, hword⟩ | ⟨hverb, hword⟩ |
    ⟨hverb, hdata, hquit, hehlo, hhelo⟩
  · rw [agrees_iff_meets h (by simp [hverb])]
    rcases hword with hword | hword
    · exact meets_helo_iff h rfl rfl hverb hword
    · exact meets_helo_iff h rfl rfl hverb hword
  · rcases regular_of_word s.driver.session rfl hword (by decide) with ⟨hsession, hnot⟩
    refine iff_of_true ?_ hnot
    intro hplain
    cases htls : tls with
    | false => exact meets_startTls h hverb hsession rfl
    | true => exact absurd ((secured_startTls h hverb htls).symm.trans hplain) (by decide)
  · rcases regular_of_word s.driver.session rfl hword (by decide) with ⟨hsession, hnot⟩
    exact iff_of_true (fun _ => meets_quit h hverb hsession) hnot
  · rcases regular_of_word s.driver.session rfl hword (by decide) with ⟨hsession, hnot⟩
    exact iff_of_true (fun _ => meets_data h hverb hsession) hnot
  · rw [agrees_iff_meets h (by simp [hverb])]
    exact meets_other_iff h hverb hdata hquit (not_namesHost_of_socketWord hehlo hhelo)

/-- While the connection is in plaintext, the sides are in step and no name is set. -/
def Paired (s : Sides) : Prop :=
  s.driver.secured = false -> s.InStep ∧ s.driver.session.helo = none

theorem paired_start (peer : Peer) (now : UInt64) : (start peer now).Paired := by
  intro _
  refine ⟨⟨rfl, rfl, ?_⟩, rfl⟩
  exact ⟨(fun hflag => nomatch hflag), fun hphase => nomatch hphase⟩

theorem secured_of_step (h : (s.step gw tls line).driver.secured = false) :
    s.driver.secured = false := by
  cases hsecured : s.driver.secured with
  | false => rfl
  | true =>
      have hstill : (s.step gw tls line).driver.secured = true := by
        rw [step, Driver.serve]
        split
        · exact hsecured
        · split
          · rw [Driver.serveData]
            dsimp only
            split
            · exact hsecured
            · exact hsecured
          · rw [Driver.serveCommand]
            cases socketVerb (fromUtf8Lossy line.bytes) with
            | startTls =>
                dsimp only
                rw [Driver.serveStartTls]
                split
                · exact hsecured
                · exact hsecured
            | _ => exact hsecured
      exact absurd (hstill.symm.trans h) (by decide)

theorem atCommand {s : Sides} (hplain : s.driver.secured = false) (h : s.InStep)
    (hhelo : s.driver.session.helo = none) (hopen : s.driver.closed = false)
    (hcommand : s.driver.inData = false) : s.AtCommand where
  inStep := h
  isOpen := hopen
  inData := hcommand
  phase := by
    cases hphase : s.driver.session.phase with
    | command => rfl
    | data => exact absurd (h.inData.mpr hphase) (by simp [hcommand])
  helo := hhelo
  plain := hplain

theorem helo_command (h : s.AtCommand) :
    (s.driver.serveCommand gw tls line).driver.session.helo = none := by
  rw [Driver.serveCommand]
  rcases socketVerb_cases (fromUtf8Lossy line.bytes) with
    ⟨hverb, _⟩ | ⟨hverb, _⟩ | ⟨hverb, _⟩ | ⟨hverb, _⟩ | ⟨hverb, _, _, hehlo, hword⟩
  · rw [hverb]
    exact h.helo
  · rw [hverb]
    dsimp only
    rw [Driver.serveStartTls]
    split
    · split
      · exact h.helo
      · rfl
    · exact h.helo
  · rw [hverb]
    dsimp only
    rw [MxSession.feedLine_command h.phase]
    exact MxSession.feedCommand_helo h.helo (by decide)
  · rw [hverb]
    dsimp only
    rw [MxSession.feedLine_command h.phase]
    exact MxSession.feedCommand_helo h.helo (by decide)
  · rw [hverb]
    dsimp only
    rw [MxSession.feedLine_command h.phase]
    exact MxSession.feedCommand_helo h.helo (not_namesHost_of_socketWord hehlo hword)

theorem helo_step (hplain : s.driver.secured = false) (h : s.InStep)
    (hhelo : s.driver.session.helo = none) : (s.step gw tls line).driver.session.helo = none := by
  cases hopen : s.driver.closed with
  | true =>
      rw [step, Driver.serve, if_pos hopen]
      exact hhelo
  | false =>
      cases hdata : s.driver.inData with
      | true =>
          have hphase := h.inData.mp hdata
          rw [step, Driver.serve, if_neg (by simp [hopen]), if_pos hdata, Driver.serveData]
          dsimp only
          rw [MxSession.feedLineBytes_data hphase]
          split
          · exact MxSession.feedData_helo line.bytes hhelo
          · exact MxSession.feedData_helo line.bytes hhelo
      | false =>
          have hat := atCommand hplain h hhelo hopen hdata
          rw [step, serve_command hat]
          exact helo_command hat

theorem agrees_iff_regular (line : Line) (h : s.Paired) :
    s.Agrees gw tls line <-> s.Regular line := by
  by_cases hplain : s.driver.secured = false
  · rcases h hplain with ⟨hstep, hhelo⟩
    cases hopen : s.driver.closed with
    | true =>
        refine iff_of_true (agrees_of_closed hstep hopen) ?_
        intro _ hclosed
        exact absurd (hopen.symm.trans hclosed) (by decide)
    | false =>
        cases hdata : s.driver.inData with
        | true =>
            refine iff_of_true (agrees_of_inData hstep hopen hdata) ?_
            intro _ _ hcommand
            exact absurd (hdata.symm.trans hcommand) (by decide)
        | false => exact agrees_command_iff (atCommand hplain hstep hhelo hopen hdata)
  · refine iff_of_true ?_ ?_
    · intro hstill
      exact absurd (secured_of_step hstill) hplain
    · intro hsecured
      exact absurd hsecured hplain

theorem paired_step (line : Line) (h : s.Paired) (hagrees : s.Agrees gw tls line) :
    (s.step gw tls line).Paired := by
  intro hstill
  have hplain := secured_of_step hstill
  rcases h hplain with ⟨hstep, hhelo⟩
  exact ⟨(hagrees hstill).1, helo_step hplain hstep hhelo⟩

end Sides

/--
For every byte stream, the plaintext part of a connection takes the session through the
same states and makes the same deliveries as feeding the session every line until `QUIT`,
if and only if no command line of it is irregular: none is a `HELO` or `EHLO` with a name,
none is a `DATA` in order or a `QUIT` with white space other than spaces around it.
-/
theorem handleConnection_refines_iff_regular (gw : InboundGateway) (tls : Bool) (peer : Peer)
    (now : UInt64) (answers : Nat -> Answers) (stream : Bytes) :
    Transition.StepsMeet (Sides.step gw tls) (Sides.Agrees gw tls) (Sides.start peer now)
        (dialog answers stream) <->
      Transition.StepsMeet (Sides.step gw tls) Sides.Regular (Sides.start peer now)
        (dialog answers stream) :=
  Transition.stepsMeet_congr
    (fun _ line h hagrees => Sides.paired_step line h hagrees)
    (fun _ line h => Sides.agrees_iff_regular line h)
    (dialog answers stream) (Sides.paired_start peer now)

/-!
# Lines that are treated differently
-/

/-- A gateway that checks SPF, for a user `ann`. -/
def spfGateway : InboundGateway where
  attestDomains := ["dmtap.example".toList]
  dkimResolver := false
  dkimPolicy := Policy.annotate
  spfResolver := true
  spfPolicy := Policy.enforce
  dmarcResolver := false
  dmarcPolicy := Policy.annotate
  maxMessageBytes := 26214400

/-- Only `mta.example` has an SPF record, and it does not allow the peer. -/
def spfAnswers : Answers where
  resolve := fun _ => some ⟨[1], [2]⟩
  check := fun _ _ => AbuseDecision.accept
  checkHost := fun _ domain _ =>
    if domain = "mta.example".toList then SpfResult.fail else SpfResult.none
  verifyDkim := fun _ => DkimVerdict.noSignature
  evaluateDmarc := fun _ _ _ _ => DmarcVerdict.noPolicy
  stripHeaders := id
  seals := fun _ _ => true
  deliver := fun _ _ => DeliveryOutcome.acked

def bouncePeer : Peer := ⟨"203.0.113.7".toList, some (IpAddr.v4 0xCB007107)⟩

def bounceStream : Bytes :=
  utf8 "EHLO mta.example\r\nMAIL FROM:<>\r\n".toList

/-- Without the line of the greeting the two sides agree. -/
theorem ungreeted_refines :
    Transition.StepsMeet (Sides.step spfGateway false) (Sides.Agrees spfGateway false)
      (Sides.start bouncePeer 0) (dialog (fun _ => spfAnswers) (bounceStream.drop 18)) :=
  (handleConnection_refines_iff_regular _ _ _ _ _ _).mpr (by decide +kernel)

def paddedStream : Bytes :=
  utf8 "MAIL FROM:<eve@legacy.example>\r\nRCPT TO:<ann@dmtap.example>\r\nDATA\t\r\n".toList

def sidesAfter (stream : Bytes) : Sides :=
  Transition.after (Sides.step spfGateway false) (Sides.start bouncePeer 0)
    (dialog (fun _ => spfAnswers) stream)

/-- The name given with `EHLO` does not reach the SPF check of a null reverse-path, so a
sender is accepted that the session alone refuses; and the driver is not aware of the
message that a `DATA` with a tab behind it starts. -/
theorem ehlo_name_is_lost :
    Not (Transition.StepsMeet (Sides.step spfGateway false) (Sides.Agrees spfGateway false)
        (Sides.start bouncePeer 0) (dialog (fun _ => spfAnswers) bounceStream)) ∧
      (sidesAfter bounceStream).driver.session.mailFrom = some "<>".toList ∧
      (sidesAfter bounceStream).reference.session.mailFrom = none ∧
      (sidesAfter paddedStream).driver.session.phase = Phase.data ∧
      (sidesAfter paddedStream).driver.inData = false := by
  decide +kernel

end Gateway
end Ephor
