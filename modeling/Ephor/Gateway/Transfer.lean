import Ephor.Foundation.Lines
import Ephor.Gateway.InboundTcp

/-!
# A message on its way through SMTP

`pier-gateway/src/outbound_tcp.rs` writes a message after the `354`, with a dot before every
dot that starts a line, and ends it with a line that holds one dot.  On the other side the
bytes are framed into lines by `read_line` and fed to the session, which undoes the dots and
ends every line with CRLF.
-/

namespace Ephor
namespace Gateway

open Foundation

def crlf : Bytes := [0x0D, 0x0A]

def lineFeed : UInt8 := 0x0A

/-!
# Writing
-/

def writeDotStuffed : Bool -> Bytes -> Bytes
  | _, [] => []
  | atLineStart, b :: message =>
      (if atLineStart ∧ b = 0x2E then [0x2E, b] else [b]) ++
        writeDotStuffed (b = lineFeed) message

/-- What `SmtpTcpTransport` writes after the `354`. -/
def dataBytes (message : Bytes) : Bytes :=
  writeDotStuffed true message ++ (if crlf <:+ message then [] else crlf) ++ [0x2E, 0x0D, 0x0A]

def completed (message : Bytes) : Bytes :=
  message ++ if crlf <:+ message then [] else crlf

/-- The lines of the message as they go out, without their line feeds and without the
stuffed dots. -/
def sentLines (message : Bytes) : List Bytes :=
  (Lines.split lineFeed (completed message)).1

/-- A line with the dot that is added in front of a dot. -/
def stuff (line : Bytes) : Bytes :=
  if line.head? = some 0x2E then 0x2E :: line else line

/-- What the session makes of lines that it is fed. -/
def reassembled (lines : List Bytes) : Bytes :=
  lines.flatMap fun line => stripReturn line ++ crlf

/-- The lines of the message fit what `read_line` holds: each is counted with the carriage
return before its line feed and with the dot that was added to it. -/
def LinesFit (message : Bytes) : Prop :=
  forall line, line ∈ sentLines message -> (stuff line).length <= maxLine

instance (message : Bytes) : Decidable (LinesFit message) :=
  inferInstanceAs (Decidable (forall line, line ∈ sentLines message -> _))

theorem completed_ends (message : Bytes) :
    exists front, completed message = front ++ [0x0D] ++ [lineFeed] := by
  unfold completed
  split
  · rename_i h
    rcases h with ⟨front, hfront⟩
    exact ⟨front, by rw [<- hfront, List.append_nil, List.append_assoc]; rfl⟩
  · exact ⟨message, by rw [List.append_assoc]; rfl⟩

theorem join_sentLines (message : Bytes) :
    Lines.join lineFeed (sentLines message) = completed message := by
  rcases completed_ends message with ⟨front, hfront⟩
  rw [sentLines, hfront]
  exact Lines.join_split_of_ends lineFeed (front ++ [0x0D])

variable {message line : Bytes} {lines : List Bytes} {gw : InboundGateway} {s : MxSession}

theorem lineFeed_not_mem (h : line ∈ sentLines message) : lineFeed ∉ line :=
  (Lines.mark_not_mem_split lineFeed (completed message)).1 line h

theorem writeDotStuffed_false (h : lineFeed ∉ line) (rest : Bytes) :
    writeDotStuffed false (line ++ lineFeed :: rest) =
      line ++ lineFeed :: writeDotStuffed true rest := by
  induction line with
  | nil => simp [writeDotStuffed]
  | cons b line ih =>
      rw [List.mem_cons, not_or] at h
      have hb : (b = lineFeed) = False := eq_false (Ne.symm h.1)
      simp [writeDotStuffed, hb, ih h.2]

theorem writeDotStuffed_line (h : lineFeed ∉ line) (rest : Bytes) :
    writeDotStuffed true (line ++ lineFeed :: rest) =
      stuff line ++ lineFeed :: writeDotStuffed true rest := by
  cases line with
  | nil =>
      have hdot : Not (lineFeed = 0x2E) := by decide
      simp [writeDotStuffed, stuff, hdot]
  | cons b line =>
      rw [List.mem_cons, not_or] at h
      have hb : (b = lineFeed) = False := eq_false (Ne.symm h.1)
      by_cases hdot : b = 0x2E
      · subst hdot
        simp [writeDotStuffed, stuff, hb, writeDotStuffed_false h.2]
      · simp [writeDotStuffed, stuff, hb, hdot, writeDotStuffed_false h.2]

theorem writeDotStuffed_join (h : forall line, line ∈ lines -> lineFeed ∉ line) :
    writeDotStuffed true (Lines.join lineFeed lines) = Lines.join lineFeed (lines.map stuff) := by
  induction lines with
  | nil => rfl
  | cons line lines ih =>
      rw [Lines.join_cons, writeDotStuffed_line (h line List.mem_cons_self),
        ih (List.forall_mem_cons.mp h).2, List.map_cons, Lines.join_cons]

theorem writeDotStuffed_append_crlf (atLineStart : Bool) (message : Bytes) :
    writeDotStuffed atLineStart (message ++ crlf) =
      writeDotStuffed atLineStart message ++ crlf := by
  induction message generalizing atLineStart with
  | nil =>
      cases atLineStart <;> rfl
  | cons b message ih =>
      rw [List.cons_append, writeDotStuffed, writeDotStuffed, ih, List.append_assoc]

theorem dataBytes_eq (message : Bytes) :
    dataBytes message = Lines.join lineFeed ((sentLines message).map stuff ++ [[0x2E, 0x0D]]) := by
  have hstuffed : writeDotStuffed true message ++ (if crlf <:+ message then [] else crlf) =
      writeDotStuffed true (completed message) := by
    unfold completed
    split
    · rw [List.append_nil, List.append_nil]
    · rw [writeDotStuffed_append_crlf]
  rw [dataBytes, hstuffed, <- join_sentLines,
    writeDotStuffed_join fun line hline => lineFeed_not_mem hline, Lines.join_append]
  rfl

/-!
# Framing
-/

theorem readLinesFrom_line (h : lineFeed ∉ line) (buf rest : Bytes)
    (hbuf : buf.length <= maxLine) :
    readLinesFrom buf (line ++ lineFeed :: rest) =
      if (buf ++ line).length <= maxLine then stripReturn (buf ++ line) :: readLines rest
      else [] := by
  induction line generalizing buf with
  | nil =>
      rw [List.append_nil, if_pos hbuf]
      simp [readLinesFrom, lineFeed, readLines]
  | cons b line ih =>
      rw [List.mem_cons, not_or] at h
      have hb : Not (b = 0x0A) := Ne.symm h.1
      rw [List.cons_append, readLinesFrom, if_neg hb]
      by_cases hlong : maxLine < (buf ++ [b]).length
      · rw [if_pos hlong, if_neg]
        rw [List.length_append, List.length_singleton] at hlong
        rw [List.length_append, List.length_cons]
        omega
      · rw [if_neg hlong, ih h.2 (buf ++ [b]) (Nat.not_lt.mp hlong), List.append_assoc]
        rfl

theorem readLines_join (h : forall line, line ∈ lines -> lineFeed ∉ line) (rest : Bytes) :
    readLines (Lines.join lineFeed lines ++ rest) =
      if forall line, line ∈ lines -> line.length <= maxLine then
        lines.map stripReturn ++ readLines rest
      else
        (lines.takeWhile fun line => line.length <= maxLine).map stripReturn := by
  induction lines with
  | nil => simp [Lines.join]
  | cons line lines ih =>
      have hrest := ih (List.forall_mem_cons.mp h).2
      rw [Lines.join_cons, List.append_assoc, List.cons_append, readLines,
        readLinesFrom_line (h line List.mem_cons_self) [] _ (Nat.zero_le _), List.nil_append,
        hrest]
      by_cases hfits : line.length <= maxLine
      · by_cases hall : forall l, l ∈ lines -> l.length <= maxLine
        · rw [if_pos hfits, if_pos hall, if_pos]
          · rfl
          · intro l hl
            rcases List.mem_cons.mp hl with heq | hmem
            · rw [heq]
              exact hfits
            · exact hall l hmem
        · rw [if_pos hfits, if_neg hall, if_neg]
          · simp [hfits]
          · intro hboth
            exact hall (List.forall_mem_cons.mp hboth).2
      · rw [if_neg hfits, if_neg]
        · simp [hfits]
        · intro hboth
          exact hfits (hboth line List.mem_cons_self)

theorem stripReturn_concat (front : Bytes) : stripReturn (front ++ [0x0D]) = front := by
  simp [stripReturn]

theorem stuff_concat (front : Bytes) : stuff (front ++ [0x0D]) = stuff front ++ [0x0D] := by
  cases front with
  | nil => rfl
  | cons b front =>
      by_cases hdot : b = 0x2E
      · simp [stuff, hdot]
      · simp [stuff, hdot]

theorem getLast?_stuff (line : Bytes) : (stuff line).getLast? = line.getLast? := by
  cases line with
  | nil => rfl
  | cons b line =>
      by_cases hdot : b = 0x2E
      · simp [stuff, hdot, List.getLast?_cons_cons]
      · simp [stuff, hdot]

theorem stripReturn_stuff (line : Bytes) : stripReturn (stuff line) = stuff (stripReturn line) := by
  by_cases hreturn : line.getLast? = some 0x0D
  · rcases List.getLast?_eq_some_iff.mp hreturn with ⟨front, hfront⟩
    rw [hfront, stuff_concat, stripReturn_concat, stripReturn_concat]
  · have hstuffed : (stuff line).getLast? ≠ some 0x0D := by
      rw [getLast?_stuff]
      exact hreturn
    rw [stripReturn, if_neg hstuffed, stripReturn, if_neg hreturn]

theorem stuff_ne_dot (line : Bytes) : stuff line ≠ MxSession.dot := by
  intro h
  unfold stuff at h
  split at h
  · rename_i hhead
    injection h with _ hline
    rw [hline] at hhead
    cases hhead
  · rename_i hhead
    rw [h] at hhead
    exact hhead rfl

theorem unstuff_stuff (line : Bytes) : MxSession.unstuff (stuff line) = line := by
  cases line with
  | nil => rfl
  | cons b line =>
      by_cases hdot : b = 0x2E
      · simp [stuff, hdot, MxSession.unstuff, MxSession.dot, List.dropPrefix?]
      · simp [stuff, hdot, MxSession.unstuff, MxSession.dot, List.dropPrefix?]

theorem lineFeed_not_mem_stuff (h : lineFeed ∉ line) : lineFeed ∉ stuff line := by
  unfold stuff
  split
  · rw [List.mem_cons, not_or]
    exact ⟨by decide, h⟩
  · exact h

theorem lineFeed_not_mem_sent (h : line ∈ (sentLines message).map stuff ++ [[0x2E, 0x0D]]) :
    lineFeed ∉ line := by
  rcases List.mem_append.mp h with hmem | hlast
  · rcases List.mem_map.mp hmem with ⟨plain, hplain, heq⟩
    rw [<- heq]
    exact lineFeed_not_mem_stuff (lineFeed_not_mem hplain)
  · rw [List.mem_singleton.mp hlast]
    decide

theorem sent_fit_iff :
    (forall line, line ∈ (sentLines message).map stuff ++ [[0x2E, 0x0D]] ->
      line.length <= maxLine) <-> LinesFit message := by
  constructor
  · intro h line hline
    exact h (stuff line) (List.mem_append_left _ (List.mem_map_of_mem hline))
  · intro hfit line hline
    rcases List.mem_append.mp hline with hmem | hlast
    · rcases List.mem_map.mp hmem with ⟨plain, hplain, heq⟩
      rw [<- heq]
      exact hfit plain hplain
    · rw [List.mem_singleton.mp hlast]
      decide

theorem readLines_dataBytes (hfit : LinesFit message) (rest : Bytes) :
    readLines (dataBytes message ++ rest) =
      (sentLines message).map (fun line => stuff (stripReturn line)) ++
        MxSession.dot :: readLines rest := by
  rw [dataBytes_eq, readLines_join (fun line => lineFeed_not_mem_sent),
    if_pos (sent_fit_iff.mpr hfit), List.map_append, List.map_map]
  have hstrip : stripReturn ∘ stuff = fun line => stuff (stripReturn line) :=
    funext stripReturn_stuff
  rw [hstrip, List.append_assoc]
  rfl

theorem dot_not_mem_readLines (hfit : ¬ LinesFit message) (rest : Bytes) :
    MxSession.dot ∉ readLines (dataBytes message ++ rest) := by
  rw [dataBytes_eq, readLines_join (fun line => lineFeed_not_mem_sent),
    if_neg (fun hall => hfit (sent_fit_iff.mp hall))]
  intro hmem
  rcases List.mem_map.mp hmem with ⟨line, hline, hdot⟩
  -- The terminating dot stands after a line that does not fit.
  rw [List.takeWhile_append, if_neg] at hline
  · have hsent := (List.takeWhile_prefix _).mem hline
    rcases List.mem_map.mp hsent with ⟨plain, _, rfl⟩
    rw [stripReturn_stuff] at hdot
    exact stuff_ne_dot _ hdot
  · intro hlength
    have hall := List.takeWhile_eq_self_iff.mp
      ((List.takeWhile_prefix _).eq_of_length hlength)
    apply hfit
    intro plain hplain
    exact of_decide_eq_true (hall _ (List.mem_map_of_mem hplain))

/-!
# Feeding
-/

namespace MxSession

def feedAll (gw : InboundGateway) (s : MxSession) (lines : List Line) : MxSession :=
  lines.foldl (fun s line => (s.feedLineBytes gw line.answers line.bytes).session) s

/-- A session that hands the message to `accept_message_with_spf` and is ready for the next
transaction. -/
def handOn (gw : InboundGateway) (answers : Answers) (s : MxSession) (message : Bytes) : Fed where
  session := { s with phase := Phase.command }.resetTransaction
  reply := (gw.acceptMessageWithSpf answers (s.mailFrom.getD []) (s.rcptTo.getD []) message
    s.now s.spfOutcome).1
  delivery := (gw.acceptMessageWithSpf answers (s.mailFrom.getD []) (s.rcptTo.getD []) message
    s.now s.spfOutcome).2

theorem appendData_stuff (hsize : s.sizeExceeded = false)
    (hmax : s.data.length + line.length + 2 <= gw.maxMessageBytes) :
    s.appendData gw (stuff line) = { s with data := s.data ++ (line ++ crlf) } := by
  have hroom : Not (gw.maxMessageBytes < s.data.length + line.length + 2) := Nat.not_lt.mpr hmax
  have hexceeded : Not (s.sizeExceeded = true) := by
    rw [hsize]
    exact Bool.false_ne_true
  rw [appendData, if_neg hexceeded, unstuff_stuff, if_neg hroom, List.append_assoc]
  rfl

theorem feedAll_eq_appendData (hphase : s.phase = Phase.data)
    (hlines : forall line, line ∈ lines -> line ≠ dot) {fed : List Line}
    (hfed : fed.map Line.bytes = lines) : s.feedAll gw fed = lines.foldl (appendData gw) s := by
  induction lines generalizing s fed with
  | nil =>
      rw [List.map_eq_nil_iff.mp hfed]
      rfl
  | cons line lines ih =>
      cases fed with
      | nil => cases hfed
      | cons first fed =>
          injection hfed with hfirst hrest
          have hstep : (s.feedLineBytes gw first.answers first.bytes).session =
              appendData gw s line := by
            rw [hfirst, feedLineBytes_data hphase, feedData,
              if_neg (hlines line List.mem_cons_self)]
          have hkept : (appendData gw s line).phase = Phase.data :=
            (appendData_keeps gw s line).2.trans hphase
          change ((s.feedLineBytes gw first.answers first.bytes).session).feedAll gw fed = _
          rw [hstep]
          exact ih hkept (List.forall_mem_cons.mp hlines).2 hrest

theorem appendData_fits (hsize : s.sizeExceeded = false)
    (hmax : s.data.length + (lines.flatMap fun line => line ++ crlf).length <=
      gw.maxMessageBytes) :
    (lines.map stuff).foldl (appendData gw) s =
      { s with data := s.data ++ lines.flatMap fun line => line ++ crlf } := by
  induction lines generalizing s with
  | nil => simp
  | cons line lines ih =>
      have hcrlf : crlf.length = 2 := rfl
      rw [List.flatMap_cons, List.length_append, List.length_append] at hmax
      rw [List.map_cons, List.foldl_cons, appendData_stuff hsize (by omega)]
      have hnext := ih (s := { s with data := s.data ++ (line ++ crlf) }) hsize
      dsimp only at hnext
      rw [List.length_append, List.length_append] at hnext
      rw [hnext (by omega), List.flatMap_cons, List.append_assoc]

theorem feedAll_data (hphase : s.phase = Phase.data) (hsize : s.sizeExceeded = false)
    {fed : List Line} (hfed : fed.map Line.bytes = lines.map stuff)
    (hmax : s.data.length + (lines.flatMap fun line => line ++ crlf).length <=
      gw.maxMessageBytes) :
    s.feedAll gw fed =
      { s with data := s.data ++ lines.flatMap fun line => line ++ crlf } := by
  have hlines : forall line, line ∈ lines.map stuff -> line ≠ dot := by
    intro line hline
    rcases List.mem_map.mp hline with ⟨plain, _, rfl⟩
    exact stuff_ne_dot plain
  rw [feedAll_eq_appendData hphase hlines hfed, appendData_fits hsize hmax]

theorem feedLineBytes_dot (hphase : s.phase = Phase.data) (hsize : s.sizeExceeded = false)
    (answers : Answers) : s.feedLineBytes gw answers dot = s.handOn gw answers s.data := by
  rw [feedLineBytes, hphase]
  dsimp only
  rw [feedData, if_pos rfl, endData, hsize]
  rfl

/-- Between two transactions nothing of a message is kept. -/
def Fresh (s : MxSession) : Prop :=
  s.phase = Phase.command -> s.data = [] ∧ s.sizeExceeded = false

theorem fresh_new (peer : Peer) (now : UInt64) : Fresh (new peer now) :=
  fun _ => ⟨rfl, rfl⟩

theorem fresh_feedLineBytes (h : Fresh s) (answers : Answers) (line : Bytes) :
    Fresh (s.feedLineBytes gw answers line).session := by
  cases hphase : s.phase with
  | command =>
      rw [feedLineBytes_command hphase]
      have hfresh := h hphase
      have hmoves := feedCommand_moves gw answers s (Text.fromUtf8Lossy line)
      generalize (s.feedCommand gw answers (Text.fromUtf8Lossy line)).session = t at hmoves
      cases hmoves with
      | kept => exact h
      | named | sender | recipient => exact fun _ => hfresh
      | started =>
          intro hcommand
          cases hcommand
      | flushed => exact fun _ => ⟨rfl, rfl⟩
  | data =>
      rw [feedLineBytes_data hphase, feedData]
      split
      · rw [endData_session]
        exact fun _ => ⟨rfl, rfl⟩
      · intro hcommand
        rw [(appendData_keeps gw s line).2, hphase] at hcommand
        cases hcommand

theorem fresh_feedAll (h : Fresh s) (lines : List Line) : Fresh (s.feedAll gw lines) := by
  induction lines generalizing s with
  | nil => exact h
  | cons line lines ih => exact ih (fresh_feedLineBytes h line.answers line.bytes)

theorem session_of_opened (hphase : s.phase = Phase.command) {answers : Answers}
    (h : (s.feedLineBytes gw answers line).session.phase = Phase.data) :
    (s.feedLineBytes gw answers line).session = { s with phase := Phase.data } := by
  rw [feedLineBytes_command hphase] at h ⊢
  have hmoves := feedCommand_moves gw answers s (Text.fromUtf8Lossy line)
  generalize (s.feedCommand gw answers (Text.fromUtf8Lossy line)).session = t at h hmoves
  cases hmoves with
  | started => rfl
  | kept =>
      rw [hphase] at h
      cases h
  | named | sender | recipient =>
      dsimp only at h
      rw [hphase] at h
      cases h
  | flushed =>
      dsimp only [resetTransaction] at h
      rw [hphase] at h
      cases h

/-- A session that has just answered `354`. -/
structure Opened (gw : InboundGateway) (s : MxSession) : Prop where
  phase : s.phase = Phase.data
  reached : exists (peer : Peer) (now : UInt64) (before : List Line) (opening : Line),
    ((new peer now).feedAll gw before).phase = Phase.command ∧
      s = (((new peer now).feedAll gw before).feedLineBytes gw opening.answers
        opening.bytes).session

theorem Opened.fresh (h : Opened gw s) : s.data = [] ∧ s.sizeExceeded = false := by
  rcases h.reached with ⟨peer, now, before, opening, hcommand, hs⟩
  have hphase := h.phase
  rw [hs] at hphase ⊢
  rw [session_of_opened hcommand hphase]
  exact fresh_feedAll (fresh_new peer now) before hcommand

theorem flatMap_stripReturn (lines : List Bytes) :
    ((lines.map stripReturn).flatMap fun line => line ++ crlf) = reassembled lines := by
  rw [reassembled, List.flatMap_map]

theorem feedAll_dataBytes (h : Opened gw s)
    (hmax : (reassembled (sentLines message)).length <= gw.maxMessageBytes) {fed : List Line}
    (hfed : fed.map Line.bytes =
      (sentLines message).map fun line => stuff (stripReturn line)) :
    s.feedAll gw fed = { s with data := reassembled (sentLines message) } := by
  have hfed' : fed.map Line.bytes = ((sentLines message).map stripReturn).map stuff := by
    rw [hfed, List.map_map]
    rfl
  rw [feedAll_data h.phase h.fresh.2 hfed', h.fresh.1, flatMap_stripReturn, List.nil_append]
  rw [h.fresh.1, flatMap_stripReturn, List.length_nil]
  omega

theorem phase_feedAll (hphase : s.phase = Phase.data) {lines : List Line}
    (h : forall line, line ∈ lines -> line.bytes ≠ dot) :
    (s.feedAll gw lines).phase = Phase.data := by
  induction lines generalizing s with
  | nil => exact hphase
  | cons line lines ih =>
      apply ih
      · dsimp only
        rw [feedLineBytes_data hphase, feedData, if_neg (h line List.mem_cons_self)]
        exact (appendData_keeps gw s line.bytes).2.trans hphase
      · intro l hl
        exact h l (List.mem_cons_of_mem line hl)

end MxSession

/-!
# What arrives
-/

namespace MxSession

/-- The message that a session in the message phase hands on when it is fed the lines of the
stream: what it holds when the terminating dot comes, unless it grew too large. -/
def receive (gw : InboundGateway) (s : MxSession) (stream : Bytes) : Option Bytes :=
  let lines := readLines stream
  let received := (lines.takeWhile (· ≠ dot)).foldl (appendData gw) s
  if dot ∈ lines ∧ received.sizeExceeded = false then some received.data else none

/-- Fed the lines of the stream, the session hands on at the dot what `receive` says. -/
theorem handOn_of_receive {stream message : Bytes} (hphase : s.phase = Phase.data)
    (h : s.receive gw stream = some message) :
    exists lines rest, readLines stream = lines ++ dot :: rest ∧
      forall (fed : List Line) (last : Line), fed.map Line.bytes = lines -> last.bytes = dot ->
        (s.feedAll gw fed).feedLineBytes gw last.answers last.bytes =
          (s.feedAll gw fed).handOn gw last.answers message := by
  unfold receive at h
  dsimp only at h
  split at h
  · rename_i hreceived
    injection h with hdata
    rcases List.eq_append_cons_of_mem hreceived.1 with ⟨lines, rest, hlines, hplain⟩
    have hne : forall line, line ∈ lines -> line ≠ dot := by
      intro line hline heq
      exact hplain (heq ▸ hline)
    have htake : (readLines stream).takeWhile (· ≠ dot) = lines := by
      rw [hlines, List.takeWhile_append_of_pos (fun line hline => decide_eq_true (hne line hline)),
        List.takeWhile_cons_of_neg (by simp), List.append_nil]
    refine ⟨lines, rest, hlines, ?_⟩
    intro fed last hfed hlast
    have hsession : s.feedAll gw fed = lines.foldl (appendData gw) s :=
      feedAll_eq_appendData hphase hne hfed
    rw [htake] at hreceived hdata
    rw [hsession, hlast, feedLineBytes_dot _ hreceived.2, hdata]
    rw [<- hsession]
    apply phase_feedAll hphase
    intro line hline
    exact hne line.bytes (hfed ▸ List.mem_map_of_mem hline)
  · cases h

theorem appendData_exceeds {gw : InboundGateway} {s : MxSession} (lines : List Bytes)
    (hmax : s.sizeExceeded = true ∨ s.data.length <= gw.maxMessageBytes ∧
      gw.maxMessageBytes < s.data.length + (lines.flatMap fun line => line ++ crlf).length) :
    ((lines.map stuff).foldl (appendData gw) s).sizeExceeded = true := by
  induction lines generalizing s with
  | nil =>
      rcases hmax with hexceeded | ⟨hle, hlt⟩
      · exact hexceeded
      · exact absurd hlt (Nat.not_lt.mpr hle)
  | cons line lines ih =>
      apply ih
      rw [appendData, unstuff_stuff]
      split
      · rename_i hexceeded
        exact Or.inl hexceeded
      · rename_i hexceeded
        rcases hmax with hflag | ⟨_, hlt⟩
        · exact absurd hflag hexceeded
        · split
          · exact Or.inl rfl
          · rename_i hroom
            have hcrlf : crlf.length = 2 := rfl
            rw [List.flatMap_cons, List.length_append, List.length_append] at hlt
            right
            simp only [List.length_append, List.length_cons, List.length_nil]
            omega

theorem receive_dataBytes (h : Opened gw s) (message rest : Bytes) :
    s.receive gw (dataBytes message ++ rest) =
      if LinesFit message ∧ (reassembled (sentLines message)).length <= gw.maxMessageBytes then
        some (reassembled (sentLines message))
      else
        none := by
  by_cases hfit : LinesFit message
  · have hlines : readLines (dataBytes message ++ rest) =
        ((sentLines message).map stripReturn).map stuff ++ dot :: readLines rest := by
      rw [readLines_dataBytes hfit, List.map_map]
      rfl
    have hplain : forall line, line ∈ ((sentLines message).map stripReturn).map stuff ->
        decide (line ≠ dot) = true := by
      intro line hline
      rcases List.mem_map.mp hline with ⟨plain, _, rfl⟩
      exact decide_eq_true (stuff_ne_dot plain)
    have htake : (readLines (dataBytes message ++ rest)).takeWhile (· ≠ dot) =
        ((sentLines message).map stripReturn).map stuff := by
      rw [hlines, List.takeWhile_append_of_pos hplain, List.takeWhile_cons_of_neg (by simp),
        List.append_nil]
    have hdot : dot ∈ readLines (dataBytes message ++ rest) := by
      rw [hlines]
      exact List.mem_append_right _ List.mem_cons_self
    rw [receive, htake]
    by_cases hmax : (reassembled (sentLines message)).length <= gw.maxMessageBytes
    · rw [appendData_fits h.fresh.2, if_pos ⟨hdot, h.fresh.2⟩, if_pos ⟨hfit, hmax⟩,
        flatMap_stripReturn, h.fresh.1, List.nil_append]
      rw [flatMap_stripReturn, h.fresh.1, List.length_nil, Nat.zero_add]
      exact hmax
    · have hexceeds := @appendData_exceeds gw s ((sentLines message).map stripReturn)
      rw [flatMap_stripReturn, h.fresh.1, List.length_nil, Nat.zero_add] at hexceeds
      have hover := hexceeds (Or.inr ⟨Nat.zero_le _, Nat.not_le.mp hmax⟩)
      rw [hover, if_neg (fun hboth => Bool.noConfusion hboth.2), if_neg (fun hboth => hmax hboth.2)]
  · have hnone := dot_not_mem_readLines hfit rest
    rw [receive, if_neg (fun hboth => hnone hboth.1), if_neg (fun hboth => hfit hboth.1)]

end MxSession

/-!
# Transparency
-/

/-- Every line feed of the message has a carriage return before it. -/
def LineFeedsFollowReturns (message : Bytes) : Prop :=
  forall line, line ∈ (Lines.split lineFeed message).1 -> line.getLast? = some 0x0D

instance (message : Bytes) : Decidable (LineFeedsFollowReturns message) :=
  inferInstanceAs (Decidable (forall line, line ∈ (Lines.split lineFeed message).1 -> _))

theorem reassembled_of_returns (h : forall line, line ∈ lines -> line.getLast? = some 0x0D) :
    reassembled lines = Lines.join lineFeed lines := by
  induction lines with
  | nil => rfl
  | cons line lines ih =>
      rcases List.getLast?_eq_some_iff.mp (h line List.mem_cons_self) with ⟨front, hfront⟩
      have hrest := ih (List.forall_mem_cons.mp h).2
      rw [reassembled] at hrest
      rw [reassembled, List.flatMap_cons, hrest, Lines.join_cons, hfront, stripReturn_concat,
        crlf]
      simp [lineFeed]

theorem reassembled_sentLines (hreturns : LineFeedsFollowReturns message)
    (hends : crlf <:+ message) : reassembled (sentLines message) = message := by
  have hcompleted : completed message = message := by
    rw [completed, if_pos hends, List.append_nil]
  have hlines : forall line, line ∈ sentLines message -> line.getLast? = some 0x0D := by
    rw [sentLines, hcompleted]
    exact hreturns
  rw [reassembled_of_returns hlines, join_sentLines, hcompleted]

/--
A message of CRLF lines passes through unchanged: after the `354` its bytes are framed into
lines that keep the session in the message phase, the line that ends it is the terminating
dot, and what is handed to `accept_message_with_spf` is the message itself.
-/
theorem transfer_transparent (gw : InboundGateway) (s : MxSession) (message rest : Bytes)
    (hopened : s.Opened gw) (hreturns : LineFeedsFollowReturns message)
    (hends : crlf <:+ message) (hfit : LinesFit message)
    (hmax : message.length <= gw.maxMessageBytes) :
    exists lines, readLines (dataBytes message ++ rest) =
        lines ++ MxSession.dot :: readLines rest ∧
      forall (fed : List Line) (last : Line), fed.map Line.bytes = lines ->
        last.bytes = MxSession.dot ->
        (forall n, (s.feedAll gw (fed.take n)).phase = Phase.data) ∧
        (s.feedAll gw fed).feedLineBytes gw last.answers last.bytes =
          s.handOn gw last.answers message := by
  refine ⟨_, readLines_dataBytes hfit rest, ?_⟩
  intro fed last hfed hlast
  have hmessage := reassembled_sentLines hreturns hends
  constructor
  · intro n
    apply MxSession.phase_feedAll hopened.phase
    intro line hline
    have hmem : line.bytes ∈ fed.map Line.bytes :=
      List.mem_map_of_mem (List.mem_of_mem_take hline)
    rw [hfed] at hmem
    rcases List.mem_map.mp hmem with ⟨plain, _, heq⟩
    rw [<- heq]
    exact stuff_ne_dot (stripReturn plain)
  · have hfinal := MxSession.feedAll_dataBytes hopened (hmessage.symm ▸ hmax) hfed
    rw [hmessage] at hfinal
    rw [hfinal, hlast, MxSession.feedLineBytes_dot]
    · rfl
    · exact hopened.phase
    · exact hopened.fresh.2

def plainLine (text : String) : Line := ⟨spfAnswers, Text.utf8 text.toList⟩

/-- A session after `MAIL`, `RCPT` and `DATA`. -/
def openedSession : MxSession :=
  (((MxSession.new bouncePeer 0).feedAll spfGateway
    [plainLine "MAIL FROM:<eve@legacy.example>", plainLine "RCPT TO:<ann@dmtap.example>"]
    ).feedLineBytes spfGateway spfAnswers (plainLine "DATA").bytes).session

theorem opened_openedSession : openedSession.Opened spfGateway where
  phase := by decide +kernel
  reached :=
    ⟨bouncePeer, 0, [plainLine "MAIL FROM:<eve@legacy.example>",
      plainLine "RCPT TO:<ann@dmtap.example>"], plainLine "DATA", by decide +kernel, rfl⟩

def dottedMessage : Bytes :=
  Text.utf8 ".\r\n..a\rb\r\n\r\n.\r\n".toList

theorem dottedMessage_passes :
    LineFeedsFollowReturns dottedMessage ∧ LinesFit dottedMessage ∧
    exists lines, readLines (dataBytes dottedMessage ++ Text.utf8 "QUIT\r\n".toList) =
        lines ++ MxSession.dot :: readLines (Text.utf8 "QUIT\r\n".toList) ∧
      forall (fed : List Line) (last : Line), fed.map Line.bytes = lines ->
        last.bytes = MxSession.dot ->
        (forall n, (openedSession.feedAll spfGateway (fed.take n)).phase = Phase.data) ∧
        (openedSession.feedAll spfGateway fed).feedLineBytes spfGateway last.answers
          last.bytes = openedSession.handOn spfGateway last.answers dottedMessage := by
  refine ⟨by decide +kernel, by decide +kernel, ?_⟩
  exact transfer_transparent spfGateway openedSession dottedMessage _ opened_openedSession
    (by decide +kernel) (by decide +kernel) (by decide +kernel) (by decide +kernel)

/-- A line of `n` letters. -/
def letterLine (n : Nat) : Bytes :=
  List.replicate n 0x61 ++ crlf

theorem sentLines_letterLine (n : Nat) :
    sentLines (letterLine n) = [List.replicate n 0x61 ++ [0x0D]] := by
  have hends : crlf <:+ letterLine n := ⟨_, rfl⟩
  have hmark : lineFeed ∉ List.replicate n 0x61 ++ [0x0D] := by
    intro h
    rcases List.mem_append.mp h with hletter | hreturn
    · exact absurd (List.eq_of_mem_replicate hletter) (by decide)
    · exact absurd (List.mem_singleton.mp hreturn) (by decide)
  have hcompleted : completed (letterLine n) =
      (List.replicate n 0x61 ++ [0x0D]) ++ lineFeed :: [] := by
    rw [completed, if_pos hends, List.append_nil, letterLine, crlf, List.append_assoc]
    rfl
  rw [sentLines, hcompleted, Lines.split_line lineFeed hmark]
  rfl

theorem readLines_letterLine {n : Nat} (hlong : maxLine <= n) :
    readLines (dataBytes (letterLine n)) = [] := by
  have hstuff : stuff (List.replicate n 0x61 ++ [0x0D]) = List.replicate n 0x61 ++ [0x0D] := by
    cases n with
    | zero => rfl
    | succ n => simp [stuff, List.replicate_succ]
  have hlength : (List.replicate n (0x61 : UInt8) ++ [0x0D]).length = n + 1 := by
    rw [List.length_append, List.length_replicate]
    rfl
  have hmarks : forall line, line ∈ [List.replicate n (0x61 : UInt8) ++ [0x0D], [0x2E, 0x0D]] ->
      lineFeed ∉ line := by
    intro line hline
    rcases List.mem_cons.mp hline with heq | hlast
    · rw [heq]
      have hmem : List.replicate n 0x61 ++ [0x0D] ∈ sentLines (letterLine n) := by
        rw [sentLines_letterLine]
        exact List.mem_singleton.mpr rfl
      exact lineFeed_not_mem hmem
    · rw [List.mem_singleton.mp hlast]
      decide
  have hframed := readLines_join hmarks []
  rw [List.append_nil, if_neg] at hframed
  · rw [dataBytes_eq, sentLines_letterLine, List.map_singleton, hstuff]
    change readLines (Lines.join lineFeed [List.replicate n 0x61 ++ [0x0D], [0x2E, 0x0D]]) = []
    rw [hframed, List.takeWhile_cons_of_neg]
    · rfl
    · rw [hlength, decide_eq_true_iff]
      omega
  · intro hall
    have hfirst := hall _ List.mem_cons_self
    rw [hlength] at hfirst
    omega

/-- A message of one line of 64 KiB is not framed at all: the carriage return does not fit. -/
theorem line_of_64_KiB_is_refused :
    LineFeedsFollowReturns (letterLine (64 * 1024)) ∧ crlf <:+ letterLine (64 * 1024) ∧
    (letterLine (64 * 1024)).length <= spfGateway.maxMessageBytes ∧
    readLines (dataBytes (letterLine (64 * 1024))) = [] := by
  refine ⟨?_, ⟨_, rfl⟩, ?_, readLines_letterLine (Nat.le_refl _)⟩
  · intro line hline
    have hlines := sentLines_letterLine (64 * 1024)
    have hends : crlf <:+ letterLine (64 * 1024) := ⟨_, rfl⟩
    rw [sentLines, completed, if_pos hends, List.append_nil] at hlines
    rw [hlines] at hline
    rw [List.mem_singleton.mp hline]
    exact List.getLast?_concat
  · rw [letterLine, List.length_append, List.length_replicate]
    decide

end Gateway
end Ephor
