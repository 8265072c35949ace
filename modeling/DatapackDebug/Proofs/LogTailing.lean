import DatapackDebug.Proofs.StopReports

namespace DatapackDebug

/-!
# A log that is read while it is written

A server appends to its log in pieces of any size, which may end within a line, a line break or a
character, and now and then creates the log anew.  The connection reads what is there at some of
these moments.

* `Text.linesFrom`, `Text.openFrom` — the complete lines of a text, and the line that is still open;
* `LogTail.feed_eq` — a piece completes the lines that it ends, the first of them with what was
  pending;
* `WatchedLog` — the log, how far it was read, and the connection;
* `LogHistory` — what was read of each file, without a connection;
* `WatchedLog.Follows.step`, `WatchedLog.Follows.run` — the connection has told the events of what
  was read;
* `events_run` — the events do not depend on how the log is written.
-/

/-! ### Lines of a text -/

namespace Text

/-- The complete lines of a text that stands behind the beginning of a line.  A line ends with its
    break. -/
def linesFrom (line : Text) : Text → List Text
  | [] => []
  | b :: t => if b = 0x0a then (line ++ [b]) :: linesFrom [] t else linesFrom (line ++ [b]) t

/-- The line that is open at the end of a text that stands behind the beginning of a line. -/
def openFrom (line : Text) : Text → Text
  | [] => line
  | b :: t => if b = 0x0a then openFrom [] t else openFrom (line ++ [b]) t

/-- A text is made of complete lines, each with one break at its end, and of a rest without a
    break. -/
structure MadeOf (text : Text) (lines : List Text) (rest : Text) : Prop where
  joined : text = lines.flatten ++ rest
  complete : ∀ line ∈ lines, ∃ body, line = body ++ [0x0a] ∧ (0x0a : UInt8) ∉ body
  unbroken : (0x0a : UInt8) ∉ rest

theorem linesFrom_append (line s t : Text) :
    linesFrom line (s ++ t) = linesFrom line s ++ linesFrom (openFrom line s) t := by
  induction s generalizing line with
  | nil => rfl
  | cons b s ih =>
    rw [List.cons_append, linesFrom, linesFrom, openFrom]
    by_cases hb : b = 0x0a
    · rw [if_pos hb, if_pos hb, if_pos hb, ih, List.cons_append]
    · rw [if_neg hb, if_neg hb, if_neg hb, ih]

theorem openFrom_append (line s t : Text) :
    openFrom line (s ++ t) = openFrom (openFrom line s) t := by
  induction s generalizing line with
  | nil => rfl
  | cons b s ih =>
    rw [List.cons_append, openFrom, openFrom]
    by_cases hb : b = 0x0a
    · rw [if_pos hb, if_pos hb, ih]
    · rw [if_neg hb, if_neg hb, ih]

theorem not_mem_concat {line : Text} {b : UInt8} (hline : (0x0a : UInt8) ∉ line) (hb : b ≠ 0x0a) :
    (0x0a : UInt8) ∉ line ++ [b] := by
  intro hmem
  rcases List.mem_append.mp hmem with hmem | hmem
  · exact hline hmem
  · exact hb (List.mem_singleton.mp hmem).symm

/-- The beginning of a line and a text are made of the complete lines and the open one. -/
theorem madeOf_linesFrom {line : Text} (hline : (0x0a : UInt8) ∉ line) (t : Text) :
    MadeOf (line ++ t) (linesFrom line t) (openFrom line t) := by
  induction t generalizing line with
  | nil =>
    refine ⟨List.append_nil line, ?_, hline⟩
    intro l hl
    exact absurd hl List.not_mem_nil
  | cons b t ih =>
    rw [linesFrom, openFrom]
    by_cases hb : b = 0x0a
    · rw [if_pos hb, if_pos hb]
      have hrest : MadeOf ([] ++ t) (linesFrom [] t) (openFrom [] t) := ih List.not_mem_nil
      refine ⟨?_, ?_, hrest.unbroken⟩
      · have hjoined : t = (linesFrom [] t).flatten ++ openFrom [] t := hrest.joined
        rw [List.flatten_cons, List.append_assoc, ← hjoined, List.append_assoc]
        rfl
      · intro l hl
        rcases List.mem_cons.mp hl with rfl | hl
        · exact ⟨line, by rw [hb], hline⟩
        · exact hrest.complete l hl
    · rw [if_neg hb, if_neg hb]
      have hrest := ih (not_mem_concat hline hb)
      rw [List.append_assoc] at hrest
      exact hrest

end Text

/-! ### Pieces of a log -/

/-- The break at the end of a line tells nothing. -/
theorem LogEvent.ofLine?_concat_break (line : Text) : ofLine? (line ++ [0x0a]) = ofLine? line := by
  have hdrop : dropBreaks (line ++ [0x0a]) = dropBreaks line := by
    rw [dropBreaks, List.reverse_append, List.reverse_singleton, List.singleton_append,
      List.dropWhile_cons_of_pos (by decide)]
    rfl
  rw [ofLine?, hdrop]
  rfl

namespace LogTail

/-- The parts between line breaks, of a text that stands behind the beginning of a line. -/
theorem exists_splitOn_eq {line : Text} (hline : (0x0a : UInt8) ∉ line) (t : Text) :
    ∃ bodies, Text.splitOn 0x0a (line ++ t) = bodies ++ [Text.openFrom line t] ∧
      Text.linesFrom line t = bodies.map (· ++ [0x0a]) := by
  induction t generalizing line with
  | nil => exact ⟨[], by rw [List.append_nil, Text.splitOn_of_not_mem hline]; rfl, rfl⟩
  | cons b t ih =>
    rw [Text.linesFrom, Text.openFrom]
    by_cases hb : b = 0x0a
    · have hempty : (0x0a : UInt8) ∉ ([] : Text) := List.not_mem_nil
      obtain ⟨bodies, hsplit, hlines⟩ := ih hempty
      rw [List.nil_append] at hsplit
      rw [if_pos hb, if_pos hb, hb, Text.splitOn_append_cons, Text.splitOn_of_not_mem hline,
        hsplit, hlines]
      exact ⟨line :: bodies, rfl, rfl⟩
    · rw [if_neg hb, if_neg hb, List.append_cons]
      exact ih (Text.not_mem_concat hline hb)

/-- A piece completes the lines that end in it, the first of them with what was pending. -/
theorem feed_eq {tail : LogTail} (hpending : (0x0a : UInt8) ∉ tail.pending) (piece : Text) :
    tail.feed piece =
      (⟨Text.openFrom tail.pending piece⟩,
        (Text.linesFrom tail.pending piece).filterMap LogEvent.ofLine?) := by
  obtain ⟨bodies, hsplit, hlines⟩ := exists_splitOn_eq hpending piece
  have hcomplete : completeLines (tail.pending ++ piece) =
      (bodies, Text.openFrom tail.pending piece) := by
    rw [completeLines, hsplit, List.dropLast_concat, List.getLast?_concat]
    rfl
  have hevents : (bodies.map (· ++ [0x0a])).filterMap LogEvent.ofLine? =
      bodies.filterMap LogEvent.ofLine? := by
    rw [List.filterMap_map]
    exact congrArg (bodies.filterMap ·) (funext LogEvent.ofLine?_concat_break)
  rw [feed, hcomplete, hlines, hevents]

end LogTail

namespace LogFileConnection

variable {c : LogFileConnection}

theorem read_eq (hopen : c.closed = false) (piece : Text) :
    c.read piece = ({ c with tail := (c.tail.feed piece).1 }, (c.tail.feed piece).2) := by
  rw [read, if_neg (by simp [hopen])]

theorem reopen_eq (hopen : c.closed = false) (content : Text) :
    c.reopen content = ({ c with tail := (LogTail.rotate content).1 },
      (LogTail.rotate content).2) := by
  rw [reopen, if_neg (by simp [hopen])]

end LogFileConnection

/-! ### The log and its reader -/

/-- What happens to a log. -/
inductive LogStep where
  /-- the server adds something at the end -/
  | append (chunk : Text)
  /-- the connection reads what it has not read yet -/
  | read
  /-- the log is created anew, and the connection opens it and reads what is there -/
  | recreate (content : Text)
deriving DecidableEq, Repr

/-- A log, how far it was read, the connection that reads it, and the events that it has told. -/
structure WatchedLog where
  file : Text
  offset : Nat
  connection : LogFileConnection
  events : List LogEvent := []

namespace WatchedLog

/-- A connection that was made when the log had a content.  It skips this content. -/
def start (position : BlockPos) (content : Text) : WatchedLog :=
  { file := content, offset := content.length, connection := { position } }

/-- The log and its reader after a step. -/
def step (w : WatchedLog) : LogStep → WatchedLog
  | .append chunk => { w with file := w.file ++ chunk }
  | .read =>
    let (connection, events) := w.connection.read (w.file.drop w.offset)
    { w with offset := w.file.length, connection, events := w.events ++ events }
  | .recreate content =>
    let (connection, events) := w.connection.reopen content
    { file := content, offset := content.length, connection, events := w.events ++ events }

/-- The log and its reader after some steps. -/
def run (w : WatchedLog) (steps : List LogStep) : WatchedLog := steps.foldl step w

end WatchedLog

/-- What was read of the files so far, one after the other, and what is left to read of the last
    one. -/
structure LogHistory where
  past : List Text := []
  taken : Text := []
  unread : Text := []

namespace LogHistory

/-- The history after a step.  What was not read of a file is lost when the file is created anew. -/
def step (h : LogHistory) : LogStep → LogHistory
  | .append chunk => { h with unread := h.unread ++ chunk }
  | .read => { h with taken := h.taken ++ h.unread, unread := [] }
  | .recreate content => { past := h.past ++ [h.taken], taken := content, unread := [] }

/-- The successive files as far as they were read, after some steps. -/
def filesRead (steps : List LogStep) : List Text :=
  let h := steps.foldl step {}
  h.past ++ [h.taken]

end LogHistory

/-- The events of the complete lines of a file. -/
def eventsOfFile (text : Text) : List LogEvent :=
  (Text.linesFrom [] text).filterMap LogEvent.ofLine?

theorem eventsOfFile_append (s t : Text) :
    eventsOfFile (s ++ t) =
      eventsOfFile s ++ (Text.linesFrom (Text.openFrom [] s) t).filterMap LogEvent.ofLine? := by
  rw [eventsOfFile, Text.linesFrom_append, List.filterMap_append]
  rfl

namespace WatchedLog

/-- The connection keeps the line that is open in what it has read, and has told all events
    before. -/
structure Follows (w : WatchedLog) (h : LogHistory) : Prop where
  isOpen : w.connection.closed = false
  bound : w.offset ≤ w.file.length
  unread : w.file.drop w.offset = h.unread
  pending : w.connection.tail.pending = Text.openFrom [] h.taken
  events : w.events = (h.past ++ [h.taken]).flatMap eventsOfFile

variable {w : WatchedLog} {h : LogHistory}

theorem follows_start (position : BlockPos) (content : Text) :
    (start position content).Follows {} where
  isOpen := rfl
  bound := Nat.le_refl _
  unread := List.drop_length
  pending := rfl
  events := rfl

theorem Follows.not_mem_pending (hw : w.Follows h) :
    (0x0a : UInt8) ∉ w.connection.tail.pending := by
  rw [hw.pending]
  exact (Text.madeOf_linesFrom List.not_mem_nil h.taken).unbroken

/-- A step of the log is a step of the history. -/
theorem Follows.step (hw : w.Follows h) (s : LogStep) : (w.step s).Follows (h.step s) := by
  cases s with
  | append chunk =>
    refine ⟨hw.isOpen, ?_, ?_, hw.pending, hw.events⟩
    · show w.offset ≤ (w.file ++ chunk).length
      rw [List.length_append]
      exact Nat.le_add_right_of_le hw.bound
    · show (w.file ++ chunk).drop w.offset = h.unread ++ chunk
      rw [List.drop_append_of_le_length hw.bound, hw.unread]
  | read =>
    have hread : w.connection.read (w.file.drop w.offset) =
        ({ w.connection with tail := ⟨Text.openFrom [] (h.taken ++ h.unread)⟩ },
          (Text.linesFrom (Text.openFrom [] h.taken) h.unread).filterMap LogEvent.ofLine?) := by
      rw [LogFileConnection.read_eq hw.isOpen, LogTail.feed_eq hw.not_mem_pending, hw.pending,
        hw.unread, Text.openFrom_append]
    rw [WatchedLog.step, hread]
    refine ⟨hw.isOpen, Nat.le_refl _, List.drop_length, rfl, ?_⟩
    show w.events ++ _ = (h.past ++ [h.taken ++ h.unread]).flatMap eventsOfFile
    rw [hw.events, List.flatMap_append, List.flatMap_append, List.flatMap_singleton,
      List.flatMap_singleton, eventsOfFile_append, List.append_assoc]
  | recreate content =>
    -- the open line of the old file is dropped with it
    have hreopen : w.connection.reopen content =
        ({ w.connection with tail := ⟨Text.openFrom [] content⟩ }, eventsOfFile content) := by
      rw [LogFileConnection.reopen_eq hw.isOpen, LogTail.rotate, LogTail.feed_eq List.not_mem_nil]
      rfl
    rw [WatchedLog.step, hreopen]
    refine ⟨hw.isOpen, Nat.le_refl _, List.drop_length, rfl, ?_⟩
    show w.events ++ eventsOfFile content =
      ((h.past ++ [h.taken]) ++ [content]).flatMap eventsOfFile
    rw [List.flatMap_append, ← hw.events, List.flatMap_singleton]

/-- Steps of the log are steps of the history. -/
theorem Follows.run (hw : w.Follows h) (steps : List LogStep) :
    (w.run steps).Follows (steps.foldl LogHistory.step h) := by
  induction steps generalizing w h with
  | nil => exact hw
  | cons s steps ih => exact ih (hw.step s)

end WatchedLog

/-- The events are those of the complete lines of the successive files, as far as they were read, in
    order. Every file is made of its complete lines and of a rest that is no line. -/
theorem events_run (position : BlockPos) (content : Text) (steps : List LogStep) :
    ((WatchedLog.start position content).run steps).events =
        (LogHistory.filesRead steps).flatMap
          (fun text => (Text.linesFrom [] text).filterMap LogEvent.ofLine?) ∧
      ∀ text, ∃ rest, Text.MadeOf text (Text.linesFrom [] text) rest := by
  constructor
  · exact ((WatchedLog.follows_start position content).run steps).events
  · intro text
    exact ⟨_, Text.madeOf_linesFrom List.not_mem_nil text⟩

end DatapackDebug
