import DatapackDebug.Dialogue
import DatapackDebug.File.Tree
import DatapackDebug.Server.Injection
import DatapackDebug.Server.Log

namespace DatapackDebug

/-!
# A running server

A server that is already running is reached through the input of its console and through its log
file.

* `LogFileConnection.connect` — prepare the server; what the log held before is skipped;
* `LogFileConnection.inject` — inject commands, with at least two ticks between two injections, so
  that none replaces the blocks of another before they were executed;
* `LogFileConnection.read`, `LogFileConnection.reopen` — the events of what was added to the log,
  and of a log that was created anew;
* `ConsoleRecord` — a console that keeps what is written to it.
-/

/-- Why commands could not be injected. -/
inductive ConnectionError where
  /-- the request was cancelled -/
  | cancelled
  /-- the time for the request is over -/
  | deadline
  | closed (why : Option Text)
  | failed (why : Text)
deriving DecidableEq, Repr

/-- The wording of the error. -/
def ConnectionError.message : ConnectionError → Text
  | .cancelled => "context canceled"
  | .deadline => "context deadline exceeded"
  | .closed none => "Connection to the server is closed"
  | .closed (some why) => "Connection to the server is closed: " ++ why
  | .failed why => why

/-- Why the connection is lost, if the error tells that it is. -/
def ConnectionError.loss? : ConnectionError → Option (Option Text)
  | .cancelled | .deadline => none
  | .closed why => some why
  | .failed why => some (some why)

/-- What a connection asks of the console: the time in milliseconds, to wait, to write.  A wait
    tells whether it was cancelled, and a write why it failed. -/
inductive ConsoleRequest where
  | now
  | wait (milliseconds : Nat)
  | write (text : Text)
deriving DecidableEq, Repr

/-- Consoles. -/
def consoleSignature : Signature where
  Request := ConsoleRequest
  Reply
    | .now => Nat
    | .wait _ => Bool
    | .write _ => Option Text

/-- A computation with a console. -/
abbrev ConsoleM := Dialogue consoleSignature

/-- A connection to a running server. -/
structure LogFileConnection where
  position : BlockPos
  tail : LogTail := {}
  lastInjection : Option Nat := none
  closed : Bool := false
deriving DecidableEq, Repr

/-- Why a running server cannot be reached. -/
inductive LogFileError where
  | noConsole
  /-- the directory of the log cannot be watched -/
  | unwatchableLog (failure : FileFailure)
  | unreadableLog (e : FileError)
  | unwritableConsole (e : ConnectionError)
deriving DecidableEq, Repr

/-- The wording of the error. -/
def LogFileError.message : LogFileError → Text
  | .noConsole => "console must not be nil"
  | .unwatchableLog failure => failure.message
  | .unreadableLog e => e.message
  | .unwritableConsole e => e.message

namespace LogFileConnection

/-- The least number of milliseconds between two injections: two ticks of the game. -/
def injectionInterval : Nat := 2 * 50

/-- Write lines to the console up to the first failure. -/
def writeLines (closed : Bool) : List Text → ConsoleM (Except ConnectionError Unit)
  | [] => pure (.ok ())
  | line :: lines =>
    if closed then pure (.error (.closed none))
    else do
      match ← Dialogue.perform (S := consoleSignature) (.write (line ++ [0x0a])) with
      | some why => pure (.error (.closed (some why)))
      | none => writeLines closed lines

/-- Connect to a server, if there is a console and nothing speaks against the log, by preparing the
    server. -/
def connect (position : BlockPos) (hasConsole : Bool) (refusal : Option LogFileError) :
    ConsoleM (Except LogFileError LogFileConnection) := do
  if !hasConsole then return .error .noConsole
  match refusal with
  | some e => return .error e
  | none =>
    match ← writeLines false (setupLines position) with
    | .error e => return .error (.unwritableConsole e)
    | .ok _ => return .ok { position }

/-- How long the next injection has to wait. -/
def delay (c : LogFileConnection) (now : Nat) : Nat :=
  match c.lastInjection with
  | none => 0
  | some last => last + injectionInterval - now

/-- Inject commands.  A cancelled request fails if it has to wait. -/
def inject (c : LogFileConnection) (commands : List ServerCommand) :
    ConsoleM (Except ConnectionError Unit × LogFileConnection) := do
  let delay := c.delay (← Dialogue.perform (S := consoleSignature) .now)
  let cancelled ← if delay = 0 then pure false
    else Dialogue.perform (S := consoleSignature) (.wait delay)
  if cancelled then return (.error .cancelled, c)
  match ← writeLines c.closed (injectionLines c.position commands) with
  | .error e => return (.error e, c)
  | .ok _ =>
    let now ← Dialogue.perform (S := consoleSignature) .now
    return (.ok (), { c with lastInjection := some now })

/-- The events of what was added to the log. -/
def read (c : LogFileConnection) (piece : Text) : LogFileConnection × List LogEvent :=
  if c.closed then (c, [])
  else
    let (tail, events) := c.tail.feed piece
    ({ c with tail }, events)

/-- The events of a log that was created anew. -/
def reopen (c : LogFileConnection) (content : Text) : LogFileConnection × List LogEvent :=
  if c.closed then (c, [])
  else
    let (tail, events) := LogTail.rotate content
    ({ c with tail }, events)

/-- Close the connection. -/
def close (c : LogFileConnection) : LogFileConnection := { c with closed := true }

end LogFileConnection

/-! ### A console that keeps what is written to it -/

/-- A console with a clock; `failure` is why every write fails. -/
structure ConsoleRecord where
  clock : Nat := 0
  written : List Text := []
  failure : Option Text := none
  cancelled : Bool := false
deriving DecidableEq, Repr

namespace ConsoleRecord

/-- The reply of the console to a request.  A wait that is not cancelled passes the time. -/
def answer : (r : ConsoleRequest) → ConsoleRecord → consoleSignature.Reply r × ConsoleRecord
  | .now, c => (c.clock, c)
  | .wait ms, c => if c.cancelled then (true, c) else (false, { c with clock := c.clock + ms })
  | .write t, c =>
    match c.failure with
    | some why => (some why, c)
    | none => (none, { c with written := c.written ++ [t] })

/-- The console after a pause. -/
def pause (c : ConsoleRecord) (ms : Nat) : ConsoleRecord := { c with clock := c.clock + ms }

end ConsoleRecord

end DatapackDebug
