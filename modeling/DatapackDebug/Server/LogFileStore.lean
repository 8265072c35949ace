import DatapackDebug.File.Store
import DatapackDebug.Server.LogFile

namespace DatapackDebug

/-!
# Running servers in a file store

The log and the console of a running server as files of a store.

* `LogFileConnection.refusal?` — what speaks against a log;
* `ConsoleFile` — a console that is a file.
-/

/-- What speaks against a log: its directory cannot be watched, or it cannot be opened. -/
def LogFileConnection.refusal? (s : FileStore) (log : Text) : Option LogFileError :=
  match s.find (Path.parent log), s.find log with
  | .error failure, _ => some (.unwatchableLog failure)
  | .ok _, .error failure => some (.unreadableLog ⟨"open", log, failure⟩)
  | .ok _, .ok _ => none

/-- A console that is a file, with a clock. -/
structure ConsoleFile where
  files : FileStore
  path : Text
  clock : Nat := 0

namespace ConsoleFile

/-- Why the file cannot be opened for writing. -/
def refusal? (files : FileStore) (path : Text) : Option FileError :=
  match files.find path with
  | .ok (.file _) => none
  | .ok (.dir _) => some ⟨"open", path, .isDirectory⟩
  | .error failure => some ⟨"open", path, failure⟩

/-- The reply of the console to a request; what is written is added to the file. -/
def answer : (r : ConsoleRequest) → ConsoleFile → consoleSignature.Reply r × ConsoleFile
  | .now, c => (c.clock, c)
  | .wait ms, c => (false, { c with clock := c.clock + ms })
  | .write t, c =>
    match c.files.read c.path with
    | .error e => (some e.message, c)
    | .ok content =>
      let (files, e) := c.files.writeFile c.path (content ++ t)
      (e.map (·.message), { c with files })

end ConsoleFile

end DatapackDebug
