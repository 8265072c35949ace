import DatapackDebug.Text.Basic

namespace DatapackDebug

/-!
# The status of a session

* `Status` — how far a session is;
* `Status.transfer?` — a change that is allowed from some states only.
-/

/-- How far a session is. -/
inductive Status where
  | uninitialized
  /-- waits for the launch -/
  | initialized
  /-- the datapack is installed -/
  | launched
  /-- the debugged program has stopped -/
  | stopped
  | running
  | terminated
deriving DecidableEq, Repr

namespace Status

/-- All states in order. -/
def all : List Status := [.uninitialized, .initialized, .launched, .stopped, .running, .terminated]

/-- The name of a state. -/
def text : Status → Text
  | .uninitialized => "uninitialized"
  | .initialized => "initialized"
  | .launched => "launched"
  | .stopped => "stopped"
  | .running => "running"
  | .terminated => "terminated"

/-- The state of a name. -/
def ofText? (t : Text) : Option Status := all.find? fun s => s.text == t

/-- Is the state one of these? -/
def isOneOf (s : Status) (states : List Status) : Bool := states.contains s

/-- The state `target`, if the present state is one of `sources`. -/
def transfer? (s target : Status) (sources : List Status) : Option Status :=
  if s.isOneOf sources then some target else none

end Status

end DatapackDebug
