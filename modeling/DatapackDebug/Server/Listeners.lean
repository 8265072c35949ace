import DatapackDebug.Server.Log

namespace DatapackDebug

/-!
# Listeners

What a server reports is sent to everyone who listens, to each on a channel of its own.

* `Listeners.add`, `Listeners.remove`, `Listeners.close` — who listens;
* `Listeners.broadcast` — send a report to all who listen;
* `Listeners.channel` — what a listener was sent and has not taken;
* `Listeners.take` — take it.

A channel is closed when its listener is removed or the listeners are closed, and carries nothing
after that.
-/

/-- What a channel carries. -/
inductive Signal where
  | event (e : LogEvent)
  /-- nothing follows -/
  | closed
deriving DecidableEq, Repr

/-- The report that a signal is. -/
def Signal.event? : Signal → Option LogEvent
  | .event e => some e
  | .closed => none

/-- The channels of all who have ever listened, by number, and the numbers of those who listen
    now. -/
structure Listeners where
  channels : List (List Signal) := []
  active : List Nat := []
  closed : Bool := false
deriving DecidableEq, Repr

namespace Listeners

/-- What a listener was sent and has not taken. -/
def channel (l : Listeners) (id : Nat) : List Signal := l.channels.getD id []

/-- Send a signal to some listeners. -/
def send (l : Listeners) (ids : List Nat) (s : Signal) : Listeners :=
  { l with channels := l.channels.mapIdx fun id c => if ids.contains id then c ++ [s] else c }

/-- One more listener, and its number.  After the close its channel is closed from the start. -/
def add (l : Listeners) : Nat × Listeners :=
  let id := l.channels.length
  if l.closed then (id, { l with channels := l.channels ++ [[.closed]] })
  else (id, { l with channels := l.channels ++ [[]], active := l.active ++ [id] })

/-- Send a report to all who listen. -/
def broadcast (l : Listeners) (e : LogEvent) : Listeners := l.send l.active (.event e)

/-- Close the channel of a listener, if it listens. -/
def remove (l : Listeners) (id : Nat) : Listeners :=
  if l.active.contains id then { l.send [id] .closed with active := l.active.filter (· != id) }
  else l

/-- Close all channels, and those of listeners to come. -/
def close (l : Listeners) : Listeners :=
  if l.closed then l else { l.send l.active .closed with active := [], closed := true }

/-- Take what a listener was sent. -/
def take (l : Listeners) (id : Nat) : List Signal × Listeners :=
  (l.channel id, { l with channels := l.channels.set id [] })

end Listeners

end DatapackDebug
