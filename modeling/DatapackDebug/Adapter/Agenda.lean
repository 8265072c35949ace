import DatapackDebug.Adapter.Handle

namespace DatapackDebug

/-!
# Turns of requests

Requests are handled one after the other, in the order in which they arrive.  Meanwhile the client
may cancel any of them, by its number or by the name of its progress: a request that has not had its
turn is then answered at once when its turn comes, and the one that is being handled is told.

* `Agenda` — the requests that wait, the one that is being handled, and those that were cancelled;
* `Agenda.receive` — a message of the client arrives;
* `Agenda.next?` — the next turn;
* `Agenda.finish` — the turn is over;
* `Agenda.answer` — the replies of a host that knows whether the request was cancelled.
-/

/-- The request that is being handled. -/
structure Turn where
  seq : Int
  cancelled : Bool := false
deriving DecidableEq, Repr

/-- The requests that wait, and what was cancelled. -/
structure Agenda where
  queue : List ClientRequest := []
  turn : Option Turn := none
  /-- requests to be refused when their turn comes -/
  cancelled : List Int := []
  /-- the request that each progress belongs to -/
  progress : List (Text × Int) := []

/-- What is to be done with a request whose turn has come. -/
inductive TurnKind where
  | handle
  /-- it was cancelled before -/
  | refuse
deriving DecidableEq, Repr

namespace Agenda

/-- Is the request that is being handled cancelled? -/
def isCancelled (a : Agenda) : Bool := a.turn.any (·.cancelled)

/-- The request that a cancellation means; 0 stands for none. -/
def target (a : Agenda) (request : Int) (progress : Text) : Int :=
  if progress.isEmpty then request else (a.progress.lookup progress).getD 0

/-- Cancel a request. -/
def cancel (a : Agenda) (target : Int) : Agenda :=
  if target == 0 then a
  else if a.turn.any (·.seq == target) then
    { a with turn := a.turn.map fun t => { t with cancelled := true } }
  else { a with cancelled := target :: a.cancelled }

/-- A message of the client arrives.  What is not handled in its turn is answered at once. -/
def receive (a : Agenda) : ClientMessage → Agenda × Option AdapterMessage
  | .request r => ({ a with queue := a.queue ++ [r] }, none)
  | .cancel seq request progress =>
    (a.cancel (a.target request progress), some (.response seq "cancel" .empty))
  | .notice => (a, none)
  | .unsupported seq part => (a, some (.failure seq part "Unsupported request"))

/-- The next turn, if a request waits. -/
def next? (a : Agenda) : Option (TurnKind × ClientRequest × Agenda) :=
  match a.queue with
  | [] => none
  | r :: queue =>
    if a.cancelled.contains r.seq then
      some (.refuse, r, { a with queue, cancelled := a.cancelled.filter (· != r.seq) })
    else some (.handle, r, { a with queue, turn := some { seq := r.seq } })

/-- The turn is over, and with it all its progress. -/
def finish (a : Agenda) : Agenda :=
  match a.turn with
  | none => a
  | some t => { a with turn := none, progress := a.progress.filter fun p => p.2 != t.seq }

/-- A request has a progress of this name. -/
def addProgress (a : Agenda) (id : Text) (request : Int) : Agenda :=
  { a with progress := (id, request) :: a.progress }

/-- What the adapter does in a turn. -/
def work (kind : TurnKind) (r : ClientRequest) : AdapterM Unit :=
  match kind with
  | .handle => AdapterM.handle r
  | .refuse => AdapterM.refuse r

/-- The replies of a host that is told whether the present request is cancelled.  It may leave a
    request unanswered. -/
def answer {σ : Type}
    (host : (r : AdapterRequest) → Bool → σ → Option (adapterSignature.Reply r) × σ) :
    (r : AdapterRequest) → Agenda × σ → Option (adapterSignature.Reply r) × (Agenda × σ)
  | .session .isCancelled, (a, s) => (some a.isCancelled, (a, s))
  | .newProgress request, (a, s) =>
    match host (.newProgress request) a.isCancelled s with
    | (some id, s) => (some id, (a.addProgress id request, s))
    | (none, s) => (none, (a, s))
  | r, (a, s) =>
    let (reply, s) := host r a.isCancelled s
    (reply, (a, s))

end Agenda

end DatapackDebug
