import DatapackDebug.File.Store
import DatapackDebug.Server.Listeners
import DatapackDebug.Session.Run

namespace DatapackDebug

/-!
# Scripted servers

A host for sessions whose server does not run a game: it keeps the commands that are injected, and
answers queries as a script says.

* `ServerScript` — how the server answers;
* `ScriptedHost` — the server, the files, and what was reported;
* `ScriptedHost.answer` — the replies to the requests of a session;
* `ScriptedSession` — a session on such a host.
-/

/-- How a scripted server answers. -/
structure ServerScript where
  /-- what the query for frames reports -/
  frames : List Text := []
  /-- what the query for scores reports -/
  scores : List Text := []
  /-- what is logged before an answer -/
  noise : List LogEvent := []
  /-- why all injections fail -/
  injectError : Option ConnectionError := none
  /-- a command with this text, if there is one, closes the connection -/
  closeOn : Text := []
deriving DecidableEq, Repr

namespace ServerScript

/-- The error of a name; any other text is the reason why the connection fails. -/
def injectErrorOf (t : Text) : Option ConnectionError :=
  if t.isEmpty then none
  else if t == "cancelled" then some .cancelled
  else if t == "deadline" then some .deadline
  else if t == "closed" then some (.closed none)
  else some (.failed t)

/-- What the server logs for a command. -/
def replies (s : ServerScript) (ns : Text) (c : ServerCommand) : List LogEvent :=
  let stack := ns ++ "_stack"
  let frames := if c.name == stack then s.noise ++ s.frames.map (⟨stack, ·⟩) else []
  let frameEnd := if c.name == stack ++ "_end" then [⟨stack ++ "_end", []⟩] else []
  let scores := if c.command == "function " ++ ns ++ ":log_scores" then
      s.noise ++ s.scores.map (⟨ns ++ "_score", ·⟩) ++ [⟨ns ++ "_scores_end", []⟩]
    else []
  frames ++ frameEnd ++ scores

/-- Does one of the commands close the connection? -/
def closesOn (s : ServerScript) (commands : List ServerCommand) : Bool :=
  !s.closeOn.isEmpty && commands.any fun c => Text.occursIn s.closeOn c.command

end ServerScript

/-- A listener on behalf of the session, and the name of the blocks whose reports it wants. -/
structure Subscription where
  id : Nat
  ns : Text
deriving DecidableEq, Repr

/-- A scripted server with files. -/
structure ScriptedHost where
  /-- the namespace of the commands that the server answers -/
  ns : Text
  files : FileStore := {}
  script : ServerScript := {}
  /-- was the present request cancelled?  Then the server answers no query. -/
  cancelled : Bool := false
  connectionClosed : Bool := false
  listeners : Listeners := {}
  /-- the session's own listeners whose channels are open -/
  subscriptions : List Subscription := []
  /-- has the session ever listened? -/
  subscribed : Bool := false
  /-- the reports that the session has not handled yet -/
  pending : List LogEvent := []
  injected : List (List ServerCommand) := []
  notified : List SessionEvent := []

namespace ScriptedHost

/-! ### Reports -/

/-- Deliver what came on the channel of a subscription, which ends with the channel. -/
def forwardOne (h : ScriptedHost) (s : Subscription) : ScriptedHost :=
  let (signals, listeners) := h.listeners.take s.id
  { h with
    listeners
    pending := h.pending ++ (signals.filterMap Signal.event?).filter (·.executor == s.ns)
    subscriptions :=
      if signals.contains .closed then h.subscriptions.filter (· != s) else h.subscriptions }

/-- Deliver what came on the channels of the session. -/
def forward (h : ScriptedHost) : ScriptedHost := h.subscriptions.foldl forwardOne h

/-- Something is logged. -/
def log (h : ScriptedHost) (e : LogEvent) : ScriptedHost :=
  { h with listeners := h.listeners.broadcast e }.forward

/-- The connection is closed. -/
def close (h : ScriptedHost) : ScriptedHost :=
  { h with connectionClosed := true, listeners := h.listeners.close }.forward

/-- The session listens from now on. -/
def subscribe (h : ScriptedHost) (ns : Text) : ScriptedHost :=
  let (id, listeners) := h.listeners.add
  let s : Subscription := { id, ns }
  { h with
    listeners, subscriptions := h.subscriptions ++ [s]
    subscribed := true, pending := [] }.forward

/-- The session listens no more on the last channel that it asked for. -/
def unsubscribe (h : ScriptedHost) : ScriptedHost :=
  match h.subscriptions.getLast? with
  | none => h
  | some s => { h with listeners := h.listeners.remove s.id }.forward

/-- Are no more reports delivered, although the session has listened once? -/
def isSilent (h : ScriptedHost) : Bool := h.subscribed && h.subscriptions.isEmpty

/-! ### Commands -/

/-- The server answers commands. -/
def reply (h : ScriptedHost) (commands : List ServerCommand) : ScriptedHost :=
  (commands.flatMap (h.script.replies h.ns)).foldl log h

/-- Inject commands. -/
def inject (h : ScriptedHost) (commands : List ServerCommand) :
    Option ConnectionError × ScriptedHost :=
  if h.connectionClosed then (some (.closed none), h)
  else match h.script.injectError with
    | some e => (some e, h)
    | none =>
      let h := { h with injected := h.injected ++ [commands] }
      (none, if h.script.closesOn commands then h.close
        else if h.cancelled then h
        else h.reply commands)

/-- What a listener has heard, and how it ends if the report that it waits for is not there.  It
    listens no more. -/
def hear (h : ScriptedHost) (id : Nat) : (List LogEvent × QueryEnd) × ScriptedHost :=
  let (signals, listeners) := h.listeners.take id
  let ending : QueryEnd := if signals.contains .closed then .closed
    else if h.cancelled then .cancelled
    else .deadline
  ((signals.filterMap Signal.event?, ending), { h with listeners := listeners.remove id })

/-- Inject commands while listening; the outcome of the injection comes with the number of the
    listener. -/
def injectListening (h : ScriptedHost) (commands : List ServerCommand) :
    (Option ConnectionError × Nat) × ScriptedHost :=
  let (id, listeners) := h.listeners.add
  let (e, h) := { h with listeners }.inject commands
  ((e, id), h)

/-- Inject the commands of a query, and listen to what the server answers. -/
def query (h : ScriptedHost) (commands : List ServerCommand) :
    Except ConnectionError (List LogEvent × QueryEnd) × ScriptedHost :=
  match h.injectListening commands with
  | ((some e, id), h) => (.error e, (h.hear id).2)
  | ((none, id), h) =>
    let (heard, h) := h.hear id
    (.ok heard, h)

/-! ### Replies -/

/-- The reply to a request of a session. -/
def answer : (r : SessionRequest) → ScriptedHost → sessionSignature.Reply r × ScriptedHost
  | .isCancelled, h => (h.cancelled, h)
  | .findTree path, h => (h.files.find path, h)
  | .replaceDir dir files, h =>
    let (store, e) := h.files.replaceDir dir files
    (e, { h with files := store })
  | .removeAll path, h =>
    let (store, e) := h.files.removeAll path
    (e, { h with files := store })
  | .listen ns, h => ((), h.subscribe ns)
  | .unlisten, h => ((), h.unsubscribe)
  | .inject commands, h => h.inject commands
  | .query commands _, h => h.query commands
  | .closeConnection, h => ((), h.close)
  | .notify e, h => ((), { h with notified := h.notified ++ [e] })

/-- The outcome of an operation of a session on this host. -/
def run {α : Type} (h : ScriptedHost) (s : Session) (m : SessionM α) :
    (Except SessionError α × Session) × ScriptedHost :=
  (m.run.run s).run answer h

end ScriptedHost

/-- A session on a scripted host. -/
structure ScriptedSession where
  session : Session
  host : ScriptedHost

namespace ScriptedSession

/-- The outcome of an operation. -/
def perform {α : Type} (s : ScriptedSession) (m : SessionM α) :
    Except SessionError α × ScriptedSession :=
  let ((result, session), host) := s.host.run s.session m
  (result, { session, host })

/-- Handle reports one after the other; the outcome is the last error. -/
def handleAll (s : ScriptedSession) : List LogEvent → Option SessionError × ScriptedSession
  | [] => (none, s)
  | e :: es =>
    match s.perform (SessionM.handleEvent e) with
    | (.ok _, s) => s.handleAll es
    | (.error e, s) =>
      let (later, s) := s.handleAll es
      (later.or (some e), s)

/-- Handle the reports that were not delivered yet. -/
def deliver (s : ScriptedSession) : Option SessionError × ScriptedSession :=
  { s with host := { s.host with pending := [] } }.handleAll s.host.pending

/-- The session after a change of the files. -/
def withFiles (s : ScriptedSession) (f : FileStore → FileStore) : ScriptedSession :=
  { s with host := { s.host with files := f s.host.files } }

end ScriptedSession

end DatapackDebug
