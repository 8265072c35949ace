namespace DatapackDebug

/-!
# Dialogues with an environment

The debugger talks to a server, a client and a file system.  What it does is a tree: either it is
done with a result, or it makes a request and goes on depending on the reply.  So all its decisions
are pure, and an environment is anything that replies.

* `Signature` — the requests, and the type of the reply to each;
* `Dialogue` — a computation that makes requests;
* `Dialogue.run` — its result in an environment with a state;
* `Dialogue.advance` — the same in an environment that may leave a request unanswered for now;
* `Dialogue.runM`, `Dialogue.advanceM` — the same where replies are computations of a monad.
-/

/-- Requests with the types of their replies. -/
structure Signature where
  Request : Type
  Reply : Request → Type

/-- A computation that makes requests of a signature. -/
inductive Dialogue (S : Signature) (α : Type) where
  | done (a : α)
  | ask (r : S.Request) (next : S.Reply r → Dialogue S α)

namespace Dialogue

variable {S T : Signature} {α β σ : Type}

/-- One dialogue after the other. -/
def bind : Dialogue S α → (α → Dialogue S β) → Dialogue S β
  | .done a, f => f a
  | .ask r next, f => .ask r fun reply => (next reply).bind f

instance : Monad (Dialogue S) where
  pure := .done
  bind := bind

/-- Make one request. -/
def perform (r : S.Request) : Dialogue S (S.Reply r) := .ask r .done

/-- The dialogue with each request made by a dialogue of another signature. -/
def handle (how : (r : S.Request) → Dialogue T (S.Reply r)) : Dialogue S α → Dialogue T α
  | .done a => .done a
  | .ask r next => (how r).bind fun reply => (next reply).handle how

/-- The result in an environment with a state. -/
def run (answer : (r : S.Request) → σ → S.Reply r × σ) : Dialogue S α → σ → α × σ
  | .done a, s => (a, s)
  | .ask r next, s =>
    let (reply, s) := answer r s
    (next reply).run answer s

/-- The dialogue after all requests that the environment answers now: it is done, or the next
    request is left unanswered. -/
def advance (answer : (r : S.Request) → σ → Option (S.Reply r) × σ) :
    Dialogue S α → σ → Dialogue S α × σ
  | .done a, s => (.done a, s)
  | .ask r next, s =>
    match answer r s with
    | (none, s) => (.ask r next, s)
    | (some reply, s) => (next reply).advance answer s

/-- The result in an environment whose replies are computations of a monad. -/
def runM {m : Type → Type} [Monad m] (answer : (r : S.Request) → m (S.Reply r)) :
    Dialogue S α → m α
  | .done a => pure a
  | .ask r next => do (next (← answer r)).runM answer

/-- The same where the environment may leave a request unanswered for now. -/
def advanceM {m : Type → Type} [Monad m] (answer : (r : S.Request) → m (Option (S.Reply r))) :
    Dialogue S α → m (Dialogue S α)
  | .done a => pure (.done a)
  | .ask r next => do
    match ← answer r with
    | none => pure (.ask r next)
    | some reply => (next reply).advanceM answer

end Dialogue

end DatapackDebug
