import DatapackDebug.Adapter.Scripted
import DatapackDebug.Proofs.AdapterLogic

namespace DatapackDebug

/-!
# An adapter at its desk

Messages of the client arrive at any time.  Meanwhile the adapter takes one request after the other,
begins its turn, talks with its host and finishes, or deals with something else between two
requests.

* `Desk`, `Desk.Step`, `Desk.Run` — what can happen to an adapter, in any order that is possible at
  all;
* `requestsIn`, `begunIn`, `seqsIn`, `answersIn` — what a log tells of requests and answers;
* `Account`, `accountOf` — what a log tells of turns and cancellations;
* `ScriptedAdapter.moves_step`, `ScriptedAdapter.moves_receive` — a scripted adapter moves as a desk
  does.
-/

/-! ### Agendas -/

namespace Agenda

/-- The first request that waits has the next turn, and is handled unless it was cancelled. -/
theorem next?_eq_some {a a' : Agenda} {kind : TurnKind} {r : ClientRequest}
    (h : a.next? = some (kind, r, a')) : ∃ queue, a.queue = r :: queue ∧
      ((kind = .refuse ∧ r.seq ∈ a.cancelled ∧
        a' = { a with queue, cancelled := a.cancelled.filter (· != r.seq) }) ∨
      (kind = .handle ∧ r.seq ∉ a.cancelled ∧
        a' = { a with queue, turn := some { seq := r.seq } })) := by
  unfold next? at h
  split at h
  · cases h
  · rename_i r' queue hqueue
    split at h
    · rename_i hcancelled
      cases h
      exact ⟨queue, hqueue, .inl ⟨rfl, by simpa using hcancelled, rfl⟩⟩
    · rename_i hcancelled
      cases h
      exact ⟨queue, hqueue, .inr ⟨rfl, by simpa using hcancelled, rfl⟩⟩

theorem queue_of_next?_eq_none {a : Agenda} (h : a.next? = none) : a.queue = [] := by
  unfold next? at h
  split at h
  · assumption
  · split at h <;> cases h

/-- The agenda after the host has replied. -/
def told (a : Agenda) : Exchange adapterSignature → Agenda
  | ⟨.newProgress request, name⟩ => a.addProgress name request
  | _ => a

variable {σ : Type} {host : (q : AdapterRequest) → Bool → σ → Option (adapterSignature.Reply q) × σ}
  {a a' : Agenda} {s s' : σ}

/-- The host replies as it likes, except that it tells whether the present request is cancelled. -/
theorem answer_eq {q : AdapterRequest} {reply : Option (adapterSignature.Reply q)}
    (h : answer host q (a, s) = (reply, a', s')) :
    a' = reply.elim a (fun reply => a.told ⟨q, reply⟩) ∧
      (q = .session .isCancelled → HEq reply (some a.isCancelled)) := by
  cases q with
  | session q =>
    cases q with
    | isCancelled =>
      cases h
      exact ⟨rfl, fun _ => .rfl⟩
    | _ =>
      cases h
      refine ⟨?_, nofun⟩
      cases (host _ a.isCancelled s).1 <;> rfl
  | newProgress request =>
    simp only [answer] at h
    split at h <;> cases h <;> exact ⟨rfl, nofun⟩
  | _ =>
    cases h
    refine ⟨?_, nofun⟩
    cases (host _ a.isCancelled s).1 <;> rfl

/-- A host that replies to everything. -/
theorem exists_answer (hhost : ∀ q cancelled s, (host q cancelled s).1.isSome = true)
    (q : AdapterRequest) (a : Agenda) (s : σ) :
    ∃ reply a' s', answer host q (a, s) = (some reply, a', s') := by
  have hother : ∀ q, ∃ reply s', host q a.isCancelled s = (some reply, s') := fun q => by
    obtain ⟨reply, hreply⟩ := Option.isSome_iff_exists.mp (hhost q a.isCancelled s)
    exact ⟨reply, _, Prod.ext hreply rfl⟩
  obtain ⟨reply, s', hreply⟩ := hother q
  cases q with
  | session q =>
    cases q with
    | isCancelled => exact ⟨_, _, _, rfl⟩
    | _ => exact ⟨reply, a, s', by simp [answer, hreply]⟩
  | _ => exact ⟨reply, a.told ⟨_, reply⟩, s', by simp [answer, hreply, told]⟩

end Agenda

/-! ### Desks -/

/-- An adapter at work, apart from its host. -/
structure Desk where
  adapter : Adapter
  agenda : Agenda := {}
  /-- a request that has left the queue, until its turn begins -/
  taken : Option ClientRequest := none
  /-- what is left of the present duty -/
  work : Option (Dialogue adapterSignature Adapter) := none
  /-- is nothing more to come from the client? -/
  inputEnded : Bool := false
  /-- was the end of the client dealt with? -/
  closed : Bool := false

/-- What happens at a desk. -/
inductive Occurrence where
  /-- a message arrives, and may be answered at once -/
  | received (m : ClientMessage) (reply : Option AdapterMessage)
  | inputEnded
  | taken (r : ClientRequest)
  | begun (u : Duty)
  /-- the host has replied, and was told whether the present request is cancelled -/
  | asked (e : Exchange adapterSignature) (cancelled : Bool)
  | finished

namespace Desk

/-- Nothing is being done, and something may be begun. -/
structure IsFree (d : Desk) : Prop where
  work : d.work = none
  taken : d.taken = none
  closed : d.closed = false
  broken : d.adapter.broken = false

/-- A duty is begun. -/
def begin (d : Desk) (u : Duty) : Desk :=
  { d with taken := none, work := some do return (← u.work.run d.adapter).2 }

/-- What can happen at a desk, one thing at a time. -/
inductive Step : Desk → Occurrence → Desk → Prop where
  | receive {d : Desk} {m : ClientMessage} : d.inputEnded = false →
      Step d (.received m (d.agenda.receive m).2) { d with agenda := (d.agenda.receive m).1 }
  | endInput {d : Desk} : Step d .inputEnded { d with inputEnded := true }
  | take {d : Desk} {r : ClientRequest} {queue : List ClientRequest} : d.IsFree →
      d.agenda.queue = r :: queue →
      Step d (.taken r) { d with agenda := { d.agenda with queue }, taken := some r }
  /-- what is to be done with the request is decided when its turn begins -/
  | turn {d : Desk} {r : ClientRequest} {kind : TurnKind} {agenda : Agenda} : d.taken = some r →
      Agenda.next? { d.agenda with queue := r :: d.agenda.queue } = some (kind, r, agenda) →
      Step d (.begun (.turn kind r)) ({ d with agenda }.begin (.turn kind r))
  | notice {d : Desk} {n : Notice} : d.IsFree → n ≠ .close →
      Step d (.begun (.notice n)) (d.begin (.notice n))
  /-- the client is gone once all its requests are done with -/
  | close {d : Desk} : d.IsFree → d.inputEnded = true → d.agenda.queue = [] →
      Step d (.begun (.notice .close)) { d.begin (.notice .close) with closed := true }
  | ask {d : Desk} {q : AdapterRequest}
      {next : adapterSignature.Reply q → Dialogue adapterSignature Adapter} {σ : Type}
      {host : (q : AdapterRequest) → Bool → σ → Option (adapterSignature.Reply q) × σ}
      {s s' : σ} {reply : adapterSignature.Reply q} {agenda : Agenda} :
      d.work = some (.ask q next) → Agenda.answer host q (d.agenda, s) = (some reply, agenda, s') →
      Step d (.asked ⟨q, reply⟩ d.agenda.isCancelled) { d with agenda, work := some (next reply) }
  | finish {d : Desk} {adapter : Adapter} : d.work = some (.done adapter) →
      Step d .finished { d with adapter, agenda := d.agenda.finish, work := none }

/-- What happens at a desk from one state to another. -/
inductive Run : Desk → List Occurrence → Desk → Prop where
  | nil {d : Desk} : Run d [] d
  | cons {d d₁ d' : Desk} {o : Occurrence} {log : List Occurrence} : Step d o d₁ → Run d₁ log d' →
      Run d (o :: log) d'

namespace Run

variable {d₀ d₁ d : Desk} {l₁ l₂ : List Occurrence} {o : Occurrence}

theorem append (hfirst : Run d₀ l₁ d₁) (hsecond : Run d₁ l₂ d) : Run d₀ (l₁ ++ l₂) d := by
  induction hfirst with
  | nil => exact hsecond
  | cons hstep _ ih => exact .cons hstep (ih hsecond)

theorem single (hstep : Step d₀ o d) : Run d₀ [o] d := .cons hstep .nil

theorem split (h : Run d₀ (l₁ ++ l₂) d) : ∃ d₁, Run d₀ l₁ d₁ ∧ Run d₁ l₂ d := by
  induction l₁ generalizing d₀ with
  | nil => exact ⟨d₀, .nil, h⟩
  | cons o l₁ ih =>
    cases h with
    | cons hstep hrest =>
      obtain ⟨d₁, hfirst, hsecond⟩ := ih hrest
      exact ⟨d₁, .cons hstep hfirst, hsecond⟩

end Run

end Desk

/-! ### What a log tells -/

/-- The number of a message that is to be answered. -/
def ClientMessage.seq? : ClientMessage → Option Int
  | .request r => some r.seq
  | .cancel seq _ _ | .unsupported seq _ => some seq
  | .notice => none

namespace Occurrence

/-- Is it a part of the turns of requests?  Those do not include what else happens meanwhile. -/
def IsTurn : Occurrence → Prop
  | .taken _ | .begun (.turn _ _) | .asked _ _ | .finished => True
  | _ => False

def request? : Occurrence → Option ClientRequest
  | .received (.request r) _ => some r
  | _ => none

def begun? : Occurrence → Option ClientRequest
  | .begun (.turn _ r) => some r
  | _ => none

def seq? : Occurrence → Option Int
  | .received m _ => m.seq?
  | _ => none

def answer? : Occurrence → Option Int
  | .received _ reply => reply.bind (·.request?)
  | .asked e _ => e.1.answer?
  | _ => none

end Occurrence

/-- The requests that have arrived. -/
def requestsIn (log : List Occurrence) : List ClientRequest := log.filterMap (·.request?)

/-- The requests whose turn has begun. -/
def begunIn (log : List Occurrence) : List ClientRequest := log.filterMap (·.begun?)

/-- The numbers of the messages that are to be answered. -/
def seqsIn (log : List Occurrence) : List Int := log.filterMap (·.seq?)

/-- The numbers of the messages that were answered. -/
def answersIn (log : List Occurrence) : List Int := log.filterMap (·.answer?)

/-- What the client knows of turns and cancellations. -/
structure Account where
  duty : Option Duty := none
  /-- the names of progress that were told in the present turn -/
  names : List Text := []
  /-- the requests that were cancelled so far -/
  cancelled : List Int := []

namespace Account

/-- The request that is being handled. -/
def turn? (a : Account) : Option ClientRequest :=
  match a.duty with
  | some (.turn .handle r) => some r
  | _ => none

/-- The request that a cancellation means: the one with the number, or the present one if the
    progress is its own. -/
def target (a : Account) (request : Int) (progress : Text) : Int :=
  if progress.isEmpty then request
  else if a.names.contains progress then a.turn?.elim 0 (·.seq) else 0

def after (a : Account) : Occurrence → Account
  | .received (.cancel _ request progress) _ =>
    { a with cancelled := a.target request progress :: a.cancelled }
  | .begun u => { a with duty := some u, names := [] }
  | .asked ⟨.newProgress _, name⟩ _ => { a with names := name :: a.names }
  | .finished => { a with duty := none, names := [] }
  | _ => a

end Account

def accountOf (log : List Occurrence) : Account := log.foldl Account.after {}

/-! ### Scripted adapters -/

section Advance

variable {S : Signature} {α σ : Type} {q : S.Request} {next : S.Reply q → Dialogue S α}
  {answer : (q : S.Request) → σ → Option (S.Reply q) × σ} {s s' : σ}

theorem Dialogue.advance_of_unanswered (h : answer q s = (none, s')) :
    (Dialogue.ask q next).advance answer s = (.ask q next, s') := by
  simp [advance, h]

theorem Dialogue.advance_of_answered {reply : S.Reply q} (h : answer q s = (some reply, s')) :
    (Dialogue.ask q next).advance answer s = (next reply).advance answer s' := by
  simp [advance, h]

end Advance

namespace ScriptedAdapter

open Desk

variable {s s' : ScriptedAdapter}

/-- The desk of a scripted adapter. -/
def desk (s : ScriptedAdapter) : Desk where
  adapter := s.adapter
  agenda := s.agenda
  work := s.work
  inputEnded := s.inputEnded
  closed := s.finished

/-- A scripted adapter gets from one state to another as a desk does. -/
def Moves (s s' : ScriptedAdapter) : Prop := ∃ log, Run s.desk log s'.desk

theorem Moves.refl (s : ScriptedAdapter) : Moves s s := ⟨[], .nil⟩

theorem Moves.trans {s₁ : ScriptedAdapter} (hfirst : Moves s s₁) (hsecond : Moves s₁ s') :
    Moves s s' := by
  obtain ⟨l₁, hfirst⟩ := hfirst
  obtain ⟨l₂, hsecond⟩ := hsecond
  exact ⟨l₁ ++ l₂, hfirst.append hsecond⟩

/-- As long as the host replies, the work goes on. -/
theorem run_advance (s : ScriptedAdapter) (work : Dialogue adapterSignature Adapter)
    (agenda : Agenda) (host : AdapterHost) :
    ∃ log, Run { s.desk with agenda, work := some work } log
      { s.desk with
        agenda := (work.advance (Agenda.answer AdapterHost.answer) (agenda, host)).2.1
        work := some (work.advance (Agenda.answer AdapterHost.answer) (agenda, host)).1 } := by
  induction work generalizing agenda host with
  | done adapter => exact ⟨[], .nil⟩
  | ask q next ih =>
    match hreply : Agenda.answer AdapterHost.answer q (agenda, host) with
    | (none, agenda', host') =>
      have hadvance : (Dialogue.ask q next).advance (Agenda.answer AdapterHost.answer)
          (agenda, host) =
          (.ask q next, agenda', host') := Dialogue.advance_of_unanswered hreply
      -- The host does not reply: the work is kept waiting, and the agenda is as it was.
      rw [hadvance, (Agenda.answer_eq hreply).1]
      exact ⟨[], .nil⟩
    | (some reply, agenda', host') =>
      have hadvance : (Dialogue.ask q next).advance (Agenda.answer AdapterHost.answer)
          (agenda, host) =
          (next reply).advance (Agenda.answer AdapterHost.answer) (agenda', host') :=
        Dialogue.advance_of_answered hreply
      obtain ⟨log, hrun⟩ := ih reply agenda' host'
      rw [hadvance]
      exact ⟨_, .cons (.ask rfl hreply) hrun⟩

theorem moves_resume {work : Dialogue adapterSignature Adapter} (hwork : s.work = some work) :
    Moves s (s.resume work).1 := by
  obtain ⟨log, hrun⟩ := run_advance s work s.agenda s.host
  have hdesk : s.desk = { s.desk with agenda := s.agenda, work := some work } := by
    rw [← hwork]
    rfl
  rw [← hdesk] at hrun
  unfold resume
  split
  · rename_i adapter agenda host hadvance
    rw [hadvance] at hrun
    exact ⟨log ++ [.finished], hrun.append (.single (.finish rfl))⟩
  · rename_i work' agenda host hadvance
    rw [hadvance] at hrun
    exact ⟨log, hrun⟩

/-- Something is begun between requests. -/
theorem moves_between (hfree : s.desk.IsFree) (hqueue : s.agenda.queue = [])
    (h : s.between? = some s') : Moves s s' := by
  unfold between? at h
  split at h
  · rename_i hended
    cases h
    exact ⟨_, .single (.close hfree hended hqueue)⟩
  · split at h
    · cases h
    · split at h
      · rename_i e pending _
        cases h
        exact ⟨_, .single (.notice (n := .event e) hfree nofun)⟩
      · split at h
        · cases h
          exact ⟨_, .single (.notice (n := .loss) hfree nofun)⟩
        · cases h

/-- A request is taken, and its turn begins. -/
theorem moves_next (hwork : s.work = none) (h : s.next? = some s') : Moves s s' := by
  unfold next? at h
  split at h
  · cases h
  · rename_i hgoing
    rw [Bool.or_eq_true, not_or, Bool.not_eq_true, Bool.not_eq_true] at hgoing
    have hfree : s.desk.IsFree := ⟨hwork, rfl, hgoing.1, hgoing.2⟩
    split at h
    · rename_i kind r agenda hnext
      cases h
      obtain ⟨queue, hqueue, -⟩ := Agenda.next?_eq_some hnext
      -- The request that was taken is put back for the decision of its turn.
      have hback : ({ { s.agenda with queue } with queue := r :: queue } : Agenda) = s.agenda := by
        rw [← hqueue]
      exact ⟨_, .cons (.take hfree hqueue) (.single (.turn rfl (hback ▸ hnext)))⟩
    · rename_i hnext
      exact moves_between hfree (Agenda.queue_of_next?_eq_none hnext) h

/-- Each step of a scripted adapter is a move of its desk. -/
theorem moves_step (s : ScriptedAdapter) : Moves s s.step.1 := by
  unfold step
  cases hwork : s.work with
  | some work => exact moves_resume hwork
  | none =>
    cases hnext : s.next? with
    | some s' => exact moves_next hwork hnext
    | none => exact .refl s

theorem moves_settle (fuel : Nat) (s : ScriptedAdapter) : Moves s (s.settle fuel) := by
  induction fuel generalizing s with
  | zero => exact .refl s
  | succ fuel ih =>
    have hstep := moves_step s
    unfold settle
    split
    · rename_i s' heq
      rw [heq] at hstep
      exact hstep.trans (ih s')
    · rename_i s' heq
      rw [heq] at hstep
      exact hstep

/-- A message that arrives is a move of the desk. -/
theorem moves_receive (s : ScriptedAdapter) (m : Option ClientMessage) : Moves s (s.receive m) := by
  unfold receive
  split
  · exact .refl s
  · rename_i hended
    cases m with
    | none => exact ⟨_, .single .endInput⟩
    | some m => exact ⟨_, .single (.receive (Bool.eq_false_iff.mpr hended))⟩

theorem moves_send (s : ScriptedAdapter) (m : Option ClientMessage) : Moves s (s.send m) :=
  (moves_receive s m).trans (moves_settle stepLimit _)

end ScriptedAdapter

end DatapackDebug
