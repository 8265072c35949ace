import DatapackDebug.Adapter.Agenda
import DatapackDebug.Proofs.SessionLogic

namespace DatapackDebug

/-!
# What an adapter asks of its host

An adapter is always at one duty: the turn of a request, or something that happens between requests.
The duty tells which messages it may send meanwhile.

* `Dialogue.Follows` — every request of a dialogue is allowed at its time, whatever is replied;
* `Duty`, `Duty.allows` — the duties of an adapter, and the requests to its host that belong to
  each;
* `AdapterM.Obeys` and its rules — a computation of the adapter keeps to a duty;
* `Duty.obeys` — the work of each duty keeps to it, and answers the request once if there is one.
-/

/-! ### Dialogues that follow a rule -/

/-- Whatever is replied, each request of the dialogue is allowed at its time, and the result has a
    property.  The rule `allows` tells what is known after a request, and nothing of others. -/
def Dialogue.Follows {S : Signature} {α γ : Type} (allows : γ → S.Request → Option γ)
    (Q : γ → α → Prop) : γ → Dialogue S α → Prop
  | g, .done a => Q g a
  | g, .ask q next => ∃ g', allows g q = some g' ∧ ∀ reply, (next reply).Follows allows Q g'

namespace Dialogue.Follows

variable {S T : Signature} {α β γ : Type} {allows : γ → S.Request → Option γ} {g : γ}
  {Q : γ → α → Prop}

theorem bind {R : γ → β → Prop} {d : Dialogue S α} {f : α → Dialogue S β}
    (hd : d.Follows allows Q g) (hf : ∀ g a, Q g a → (f a).Follows allows R g) :
    (d.bind f).Follows allows R g := by
  induction d generalizing g with
  | done a => exact hf g a hd
  | ask q next ih =>
    obtain ⟨g', hg', hnext⟩ := hd
    exact ⟨g', hg', fun reply => ih reply (hnext reply)⟩

theorem mono {R : γ → α → Prop} {d : Dialogue S α} (hd : d.Follows allows Q g)
    (hQ : ∀ g a, Q g a → R g a) : d.Follows allows R g := by
  induction d generalizing g with
  | done a => exact hQ g a hd
  | ask q next ih =>
    obtain ⟨g', hg', hnext⟩ := hd
    exact ⟨g', hg', fun reply => ih reply (hnext reply)⟩

/-- The requests of a dialogue are made by dialogues that leave what is known as it is. -/
theorem handle {d : Dialogue T α} {how : (q : T.Request) → Dialogue S (T.Reply q)}
    (hhow : ∀ q, (how q).Follows allows (fun g' _ => g' = g) g) (hQ : ∀ a, Q g a) :
    (d.handle how).Follows allows Q g := by
  induction d with
  | done a => exact hQ a
  | ask q next ih =>
    refine bind (hhow q) fun g' reply hg' => ?_
    rw [hg']
    exact ih reply

end Dialogue.Follows

/-! ### Duties -/

/-- The request of the client that is answered by a request to the host. -/
def AdapterRequest.answer? : AdapterRequest → Option Int
  | .send m => m.request?
  | _ => none

/-- What is dealt with between requests. -/
inductive Notice where
  | event (e : LogEvent)
  /-- the server reports no more -/
  | loss
  /-- a source has changed -/
  | change
  /-- the client is gone -/
  | close

def Notice.work : Notice → AdapterM Unit
  | .event e => AdapterM.handleEvent e
  | .loss => AdapterM.handleLoss
  | .change => AdapterM.handleChange
  | .close => AdapterM.close

/-- What an adapter is doing. -/
inductive Duty where
  | turn (kind : TurnKind) (r : ClientRequest)
  | notice (n : Notice)

/-- A request for frames of which there are none such, at least for some number of frames. -/
def ClientRequest.AsksBeyond (r : ClientRequest) : Prop :=
  ∃ startFrame levels count, r.what = .stackTrace startFrame levels ∧
    stackWindow? count startFrame levels = none

namespace Duty

def work : Duty → AdapterM Unit
  | .turn kind r => Agenda.work kind r
  | .notice n => n.work

/-- The request that is to be answered. -/
def request? : Duty → Option ClientRequest
  | .turn _ r => some r
  | .notice _ => none

/-- The requests to the host that belong to a duty, and whether it is answered after them.  A
    request is answered once, and its progress is named in its turn only.  One that was cancelled
    before its turn is answered so, and nothing else is done. -/
def allows : Duty → Bool → AdapterRequest → Option Bool
  | .turn .refuse r, answered, q =>
    if q = .send (.failure r.seq r.command "cancelled") ∧ answered = false then some true else none
  | .turn .handle r, answered, .newProgress seq => if seq = r.seq then some answered else none
  | .turn .handle r, answered, q =>
    match q.answer? with
    | none => some answered
    | some seq => if seq = r.seq ∧ answered = false then some true else none
  | .notice _, _, .newProgress _ => none
  | .notice _, answered, q => if q.answer?.isNone then some answered else none

/-- How a duty ends: the request is answered, unless the adapter had to stop because it was asked
    for what there is not. -/
inductive Ends (u : Duty) (answered : Bool) (a : Adapter) : Prop where
  | answered : a.broken = false → (u.request?.isSome = true → answered = true) → Ends u answered a
  | broken {r : ClientRequest} : a.broken = true → answered = false → u = .turn .handle r →
      r.AsksBeyond → Ends u answered a

/-- A request to the host that is allowed answers the request of the client for the first time, or
    nothing. -/
theorem answer?_of_allows {u : Duty} {answered answered' : Bool} {q : AdapterRequest}
    (h : u.allows answered q = some answered') :
    (q.answer? = none ∧ answered' = answered) ∨
      (∃ r, u.request? = some r ∧ q.answer? = some r.seq ∧ answered = false ∧
        answered' = true) := by
  -- Whatever the duty, only what is sent to the client can be an answer.
  cases u with
  | turn kind r =>
    cases kind with
    | refuse =>
      simp only [allows] at h
      split at h <;> cases h
      rename_i hq
      exact .inr ⟨r, rfl, hq.1 ▸ rfl, hq.2, rfl⟩
    | handle =>
      cases q with
      | newProgress seq =>
        simp only [allows] at h
        split at h <;> cases h
        exact .inl ⟨rfl, rfl⟩
      | send m =>
        simp only [allows] at h
        split at h
        · cases h
          exact .inl ⟨by assumption, rfl⟩
        · split at h <;> cases h
          rename_i hseq
          exact .inr ⟨r, rfl, hseq.1 ▸ by assumption, hseq.2, rfl⟩
      | _ =>
        cases h
        exact .inl ⟨rfl, rfl⟩
  | notice n =>
    cases q with
    | newProgress seq => cases h
    | send m =>
      simp only [allows] at h
      split at h <;> cases h
      rename_i hnone
      exact .inl ⟨Option.isNone_iff_eq_none.mp hnone, rfl⟩
    | _ =>
      cases h
      exact .inl ⟨rfl, rfl⟩

/-- Only a request that is handled has progress. -/
theorem eq_turn_of_allows {u : Duty} {answered answered' : Bool} {seq : Int}
    (h : u.allows answered (.newProgress seq) = some answered') :
    ∃ r, u = .turn .handle r ∧ seq = r.seq := by
  cases u with
  | turn kind r =>
    cases kind with
    | handle =>
      simp only [allows] at h
      split at h <;> cases h
      exact ⟨r, rfl, by assumption⟩
    | refuse => simp [allows] at h
  | notice n => cases h

/-- A duty with its answer given ends well. -/
theorem Ends.of_answered {u : Duty} {a : Adapter} (ha : a.broken = false) : u.Ends true a :=
  .answered ha fun _ => rfl

/-- The duty of a request that was cancelled before its turn. -/
def IsRefusal : Duty → Prop
  | .turn .refuse _ => True
  | _ => False

variable {u : Duty} (hu : ¬u.IsRefusal) (answered : Bool)

include hu

/-- All other duties allow what a session asks for, and events. -/
theorem allows_of_not_isRefusal :
    (∀ q, u.allows answered (.session q) = some answered) ∧
      ∀ e, u.allows answered (.send (.event e)) = some answered := by
  cases u with
  | turn kind r =>
    cases kind with
    | handle => exact ⟨fun _ => rfl, fun _ => rfl⟩
    | refuse => exact absurd trivial hu
  | notice n => exact ⟨fun _ => rfl, fun _ => rfl⟩

end Duty

/-! ### Computations that keep to a duty -/

namespace AdapterM

/-- Whatever the host replies, the computation keeps to its duty, and then `Q` holds. -/
def Obeys {α : Type} (u : Duty) (m : AdapterM α) (a : Adapter) (answered : Bool)
    (Q : Bool → α → Adapter → Prop) : Prop :=
  (m.run a).Follows u.allows (fun answered x => Q answered x.1 x.2) answered

namespace Obeys

variable {α β : Type} {u : Duty} {a : Adapter} {answered : Bool} {Q : Bool → α → Adapter → Prop}

theorem pure {x : α} (h : Q answered x a) : Obeys u (Pure.pure x) a answered Q := h

theorem bind {R : Bool → β → Adapter → Prop} {m : AdapterM α} {f : α → AdapterM β}
    (h : Obeys u m a answered fun answered x a => Obeys u (f x) a answered R) :
    Obeys u (m >>= f) a answered R :=
  Dialogue.Follows.bind h fun _ _ hf => hf

theorem get_bind {f : Adapter → AdapterM α} (h : Obeys u (f a) a answered Q) :
    Obeys u (get >>= f) a answered Q := h

theorem modify {g : Adapter → Adapter} {Q : Bool → Unit → Adapter → Prop}
    (h : Q answered () (g a)) :
    Obeys u (modify g) a answered Q := h

/-- A question that the duty allows, whatever the host replies. -/
theorem ask {q : AdapterRequest} {answered' : Bool}
    {Q : Bool → adapterSignature.Reply q → Adapter → Prop}
    (hq : u.allows answered q = some answered') (h : ∀ reply, Q answered' reply a) :
    Obeys u (AdapterM.ask q) a answered Q :=
  ⟨answered', hq, h⟩

/-- Events belong to each duty but a refusal. -/
theorem event {e : AdapterEvent} {Q : Bool → Unit → Adapter → Prop} (hu : ¬u.IsRefusal)
    (h : Q answered () a) : Obeys u (send (.event e)) a answered Q :=
  ask ((Duty.allows_of_not_isRefusal hu _).2 e) fun _ => h

/-- What a session asks for belongs to each duty but a refusal. -/
theorem runSession {s : Session} {m : SessionM α}
    {Q : Bool → Except SessionError α × Session → Adapter → Prop} (hu : ¬u.IsRefusal)
    (h : ∀ x, Q answered x a) : Obeys u (AdapterM.runSession s m) a answered Q := by
  have hforward : ∀ q, (forward q).Follows u.allows
      (fun answered' _ => answered' = answered) answered := by
    intro q
    cases q with
    | notify e => exact ⟨answered, (Duty.allows_of_not_isRefusal hu _).2 _, fun _ => rfl⟩
    | _ => exact ⟨answered, (Duty.allows_of_not_isRefusal hu _).1 _, fun _ => rfl⟩
  exact Dialogue.Follows.bind
    (Dialogue.Follows.handle (Q := fun answered' x => Q answered' x a) hforward h) fun _ _ hx => hx

/-- After an operation of the session, only the session may differ. -/
theorem inSession {s : Session} {m : SessionM α} {Q : Bool → Except SessionError α → Adapter → Prop}
    (hu : ¬u.IsRefusal) (h : ∀ x s', Q answered x { a with session := some s' }) :
    Obeys u (AdapterM.inSession s m) a answered Q :=
  bind (runSession hu fun x => bind (modify (pure (h x.1 x.2))))

end Obeys

/-! ### Answers -/

section Handle

variable {α : Type} {r : ClientRequest} {a : Adapter} {answered : Bool}
  {Q : Bool → Except Config.GrammarFileError Grammar → Adapter → Prop}

/-- The turn of the request ends as it should. -/
abbrev Answers (r : ClientRequest) (m : AdapterM Unit) (a : Adapter) : Prop :=
  Obeys (.turn .handle r) m a false fun answered _ a => (Duty.turn .handle r).Ends answered a

theorem not_isRefusal_handle (r : ClientRequest) : ¬(Duty.turn .handle r).IsRefusal := id

/-- The first answer is allowed. -/
theorem Obeys.succeed {body : ResponseBody} {Q : Bool → Unit → Adapter → Prop} (h : Q true () a) :
    Obeys (.turn .handle r) (AdapterM.succeed r body) a false Q :=
  ask (if_pos ⟨rfl, rfl⟩) fun _ => h

/-- So is the first refusal. -/
theorem Obeys.fail {message : Text} {Q : Bool → Unit → Adapter → Prop} (h : Q true () a) :
    Obeys (.turn .handle r) (AdapterM.fail r message) a false Q :=
  ask (if_pos ⟨rfl, rfl⟩) fun _ => h

/-- Progress is told with events, and has a name in the turn of its request. -/
theorem Obeys.withProgress {title : Text} {m : AdapterM α} {Q : Bool → α → Adapter → Prop}
    (h : Obeys (.turn .handle r) m a answered Q) :
    Obeys (.turn .handle r) (AdapterM.withProgress r title m) a answered Q := by
  refine get_bind ?_
  split
  · exact h
  · -- The name is asked for in the turn of its request.
    have hname : (Duty.turn .handle r).allows answered (.newProgress r.seq) = some answered :=
      if_pos rfl
    refine bind (ask hname fun id => bind (event (not_isRefusal_handle r) (bind ?_)))
    exact Dialogue.Follows.mono h fun _ x hx => bind (event (not_isRefusal_handle r) (pure hx))

/-- The file of the grammar is read at most once. -/
theorem Obeys.readGrammar {u : Duty} {path : Text}
    (hread : u.allows answered (.read path) = some answered) (h : ∀ x, Q answered x a) :
    Obeys u (AdapterM.readGrammar path) a answered Q := by
  unfold AdapterM.readGrammar
  split
  · exact h _
  · exact bind (ask hread fun reply => h _)

/-- Loading may set the grammar, and nothing else. -/
theorem Obeys.loadGrammar (h : ∀ x g, Q answered x { a with grammar := g }) :
    Obeys (.turn .handle r) AdapterM.loadGrammar a answered Q := by
  refine get_bind ?_
  cases hg : a.grammar with
  | some g =>
    have := h (.ok g) a.grammar
    exact this
  | none =>
    refine bind (readGrammar rfl fun x => ?_)
    cases x with
    | ok g => exact h _ (some g)
    | error e => exact h _ a.grammar

/-- Ending the session answers nothing, and only the session may differ. -/
theorem Obeys.terminate {u : Duty} {Q : Bool → Except SessionError Unit → Adapter → Prop}
    (hu : ¬u.IsRefusal) (hunwatch : u.allows answered .unwatch = some answered)
    (h : ∀ x s, Q answered x { a with session := s }) :
    Obeys u AdapterM.terminate a answered Q := by
  refine bind (ask hunwatch fun _ => get_bind ?_)
  cases hs : a.session with
  | none =>
    have := h (.ok ()) a.session
    exact this
  | some s => exact inSession hu fun x s' => h x (some s')

variable {body : ResponseBody} {message : Text} {arguments : LaunchArguments} {g : Grammar}
  (ha : a.broken = false)

include ha

theorem answers_succeed : Answers r (succeed r body) a :=
  .succeed (.of_answered ha)

theorem answers_fail : Answers r (fail r message) a :=
  .fail (.of_answered ha)

/-- A request that is answered by an operation of the session. -/
theorem answers_answerBy {m : SessionM α} {succeeded : α → AdapterM Unit}
    (h : ∀ x a', a'.broken = false → Answers r (succeeded x) a') :
    Answers r (answerBy r m succeeded) a := by
  refine Obeys.get_bind ?_
  cases a.session with
  | none => exact answers_fail ha
  | some s =>
    refine .bind (.inSession (not_isRefusal_handle r) fun x s' => ?_)
    cases x with
    | error e => exact answers_fail ha
    | ok x => exact h x _ ha

/-- Frames are answered with, or the request asks for what there is not. -/
theorem answers_answerFrames {startFrame levels : Int} {frames : List Frame}
    (hr : r.what = .stackTrace startFrame levels) :
    Answers r (answerFrames r startFrame levels frames) a := by
  unfold answerFrames
  cases hwindow : stackWindow? frames.length startFrame levels with
  | none => exact .modify (.broken rfl rfl rfl ⟨startFrame, levels, frames.length, hr, hwindow⟩)
  | some window => exact answers_succeed ha

/-- The connection opens and the session starts, or the launch is refused. -/
theorem answers_install : Answers r (install r arguments g) a := by
  refine .bind (.ask rfl fun reply => ?_)
  cases reply with
  | error e => exact answers_fail ha
  | ok _ =>
    refine .bind (.ask rfl fun name =>
      .get_bind (.bind (.runSession (not_isRefusal_handle r) fun x => ?_)))
    obtain ⟨result, s⟩ := x
    cases result with
    | error e =>
      exact .bind (.runSession (not_isRefusal_handle r)
        fun _ => .bind (.ask rfl fun _ => answers_fail ha))
    | ok _ =>
      refine .bind (.modify (.bind (.ask rfl fun _ => .bind (.event (not_isRefusal_handle r) ?_))))
      exact .bind (.succeed (.event (not_isRefusal_handle r) (.of_answered ha)))

/-- A launch is refused, or its grammar loads and its pack is installed. -/
theorem answers_launch {given : Option Json} : Answers r (launch r given) a := by
  refine Obeys.get_bind ?_
  split
  · exact answers_fail ha
  · cases launchArguments given with
    | error e => exact answers_fail ha
    | ok arguments =>
      refine .bind (.loadGrammar fun x g => ?_)
      cases x with
      | error e => exact answers_fail ha
      | ok g => exact .withProgress (answers_install ha)

/-- Breakpoints are answered by the session, if one runs. -/
theorem answers_setBreakpoints {source : Text} {lines : List Int} {sourceModified : Bool} :
    Answers r (setBreakpoints r source lines sourceModified) a := by
  refine Obeys.get_bind ?_
  cases a.session with
  | none => exact answers_fail ha
  | some s =>
    refine .bind (.withProgress (.inSession (not_isRefusal_handle r) fun x s' => ?_))
    match x with
    | .error e => exact answers_fail ha
    | .ok (_, some e) => exact answers_fail ha
    | .ok (bs, none) => exact answers_succeed ha

/-- Each request that is handled is answered. -/
theorem answers_handle : Answers r (handle r) a := by
  -- Most requests are operations of the session whose result makes the answer.
  have hby : ∀ {α : Type} (m : SessionM α) (body : α → ResponseBody),
      Answers r (answerBy r m fun x => succeed r (body x)) a :=
    fun m body => answers_answerBy ha fun x a' ha' => answers_succeed ha'
  unfold handle
  cases hwhat : r.what with
  | introduce supportsProgress => exact .bind (.modify (answers_succeed ha))
  | launch given => exact answers_launch ha
  | setBreakpoints source lines sourceModified => exact answers_setBreakpoints ha
  | threads => exact answers_succeed ha
  | stackTrace startFrame levels =>
    exact answers_answerBy ha fun frames a' ha' => answers_answerFrames ha' hwhat
  | terminate =>
    refine .bind (.terminate (not_isRefusal_handle r) rfl fun x s => ?_)
    cases x with
    | error e => exact answers_fail ha
    | ok _ => exact answers_succeed ha
  | disconnect =>
    exact .bind (.terminate (not_isRefusal_handle r) rfl fun x s => answers_succeed ha)
  | unsupported => exact answers_fail ha
  | _ => exact hby _ _

end Handle

end AdapterM

/-! ### Duties are kept -/

namespace AdapterM

section Between

variable {n : Notice} {a : Adapter} {answered : Bool}

/-- What is done between requests sends no answers, and lets the adapter go on. -/
abbrev Notes (n : Notice) (m : AdapterM Unit) (a : Adapter) (answered : Bool) : Prop :=
  Obeys (.notice n) m a answered fun _ _ a => a.broken = false

theorem not_isRefusal_notice (n : Notice) : ¬(Duty.notice n).IsRefusal := id

variable {α : Type} {s : Session} {m : SessionM α} (ha : a.broken = false)

include ha

/-- Operations of the session send no answers. -/
theorem notes_inSession :
    Notes n (do let _ ← inSession s m) a answered :=
  .bind (.inSession (not_isRefusal_notice n) fun _ _ => ha)

/-- An entry of the log may make an event, never an answer. -/
theorem notes_handleEvent {e : LogEvent} : Notes n (handleEvent e) a answered := by
  refine Obeys.get_bind ?_
  cases a.session with
  | none => exact ha
  | some s =>
    refine .bind (.inSession (not_isRefusal_notice n) fun x s' => ?_)
    cases x with
    | error e => exact .event (not_isRefusal_notice n) ha
    | ok _ => exact ha

/-- Without reports the session ends. -/
theorem notes_handleLoss : Notes n handleLoss a answered := by
  refine .bind (.modify (.get_bind ?_))
  cases hs : a.session with
  | none => exact ha
  | some s => exact notes_inSession ha

/-- A change of the sources is for the session to see. -/
theorem notes_handleChange : Notes n handleChange a answered := by
  refine Obeys.get_bind ?_
  cases a.session with
  | none => exact ha
  | some s => exact notes_inSession ha

/-- At the end the session is ended first. -/
theorem notes_close : Notes n close a answered := by
  refine Obeys.get_bind ?_
  cases a.session with
  | none => exact .ask rfl fun _ => ha
  | some s => exact .bind (.inSession (not_isRefusal_notice n) fun _ _ => .ask rfl fun _ => ha)

end Between

end AdapterM

open AdapterM in
/-- The work of a duty keeps to it. -/
theorem Duty.obeys (u : Duty) {a : Adapter} (ha : a.broken = false) :
    Obeys u u.work a false fun answered _ a => u.Ends answered a := by
  cases u with
  | turn kind r =>
    cases kind with
    | handle => exact answers_handle ha
    | refuse => exact .ask (if_pos ⟨rfl, rfl⟩) fun _ => .of_answered ha
  | notice n =>
    have hnotes : Notes n n.work a false := by
      cases n with
      | event e => exact notes_handleEvent ha
      | loss => exact notes_handleLoss ha
      | change => exact notes_handleChange ha
      | close => exact notes_close ha
    exact Dialogue.Follows.mono hnotes fun _ _ hbroken => .answered hbroken nofun

end DatapackDebug
