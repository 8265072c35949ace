import DatapackDebug.Proofs.Desk

namespace DatapackDebug

/-!
# Requests in order, each answered once

Whatever happens at a desk, requests have their turns in the order in which they arrive, and all
that is to be answered is answered once.

* `Desk.Owes` — the request that an adapter still has to answer;
* `Desk.Keeps` — the order of requests, and the balance of answers;
* `Keeps.step`, `Keeps.run` — both are kept by whatever happens;
* `Desk.acc_turnStep`, `Keeps.settled` — the turns of the requests that wait come to an end, and
  then all is answered.
-/

open Desk

variable {r : ClientRequest} {agenda : Agenda} {log : List Occurrence}

/-! ### Logs that grow -/

section

variable (log : List Occurrence) (o : Occurrence)

theorem requestsIn_concat : requestsIn (log ++ [o]) = requestsIn log ++ o.request?.toList := by
  cases h : o.request? <;> simp [requestsIn, h]

theorem begunIn_concat : begunIn (log ++ [o]) = begunIn log ++ o.begun?.toList := by
  cases h : o.begun? <;> simp [begunIn, h]

theorem seqsIn_concat : seqsIn (log ++ [o]) = seqsIn log ++ o.seq?.toList := by
  cases h : o.seq? <;> simp [seqsIn, h]

theorem answersIn_concat : answersIn (log ++ [o]) = answersIn log ++ o.answer?.toList := by
  cases h : o.answer? <;> simp [answersIn, h]

theorem accountOf_concat : accountOf (log ++ [o]) = (accountOf log).after o := by
  simp [accountOf]

end

/-! ### Agendas -/

namespace Agenda

theorem queue_cancel (a : Agenda) (target : Int) : (a.cancel target).queue = a.queue := by
  unfold cancel
  split
  · rfl
  · split <;> rfl

theorem queue_told (a : Agenda) (e : Exchange adapterSignature) : (a.told e).queue = a.queue := by
  unfold told
  split <;> rfl

theorem queue_finish (a : Agenda) : a.finish.queue = a.queue := by
  unfold finish
  split <;> rfl

end Agenda

/-! ### What is owed -/

namespace Desk

/-- What the adapter owes to the client at a duty: the request of the duty until it is answered.
    After a request that asked for what there is not, that request stays owed. -/
inductive Owes (d : Desk) : Option Duty → List ClientRequest → Prop where
  | free : d.work = none → d.adapter.broken = false → Owes d none []
  | broken {r : ClientRequest} : d.work = none → d.taken = none → d.adapter.broken = true →
      r.AsksBeyond → Owes d none [r]
  | atWork {u : Duty} {work : Dialogue adapterSignature Adapter} {answered : Bool} :
      d.work = some work → d.taken = none → d.adapter.broken = false →
      work.Follows u.allows u.Ends answered →
      Owes d (some u) (if answered then [] else u.request?.toList)

variable {d d' : Desk} {duty : Option Duty} {owed : List ClientRequest}

section

variable (h : d.Owes duty owed)

include h

theorem Owes.congr (hwork : d'.work = d.work) (htaken : d'.taken = d.taken)
    (hadapter : d'.adapter = d.adapter) : d'.Owes duty owed := by
  cases h with
  | free hnone hbroken => exact .free (hwork.trans hnone) (hadapter ▸ hbroken)
  | broken hnone hfree hbroken hr =>
    exact .broken (hwork.trans hnone) (htaken.trans hfree) (hadapter ▸ hbroken) hr
  | atWork hsome hfree hbroken hfollows =>
    exact .atWork (hwork.trans hsome) (htaken.trans hfree) (hadapter ▸ hbroken) hfollows

theorem Owes.length_le : owed.length ≤ 1 := by
  cases h with
  | free => simp
  | broken => simp
  | @atWork u _ answered =>
    cases answered with
    | true => simp
    | false => cases u <;> simp [Duty.request?]

/-- While it is free the adapter owes nothing. -/
theorem Owes.eq_of_free (hwork : d.work = none) (hbroken : d.adapter.broken = false) :
    duty = none ∧ owed = [] := by
  cases h with
  | free => exact ⟨rfl, rfl⟩
  | broken _ _ hbroken' => cases hbroken.symm.trans hbroken'
  | atWork hsome => cases hwork.symm.trans hsome

/-- A request is taken only while the adapter is free. -/
theorem Owes.free_of_taken (htaken : d.taken = some r) :
    d.work = none ∧ d.adapter.broken = false := by
  cases h with
  | free hwork hbroken => exact ⟨hwork, hbroken⟩
  | broken _ hnone => cases htaken.symm.trans hnone
  | atWork _ hnone => cases htaken.symm.trans hnone

end

/-- What is left of a duty keeps to it. -/
theorem Owes.of_work {work : Dialogue adapterSignature Adapter} (h : d.Owes duty owed)
    (hwork : d.work = some work) : ∃ u answered, duty = some u ∧
      owed = (if answered then [] else u.request?.toList) ∧ d.taken = none ∧
      d.adapter.broken = false ∧ work.Follows u.allows u.Ends answered := by
  cases h with
  | free hnone => cases hnone.symm.trans hwork
  | broken hnone => cases hnone.symm.trans hwork
  | atWork hsome htaken hbroken hfollows =>
    cases hsome.symm.trans hwork
    exact ⟨_, _, rfl, rfl, htaken, hbroken, hfollows⟩

/-- A duty that is begun is owed. -/
theorem Owes.begin (u : Duty) (hbroken : d.adapter.broken = false) :
    (d.begin u).Owes (some u) u.request?.toList := by
  have hfollows : Dialogue.Follows u.allows u.Ends false (do return (← u.work.run d.adapter).2) :=
    Dialogue.Follows.bind (Duty.obeys u hbroken) fun _ _ h => h
  exact .atWork (d := d.begin u) rfl rfl hbroken hfollows

/-- What is owed after the end of a duty. -/
theorem Owes.finish {u : Duty} {answered : Bool} {adapter : Adapter}
    (hends : u.Ends answered adapter) (htaken : d.taken = none) (hadapter : d.adapter = adapter)
    (hwork : d.work = none) : d.Owes none (if answered then [] else u.request?.toList) := by
  subst hadapter
  cases hends with
  | answered hbroken hanswered =>
    have howed : (if answered then [] else u.request?.toList) = [] := by
      cases hu : u.request? with
      | none => simp
      | some r => simp [hanswered (by simp [hu])]
    rw [howed]
    exact .free hwork hbroken
  | broken hbroken hanswered hu hr =>
    subst hanswered hu
    exact .broken hwork htaken hbroken hr

/-! ### Order and answers -/

/-- The requests whose turn has not begun. -/
def waiting (d : Desk) : List ClientRequest := d.taken.toList ++ d.agenda.queue

/-- The requests in the order in which they have arrived are those that had their turn and those
    that wait; all that is to be answered is answered once, or owed, or waits. -/
structure Keeps (log : List Occurrence) (d : Desk) (owed : List ClientRequest) : Prop where
  order : begunIn log ++ d.waiting = requestsIn log
  suffix : owed <:+ begunIn log
  answers : (answersIn log ++ (owed ++ d.waiting).map (·.seq)).Perm (seqsIn log)
  owes : d.Owes (accountOf log).duty owed
  closed : d.closed = true → d.inputEnded = true ∧ d.waiting = []

theorem Keeps.initial {a : Adapter} (ha : a.broken = false) : Keeps [] { adapter := a } [] where
  order := rfl
  suffix := List.suffix_rfl
  answers := .nil
  owes := .free rfl ha
  closed := nofun

section Step

variable {o : Occurrence} {owed' : List ClientRequest} (h : Keeps log d owed)

include h

/-- What has to be known of the next thing that happens. -/
theorem Keeps.next (horder : o.begun?.toList ++ d'.waiting = d.waiting ++ o.request?.toList)
    (hsuffix : owed' <:+ begunIn log ++ o.begun?.toList)
    (hanswers : (o.answer?.toList ++ (owed' ++ d'.waiting).map (·.seq)).Perm
      ((owed ++ d.waiting).map (·.seq) ++ o.seq?.toList))
    (howes : d'.Owes ((accountOf log).after o).duty owed')
    (hclosed : d'.closed = true → d'.inputEnded = true ∧ d'.waiting = []) :
    Keeps (log ++ [o]) d' owed' where
  order := by
    rw [begunIn_concat, requestsIn_concat, List.append_assoc, horder, ← List.append_assoc, h.order]
  suffix := by rwa [begunIn_concat]
  answers := by
    rw [answersIn_concat, seqsIn_concat, List.append_assoc]
    -- What is new is balanced, and what was before too.
    refine (hanswers.append_left _).trans ?_
    rw [← List.append_assoc]
    exact h.answers.append_right _
  owes := by rwa [accountOf_concat]
  closed := hclosed

/-- Something that concerns neither requests nor answers. -/
theorem Keeps.silent (hbegun : o.begun? = none) (hrequest : o.request? = none)
    (hanswer : o.answer? = none) (hseq : o.seq? = none) (hwaiting : d'.waiting = d.waiting)
    (howes : d'.Owes ((accountOf log).after o).duty owed)
    (hclosed : d'.closed = true → d'.inputEnded = true ∧ d.waiting = []) :
    Keeps (log ++ [o]) d' owed := by
  refine h.next ?_ ?_ ?_ howes fun hclosed' => hwaiting ▸ hclosed hclosed'
  · rw [hbegun, hrequest, hwaiting]
    simp
  · rw [hbegun]
    simpa using h.suffix
  · rw [hanswer, hseq, hwaiting]
    exact List.perm_append_comm

/-- Nothing is owed or taken. -/
theorem Keeps.eq_of_isFree (hfree : d.IsFree) :
    (accountOf log).duty = none ∧ owed = [] ∧ d.waiting = d.agenda.queue := by
  obtain ⟨hduty, howed⟩ := h.owes.eq_of_free hfree.work hfree.broken
  exact ⟨hduty, howed, by rw [waiting, hfree.taken]; rfl⟩

/-- A message that is answered at once leaves the requests as they are. -/
theorem Keeps.receive_answered {m : ClientMessage} {seq : Int} {reply : AdapterMessage}
    (hm : m.seq? = some seq) (hrequest : (Occurrence.received m (some reply)).request? = none)
    (hreply : reply.request? = some seq) (hqueue : agenda.queue = d.agenda.queue)
    (hduty : ((accountOf log).after (.received m (some reply))).duty = (accountOf log).duty)
    (hopen : d.closed = true → False) :
    Keeps (log ++ [.received m (some reply)]) { d with agenda } owed := by
  have hwaiting : ({ d with agenda } : Desk).waiting = d.waiting :=
    congrArg (d.taken.toList ++ ·) hqueue
  refine h.next ?_ ?_ ?_ (hduty ▸ h.owes.congr rfl rfl rfl) fun hclosed => (hopen hclosed).elim
  · rw [hrequest, hwaiting]
    simp [Occurrence.begun?]
  · simpa [Occurrence.begun?] using h.suffix
  · rw [hwaiting, Occurrence.seq?, hm, Occurrence.answer?, Option.bind_some, hreply]
    exact List.perm_append_comm

theorem Keeps.receive {m : ClientMessage} (hended : d.inputEnded = false) :
    Keeps (log ++ [.received m (d.agenda.receive m).2]) { d with agenda := (d.agenda.receive m).1 }
      owed := by
  have hopen : d.closed = true → False := fun hclosed => by
    cases hended.symm.trans (h.closed hclosed).1
  cases m with
  | request r =>
    refine h.next ?_ ?_ ?_ (h.owes.congr rfl rfl rfl) fun hclosed => (hopen hclosed).elim
    · simp [waiting, Agenda.receive, Occurrence.request?, Occurrence.begun?]
    · simpa [Occurrence.begun?] using h.suffix
    · simp [waiting, Agenda.receive, Occurrence.answer?, Occurrence.seq?, ClientMessage.seq?]
  | cancel seq request progress =>
    exact h.receive_answered rfl rfl rfl (Agenda.queue_cancel ..) rfl hopen
  | notice =>
    exact h.silent rfl rfl rfl rfl rfl (h.owes.congr rfl rfl rfl) fun hclosed =>
      (hopen hclosed).elim
  | unsupported seq part => exact h.receive_answered rfl rfl rfl rfl rfl hopen

theorem Keeps.endInput : Keeps (log ++ [.inputEnded]) { d with inputEnded := true } owed :=
  h.silent rfl rfl rfl rfl rfl (h.owes.congr rfl rfl rfl) fun hclosed => ⟨rfl, (h.closed hclosed).2⟩

theorem Keeps.take {queue : List ClientRequest} (hfree : d.IsFree)
    (hqueue : d.agenda.queue = r :: queue) :
    Keeps (log ++ [.taken r])
      { d with agenda := { d.agenda with queue }, taken := some r } owed := by
  obtain ⟨hduty, rfl, hwaiting⟩ := h.eq_of_isFree hfree
  have howes : Owes { d with agenda := { d.agenda with queue }, taken := some r }
      (accountOf log).duty [] :=
    hduty ▸ .free hfree.work hfree.broken
  refine h.silent rfl rfl rfl rfl ?_ howes fun hclosed => ?_
  · rw [hwaiting, hqueue]
    rfl
  · cases hfree.closed.symm.trans hclosed

theorem Keeps.turn {kind : TurnKind} (htaken : d.taken = some r)
    (hnext : Agenda.next? { d.agenda with queue := r :: d.agenda.queue } = some (kind, r, agenda)) :
    Keeps (log ++ [.begun (.turn kind r)]) ({ d with agenda }.begin (.turn kind r)) [r] := by
  obtain ⟨hwork, hbroken⟩ := h.owes.free_of_taken htaken
  obtain ⟨-, rfl⟩ := h.owes.eq_of_free hwork hbroken
  have hqueue : agenda.queue = d.agenda.queue := by
    obtain ⟨queue, hqueue, ⟨-, -, rfl⟩ | ⟨-, -, rfl⟩⟩ := Agenda.next?_eq_some hnext <;>
      exact (List.cons.inj hqueue).2.symm
  have hwaiting : d.waiting = r :: agenda.queue := by
    rw [waiting, htaken, hqueue]
    rfl
  have hbegun : ({ d with agenda }.begin (.turn kind r)).waiting = agenda.queue := rfl
  refine h.next ?_ ?_ ?_ (.begin (.turn kind r) hbroken) fun hclosed => ?_
  · rw [hwaiting, hbegun]
    simp [Occurrence.begun?, Occurrence.request?]
  · exact List.suffix_append ..
  · rw [hwaiting, hbegun]
    exact List.perm_append_comm
  · have hempty := (h.closed hclosed).2
    rw [hwaiting] at hempty
    cases hempty

theorem Keeps.notice {n : Notice} {closed : Bool} (hfree : d.IsFree)
    (hclosed : closed = true → d.inputEnded = true ∧ d.agenda.queue = []) :
    Keeps (log ++ [.begun (.notice n)]) { d.begin (.notice n) with closed } owed := by
  obtain ⟨-, rfl, hwaiting⟩ := h.eq_of_isFree hfree
  exact h.silent rfl rfl rfl rfl hwaiting.symm
    ((Owes.begin (d := d) (.notice n) hfree.broken).congr rfl rfl rfl) (hwaiting ▸ hclosed)

theorem Keeps.ask {q : AdapterRequest}
    {next : adapterSignature.Reply q → Dialogue adapterSignature Adapter}
    {reply : adapterSignature.Reply q} {flag : Bool} (hwork : d.work = some (.ask q next))
    (hqueue : agenda.queue = d.agenda.queue) :
    ∃ owed', Keeps (log ++ [.asked ⟨q, reply⟩ flag]) { d with agenda, work := some (next reply) }
      owed' := by
  have hwaiting : ({ d with agenda, work := some (next reply) } : Desk).waiting = d.waiting :=
    congrArg (d.taken.toList ++ ·) hqueue
  have hduty : ((accountOf log).after (.asked ⟨q, reply⟩ flag)).duty = (accountOf log).duty := by
    cases q <;> rfl
  obtain ⟨u, answered, hu, rfl, htaken, hbroken, answered', hallows, hnext⟩ := h.owes.of_work hwork
  have howes : Owes { d with agenda, work := some (next reply) }
      ((accountOf log).after (.asked ⟨q, reply⟩ flag)).duty
      (if answered' then [] else u.request?.toList) := by
    rw [hduty, hu]
    exact .atWork rfl htaken hbroken (hnext reply)
  refine ⟨if answered' then [] else u.request?.toList, ?_⟩
  rcases Duty.answer?_of_allows hallows with ⟨hanswer, rfl⟩ | ⟨r, hr, hanswer, rfl, rfl⟩
  -- Either nothing is answered, or what was owed is.
  · exact h.silent rfl rfl hanswer rfl hwaiting howes h.closed
  · refine h.next ?_ ?_ ?_ howes (hwaiting ▸ h.closed)
    · rw [hwaiting]
      simp [Occurrence.begun?, Occurrence.request?]
    · exact List.nil_suffix
    · simp [hwaiting, Occurrence.answer?, Occurrence.seq?, hanswer, hr]

theorem Keeps.finish {adapter : Adapter} (hwork : d.work = some (.done adapter)) :
    Keeps (log ++ [.finished])
      { d with adapter, agenda := d.agenda.finish, work := none } owed := by
  have hwaiting :
      ({ d with adapter, agenda := d.agenda.finish, work := none } : Desk).waiting = d.waiting :=
    congrArg (d.taken.toList ++ ·) (Agenda.queue_finish _)
  obtain ⟨u, answered, -, rfl, htaken, -, hends⟩ := h.owes.of_work hwork
  exact h.silent rfl rfl rfl rfl hwaiting (.finish hends htaken rfl rfl) h.closed

/-- Whatever happens, the order is kept. -/
theorem Keeps.step (hstep : Step d o d') : ∃ owed', Keeps (log ++ [o]) d' owed' := by
  cases hstep with
  | receive hended => exact ⟨owed, h.receive hended⟩
  | endInput => exact ⟨owed, h.endInput⟩
  | take hfree hqueue => exact ⟨owed, h.take hfree hqueue⟩
  | turn htaken hnext => exact ⟨_, h.turn htaken hnext⟩
  | notice hfree =>
    exact ⟨owed, h.notice hfree fun hclosed => by cases hfree.closed.symm.trans hclosed⟩
  | close hfree hended hqueue => exact ⟨owed, h.notice hfree fun _ => ⟨hended, hqueue⟩⟩
  | ask hwork hanswer =>
    refine h.ask hwork ?_
    rw [(Agenda.answer_eq hanswer).1]
    exact Agenda.queue_told ..
  | finish hwork => exact ⟨owed, h.finish hwork⟩

end Step

theorem Keeps.run {log' : List Occurrence} (h : Keeps log d owed) (hrun : Run d log' d') :
    ∃ owed', Keeps (log ++ log') d' owed' := by
  induction hrun generalizing log owed with
  | nil => exact ⟨owed, by simpa using h⟩
  | @cons d d₁ d' o log' hstep _ ih =>
    obtain ⟨owed₁, hnext⟩ := h.step hstep
    rw [List.append_cons]
    exact ih hnext

/-! ### Turns come to an end -/

/-- A step in the turns of requests. -/
def TurnStep (d d' : Desk) : Prop := ∃ o, o.IsTurn ∧ Step d o d'

theorem Step.isTurn {o : Occurrence} (hstep : Step d o d') (ho : o.IsTurn) :
    TurnStep d d' := ⟨o, ho, hstep⟩

/-- What is still to be taken and to be begun. -/
def steps (d : Desk) : Nat := d.waiting.length + d.agenda.queue.length

/-- Either less is left to be taken and begun, or the present work goes on. -/
theorem TurnStep.cases (h : TurnStep d d') : d'.steps < d.steps ∨
    (d'.steps = d.steps ∧ ∃ q next reply, d.work = some (.ask q next) ∧
      d'.work = some (next reply)) ∨
    (d'.steps = d.steps ∧ ∃ adapter, d.work = some (.done adapter) ∧ d'.work = none) := by
  obtain ⟨o, ho, hstep⟩ := h
  cases hstep with
  | receive | endInput | notice | close => exact ho.elim
  | take hfree hqueue =>
    refine .inl ?_
    simp [steps, waiting, hfree.taken, hqueue]
  | turn htaken hnext =>
    refine .inl ?_
    obtain ⟨queue, hqueue, ⟨-, -, rfl⟩ | ⟨-, -, rfl⟩⟩ := Agenda.next?_eq_some hnext
    all_goals
      cases hqueue
      simp [steps, waiting, begin, htaken]
  | ask hwork hanswer =>
    refine .inr (.inl ⟨?_, _, _, _, hwork, rfl⟩)
    simp [steps, waiting, (Agenda.answer_eq hanswer).1, Agenda.queue_told]
  | finish hwork =>
    refine .inr (.inr ⟨?_, _, hwork, rfl⟩)
    simp [steps, waiting, Agenda.queue_finish]

/-- Whatever the host replies, the turns of the requests that wait come to an end. -/
theorem acc_turnStep (d : Desk) : Acc (fun d' d => TurnStep d d') d := by
  induction hsteps : d.steps using Nat.strongRecOn generalizing d with
  | ind n ih =>
    have hless : ∀ d d' : Desk, d.steps = n → d'.steps < d.steps →
        Acc (fun d' d => TurnStep d d') d' :=
      fun d d' hd hlt => ih _ (hd ▸ hlt) d' rfl
    -- First without work, then by induction on what the work may still ask for.
    have hidle : ∀ d : Desk, d.steps = n → d.work = none → Acc (fun d' d => TurnStep d d') d := by
      intro d hd hwork
      refine ⟨d, fun d' hstep => ?_⟩
      rcases hstep.cases with hlt | ⟨-, q, next, reply, hask, -⟩ | ⟨-, adapter, hdone, -⟩
      · exact hless d d' hd hlt
      · cases hwork.symm.trans hask
      · cases hwork.symm.trans hdone
    have hbusy : ∀ (work : Dialogue adapterSignature Adapter) (d : Desk), d.steps = n →
        d.work = some work → Acc (fun d' d => TurnStep d d') d := by
      intro work
      induction work with
      | done adapter =>
        intro d hd hwork
        refine ⟨d, fun d' hstep => ?_⟩
        rcases hstep.cases with hlt | ⟨-, q, next, reply, hask, -⟩ | ⟨heq, adapter', -, hnone⟩
        · exact hless d d' hd hlt
        · cases hwork.symm.trans hask
        · exact hidle d' (heq.trans hd) hnone
      | ask q next ihwork =>
        intro d hd hwork
        refine ⟨d, fun d' hstep => ?_⟩
        rcases hstep.cases with hlt | ⟨heq, q', next', reply, hask, hnext⟩ | ⟨-, adapter, hdone, -⟩
        · exact hless d d' hd hlt
        · cases hwork.symm.trans hask
          exact ihwork reply d' (heq.trans hd) hnext
        · cases hwork.symm.trans hdone
    cases hwork : d.work with
    | none => exact hidle d hsteps hwork
    | some work => exact hbusy work d hsteps hwork

/-- Every request to the host has a reply. -/
theorem nonempty_reply (q : AdapterRequest) : Nonempty (adapterSignature.Reply q) := by
  cases q with
  | session q =>
    cases q with
    | isCancelled => exact ⟨true⟩
    | findTree => exact ⟨.error .missing⟩
    | query => exact ⟨.ok ([], .deadline)⟩
    | replaceDir | removeAll | inject => exact ⟨none⟩
    | listen | unlisten | closeConnection | notify => exact ⟨()⟩
  | openConnection => exact ⟨.ok ()⟩
  | send | watch | unwatch => exact ⟨()⟩
  | newProgress | newPackName => exact ⟨[]⟩
  | read => exact ⟨.ok []⟩

theorem exists_step_of_ask {q : AdapterRequest}
    {next : adapterSignature.Reply q → Dialogue adapterSignature Adapter}
    (hwork : d.work = some (.ask q next)) : ∃ d', TurnStep d d' := by
  let host (q : AdapterRequest) (_ : Bool) (s : Unit) : Option (adapterSignature.Reply q) × Unit :=
    (some (Classical.choice (nonempty_reply q)), s)
  have hhost : ∀ q cancelled s, (host q cancelled s).1.isSome = true := fun _ _ _ => rfl
  obtain ⟨reply, agenda, s, hanswer⟩ := Agenda.exists_answer hhost q d.agenda ()
  exact ⟨_, (Step.ask hwork hanswer).isTurn trivial⟩

theorem exists_step_of_taken (htaken : d.taken = some r) : ∃ d', TurnStep d d' := by
  by_cases hcancelled : d.agenda.cancelled.contains r.seq
  · exact ⟨_, (Step.turn htaken (if_pos hcancelled)).isTurn trivial⟩
  · exact ⟨_, (Step.turn htaken (if_neg hcancelled)).isTurn trivial⟩

/-- As long as something is left to be done for a request, there is a next step. -/
theorem Keeps.exists_turnStep (h : Keeps log d owed) (hbroken : d.adapter.broken = false)
    (hleft : d.work = none → d.waiting ≠ []) : ∃ d', TurnStep d d' := by
  cases hwork : d.work with
  | some work =>
    cases work with
    | done adapter => exact ⟨_, (Step.finish hwork).isTurn trivial⟩
    | ask q next => exact exists_step_of_ask hwork
  | none =>
    have hwaiting := hleft hwork
    cases htaken : d.taken with
    | some r => exact exists_step_of_taken htaken
    | none =>
      have hclosed : d.closed = false := Bool.eq_false_iff.mpr fun hclosed =>
        hwaiting (h.closed hclosed).2
      rw [waiting, htaken] at hwaiting
      obtain ⟨r, queue, hqueue⟩ := List.exists_cons_of_ne_nil hwaiting
      exact ⟨_, (Step.take ⟨hwork, htaken, hclosed, hbroken⟩ hqueue).isTurn trivial⟩

/-- When no step in the turns of requests is left, all requests had their turn, and all is
    answered. -/
theorem Keeps.settled (h : Keeps log d owed) (hstuck : ∀ d', ¬TurnStep d d')
    (hbroken : d.adapter.broken = false) :
    begunIn log = requestsIn log ∧ (answersIn log).Perm (seqsIn log) := by
  -- Otherwise there would be a next step.
  have hdone : d.work = none ∧ d.waiting = [] := by
    refine Classical.byContradiction fun hleft => ?_
    obtain ⟨d', hstep⟩ := h.exists_turnStep hbroken fun hwork hwaiting => hleft ⟨hwork, hwaiting⟩
    exact hstuck d' hstep
  obtain ⟨-, rfl⟩ := h.owes.eq_of_free hdone.1 hbroken
  refine ⟨?_, ?_⟩
  · simpa [hdone.2] using h.order
  · simpa [hdone.2] using h.answers

end Desk

end DatapackDebug
