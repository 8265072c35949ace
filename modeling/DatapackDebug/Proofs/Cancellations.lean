import DatapackDebug.Proofs.RequestOrder

namespace DatapackDebug

/-!
# Cancellations

A cancellation concerns the request that it means, and no other.

* `Agenda.Tracks` — an agenda holds what the log tells of turns and cancellations;
* `Tracks.step`, `Tracks.run` — it does so whatever happens, if the messages have different numbers;
* `Desk.withCancelled`, `Run.withCancelled` — a desk at which one cancellation did not arrive.
-/

open Desk

variable {r : ClientRequest} {kind : TurnKind}

/-! ### Numbers of messages -/

/-- The messages have different numbers, none of which is zero. -/
structure Distinct (log : List Occurrence) : Prop where
  nodup : (seqsIn log).Nodup
  ne_zero : 0 ∉ seqsIn log

theorem Distinct.of_append {log log' : List Occurrence} (h : Distinct (log ++ log')) :
    Distinct log := by
  have hsublist : (seqsIn log).Sublist (seqsIn (log ++ log')) := by
    rw [seqsIn, seqsIn, List.filterMap_append]
    exact List.sublist_append_left ..
  exact ⟨h.nodup.sublist hsublist, fun hzero => h.ne_zero (hsublist.subset hzero)⟩

theorem seq_requestsIn_sublist (log : List Occurrence) :
    ((requestsIn log).map (·.seq)).Sublist (seqsIn log) := by
  induction log with
  | nil => exact .slnil
  | cons o log ih =>
    have hcons : ∀ (f : Occurrence → Option Int),
        (o :: log).filterMap f = (f o).toList ++ log.filterMap f := by
      intro f
      cases h : f o <;> simp [h]
    rw [seqsIn, hcons]
    cases o with
    | received m reply =>
      cases m with
      | request r => exact ih.cons_cons r.seq
      | cancel seq => exact ih.cons seq
      | unsupported seq => exact ih.cons seq
      | notice => exact ih
    | _ => exact ih

section Fresh

variable {log : List Occurrence} {d : Desk} {owed : List ClientRequest}

/-- A request that waits has a number of its own. -/
theorem Desk.Keeps.fresh (h : Keeps log d owed) (hlog : Distinct log) (hr : r ∈ d.waiting) :
    r.seq ≠ 0 ∧ r.seq ∉ (begunIn log).map (·.seq) := by
  have hsublist := seq_requestsIn_sublist log
  rw [← h.order, List.map_append] at hsublist
  have hmem : r.seq ∈ d.waiting.map (·.seq) := List.mem_map_of_mem hr
  refine ⟨?_, fun hbegun => ?_⟩
  · rintro hzero
    exact hlog.ne_zero (hzero ▸ hsublist.subset (List.mem_append_right _ hmem))
  · exact (List.nodup_append.mp (hlog.nodup.sublist hsublist)).2.2 _ hbegun _ hmem rfl

theorem Desk.Keeps.ne_zero_of_begun (h : Keeps log d owed) (hlog : Distinct log)
    (hr : r ∈ begunIn log) : r.seq ≠ 0 := by
  have hsublist := seq_requestsIn_sublist log
  rw [← h.order, List.map_append] at hsublist
  rintro hzero
  exact hlog.ne_zero (hzero ▸ hsublist.subset (List.mem_append_left _ (List.mem_map_of_mem hr)))

end Fresh

/-! ### Agendas and accounts -/

namespace Agenda

/-- The agenda holds what is known of the present turn, and of the cancellations of requests that
    had no turn yet. -/
structure Tracks (a : Agenda) (c : Account) (begun : List ClientRequest) : Prop where
  turn : a.turn = c.turn?.map fun r => { seq := r.seq, cancelled := decide (r.seq ∈ c.cancelled) }
  progress : a.progress = c.names.map fun name => (name, c.turn?.elim 0 (·.seq))
  names : c.turn? = none → c.names = []
  mem_begun : ∀ r, c.turn? = some r → r ∈ begun
  waiting : ∀ seq, seq ≠ 0 → seq ∉ begun.map (·.seq) → (seq ∈ a.cancelled ↔ seq ∈ c.cancelled)

namespace Tracks

variable {a : Agenda} {c : Account} {begun : List ClientRequest}

theorem initial : Tracks {} {} [] := ⟨rfl, rfl, fun _ => rfl, nofun, fun _ _ _ => .rfl⟩

/-- What waits does not matter. -/
theorem queue (h : Tracks a c begun) (queue : List ClientRequest) :
    Tracks { a with queue } c begun :=
  ⟨h.turn, h.progress, h.names, h.mem_begun, h.waiting⟩

theorem isCancelled_iff (h : Tracks a c begun) :
    a.isCancelled = true ↔ ∃ r, c.turn? = some r ∧ r.seq ∈ c.cancelled := by
  rw [isCancelled, h.turn]
  cases c.turn? <;> simp

/-- A cancellation means the request that the client has in mind. -/
theorem target_eq (h : Tracks a c begun) (request : Int) (progress : Text) :
    a.target request progress = c.target request progress := by
  have hlookup : ∀ (names : List Text) (seq : Int),
      ((names.map fun name => (name, seq)).lookup progress).getD 0 =
        if names.contains progress then seq else 0 := by
    intro names seq
    induction names with
    | nil => rfl
    | cons name names ih =>
      rw [List.map_cons, List.lookup_cons, List.contains_cons]
      cases progress == name with
      | true => rfl
      | false => simpa using ih
  rw [target, Account.target, h.progress, hlookup]

/-- A cancellation of another request leaves the present turn as it is. -/
theorem turn_of_ne {target : Int} (h : Tracks a c begun)
    (hne : ∀ r, c.turn? = some r → r.seq ≠ target) :
    a.turn =
      c.turn?.map fun r =>
        { seq := r.seq, cancelled := decide (r.seq ∈ target :: c.cancelled) } := by
  rw [h.turn]
  cases hr : c.turn? with
  | none => rfl
  | some r => simp [hne r hr]

theorem cancel (h : Tracks a c begun) (hzero : ∀ r ∈ begun, r.seq ≠ 0) (target : Int) :
    Tracks (a.cancel target) { c with cancelled := target :: c.cancelled } begun := by
  unfold Agenda.cancel
  split
  · -- No request has the number zero.
    rename_i htarget
    obtain rfl : target = 0 := by simpa using htarget
    refine { h with turn := h.turn_of_ne fun r hr => hzero r (h.mem_begun r hr), waiting := ?_ }
    intro seq hseq hbegun
    rw [h.waiting seq hseq hbegun, List.mem_cons, or_iff_right hseq]
  · split
    · -- The present request is told.
      rename_i hpresent
      obtain ⟨r, hr, rfl⟩ : ∃ r, c.turn? = some r ∧ r.seq = target := by
        rw [h.turn] at hpresent
        cases hr : c.turn? with
        | none => simp [hr] at hpresent
        | some r => exact ⟨r, rfl, by simpa [hr] using hpresent⟩
      have hturn : a.turn = some { seq := r.seq, cancelled := decide (r.seq ∈ c.cancelled) } := by
        rw [h.turn, hr]
        rfl
      refine { h with turn := ?_, waiting := ?_ }
      · show a.turn.map _ = c.turn?.map _
        simp [hturn, hr]
      · intro seq hseq hbegun
        have hne : seq ≠ r.seq := fun heq => hbegun (heq ▸ List.mem_map_of_mem (h.mem_begun r hr))
        rw [h.waiting seq hseq hbegun, List.mem_cons, or_iff_right hne]
    · -- The request is remembered until its turn.
      rename_i hother
      have hne : ∀ r, c.turn? = some r → r.seq ≠ target := by
        rintro r hr rfl
        simp [h.turn, hr] at hother
      refine { h with turn := h.turn_of_ne hne, waiting := ?_ }
      intro seq hseq hbegun
      simp only [List.mem_cons, h.waiting seq hseq hbegun]

/-- The turn of a request begins. -/
theorem next {a' : Agenda} (h : Tracks a c begun) (hduty : c.duty = none)
    (hfresh : r.seq ≠ 0 ∧ r.seq ∉ begun.map (·.seq)) (hnext : a.next? = some (kind, r, a')) :
    Tracks a' { c with duty := some (.turn kind r), names := [] } (begun ++ [r]) ∧
      (kind = .refuse ↔ r.seq ∈ c.cancelled) := by
  have hturn : c.turn? = none := by rw [Account.turn?, hduty]
  have hwaiting := h.waiting r.seq hfresh.1 hfresh.2
  have hprogress : a.progress = [] := by
    rw [h.progress, h.names hturn]
    rfl
  obtain ⟨queue, -, ⟨rfl, hcancelled, rfl⟩ | ⟨rfl, hcancelled, rfl⟩⟩ := next?_eq_some hnext
  · -- The request is refused: its cancellation is forgotten, and no other.
    refine ⟨⟨?_, hprogress, fun _ => rfl, nofun, ?_⟩, iff_of_true rfl (hwaiting.mp hcancelled)⟩
    · show a.turn = none
      rw [h.turn, hturn]
      rfl
    · intro seq hseq hbegun
      rw [List.map_append, List.mem_append, not_or] at hbegun
      have hne : seq ≠ r.seq := by simpa using hbegun.2
      simp [hne, h.waiting seq hseq hbegun.1]
  · -- The request is handled, and nobody has cancelled it so far.
    refine ⟨⟨?_, hprogress, fun _ => rfl, ?_, ?_⟩,
      iff_of_false nofun fun hmem => hcancelled (hwaiting.mpr hmem)⟩
    · simp [Account.turn?, ← hwaiting, hcancelled]
    · rintro r' hr'
      cases hr'
      exact List.mem_append_right _ List.mem_cons_self
    · intro seq hseq hbegun
      rw [List.map_append, List.mem_append, not_or] at hbegun
      exact h.waiting seq hseq hbegun.1

/-- Something else begins between two turns. -/
theorem notice (h : Tracks a c begun) (hduty : c.duty = none) (n : Notice) :
    Tracks a { c with duty := some (.notice n), names := [] } begun := by
  have hturn : c.turn? = none := by rw [Account.turn?, hduty]
  refine ⟨?_, ?_, fun _ => rfl, nofun, h.waiting⟩
  · rw [h.turn, hturn]
    rfl
  · rw [h.progress, h.names hturn]
    rfl

/-- A name of progress belongs to the present turn. -/
theorem told {u : Duty} {answered answered' : Bool} {e : Exchange adapterSignature} {flag : Bool}
    (h : Tracks a c begun) (hduty : c.duty = some u)
    (hallows : u.allows answered e.1 = some answered') :
    Tracks (a.told e) (c.after (.asked e flag)) begun := by
  obtain ⟨q, reply⟩ := e
  cases q with
  | newProgress seq =>
    obtain ⟨r, rfl, rfl⟩ := Duty.eq_turn_of_allows hallows
    have hturn : c.turn? = some r := by rw [Account.turn?, hduty]
    refine ⟨h.turn, ?_, fun hnone => ?_, h.mem_begun, h.waiting⟩
    · show (reply, r.seq) :: a.progress = (reply :: c.names).map fun name =>
        (name, c.turn?.elim 0 (·.seq))
      rw [h.progress, hturn]
      rfl
    · cases hturn.symm.trans hnone
  | _ => exact h

/-- After a turn nothing of it is left. -/
theorem finish (h : Tracks a c begun) :
    Tracks a.finish { c with duty := none, names := [] } begun := by
  cases hr : c.turn? with
  | none =>
    have hturn : a.turn = none := by
      rw [h.turn, hr]
      rfl
    have hfinish : a.finish = a := by rw [Agenda.finish, hturn]
    rw [hfinish]
    refine ⟨hturn, ?_, fun _ => rfl, nofun, h.waiting⟩
    rw [h.progress, h.names hr]
    rfl
  | some r =>
    have hturn : a.turn = some { seq := r.seq, cancelled := decide (r.seq ∈ c.cancelled) } := by
      rw [h.turn, hr]
      rfl
    -- Only the present request has progress.
    have hprogress : a.progress.filter (fun p => p.2 != r.seq) = [] := by
      rw [h.progress, hr, List.filter_eq_nil_iff]
      simp
    have hfinish : a.finish = { a with turn := none, progress := [] } := by
      rw [Agenda.finish, hturn]
      exact congrArg (fun progress => { a with turn := none, progress }) hprogress
    rw [hfinish]
    exact ⟨rfl, rfl, fun _ => rfl, nofun, h.waiting⟩

end Tracks

end Agenda

namespace Desk

variable {log log' : List Occurrence} {d d' : Desk} {owed : List ClientRequest} {o : Occurrence}

/-- The agenda of a desk holds what the log tells. -/
def Tracks (log : List Occurrence) (d : Desk) : Prop :=
  d.agenda.Tracks (accountOf log) (begunIn log)

theorem Tracks.initial (a : Adapter) : Tracks [] { adapter := a } := Agenda.Tracks.initial

/-- Something with which no request has its turn. -/
theorem Tracks.silent (hbegun : o.begun? = none)
    (h : d'.agenda.Tracks ((accountOf log).after o) (begunIn log)) : Tracks (log ++ [o]) d' := by
  rw [Tracks, accountOf_concat, begunIn_concat, hbegun]
  simpa using h

theorem Tracks.receive {m : ClientMessage} (h : Tracks log d)
    (hzero : ∀ r ∈ begunIn log, r.seq ≠ 0) :
    Tracks (log ++ [.received m (d.agenda.receive m).2])
      { d with agenda := (d.agenda.receive m).1 } := by
  refine .silent rfl ?_
  cases m with
  | cancel seq request progress =>
    show Agenda.Tracks (d.agenda.cancel (d.agenda.target request progress)) _ _
    rw [Agenda.Tracks.target_eq h]
    exact Agenda.Tracks.cancel h hzero _
  | request => exact Agenda.Tracks.queue h _
  | notice | unsupported => exact h

theorem Tracks.turn {agenda : Agenda} (h : Tracks log d) (hkeeps : Keeps log d owed)
    (hlog : Distinct log) (htaken : d.taken = some r)
    (hnext : Agenda.next? { d.agenda with queue := r :: d.agenda.queue } = some (kind, r, agenda)) :
    Tracks (log ++ [.begun (.turn kind r)]) ({ d with agenda }.begin (.turn kind r)) ∧
      (kind = .refuse ↔ r.seq ∈ (accountOf log).cancelled) := by
  obtain ⟨hwork, hbroken⟩ := hkeeps.owes.free_of_taken htaken
  obtain ⟨hduty, -⟩ := hkeeps.owes.eq_of_free hwork hbroken
  have hfresh := hkeeps.fresh hlog (show r ∈ d.waiting by simp [waiting, htaken])
  obtain ⟨hbegun, hkind⟩ := (Agenda.Tracks.queue h _).next hduty hfresh hnext
  refine ⟨?_, hkind⟩
  rw [Tracks, accountOf_concat, begunIn_concat]
  exact hbegun

theorem Tracks.notice {n : Notice} {closed : Bool} (h : Tracks log d) (hkeeps : Keeps log d owed)
    (hfree : d.IsFree) : Tracks (log ++ [.begun (.notice n)]) { d.begin (.notice n) with closed } :=
  .silent rfl (Agenda.Tracks.notice h (hkeeps.eq_of_isFree hfree).1 n)

/-- Whatever happens, the agenda holds what the log tells. -/
theorem Tracks.step (h : Tracks log d) (hkeeps : Keeps log d owed) (hlog : Distinct log)
    (hstep : Step d o d') : Tracks (log ++ [o]) d' := by
  cases hstep with
  | receive => exact h.receive fun r hr => hkeeps.ne_zero_of_begun hlog hr
  | endInput => exact .silent rfl h
  | take => exact .silent rfl (Agenda.Tracks.queue h _)
  | turn htaken hnext => exact (h.turn hkeeps hlog htaken hnext).1
  | notice hfree => exact h.notice hkeeps hfree
  | close hfree => exact h.notice hkeeps hfree
  | ask hwork hanswer =>
    obtain ⟨u, answered, hduty, -, -, -, answered', hallows, -⟩ := hkeeps.owes.of_work hwork
    refine .silent rfl ?_
    rw [(Agenda.answer_eq hanswer).1]
    exact Agenda.Tracks.told (e := ⟨_, _⟩) h hduty hallows
  | finish => exact .silent rfl (Agenda.Tracks.finish h)

theorem Tracks.run (h : Tracks log d) (hkeeps : Keeps log d owed) (hlog : Distinct (log ++ log'))
    (hrun : Run d log' d') : Tracks (log ++ log') d' := by
  -- By induction on what happens next; the log that came before grows with each step.
  induction hrun generalizing log owed with
  | nil => simpa using h
  | cons hstep _ ih =>
    obtain ⟨owed₁, hnext⟩ := hkeeps.step hstep
    rw [List.append_cons] at hlog ⊢
    exact ih (h.step hkeeps hlog.of_append.of_append hstep) hnext hlog

/-- What holds of a desk at each thing that happens. -/
theorem Run.exists_step {a : Adapter} {l₁ l₂ : List Occurrence} (ha : a.broken = false)
    (hlog : Distinct (l₁ ++ o :: l₂)) (hrun : Run { adapter := a } (l₁ ++ o :: l₂) d) :
    ∃ d₁ d₂ owed, Run { adapter := a } l₁ d₁ ∧ Keeps l₁ d₁ owed ∧ Tracks l₁ d₁ ∧ Step d₁ o d₂ ∧
      Run d₂ l₂ d := by
  obtain ⟨d₁, hfirst, hsecond⟩ := hrun.split
  obtain ⟨owed, hkeeps⟩ := (Keeps.initial ha).run hfirst
  have htracks : Tracks l₁ d₁ := (Tracks.initial a).run (.initial ha) hlog.of_append hfirst
  cases hsecond with
  | cons hstep hrest => exact ⟨d₁, _, owed, hfirst, hkeeps, htracks, hstep, hrest⟩

end Desk

/-! ### A cancellation that is left out -/

/-- The same numbers, apart from one. -/
def AgreeBut (target : Int) (cancelled cancelled' : List Int) : Prop :=
  ∀ seq, seq ≠ target → (seq ∈ cancelled' ↔ seq ∈ cancelled)

namespace Agenda

variable {a : Agenda} {target : Int} {cancelled : List Int}

theorem cancel_withCancelled (h : AgreeBut target a.cancelled cancelled) (other : Int) :
    ∃ cancelled', AgreeBut target (a.cancel other).cancelled cancelled' ∧
      ({ a with cancelled }.cancel other) = { a.cancel other with cancelled := cancelled' } := by
  unfold cancel
  split
  · exact ⟨cancelled, h, rfl⟩
  · split
    · exact ⟨cancelled, h, rfl⟩
    · refine ⟨other :: cancelled, fun seq hseq => ?_, rfl⟩
      simp only [List.mem_cons, h seq hseq]

theorem receive_withCancelled (h : AgreeBut target a.cancelled cancelled) (m : ClientMessage) :
    ∃ cancelled', AgreeBut target (a.receive m).1.cancelled cancelled' ∧
      ({ a with cancelled }.receive m) =
        ({ (a.receive m).1 with cancelled := cancelled' }, (a.receive m).2) := by
  cases m with
  | cancel seq request progress =>
    obtain ⟨cancelled', hagree, hcancel⟩ := cancel_withCancelled h (a.target request progress)
    exact ⟨cancelled', hagree, congrArg (·, _) hcancel⟩
  | _ => exact ⟨cancelled, h, rfl⟩

theorem next?_withCancelled {a' : Agenda} (h : AgreeBut target a.cancelled cancelled)
    (hr : r.seq ≠ target) (hnext : a.next? = some (kind, r, a')) :
    ∃ cancelled', AgreeBut target a'.cancelled cancelled' ∧
      next? { a with cancelled } = some (kind, r, { a' with cancelled := cancelled' }) := by
  obtain ⟨queue, hqueue, ⟨rfl, hmem, rfl⟩ | ⟨rfl, hmem, rfl⟩⟩ := next?_eq_some hnext
  · refine ⟨cancelled.filter (· != r.seq), fun seq hseq => ?_, ?_⟩
    · simp only [List.mem_filter, h seq hseq]
    · have hmem' : r.seq ∈ cancelled := (h _ hr).mpr hmem
      simp [next?, hqueue, hmem']
  · have hmem' : r.seq ∉ cancelled := fun hmem' => hmem ((h _ hr).mp hmem')
    exact ⟨cancelled, h, by simp [next?, hqueue, hmem']⟩

/-- A host is not told of requests that wait. -/
theorem answer_withCancelled {σ : Type}
    (host : (q : AdapterRequest) → Bool → σ → Option (adapterSignature.Reply q) × σ)
    (q : AdapterRequest) (a : Agenda) (s : σ) (cancelled : List Int) :
    answer host q ({ a with cancelled }, s) =
      ((answer host q (a, s)).1, { (answer host q (a, s)).2.1 with cancelled },
        (answer host q (a, s)).2.2) := by
  cases q with
  | session q => cases q <;> rfl
  | newProgress request =>
    simp only [answer]
    rw [show ({ a with cancelled } : Agenda).isCancelled = a.isCancelled from rfl]
    split <;> rfl
  | _ => rfl

theorem cancelled_told (a : Agenda) (e : Exchange adapterSignature) :
    (a.told e).cancelled = a.cancelled := by
  unfold told
  split <;> rfl

theorem finish_withCancelled (a : Agenda) (cancelled : List Int) :
    ({ a with cancelled } : Agenda).finish = { a.finish with cancelled } := by
  obtain ⟨queue, turn, _, progress⟩ := a
  cases turn <;> rfl

theorem cancelled_finish (a : Agenda) : a.finish.cancelled = a.cancelled := by
  unfold finish
  split <;> rfl

/-- A cancellation of a request that is not being handled only makes it remembered. -/
theorem cancel_of_not_turn (hturn : a.turn.any (·.seq == target) = false) :
    AgreeBut target (a.cancel target).cancelled a.cancelled ∧
      { a.cancel target with cancelled := a.cancelled } = a := by
  unfold cancel
  split
  · exact ⟨fun _ _ => .rfl, rfl⟩
  · rw [hturn]
    exact ⟨fun seq hseq => by simp [hseq], rfl⟩

end Agenda

namespace Desk

variable {log : List Occurrence} {d d' : Desk} {o : Occurrence} {target : Int}
  {cancelled : List Int}

/-- The desk with other requests to be refused. -/
def withCancelled (d : Desk) (cancelled : List Int) : Desk :=
  { d with agenda := { d.agenda with cancelled } }

theorem IsFree.withCancelled (h : d.IsFree) (cancelled : List Int) :
    (d.withCancelled cancelled).IsFree :=
  ⟨h.work, h.taken, h.closed, h.broken⟩

/-- What happens can happen too if a request is to be refused, as long as its turn does not
    begin. -/
theorem Step.withCancelled (hstep : Step d o d') (h : AgreeBut target d.agenda.cancelled cancelled)
    (hbegun : ∀ r, o.begun? = some r → r.seq ≠ target) :
    ∃ cancelled', AgreeBut target d'.agenda.cancelled cancelled' ∧
      Step (d.withCancelled cancelled) o (d'.withCancelled cancelled') := by
  cases hstep with
  | @receive m hended =>
    obtain ⟨cancelled', hagree, hreceive⟩ := Agenda.receive_withCancelled h m
    refine ⟨cancelled', hagree, ?_⟩
    have hstep := Step.receive (d := d.withCancelled cancelled) (m := m) hended
    rw [Desk.withCancelled, hreceive] at hstep
    exact hstep
  | endInput => exact ⟨cancelled, h, .endInput⟩
  | take hfree hqueue => exact ⟨cancelled, h, .take (hfree.withCancelled cancelled) hqueue⟩
  | @turn r kind agenda htaken hnext =>
    have hqueued : AgreeBut target
        ({ d.agenda with queue := r :: d.agenda.queue } : Agenda).cancelled cancelled := h
    obtain ⟨cancelled', hagree, hnext'⟩ := Agenda.next?_withCancelled hqueued (hbegun r rfl) hnext
    exact ⟨cancelled', hagree, .turn htaken hnext'⟩
  | notice hfree hn => exact ⟨cancelled, h, .notice (hfree.withCancelled cancelled) hn⟩
  | close hfree hended hqueue =>
    exact ⟨cancelled, h, .close (hfree.withCancelled cancelled) hended hqueue⟩
  | @ask q next σ host s s' reply agenda hwork hanswer =>
    -- The same host can be asked, as it hears only of the present request.
    have hanswer' := Agenda.answer_withCancelled host q d.agenda s cancelled
    rw [hanswer] at hanswer'
    refine ⟨cancelled, ?_, .ask hwork hanswer'⟩
    rw [(Agenda.answer_eq hanswer).1]
    exact (Agenda.cancelled_told ..).symm ▸ h
  | finish hwork =>
    refine ⟨cancelled, ?_, ?_⟩
    · show AgreeBut target d.agenda.finish.cancelled cancelled
      rwa [Agenda.cancelled_finish]
    · have hstep := Step.finish (d := d.withCancelled cancelled) hwork
      rw [Desk.withCancelled, Agenda.finish_withCancelled] at hstep
      exact hstep

theorem Run.withCancelled (hrun : Run d log d') (h : AgreeBut target d.agenda.cancelled cancelled)
    (hbegun : ∀ r ∈ begunIn log, r.seq ≠ target) :
    ∃ cancelled', AgreeBut target d'.agenda.cancelled cancelled' ∧
      Run (d.withCancelled cancelled) log (d'.withCancelled cancelled') := by
  induction hrun generalizing cancelled with
  | nil => exact ⟨cancelled, h, .nil⟩
  | @cons d d₁ d' o log hstep _ ih =>
    have hfirst : ∀ r, o.begun? = some r → r.seq ≠ target := fun r hr =>
      hbegun r (List.mem_filterMap.mpr ⟨o, List.mem_cons_self, hr⟩)
    have hrest : ∀ r ∈ begunIn log, r.seq ≠ target := fun r hr => by
      obtain ⟨o', ho', hr'⟩ := List.mem_filterMap.mp hr
      exact hbegun r (List.mem_filterMap.mpr ⟨o', List.mem_cons_of_mem _ ho', hr'⟩)
    obtain ⟨cancelled₁, h₁, hstep'⟩ := hstep.withCancelled h hfirst
    obtain ⟨cancelled', h', hrun'⟩ := ih h₁ hrest
    exact ⟨cancelled', h', .cons hstep' hrun'⟩

end Desk

end DatapackDebug
