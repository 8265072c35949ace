import DatapackDebug.Proofs.Cancellations

namespace DatapackDebug

/-!
# Requests and their cancellations

What a client can rely on, in whatever order its messages arrive, requests are taken, begun and
finished, and other things happen in between.

* `ClientRequest.AsksBeyond.frames` — the requests at which an adapter stops;
* `RequestProtocol` — the order of requests, their answers, and what cancellations do;
* `requests_keep_protocol` — it holds of all that can happen.
-/

open Desk

variable {r : ClientRequest} {e : Exchange adapterSignature} {flag : Bool}

/-! ### Requests that are not answered -/

/-- Frames are there unless they are to begin before the first, or their number is beyond all
    bounds. -/
theorem stackWindow?_ne_none {count : Nat} {startFrame levels : Int} (hstart : 0 ≤ startFrame)
    (hlevels : startFrame + levels < Nat.pow 2 63) :
    stackWindow? count startFrame levels ≠ none := by
  obtain ⟨hfirst, hle, hcount⟩ : 0 ≤ min startFrame (count : Int) ∧
      min startFrame (count : Int) ≤ startFrame ∧ min startFrame (count : Int) ≤ count := by omega
  unfold stackWindow?
  generalize min startFrame (count : Int) = start at hfirst hle hcount ⊢
  -- The end is not before the beginning, since the sum of both does not wrap around.
  have hstop : start ≤
      if 0 < levels && wrap64 (start + levels) < count then wrap64 (start + levels) else count := by
    split
    · rename_i hlimit
      rw [Bool.and_eq_true, decide_eq_true_iff] at hlimit
      have hbound : startFrame + levels < 9223372036854775808 := hlevels
      have hwrap : wrap64 (start + levels) = start + levels :=
        Int.bmod_eq_of_le (by omega) (show start + levels < (18446744073709551616 + 1) / 2 by omega)
      omega
    · exact hcount
  simpa [hfirst] using hstop

/-- A request for frames that cannot be: they are to begin before the first, or their number is
    beyond all bounds. -/
theorem ClientRequest.AsksBeyond.frames (h : r.AsksBeyond) :
    ∃ startFrame levels, r.what = .stackTrace startFrame levels ∧
      (startFrame < 0 ∨ Nat.pow 2 63 ≤ startFrame + levels) := by
  obtain ⟨startFrame, levels, count, hwhat, hnone⟩ := h
  refine ⟨startFrame, levels, hwhat, ?_⟩
  by_cases hstart : 0 ≤ startFrame
  · by_cases hlevels : startFrame + levels < Nat.pow 2 63
    · exact absurd hnone (stackWindow?_ne_none hstart hlevels)
    · exact .inr (Int.not_lt.mp hlevels)
  · exact .inl (Int.not_le.mp hstart)

namespace Desk

variable {log : List Occurrence} {d d' : Desk} {owed : List ClientRequest}

theorem Keeps.exists_asksBeyond (h : Keeps log d owed) (hbroken : d.adapter.broken = true) :
    ∃ r ∈ begunIn log, r.AsksBeyond := by
  obtain ⟨-, suffix, -, owes, -⟩ := h
  -- What is owed does not depend on the duty here, which stands in the way of the cases.
  generalize (accountOf log).duty = duty at owes
  cases owes with
  | free _ hfine => cases hfine.symm.trans hbroken
  | @broken r _ _ _ hr => exact ⟨r, suffix.subset List.mem_cons_self, hr⟩
  | atWork _ _ hfine => cases hfine.symm.trans hbroken

/-! ### What is done in a turn -/

/-- All that is asked of the host belongs to the present duty. -/
theorem Keeps.allows_of_asked (h : Keeps log d owed) (hstep : Step d (.asked e flag) d') :
    ∃ u answered answered', (accountOf log).duty = some u ∧
      u.allows answered e.1 = some answered' := by
  cases hstep with
  | ask hwork _ =>
    obtain ⟨u, answered, hduty, -, -, -, answered', hallows, -⟩ := h.owes.of_work hwork
    exact ⟨u, answered, answered', hduty, hallows⟩

/-- The host is told whether the present request is cancelled, and tells so. -/
theorem Step.asked_flag (hstep : Step d (.asked e flag) d') :
    flag = d.agenda.isCancelled ∧ ∀ reply, e = ⟨.session .isCancelled, reply⟩ → reply = flag := by
  cases hstep with
  | ask _ hanswer =>
    refine ⟨rfl, fun reply he => ?_⟩
    cases he
    exact Option.some.inj (eq_of_heq ((Agenda.answer_eq hanswer).2 rfl))

end Desk

theorem Duty.eq_of_allows_refuse {answered answered' : Bool} {q : AdapterRequest}
    (h : (Duty.turn .refuse r).allows answered q = some answered') :
    q = .send (.failure r.seq r.command "cancelled") := by
  simp only [allows] at h
  split at h
  · rename_i hq
    exact hq.1
  · cases h

/-! ### The protocol -/

/-- What a client can rely on when an adapter `a` has begun its work, `log` has happened, and the
    desk is `d`. -/
structure RequestProtocol (a : Adapter) (log : List Occurrence) (d : Desk) : Prop where
  /-- The turns of requests begin in the order in which the requests arrive; none is lost, and none
      has two turns. -/
  order : begunIn log ++ d.waiting = requestsIn log
  /-- That the client is gone is dealt with after all its requests. -/
  drained : d.closed = true → begunIn log = requestsIn log
  /-- All that is to be answered is answered once, apart from the requests that wait, and perhaps
      the last one whose turn has begun.  That one is answered when its turn is over. -/
  answers : ∃ owed, owed.length ≤ 1 ∧ owed <:+ begunIn log ∧
    (d.work = none → d.adapter.broken = false → owed = []) ∧
    (answersIn log ++ (owed ++ d.waiting).map (·.seq)).Perm (seqsIn log)
  /-- The turns of the requests that wait come to an end, whatever the host replies. -/
  terminates : Acc (fun d' d => TurnStep d d') d
  /-- When nothing is left to be done for requests, each had its turn, and all is answered once. -/
  settled : (∀ d', ¬TurnStep d d') → d.adapter.broken = false →
    begunIn log = requestsIn log ∧ (answersIn log).Perm (seqsIn log)
  /-- The adapter stops for no other reason than a request for frames that cannot be. -/
  broken : d.adapter.broken = true → ∃ r ∈ begunIn log, ∃ startFrame levels,
    r.what = .stackTrace startFrame levels ∧ (startFrame < 0 ∨ Nat.pow 2 63 ≤ startFrame + levels)
  /-- A request is answered in its turn. -/
  answered : ∀ l₁ e flag l₂, log = l₁ ++ .asked e flag :: l₂ → ∀ seq,
    AdapterRequest.answer? e.1 = some seq →
    ∃ kind r, (accountOf l₁).duty = some (.turn kind r) ∧ r.seq = seq
  /-- A request is refused when its turn begins if it was cancelled before, and only then. -/
  refused : ∀ l₁ kind r l₂, log = l₁ ++ .begun (.turn kind r) :: l₂ →
    (kind = .refuse ↔ r.seq ∈ (accountOf l₁).cancelled)
  /-- Nothing is done for a request that is refused but to answer so. -/
  refusal : ∀ l₁ e flag l₂, log = l₁ ++ .asked e flag :: l₂ → ∀ r,
    (accountOf l₁).duty = some (.turn .refuse r) →
    e.1 = .send (.failure r.seq r.command "cancelled")
  /-- The host and the session learn that the present request is cancelled if this one is, and
      nothing of other requests. -/
  told : ∀ l₁ e flag l₂, log = l₁ ++ .asked e flag :: l₂ →
    (flag = true ↔ ∃ r, (accountOf l₁).turn? = some r ∧ r.seq ∈ (accountOf l₁).cancelled) ∧
      ∀ reply, e = ⟨.session .isCancelled, reply⟩ → reply = flag
  /-- A cancellation of a request that is not at its turn makes no difference as long as that
      request does not have its turn: all could have happened without it. -/
  ignored : ∀ l₁ seq request progress reply l₂,
    log = l₁ ++ .received (.cancel seq request progress) reply :: l₂ →
    (∀ r, (accountOf l₁).turn? = some r → r.seq ≠ (accountOf l₁).target request progress) →
    (∀ r ∈ begunIn l₂, r.seq ≠ (accountOf l₁).target request progress) →
    ∃ cancelled, AgreeBut ((accountOf l₁).target request progress) d.agenda.cancelled cancelled ∧
      Run { adapter := a } (l₁ ++ l₂) (d.withCancelled cancelled)
  /-- An adapter that is played from here by a script goes on in this way, whatever arrives. -/
  played : ∀ s : ScriptedAdapter, s.desk = d → ∀ m,
    ∃ log', Run { adapter := a } (log ++ log') (s.send m).desk

section Midway

variable {a : Adapter} {l₁ l₂ : List Occurrence} {d : Desk} (ha : a.broken = false)

include ha

theorem answered_in_turn {seq : Int} (hlog : Distinct (l₁ ++ .asked e flag :: l₂))
    (hrun : Run { adapter := a } (l₁ ++ .asked e flag :: l₂) d)
    (hseq : AdapterRequest.answer? e.1 = some seq) :
    ∃ kind r, (accountOf l₁).duty = some (.turn kind r) ∧ r.seq = seq := by
  obtain ⟨d₁, d₂, owed, -, hkeeps, -, hstep, -⟩ := hrun.exists_step ha hlog
  obtain ⟨u, answered, answered', hduty, hallows⟩ := hkeeps.allows_of_asked hstep
  obtain ⟨hnone, -⟩ | ⟨r, hr, hanswer, -⟩ := Duty.answer?_of_allows hallows
  · cases hnone.symm.trans hseq
  · cases u with
    | turn kind r' =>
      cases hr
      exact ⟨kind, r, hduty, Option.some.inj (hanswer.symm.trans hseq)⟩
    | notice => cases hr

theorem refused_iff {kind : TurnKind} (hlog : Distinct (l₁ ++ .begun (.turn kind r) :: l₂))
    (hrun : Run { adapter := a } (l₁ ++ .begun (.turn kind r) :: l₂) d) :
    kind = .refuse ↔ r.seq ∈ (accountOf l₁).cancelled := by
  obtain ⟨d₁, d₂, owed, -, hkeeps, htracks, hstep, -⟩ := hrun.exists_step ha hlog
  cases hstep with
  | turn htaken hnext => exact (htracks.turn hkeeps hlog.of_append htaken hnext).2

section

variable (hlog : Distinct (l₁ ++ .asked e flag :: l₂))
  (hrun : Run { adapter := a } (l₁ ++ .asked e flag :: l₂) d)

include hlog hrun

theorem refusal_asks (hduty : (accountOf l₁).duty = some (.turn .refuse r)) :
    e.1 = .send (.failure r.seq r.command "cancelled") := by
  obtain ⟨d₁, d₂, owed, -, hkeeps, -, hstep, -⟩ := hrun.exists_step ha hlog
  obtain ⟨u, answered, answered', hu, hallows⟩ := hkeeps.allows_of_asked hstep
  cases hu.symm.trans hduty
  exact Duty.eq_of_allows_refuse hallows

theorem told_iff :
    (flag = true ↔ ∃ r, (accountOf l₁).turn? = some r ∧ r.seq ∈ (accountOf l₁).cancelled) ∧
      ∀ reply, e = ⟨.session .isCancelled, reply⟩ → reply = flag := by
  obtain ⟨d₁, d₂, owed, -, -, htracks, hstep, -⟩ := hrun.exists_step ha hlog
  obtain ⟨hflag, hreply⟩ := hstep.asked_flag
  refine ⟨?_, hreply⟩
  rw [hflag]
  exact htracks.isCancelled_iff

end

/-- Without the cancellation, all else can happen as it did. -/
theorem run_without_cancel {seq request : Int} {progress : Text} {reply : Option AdapterMessage}
    (hlog : Distinct (l₁ ++ .received (.cancel seq request progress) reply :: l₂))
    (hrun : Run { adapter := a } (l₁ ++ .received (.cancel seq request progress) reply :: l₂) d)
    (hturn : ∀ r, (accountOf l₁).turn? = some r → r.seq ≠ (accountOf l₁).target request progress)
    (hbegun : ∀ r ∈ begunIn l₂, r.seq ≠ (accountOf l₁).target request progress) :
    ∃ cancelled, AgreeBut ((accountOf l₁).target request progress) d.agenda.cancelled cancelled ∧
      Run { adapter := a } (l₁ ++ l₂) (d.withCancelled cancelled) := by
  obtain ⟨d₁, d₂, owed, hfirst, -, htracks, hstep, hrest⟩ := hrun.exists_step ha hlog
  rw [← Agenda.Tracks.target_eq htracks] at hturn hbegun ⊢
  -- The request is not the present one, so the cancellation is only remembered.
  have hother : d₁.agenda.turn.any (·.seq == d₁.agenda.target request progress) = false := by
    rw [Agenda.Tracks.turn htracks]
    cases hr : (accountOf l₁).turn? with
    | none => rfl
    | some r => simpa using hturn r hr
  obtain ⟨hagree, hback⟩ := Agenda.cancel_of_not_turn hother
  cases hstep with
  | receive =>
    obtain ⟨cancelled, hagree', hrun'⟩ := hrest.withCancelled hagree hbegun
    refine ⟨cancelled, hagree', hfirst.append ?_⟩
    -- The desk at which the cancellation did not arrive is the one from before.
    have hdesk : ({ d₁ with
        agenda := (d₁.agenda.receive (.cancel seq request progress)).1 } : Desk).withCancelled
          d₁.agenda.cancelled = d₁ :=
      congrArg (fun agenda => { d₁ with agenda }) hback
    rwa [hdesk] at hrun'

end Midway

/-! ### Two requests for the threads -/

/-- A request for the threads. -/
def threadsRequest (seq : Int) : ClientRequest := { seq, command := "threads", what := .threads }

/-- The second request is cancelled while the first is handled, and the first after it was. -/
def lateCancellations : List Occurrence :=
  [.received (.request (threadsRequest 1)) none, .taken (threadsRequest 1),
    .received (.request (threadsRequest 2)) none, .begun (.turn .handle (threadsRequest 1)),
    .received (.cancel 3 2 []) (some (.response 3 "cancel" .empty)),
    .asked ⟨.send (.response 1 "threads" .threads), ()⟩ false, .finished,
    .received (.cancel 4 1 []) (some (.response 4 "cancel" .empty)), .taken (threadsRequest 2),
    .begun (.turn .refuse (threadsRequest 2)),
    .asked ⟨.send (.failure 2 "threads" "cancelled"), ()⟩ false, .finished]

/-- A message can be sent at any time. -/
theorem Desk.Step.send {d : Desk} {m : AdapterMessage}
    {next : Unit → Dialogue adapterSignature Adapter}
    (hwork : d.work = some (.ask (.send m) next)) :
    Step d (.asked ⟨.send m, ()⟩ d.agenda.isCancelled) { d with work := some (next ()) } := by
  let host (q : AdapterRequest) (_ : Bool) (s : Unit) : Option (adapterSignature.Reply q) × Unit :=
    (some (Classical.choice (nonempty_reply q)), s)
  have hanswer : Agenda.answer host (.send m) (d.agenda, ()) = (some (), d.agenda, ()) := rfl
  exact .ask hwork hanswer

theorem Desk.Run.exists_cons {d d₁ : Desk} {o : Occurrence} {log : List Occurrence}
    (hstep : Step d o d₁) (hrest : ∃ d', Run d₁ log d') : ∃ d', Run d (o :: log) d' :=
  hrest.imp fun _ hrest => .cons hstep hrest

theorem run_lateCancellations : ∃ d, Run { adapter := {} } lateCancellations d := by
  refine Run.exists_cons (.receive rfl) ?_
  refine Run.exists_cons (.take ⟨rfl, rfl, rfl, rfl⟩ rfl) ?_
  refine Run.exists_cons (.receive rfl) ?_
  refine Run.exists_cons (.turn rfl rfl) ?_
  refine Run.exists_cons (.receive rfl) ?_
  refine Run.exists_cons (.send rfl) ?_
  refine Run.exists_cons (.finish rfl) ?_
  refine Run.exists_cons (.receive rfl) ?_
  refine Run.exists_cons (.take ⟨rfl, rfl, rfl, rfl⟩ rfl) ?_
  refine Run.exists_cons (.turn rfl rfl) ?_
  refine Run.exists_cons (.send rfl) ?_
  exact Run.exists_cons (.finish rfl) ⟨_, .nil⟩

/-! ### All that can happen -/

/-- Whatever happens, and in whatever order, the protocol is kept: provided that the messages of the
    client have different numbers, none of which is zero. -/
theorem requests_keep_protocol {a : Adapter} {log : List Occurrence} {d : Desk}
    (ha : a.broken = false) (hrun : Run { adapter := a } log d) (hlog : Distinct log) :
    RequestProtocol a log d := by
  obtain ⟨owed, hkeeps⟩ := (Keeps.initial ha).run hrun
  rw [List.nil_append] at hkeeps
  refine
    { order := hkeeps.order
      drained := fun hclosed => ?_
      answers := ⟨owed, hkeeps.owes.length_le, hkeeps.suffix, fun hwork hbroken => ?_,
        hkeeps.answers⟩
      terminates := acc_turnStep d
      settled := hkeeps.settled
      broken := fun hbroken => ?_
      answered := ?_
      refused := ?_
      refusal := ?_
      told := ?_
      ignored := ?_
      played := ?_ }
  · have horder := hkeeps.order
    rwa [(hkeeps.closed hclosed).2, List.append_nil] at horder
  · exact (hkeeps.owes.eq_of_free hwork hbroken).2
  · obtain ⟨r, hr, hbeyond⟩ := hkeeps.exists_asksBeyond hbroken
    exact ⟨r, hr, hbeyond.frames⟩
  · rintro l₁ e flag l₂ rfl seq hseq
    exact answered_in_turn ha hlog hrun hseq
  · rintro l₁ kind r l₂ rfl
    exact refused_iff ha hlog hrun
  · rintro l₁ e flag l₂ rfl r hduty
    exact refusal_asks ha hlog hrun hduty
  · rintro l₁ e flag l₂ rfl
    exact told_iff ha hlog hrun
  · rintro l₁ seq request progress reply l₂ rfl hturn hbegun
    exact run_without_cancel ha hlog hrun hturn hbegun
  · rintro s rfl m
    obtain ⟨log', hrun'⟩ := s.moves_send m
    exact ⟨log', hrun.append hrun'⟩

theorem protocol_lateCancellations : ∃ d, Run { adapter := {} } lateCancellations d ∧
    Distinct lateCancellations ∧ RequestProtocol {} lateCancellations d := by
  obtain ⟨d, hrun⟩ := run_lateCancellations
  have hdistinct : Distinct lateCancellations := ⟨by decide, by decide⟩
  exact ⟨d, hrun, hdistinct, requests_keep_protocol rfl hrun hdistinct⟩

end DatapackDebug
