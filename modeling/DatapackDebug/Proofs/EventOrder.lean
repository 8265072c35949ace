import DatapackDebug.Proofs.Milestones

namespace DatapackDebug

/-!
# The order of events

A session reports to its client where the program has stopped, that the debugged function has ended,
and that the session has ended.  The end of the session is reported once and no stop is reported
after it. The end of the function is reported whenever the server tells of it, even if the session
has ended.

* `EventsInOrder` — each of the two ends at most once, and nothing after the end of the session;
* `Phase.Leads.reporting`, `Phase.Leads.after_end` — what is reported before and after the end of
  the session;
* `events_inOrder_iff` — the events are in order exactly if no report of the server that the
  function has ended is handled after the end of the session.
-/

open SessionM Session

/-! ### Events -/

/-- Does the event tell of a stop? -/
@[simp] def SessionEvent.isStop : SessionEvent → Bool
  | .stopped _ _ _ => true
  | _ => false

/-- Does the event tell that the debugged function has ended? -/
@[simp] def SessionEvent.isExit : SessionEvent → Bool
  | .exited _ _ => true
  | _ => false

/-- The event that was reported. -/
@[simp] def Milestone.event? : Milestone → Option SessionEvent
  | .reported e => some e
  | _ => none

/-- What was reported to the client. -/
def reportedEvents (ms : List Milestone) : List SessionEvent := ms.filterMap Milestone.event?

/-- Each end is reported at most once, and after the end of the session there are no stops and no
    end of the debugged function. -/
structure EventsInOrder (events : List SessionEvent) : Prop where
  endOnce : events.count .terminated ≤ 1
  exitOnce : events.countP SessionEvent.isExit ≤ 1
  afterEnd : ∀ before after, events = before ++ .terminated :: after →
    ∀ e ∈ after, e.isStop = false ∧ e.isExit = false

theorem reportedEvents_cons (m : Milestone) (ms : List Milestone) :
    reportedEvents (m :: ms) = m.event?.toList ++ reportedEvents ms := by
  rw [reportedEvents, List.filterMap_cons]
  cases m.event? <;> rfl

theorem reportedEvents_append (ms ms' : List Milestone) :
    reportedEvents (ms ++ ms') = reportedEvents ms ++ reportedEvents ms' := List.filterMap_append

/-! ### Before and after the end of a session -/

namespace Phase.Leads

variable {p q : Phase} {ms : List Milestone}

/-- After the end of the session was reported, nothing is reported but the end of the debugged
    function, as often as the server tells of it. -/
theorem after_end (h : p.Leads ms q) (hstatus : p.status = .terminated)
    (hreported : p.endReported = true) :
    (∀ e ∈ reportedEvents ms, e.isExit = true) ∧ (.exit ∈ ms ↔ reportedEvents ms ≠ []) := by
  induction h with
  | refl => simp [reportedEvents]
  | ended _ ih => exact ih rfl hreported
  | configured _ ih | uninstalled _ _ ih =>
    simpa [reportedEvents_cons] using ih hstatus hreported
  | installed hother | started hother | stopped hother | resumed hother | reportedStop hother =>
    simp [hstatus] at hother
  | reportedEnd _ hunreported | exit hunreported => simp [hreported] at hunreported
  | exitAgain _ _ ih =>
    have hevents := (ih rfl hreported).1
    exact ⟨List.forall_mem_cons.mpr ⟨rfl, hevents⟩, by simp [reportedEvents_cons]⟩

end Phase.Leads

/-- What was reported: only stops so far, or the end of the session, with the end of the debugged
    function at most once before it. -/
inductive Reporting : List Milestone → Phase → Prop where
  | unended {ms q} : .exit ∉ ms → (∀ e ∈ reportedEvents ms, e.isStop = true) → Reporting ms q
  | ended {after q} (before : List Milestone) (p : Phase) : .terminated ∉ reportedEvents before →
      (reportedEvents before).countP SessionEvent.isExit ≤ 1 → p.status = .terminated →
      p.endReported = true → p.Leads after q →
      Reporting (before ++ .reported .terminated :: after) q

/-- Another milestone before, which is no end. -/
theorem Reporting.cons {m : Milestone} {ms : List Milestone} {q : Phase} (h : Reporting ms q)
    (hm : m ≠ .exit) (hstop : ∀ e ∈ m.event?.toList, e.isStop = true) : Reporting (m :: ms) q := by
  cases h with
  | unended hexit hevents =>
    refine .unended (by simpa using ⟨hm.symm, hexit⟩) ?_
    rw [reportedEvents_cons]
    exact List.forall_mem_append.mpr ⟨hstop, hevents⟩
  | ended before p hfirst honce hstatus hreported hrest =>
    refine .ended (m :: before) p ?_ ?_ hstatus hreported hrest
    · rw [reportedEvents_cons, List.mem_append, not_or]
      exact ⟨fun hmem => absurd (hstop _ hmem) (by simp), hfirst⟩
    · have hnone : m.event?.toList.countP SessionEvent.isExit = 0 := by
        refine List.countP_eq_zero.mpr fun e he => ?_
        have hisStop := hstop e he
        cases e with
        | stopped reason path line => simp
        | exited | terminated => simp at hisStop
      rwa [reportedEvents_cons, List.countP_append, hnone, Nat.zero_add]

/-- The end of the session is reported once. -/
theorem Phase.Leads.reporting {p q : Phase} {ms : List Milestone} (h : p.Leads ms q)
    (hunreported : p.endReported = false) : Reporting ms q := by
  induction h with
  | refl => exact .unended (by simp) (by simp [reportedEvents])
  | ended _ ih => exact ih hunreported
  | installed _ _ ih | configured _ ih | started _ _ _ ih | stopped _ _ ih | resumed _ _ ih
  | uninstalled _ _ ih => exact (ih hunreported).cons (by simp) (by simp)
  | reportedStop _ _ ih =>
    exact (ih hunreported).cons (by simp) (by simp)
  | @reportedEnd p _ _ hstatus _ hrest =>
    exact .ended [] { p with endReported := true } (by simp [reportedEvents])
      (by simp [reportedEvents]) hstatus rfl hrest
  | exit _ hrest =>
    exact .ended [.exit, .reported (.exited 0 [])] _ (by simp [reportedEvents])
      (by decide) rfl rfl hrest
  | exitAgain hreported => simp [hunreported] at hreported

/-! ### The order of events -/

section

variable {before late : List SessionEvent}

theorem terminated_not_mem_of_isExit (hlate : ∀ e ∈ late, e.isExit = true) : .terminated ∉ late :=
  fun hmem => absurd (hlate _ hmem) (by simp)

/-- Where the end of the session is reported once, there is one way to part the events at it. -/
theorem eq_of_split_at_end (hfirst : .terminated ∉ before) (hlate : ∀ e ∈ late, e.isExit = true)
    {before' late' : List SessionEvent}
    (heq : before ++ .terminated :: late = before' ++ .terminated :: late') : late = late' :=
  ((List.append_cons_inj_of_notMem hfirst (terminated_not_mem_of_isExit hlate)).mp heq).2.2

/-- If only ends of the debugged function follow the end of the session, the events are in order
    exactly if there is none. -/
theorem eventsInOrder_append_iff (hfirst : .terminated ∉ before)
    (honce : before.countP SessionEvent.isExit ≤ 1) (hlate : ∀ e ∈ late, e.isExit = true) :
    EventsInOrder (before ++ .terminated :: late) ↔ late = [] := by
  constructor
  · intro horder
    refine List.eq_nil_iff_forall_not_mem.mpr fun e he => ?_
    have hnot := (horder.afterEnd _ _ rfl e he).2
    cases (hlate e he).symm.trans hnot
  · rintro rfl
    refine ⟨?_, ?_, ?_⟩
    · simp [List.count_eq_zero_of_not_mem hfirst]
    · simpa using honce
    · intro before' late' heq
      rw [← eq_of_split_at_end hfirst hlate heq]
      simp

end

/-- The reports that the debugged function has ended which are handled after the end of the session
    was reported. -/
theorem exit_late_iff {before after : List Milestone}
    (hfirst : .terminated ∉ reportedEvents before) :
    (∀ before' after', before ++ .reported .terminated :: after = before' ++ .exit :: after' →
      .reported .terminated ∉ before') ↔ .exit ∉ after := by
  have hbefore : .reported .terminated ∉ before := fun hmem =>
    hfirst (List.mem_filterMap.mpr ⟨_, hmem, rfl⟩)
  constructor
  · intro hnever hexit
    obtain ⟨as, bs, rfl⟩ := List.append_of_mem hexit
    exact hnever (before ++ .reported .terminated :: as) bs (by simp) (by simp)
  · intro hexit before' after' heq hmem
    rcases List.append_eq_append_iff.mp heq with ⟨as, rfl, has⟩ | ⟨bs, rfl, hbs⟩
    · cases as with
      | nil => simp at has
      | cons a as =>
        cases has
        simp at hexit
    · exact hbefore (List.mem_append_left _ hmem)

/-- The events of a run are in order exactly if no report that the debugged function has ended is
    handled after the end of the session was reported.  In any case the end of the session is
    reported at most once, and no stop is reported after it. -/
theorem events_inOrder_iff {g : Grammar} {ms : List Milestone} {s : Session}
    (hcourse : Course { grammar := g } ms s) :
    (EventsInOrder (reportedEvents ms) ↔
      ∀ before after, ms = before ++ .exit :: after → .reported .terminated ∉ before) ∧
    (reportedEvents ms).count .terminated ≤ 1 ∧
    (∀ before after, reportedEvents ms = before ++ .terminated :: after →
      ∀ e ∈ after, e.isStop = false) := by
  cases hcourse.passes.leads.reporting rfl with
  | unended hexit hevents =>
    -- nothing but stops was reported
    have hnot : .terminated ∉ reportedEvents ms := fun hmem =>
      absurd (hevents _ hmem) (by simp [SessionEvent.isStop])
    have hnever : ∀ before after, reportedEvents ms ≠ before ++ .terminated :: after :=
      fun before after heq => hnot (heq ▸ by simp)
    refine ⟨iff_of_true ⟨?_, ?_, ?_⟩ ?_, ?_, ?_⟩
    · simp [List.count_eq_zero_of_not_mem hnot]
    · rw [List.countP_eq_zero.mpr]
      · exact Nat.zero_le 1
      · intro e he
        have := hevents e he
        cases e <;> simp_all [SessionEvent.isStop, SessionEvent.isExit]
    · exact fun before after heq => absurd heq (hnever before after)
    · rintro before after rfl
      simp at hexit
    · simp [List.count_eq_zero_of_not_mem hnot]
    · exact fun before after heq => absurd heq (hnever before after)
  | @ended after _ before p hfirst honce hstatus hreported hrest =>
    obtain ⟨hlate, hexit⟩ := hrest.after_end hstatus hreported
    have hsplit : reportedEvents (before ++ .reported .terminated :: after) =
        reportedEvents before ++ .terminated :: reportedEvents after := reportedEvents_append _ _
    rw [hsplit, exit_late_iff hfirst, hexit, not_not]
    refine ⟨eventsInOrder_append_iff hfirst honce hlate, ?_, ?_⟩
    · simp [List.count_append, List.count_eq_zero_of_not_mem hfirst,
        List.count_eq_zero_of_not_mem (terminated_not_mem_of_isExit hlate)]
    · intro before' late heq e he
      have hisExit := hlate e (eq_of_split_at_end hfirst hlate heq ▸ he)
      cases e with
      | exited code path => rfl
      | stopped | terminated => simp [SessionEvent.isExit] at hisExit

/-- A session that loses the server, and then is told that the debugged function has ended. -/
def lateExitScript : List (Operation × SteadyHost) :=
  let host : SteadyHost := { tree := sampleTree "say a" }
  [(sampleLaunch, host), (.configurationDone, host),
    (sampleBreakpoints [1], { host with failure := some (.failed "connection reset") }),
    (.event ⟨"mcfd", "Added tag 'mcfd_exit' to Marker"⟩, host)]

/-- The end of the debugged function is reported after the end of the session. -/
theorem lateExitScript_not_inOrder :
    let ms := Session.playMilestones { grammar := ⟨#[]⟩ } lateExitScript
    reportedEvents ms = [.terminated, .exited 0 []] ∧ ¬ EventsInOrder (reportedEvents ms) := by
  intro ms
  have hms : ms = [.installed, .configured, .started, .reported .terminated, .exit,
    .reported (.exited 0 [])] := by decide +kernel
  obtain ⟨horder, -, -⟩ := events_inOrder_iff
    (Session.course_play { grammar := ⟨#[]⟩ } lateExitScript)
  refine ⟨by rw [hms]; decide, fun h => ?_⟩
  exact horder.mp h [.installed, .configured, .started, .reported .terminated]
    [.reported (.exited 0 [])] hms (by simp)

end DatapackDebug
