import DatapackDebug.Proofs.Queries

namespace DatapackDebug

/-!
# The objectives of scores

The server is asked for the scores of one entity, objective by objective.  It reports a score with
its objective, but the session goes by the order of the reports: where nothing is reported of an
objective, those after it get the scores of others.

* `ScoreOutcome` — what comes of asking for a score;
* `AskedScore.outputs` — what is reported of several objectives;
* `Attributed` — each variable shows the score that was reported for its objective, and no other;
* `AskedScore.variablesOf_outputs` — the scores are right if nothing is missing in front of one;
* `AskedScore.variablesOf_eq_of_attributed`, `AskedScore.pairwise_of_variablesOf_outputs` — and only
  then;
* `variables_attributed_iff` — the same for the variables that a client asks for.
-/

/-! ### What is reported -/

/-- What comes of asking for a score. -/
inductive ScoreOutcome where
  | reported (holder : Text) (value : Int)
  /-- there is no score, and the server says so -/
  | failed (message : Text)
  /-- there is no score, and nothing is reported -/
  | silent
deriving DecidableEq, Repr

/-- An objective that the server is asked for, and what comes of it. -/
structure AskedScore where
  objective : Text
  outcome : ScoreOutcome
deriving DecidableEq, Repr

namespace AskedScore

/-- The line that is reported. -/
def line? (a : AskedScore) : Option Text :=
  match a.outcome with
  | .reported holder value => some (ReportedScore.text ⟨holder, value, a.objective⟩)
  | .failed message => some message
  | .silent => none

/-- The score that is reported. -/
def value? (a : AskedScore) : Option Int :=
  match a.outcome with
  | .reported _ value => some value
  | .failed _ | .silent => none

/-- A score can be read, and a message is none. -/
def Readable (a : AskedScore) : Prop :=
  match a.outcome with
  | .reported holder value => ReportedScore.Readable ⟨holder, value, a.objective⟩
  | .failed message => Report.score? message = none
  | .silent => True

/-- All that is reported, in the order of the objectives. -/
def outputs (asked : List AskedScore) : List Text := asked.filterMap line?

/-- The variable of the objective, with its own score. -/
def shown (a : AskedScore) : Variable := ⟨a.objective, a.value?⟩

end AskedScore

/-- The score in an output. -/
def scoreIn? (output : Text) : Option Int := (Report.score? output).map (·.value)

/-- An output tells a score for an objective. -/
def Reports (output : Text) (value : Int) (objective : Text) : Prop :=
  ∃ holder, Report.score? output = some ⟨holder, value, objective⟩

/-- Each variable shows the score that was reported for its objective, and no other. -/
def Attributed (vs : List Variable) (outputs : List Text) : Prop :=
  ∀ x ∈ vs, ∀ v, x.score = some v ↔ ∃ output ∈ outputs, Reports output v x.objective

namespace AskedScore

variable {a : AskedScore} {asked : List AskedScore}

/-- A line that is reported is read as the score that it tells, or as none. -/
theorem scoreIn?_line (ha : a.Readable) {output : Text} (houtput : a.line? = some output) :
    scoreIn? output = a.value? := by
  obtain ⟨objective, outcome⟩ := a
  cases outcome with
  | reported holder value =>
    cases houtput
    rw [scoreIn?, Report.score?_text ha]
    rfl
  | failed message =>
    obtain rfl := Option.some.inj houtput
    rw [scoreIn?, show Report.score? message = none from ha]
    rfl
  | silent => cases houtput

/-- An objective of which nothing is reported has no score. -/
theorem value?_of_line?_eq_none (ha : a.line? = none) : a.value? = none := by
  obtain ⟨objective, outcome⟩ := a
  cases outcome with
  | silent => rfl
  | reported | failed => cases ha

/-- What is reported of an objective is told for it. -/
theorem exists_reports_iff (hreadable : ∀ a ∈ asked, a.Readable) (v : Int) (objective : Text) :
    (∃ output ∈ outputs asked, Reports output v objective) ↔
      ∃ a ∈ asked, a.objective = objective ∧ a.value? = some v := by
  constructor
  · rintro ⟨output, houtput, holder, hscore⟩
    obtain ⟨a, ha, hline⟩ := List.mem_filterMap.mp houtput
    refine ⟨a, ha, ?_⟩
    have hread := hreadable a ha
    obtain ⟨objective', outcome⟩ := a
    cases outcome with
    | reported holder' value =>
      cases hline
      rw [Report.score?_text hread] at hscore
      obtain ⟨-, rfl, rfl⟩ := ReportedScore.mk.inj (Option.some.inj hscore)
      exact ⟨rfl, rfl⟩
    | failed message =>
      obtain rfl := Option.some.inj hline
      rw [show Report.score? message = none from hread] at hscore
      cases hscore
    | silent => cases hline
  · rintro ⟨⟨objective', outcome⟩, ha, rfl, hvalue⟩
    cases outcome with
    | reported holder value =>
      cases hvalue
      exact ⟨_, List.mem_filterMap.mpr ⟨_, ha, rfl⟩, holder, Report.score?_text (hreadable _ ha)⟩
    | failed | silent => cases hvalue

end AskedScore

/-! ### Scores by the order of reports -/

/-- The first objective gets the first score, and so on. -/
theorem variablesOf_cons (objective : Text) (objectives outputs : List Text) :
    variablesOf (objective :: objectives) outputs =
      ⟨objective, outputs.head?.bind scoreIn?⟩ :: variablesOf objectives outputs.tail := by
  simp only [variablesOf, List.mapIdx_cons]
  cases outputs with
  | nil => rfl
  | cons output outputs => cases h : Report.score? output <;> simp [scoreIn?, h]

theorem getElem?_variablesOf (objectives outputs : List Text) (i : Nat) :
    (variablesOf objectives outputs)[i]? = objectives[i]?.map fun o =>
      ⟨o, outputs[i]?.bind scoreIn?⟩ := by
  rw [variablesOf, List.getElem?_mapIdx]
  cases outputs[i]? with
  | none => rfl
  | some output => rfl

theorem map_objective_variablesOf (objectives outputs : List Text) :
    (variablesOf objectives outputs).map (·.objective) = objectives := by
  induction objectives generalizing outputs with
  | nil => rfl
  | cons objective objectives ih => rw [variablesOf_cons, List.map_cons, ih]

/-- Where no output tells a score, no variable shows one. -/
theorem variablesOf_of_forall_none (objectives : List Text) {outputs : List Text}
    (h : ∀ output ∈ outputs, scoreIn? output = none) :
    variablesOf objectives outputs = objectives.map fun o => ⟨o, none⟩ := by
  induction objectives generalizing outputs with
  | nil => rfl
  | cons objective objectives ih =>
    have hhead : outputs.head?.bind scoreIn? = none :=
      Option.bind_eq_none_iff.mpr fun output houtput => h output (List.mem_of_head? houtput)
    rw [variablesOf_cons, hhead, ih fun output houtput => h output (List.mem_of_mem_tail houtput),
      List.map_cons]

/-- No more scores are shown than are told. -/
theorem countP_variablesOf_le (objectives outputs : List Text) :
    (variablesOf objectives outputs).countP (·.score.isSome) ≤ outputs.countP fun o =>
      (scoreIn? o).isSome := by
  induction objectives generalizing outputs with
  | nil => exact Nat.zero_le _
  | cons objective objectives ih =>
    have hrest := ih outputs.tail
    rw [variablesOf_cons, List.countP_cons]
    cases outputs with
    | nil => simpa using hrest
    | cons output outputs =>
      rw [List.countP_cons]
      exact Nat.add_le_add_right hrest _

namespace AskedScore

variable {a : AskedScore} {asked : List AskedScore} {lines : List Text}

/-! ### When the scores are right -/

/-- If nothing is missing in front of a score, each objective gets its own. -/
theorem variablesOf_outputs (hreadable : ∀ a ∈ asked, a.Readable)
    (hmissing : asked.Pairwise fun a b => a.line? = none → b.value? = none) :
    variablesOf (asked.map (·.objective)) (outputs asked) = asked.map shown := by
  induction asked with
  | nil => rfl
  | cons a asked ih =>
    obtain ⟨ha, hasked⟩ := List.forall_mem_cons.mp hreadable
    obtain ⟨hafter, hmissing⟩ := List.pairwise_cons.mp hmissing
    cases hline : a.line? with
    | some output =>
      rw [outputs, List.filterMap_cons_some hline, List.map_cons, variablesOf_cons, List.map_cons]
      refine congrArg₂ List.cons ?_ (ih hasked hmissing)
      rw [List.head?_cons, Option.bind_some, scoreIn?_line ha hline]
      rfl
    | none =>
      have hnone : ∀ b ∈ a :: asked, b.value? = none :=
        List.forall_mem_cons.mpr ⟨value?_of_line?_eq_none hline, fun b hb => hafter b hb hline⟩
      have houtputs : ∀ output ∈ outputs (a :: asked), scoreIn? output = none := by
        intro output houtput
        obtain ⟨b, hb, hb'⟩ := List.mem_filterMap.mp houtput
        rw [scoreIn?_line (hreadable b hb) hb', hnone b hb]
      rw [variablesOf_of_forall_none _ houtputs, List.map_map]
      refine List.map_congr_left fun b hb => ?_
      rw [shown, hnone b hb]
      rfl

/-! ### When they are not -/

/-- Every score that is reported is shown at its place, maybe among others. -/
def Covers (asked : List AskedScore) (lines : List Text) : Prop :=
  ∀ (i : Nat) (a : AskedScore), asked[i]? = some a → ∀ v, a.value? = some v →
    lines[i]?.bind scoreIn? = some v

theorem Covers.head (h : Covers (a :: asked) lines) {v : Int} (hv : a.value? = some v) :
    lines.head?.bind scoreIn? = some v := by
  rw [List.head?_eq_getElem?]
  exact h 0 a rfl v hv

theorem Covers.tail (h : Covers (a :: asked) lines) : Covers asked lines.tail := by
  intro i b hb v hv
  rw [List.getElem?_tail]
  exact h (i + 1) b hb v hv

theorem Covers.countP_le (h : Covers asked lines) : asked.countP (·.value?.isSome) ≤
    (variablesOf (asked.map (·.objective)) lines).countP (·.score.isSome) := by
  induction asked generalizing lines with
  | nil => exact Nat.zero_le _
  | cons a asked ih =>
    have hrest := ih h.tail
    rw [List.map_cons, variablesOf_cons, List.countP_cons, List.countP_cons]
    cases hv : a.value? with
    | none => exact hrest.trans (Nat.le_add_right _ _)
    | some v =>
      rw [h.head hv]
      exact Nat.add_le_add_right hrest _

/-- If there are no others, each objective gets its own score. -/
theorem Covers.variablesOf_eq (h : Covers asked lines)
    (hcount : (variablesOf (asked.map (·.objective)) lines).countP (·.score.isSome) ≤
      asked.countP (·.value?.isSome)) :
    variablesOf (asked.map (·.objective)) lines = asked.map shown := by
  induction asked generalizing lines with
  | nil => rfl
  | cons a asked ih =>
    have hrest := h.tail.countP_le
    rw [List.map_cons, variablesOf_cons, List.countP_cons, List.countP_cons] at hcount
    rw [List.map_cons, variablesOf_cons, List.map_cons, shown]
    cases hv : a.value? with
    | some v =>
      rw [h.head hv] at hcount ⊢
      rw [hv] at hcount
      rw [ih h.tail (Nat.le_of_add_le_add_right hcount)]
    | none =>
      cases hhead : lines.head?.bind scoreIn? with
      | none =>
        rw [hv, hhead] at hcount
        rw [ih h.tail (Nat.le_of_add_le_add_right hcount)]
      | some v =>
        rw [hv, hhead] at hcount
        exact absurd hcount (Nat.not_le.mpr (Nat.lt_succ_of_le hrest))

variable (hreadable : ∀ a ∈ asked, a.Readable)

include hreadable

theorem countP_outputs :
    (outputs asked).countP (fun o => (scoreIn? o).isSome) = asked.countP (·.value?.isSome) := by
  induction asked with
  | nil => rfl
  | cons a asked ih =>
    obtain ⟨ha, hasked⟩ := List.forall_mem_cons.mp hreadable
    have hrest := ih hasked
    rw [outputs] at hrest ⊢
    cases hline : a.line? with
    | none =>
      rw [List.filterMap_cons_none hline, hrest, List.countP_cons, value?_of_line?_eq_none hline]
      rfl
    | some output =>
      rw [List.filterMap_cons_some hline, List.countP_cons, List.countP_cons, hrest,
        scoreIn?_line ha hline]

/-- If the scores are right, each objective gets its own.  No scores are left to stand for those of
    an objective that is asked for twice. -/
theorem variablesOf_eq_of_attributed
    (h : Attributed (variablesOf (asked.map (·.objective)) (outputs asked)) (outputs asked)) :
    variablesOf (asked.map (·.objective)) (outputs asked) = asked.map shown := by
  refine Covers.variablesOf_eq (fun i a ha v hv => ?_) ?_
  · have hmem : Variable.mk a.objective ((outputs asked)[i]?.bind scoreIn?) ∈
        variablesOf (asked.map (·.objective)) (outputs asked) := by
      refine List.mem_of_getElem? (i := i) ?_
      rw [getElem?_variablesOf, List.getElem?_map, ha]
      rfl
    refine (h _ hmem v).mpr ((exists_reports_iff hreadable v _).mpr ?_)
    exact ⟨a, List.mem_of_getElem? ha, rfl, hv⟩
  · rw [← countP_outputs hreadable]
    exact countP_variablesOf_le _ _

/-- A score is reported at the place of its objective, or before it. -/
theorem exists_output_of_value? {i : Nat} {v : Int} (ha : asked[i]? = some a)
    (hv : a.value? = some v) : ∃ k ≤ i, (outputs asked)[k]?.bind scoreIn? = some v := by
  obtain ⟨hlt, hget⟩ := List.getElem?_eq_some_iff.mp ha
  cases hline : a.line? with
  | none =>
    rw [value?_of_line?_eq_none hline] at hv
    cases hv
  | some output =>
    have hsplit : asked = asked.take i ++ a :: asked.drop (i + 1) := by
      rw [← hget, List.getElem_cons_drop, List.take_append_drop]
    have houtputs : outputs asked = outputs (asked.take i) ++ output ::
        outputs (asked.drop (i + 1)) := by
      conv_lhs => rw [hsplit]
      rw [outputs, List.filterMap_append, List.filterMap_cons_some hline]
      rfl
    refine ⟨(outputs (asked.take i)).length, ?_, ?_⟩
    · exact (List.length_filterMap_le _ _).trans (List.length_take_le _ _)
    · rw [houtputs, List.getElem?_append_right (Nat.le_refl _), Nat.sub_self,
        List.getElem?_cons_zero, Option.bind_some,
        scoreIn?_line (hreadable a (List.mem_of_getElem? ha)) hline, hv]

/-- If nothing is reported of the first objective, and the others get their own scores nevertheless,
    there are none. -/
theorem value?_eq_none_of_shifted (hfirst : (outputs asked).head?.bind scoreIn? = none)
    (hothers : variablesOf (asked.map (·.objective)) (outputs asked).tail = asked.map shown) :
    ∀ (i : Nat) (a : AskedScore), asked[i]? = some a → a.value? = none := by
  have hshown : ∀ (i : Nat) (a : AskedScore), asked[i]? = some a →
      (outputs asked)[i + 1]?.bind scoreIn? = a.value? := by
    intro i a ha
    have hi := congrArg (·[i]?) hothers
    simp only [getElem?_variablesOf, List.getElem?_map, ha, Option.map_some,
      List.getElem?_tail] at hi
    exact (Variable.mk.inj (Option.some.inj hi)).2
  intro i
  -- A score is reported at its own place or before it, and shown one place before: an earlier
  -- objective would have it too.
  induction i using Nat.strongRecOn with
  | ind i ih =>
    intro a ha
    cases hv : a.value? with
    | none => rfl
    | some v =>
      obtain ⟨k, hk, hread⟩ := exists_output_of_value? hreadable ha hv
      have hlt := (List.getElem?_eq_some_iff.mp ha).1
      cases k with
      | zero =>
        rw [← List.head?_eq_getElem?, hfirst] at hread
        cases hread
      | succ k =>
        have hget := List.getElem?_eq_getElem (show k < asked.length by omega)
        have hearlier := hshown k _ hget
        rw [hread, ih k hk _ hget] at hearlier
        cases hearlier

/-- If each objective gets its own score, nothing is missing in front of one. -/
theorem pairwise_of_variablesOf_outputs
    (h : variablesOf (asked.map (·.objective)) (outputs asked) = asked.map shown) :
    asked.Pairwise fun a b => a.line? = none → b.value? = none := by
  induction asked with
  | nil => exact .nil
  | cons a asked ih =>
    obtain ⟨ha, hasked⟩ := List.forall_mem_cons.mp hreadable
    rw [List.map_cons, variablesOf_cons, List.map_cons] at h
    obtain ⟨hfirst, hothers⟩ := List.cons.inj h
    cases hline : a.line? with
    | some output =>
      rw [outputs, List.filterMap_cons_some hline, List.tail_cons] at hothers
      refine List.pairwise_cons.mpr ⟨fun b _ hnone => ?_, ih hasked hothers⟩
      rw [hline] at hnone
      cases hnone
    | none =>
      rw [outputs, List.filterMap_cons_none hline] at hothers hfirst
      have hnone : ∀ b ∈ asked, b.value? = none := by
        intro b hb
        obtain ⟨i, hi⟩ := List.mem_iff_getElem?.mp hb
        refine value?_eq_none_of_shifted hasked ?_ hothers i b hi
        exact (Variable.mk.inj hfirst).2.trans (value?_of_line?_eq_none hline)
      refine List.pairwise_cons.mpr ⟨fun b hb _ => hnone b hb, ?_⟩
      refine List.pairwise_of_forall_sublist fun {b c} hbc _ => hnone c (hbc.subset ?_)
      exact List.mem_cons_of_mem _ (List.mem_singleton_self c)

/-- The scores are right exactly if nothing is missing in front of one, and an objective that is
    asked for twice has the same score twice. -/
theorem attributed_outputs_iff :
    Attributed (variablesOf (asked.map (·.objective)) (outputs asked)) (outputs asked) ↔
      (asked.Pairwise fun a b => a.line? = none → b.value? = none) ∧
        ∀ a ∈ asked, ∀ b ∈ asked, a.objective = b.objective → a.value? = b.value? := by
  constructor
  · intro h
    have heq := variablesOf_eq_of_attributed hreadable h
    refine ⟨pairwise_of_variablesOf_outputs hreadable heq, fun a ha b hb hobjective => ?_⟩
    rw [heq] at h
    apply Option.ext
    intro v
    rw [show a.value? = a.shown.score from rfl, show b.value? = b.shown.score from rfl,
      h _ (List.mem_map_of_mem ha) v, h _ (List.mem_map_of_mem hb) v, shown, shown, hobjective]
  · rintro ⟨hmissing, hsame⟩
    rw [variablesOf_outputs hreadable hmissing]
    intro x hx v
    obtain ⟨a, ha, rfl⟩ := List.mem_map.mp hx
    rw [exists_reports_iff hreadable]
    constructor
    · exact fun hv => ⟨a, ha, rfl, hv⟩
    · rintro ⟨b, hb, hobjective, hv⟩
      exact (hsame a ha b hb hobjective.symm).trans hv

end AskedScore

/-! ### The variables of a stop -/

open SessionM in
/-- The client gets a variable for each objective, in order.  They show the scores that were
    reported for their objectives, and no others, exactly if nothing is missing in front of a score,
    and an objective that is asked for twice has the same score twice. -/
theorem variables_attributed_iff {host : (q : SessionRequest) → sessionSignature.Reply q}
    {s : Session} {stop : Stop} {f : Frame} {outer : List Frame} {reference : Int}
    {asked : List AskedScore} {events : List LogEvent} {ending : QueryEnd}
    (hstatus : s.status = .stopped) (hstop : s.stop = some stop)
    (hframes : stop.frames = some (f :: outer)) (hreference : scopeBase ≤ reference)
    (hdepth : f.depth = reference - scopeBase) (hscores : stop.scores = none)
    (hobjectives : s.objectives = asked.map (·.objective)) (hreadable : ∀ a ∈ asked, a.Readable)
    (hevents : Answers (s.ns ++ "_score") (s.ns ++ "_scores_end") (AskedScore.outputs asked) events)
    (hreply : host (.query [⟨s.ns, "function " ++ s.ns ++ ":log_scores"⟩] (s.ns ++ "_scores_end")) =
      .ok (events, ending)) :
    ∃ vs, ((variablesAt reference).talk host s).1 =
        (.ok vs, { s with stop := some { stop with scores := some vs } }) ∧
      vs.map (·.objective) = s.objectives ∧
      (Attributed vs (AskedScore.outputs asked) ↔
        (asked.Pairwise fun a b => a.line? = none → b.value? = none) ∧
          ∀ a ∈ asked, ∀ b ∈ asked, a.objective = b.objective → a.value? = b.value?) := by
  have hne : s.ns ++ Text.ofString "_score" ≠ s.ns ++ Text.ofString "_scores_end" := by
    rw [ne_eq, List.append_cancel_left_eq]
    decide
  refine ⟨variablesOf s.objectives (AskedScore.outputs asked), ?_, map_objective_variablesOf .., ?_⟩
  · refine (talk_require_bind (by rw [hstatus]; rfl)).trans ?_
    rw [if_pos hreference]
    have hknown : (frames.talk host s).1 = (.ok (f :: outer), s) := by
      rw [talk, run_frames_of_known hstop hframes]
      rfl
    refine (talk_bind hknown).trans ?_
    dsimp only
    rw [if_pos (beq_iff_eq.mpr hdepth)]
    exact talk_scores hstop hscores hreply (collect_of_answers hne hevents)
  · rw [hobjectives]
    exact AskedScore.attributed_outputs_iff hreadable

/-- Two objectives, of the first of which nothing is reported. -/
def skippedScores : List AskedScore := [⟨"counter", .silent⟩, ⟨"other", .reported "Steve" 3⟩]

/-- A program that has stopped, with these objectives. -/
def skippedSession : Session where
  grammar := ⟨#[]⟩
  status := .stopped
  launch := some ⟨"p", ⟨"t", "f"⟩, "o", {}⟩
  objectives := ["counter", "other"]
  stop := some
    { function := ⟨"t", "f"⟩, position := ⟨3, .breakpoint⟩, reason := .step
      frames := some [⟨1, ⟨"t", "f"⟩, [], 3, 1⟩] }

/-- The host to whom the score of the second objective is reported. -/
def skippedHost : (q : SessionRequest) → sessionSignature.Reply q :=
  SessionM.SteadyHost.answering ⟨SessionM.sampleTree [], false, none⟩
    [⟨"mcfd_scores_start", "stopped has 1 [mcfd_global]"⟩, ⟨"mcfd_score", "Steve has 3 [other]"⟩,
      ⟨"mcfd_scores_end", "stopped has 1 [mcfd_global]"⟩]

open SessionM in
/-- The first objective shows the score of the second. -/
theorem not_attributed_skippedScores :
    ∃ vs, ((variablesAt 1003).talk skippedHost skippedSession).1.1 = .ok vs ∧
      vs = [⟨"counter", some 3⟩, ⟨"other", none⟩] ∧ ¬ Attributed vs ["Steve has 3 [other]"] := by
  have hreadable : ∀ a ∈ skippedScores, a.Readable := by
    refine List.forall_mem_cons.mpr ⟨trivial, List.forall_mem_singleton.mpr ?_⟩
    exact ⟨by decide +kernel, by decide +kernel, by decide +kernel, by decide +kernel⟩
  have hevents : Answers "mcfd_score" "mcfd_scores_end" (AskedScore.outputs skippedScores)
      [⟨"mcfd_scores_start", "stopped has 1 [mcfd_global]"⟩, ⟨"mcfd_score", "Steve has 3 [other]"⟩,
        ⟨"mcfd_scores_end", "stopped has 1 [mcfd_global]"⟩] :=
    .other (by decide) (by decide) (.report .last)
  have hreply : skippedHost
      (.query [⟨skippedSession.ns, "function " ++ skippedSession.ns ++ ":log_scores"⟩]
        (skippedSession.ns ++ "_scores_end")) = .ok (_, .deadline) := rfl
  have hreference : scopeBase ≤ 1003 := by decide
  obtain ⟨vs, htalk, -, hiff⟩ :=
    variables_attributed_iff (s := skippedSession) rfl rfl rfl hreference
      (by decide) rfl rfl hreadable hevents hreply
  have hvs : ((variablesAt 1003).talk skippedHost skippedSession).1.1.toOption =
      some [⟨"counter", some 3⟩, ⟨"other", none⟩] := by decide +kernel
  rw [htalk] at hvs
  refine ⟨vs, congrArg Prod.fst htalk, Option.some.inj hvs, fun h => ?_⟩
  have hmissing := (List.pairwise_cons.mp (hiff.mp h).1).1 _ (List.mem_singleton_self _) rfl
  cases hmissing

end DatapackDebug
