import DatapackDebug.Proofs.CallSteps
import DatapackDebug.Proofs.SourceRun

namespace DatapackDebug

/-!
# Calls and returns do what the source does

The frames of a running datapack stand for the calls of the source that have not returned.

* `Waiting`, `Executing` — the frames of a world stand for a stack of calls of the source;
* `Outcome` — a piece stops, returns to a caller that is being executed, or ends the program;
* `Running.returnCases_fire`, `Running.returnSelf_fire` — a return to a caller that was there at a
  stop goes on in the caller, after its call;
* `simulates` — what is left of a function leads to an outcome with the events of the source.
-/

open Generate

variable {q : Position} {terminator : Terminator} {ns : Text} {line : Nat} {call : FunctionCall}

/-! ### Frames and the stack of the source -/

/-- Every call of a function of the datapack is a command of its own. -/
def Pack.PlainCalls (p : Pack) : Prop :=
  ∀ e ∈ p.functions, ∀ site ∈ e.2.calls, p.contains site.call.name = true → site.call.column = 0

/-- The conditions of steps are those of a session. -/
def BreakpointMap.StepsByDepth (bs : BreakpointMap) : Prop :=
  ∀ f q b, (bs.of f).at? q = some b → b.type = .step →
    ∃ n : Int, b.condition = Session.stepCondition n

/-- It is enough to look at the breakpoints that are listed. -/
theorem BreakpointMap.stepsByDepth_of_forall_mem {bs : BreakpointMap}
    (h : ∀ e ∈ bs, ∀ b ∈ e.2, b.2.type = .step →
      ∃ n : Int, b.2.condition = Session.stepCondition n) :
    bs.StepsByDepth := by
  intro f q b hb htype
  have hmem : (q, b) ∈ bs.of f := SortedAssoc.mem_of_find? hb
  unfold BreakpointMap.of at hmem
  cases hfind : SortedAssoc.find? ResourceName.compare f bs with
  | none => simp [hfind] at hmem
  | some bs' =>
    rw [hfind] at hmem
    exact h _ (SortedAssoc.mem_of_find? hfind) _ hmem htype

/-- The frames of functions that wait for the return of `callee`.  If the frame of a function was
    there at a stop, so were those of the functions that wait for it. -/
inductive Waiting (p : Pack) (bs : BreakpointMap) :
    ResourceName → Bool → Stack → List CallFrame → Prop where
  | nil {callee suspended} : Waiting p bs callee suspended [] []
  | cons {callee suspended f ss stack fr frs site} : p.function? f.name = some f → site ∈ f.calls →
      site.call.name = callee → f.Rest (bs.of f.name) (callSite site.line) ss →
      fr.function = f.name → fr.site = some site.line → fr.target = false →
      (suspended = true → fr.suspended = true) → Waiting p bs f.name fr.suspended stack frs →
      Waiting p bs callee suspended ((f, ss) :: stack) (fr :: frs)

/-- The frame of a function that is being executed, and those of the functions that wait for it. -/
structure Executing (p : Pack) (bs : BreakpointMap) (f : Function) (ss : List Segment)
    (stack : Stack) (fr : CallFrame) (frs : List CallFrame) : Prop where
  function : p.function? f.name = some f
  within : ∃ before, f.segments (bs.of f.name) = before ++ ss
  named : fr.function = f.name
  site : fr.site = none
  target : fr.target = false
  waiting : Waiting p bs f.name fr.suspended stack frs

section

variable {p : Pack} {bs : BreakpointMap} {f : Function} {ss : List Segment} {stack : Stack}
  {fr : CallFrame} {frs : List CallFrame} {callee : ResourceName} {suspended : Bool}

namespace Waiting

variable (h : Waiting p bs callee suspended stack frs)

include h

/-- There is a frame for each function. -/
theorem length_eq : frs.length = stack.length := by
  induction h with
  | nil => rfl
  | cons _ _ _ _ _ _ _ _ _ ih => simp [ih]

/-- No frame is one that a call is returning to. -/
theorem target_eq_false : ∀ fr ∈ frs, fr.target = false := by
  induction h with
  | nil => simp
  | cons _ _ _ _ _ _ htarget _ _ ih => simpa [htarget] using ih

/-- At a stop all frames are suspended. -/
theorem suspend :
    Waiting p bs callee true stack (frs.map fun fr => { fr with suspended := true }) := by
  induction h with
  | nil => exact .nil
  | cons hf hsite hcallee hrest hname hline htarget _ _ ih =>
    exact .cons hf hsite hcallee hrest hname hline htarget (fun _ => rfl) ih

end Waiting

namespace Executing

/-- The function goes on after a segment. -/
theorem tail {s : Segment} (h : Executing p bs f (s :: ss) stack fr frs) :
    Executing p bs f ss stack fr frs := by
  obtain ⟨before, hbefore⟩ := h.within
  exact { h with within := ⟨before ++ [s], by simp [hbefore]⟩ }

/-- After a cut the function goes on with what follows it. -/
theorem rest_cut (h : Executing p bs f (.cut q terminator :: ss) stack fr frs) :
    f.Rest (bs.of f.name) q ss := by
  obtain ⟨before, hbefore⟩ := h.within
  exact .inr ⟨before, terminator, hbefore⟩

variable (h : Executing p bs f ss stack fr frs)

include h

/-- What is left of the function are segments of it. -/
theorem mem_segments {s : Segment} (hs : s ∈ ss) : s ∈ f.segments (bs.of f.name) := by
  obtain ⟨before, hbefore⟩ := h.within
  exact hbefore ▸ List.mem_append_right _ hs

/-- At a stop all frames are suspended. -/
theorem suspend :
    Executing p bs f ss stack { fr with suspended := true }
      (frs.map fun fr => { fr with suspended := true }) :=
  { h with waiting := h.waiting.suspend }

/-- No frame is one that a call is returning to. -/
theorem target_eq_false : ∀ fr' ∈ fr :: frs, fr'.target = false := by
  simpa [h.target] using h.waiting.target_eq_false

end Executing

/-! ### Outcomes -/

variable {others : List Entity} {x : Executor} {n n' : Nat} {t t' : List Event} {w w₁ w' : World}

/-- The program has stopped at a cut of a function, and fewer than `n` steps are left of it. -/
inductive Paused (p : Pack) (bs : BreakpointMap) (others : List Entity) (x : Executor) (n : Nat)
    (w w' : World) : List Event → Prop where
  | intro {f ss stack fr frs q terminator before t₁ t₂ n'} : n' < n →
      f.segments (bs.of f.name) = before ++ .cut q terminator :: ss →
      terminator.isResumable = true → Executing p bs f ss stack fr frs → fr.suspended = true →
      Stopped p others x f.name q (fr :: frs) w' → Remaining p bs x n' ((f, ss) :: stack) t₂ →
      Follows w w' t₁ → Paused p bs others x n w w' (t₁ ++ stopEvent p.ns f.name q :: t₂)

/-- What comes of executing the rest of a function with frame `fr`: the program stops; or it ends,
    if there is no caller or the caller is not being executed; or else the caller can go on. -/
def Outcome (p : Pack) (bs : BreakpointMap) (others : List Entity) (x : Executor) (fr : CallFrame)
    (stack : Stack) (frs : List CallFrame) (n : Nat) (t : List Event) (w w' : World) : Prop :=
  Paused p bs others x n w w' t ∨
    if fr.suspended ∨ stack = [] then Ended p others w' ∧ Follows w w' t
    else ∃ t₁ t₂, ∃ n' < n, Running p others frs w' ∧ Remaining p bs x n' stack t₂ ∧
      t = t₁ ++ t₂ ∧ Follows w w' t₁

/-- A stop after some events that were recorded before. -/
theorem Paused.after (h : Paused p bs others x n' w₁ w' t') (hn : n' ≤ n)
    (hfollows : Follows w w₁ t) : Paused p bs others x n w w' (t ++ t') := by
  cases h with
  | intro hlt hcut hresumable hexecuting hsuspended hstopped hremaining hfollows' =>
    rw [← List.append_assoc]
    exact .intro (by omega) hcut hresumable hexecuting hsuspended hstopped hremaining
      (hfollows.trans hfollows')

/-- An outcome after some events that were recorded before. -/
theorem Outcome.after (h : Outcome p bs others x fr stack frs n' t' w₁ w') (hn : n' ≤ n)
    (hfollows : Follows w w₁ t) : Outcome p bs others x fr stack frs n (t ++ t') w w' := by
  refine h.imp (fun h => h.after hn hfollows) fun h => ?_
  split at h
  · rw [if_pos ‹_›]
    exact ⟨h.1, hfollows.trans h.2⟩
  · rw [if_neg ‹_›]
    obtain ⟨t₁, t₂, m, hm, hrunning, hremaining, rfl, hfollows'⟩ := h
    exact ⟨t ++ t₁, t₂, m, by omega, hrunning, hremaining, by simp, hfollows.trans hfollows'⟩

/-- Where the innermost frame was there at a stop, it does not matter who waits for it. -/
theorem Outcome.of_suspended (h : Outcome p bs others x fr stack frs n t w w')
    (hfr : fr.suspended = true) {fr' : CallFrame} (hfr' : fr'.suspended = true) {stack' : Stack}
    {frs' : List CallFrame} : Outcome p bs others x fr' stack' frs' n t w w' := by
  simpa [Outcome, hfr, hfr'] using h

/-! ### Going on in a caller -/

/-- The program goes on where it is not stopped. -/
theorem Running.executorsOf_unlessStopped (hw : Running p others frs w) {ms : List Modifier} :
    Modifier.executorsOf p.ns w x (unlessStopped :: ms) = Modifier.executorsOf p.ns w x ms := by
  simp [unlessStopped, Score.stopped, hw.going]

/-- Nobody goes on where the program is stopped. -/
theorem Stopped.executorsOf_unlessStopped {f : ResourceName} (hw : Stopped p others x f q frs w)
    {y : Executor} {ms : List Modifier} :
    Modifier.executorsOf p.ns w y (unlessStopped :: ms) = [] := by
  simp [unlessStopped, Score.stopped, hw.stopped]

/-- No entity is one that a call is returning to. -/
def NoTarget (ns : Text) (w : World) : Prop := ∀ e ∈ w.entities, Tag.returnTarget.text ns ∉ e.tags

theorem NoTarget.picks (h : NoTarget ns w) (tags : List Tag) :
    ∀ e ∈ w.entities, (clouds (.returnTarget :: tags)).picks ns x e = false :=
  fun e he => Bool.eq_false_iff.mpr fun hpicks =>
    h e he ((Target.picks_clouds.mp hpicks).2 _ List.mem_cons_self)

theorem Running.noTarget (hw : Running p others frs w) (hfrs : ∀ fr ∈ frs, fr.target = false) :
    NoTarget p.ns w :=
  hw.layout.not_mem_tags (by decide) fun fr hfr => by simp [hfrs fr hfr]

theorem Ended.noTarget (hw : Ended p others w) : NoTarget p.ns w := by
  obtain ⟨m, -, hrunning⟩ := hw.running
  exact hrunning.noTarget (by simp)

theorem Stopped.noTarget {f : ResourceName} (hw : Stopped p others x f q frs w)
    (hfrs : ∀ fr ∈ frs, fr.target = false) : NoTarget p.ns w := by
  obtain ⟨m, es, hentities, -, htags, -, hlayout⟩ := hw.layout
  intro e he
  rcases List.mem_cons.mp (hentities ▸ he) with rfl | he
  · rw [htags]
    rintro ⟨tag, hmem, htext⟩
    have := Tag.text_fixed_inj (by decide) htext
    simp [this] at hmem
  · exact hlayout.not_mem_tags (by decide) (fun fr hfr => by simp [hfrs fr hfr]) e he

theorem Outcome.noTarget (h : Outcome p bs others x fr stack frs n t w w')
    (hfr : fr.suspended = true) : NoTarget p.ns w' := by
  rcases h with h | h
  · cases h with
    | intro _ _ _ hexecuting _ hstopped _ _ => exact hstopped.noTarget hexecuting.target_eq_false
  · rw [if_pos (.inl hfr)] at h
    exact h.1.noTarget

variable {us : Units} {Q : World → Prop}

/-- The commands that go on in the callers of a function. -/
def returnCases (callers : List ResourceName) : List Instruction :=
  callers.flatMap fun caller =>
    [returnCase caller .eyes (.exactly 1), returnCase caller .feet (.atMost 0)]

/-- Nothing is done for a caller that no call is returning to. -/
theorem effect_returnCase_skip {caller : ResourceName}
    (h : ∀ e ∈ w.entities, (clouds [.returnTarget, .function caller]).picks p.ns x e = false)
    (a : Argument.Anchor) (r : ScoreRange) (call : UnitName → Executor → World → Option World) :
    (returnCase caller a r).effect p.config call x w = some w := by
  have hnone : ∀ e ∈ w.entities, Target.picks p.ns x
      (.select { tags := [.returnTarget, .function caller], anchor := some r }) e = false :=
        fun e he => by
    simp [Target.picks_anchored, h e he]
  simp [returnCase, World.executorsOf_ifEntity_neg rfl hnone]

/-- Nothing is done if no call is returning to a frame that was there at a stop. -/
theorem Completes.returnCases_skip (h : NoTarget p.ns w) (hQ : Q w) (callers : List ResourceName) :
    Completes p.config us (returnCases callers) x w Q := by
  refine .skip_all (fun i hi call => ?_) hQ
  obtain ⟨caller, -, hi⟩ := List.mem_flatMap.mp hi
  simp only [List.mem_cons, List.not_mem_nil, or_false] at hi
  rcases hi with rfl | rfl <;> exact effect_returnCase_skip (h.picks _) _ _ call

/-- One executes where the only entity with a tag is. -/
theorem executorsOf_here {tag : Tag} {e : Entity} (h : w.select ns x (oneCloud tag) = [e])
    (a : Argument.Anchor) :
    Modifier.executorsOf ns w x [.at (oneCloud tag), .rotatedAs (oneCloud tag), .anchored a] =
      [x] := by
  simp [Modifier.executorsOf_cons, Modifier.executors, h]

/-- The frame that a call is returning to, among the entities. -/
theorem Running.target (hw : Running p others (fr :: frs) w) (hfr : fr.target = true)
    (hfrs : ∀ fr ∈ frs, fr.target = false) :
    ∃ e, w.select p.ns x (oneCloud .returnTarget) = [e] ∧ e ∈ w.entities ∧
      (∃ a : Int, e.anchor = some a ∧ a ≤ 1) ∧
      ∀ tag : Tag, ∀ e' ∈ w.entities, (clouds [.returnTarget, tag]).picks p.ns x e' = true ↔
        e' = e ∧ ∃ tag' ∈ fr.tags, tag'.text p.ns = tag.text p.ns := by
  obtain ⟨e, rest, he, hshown, hne, hrest⟩ := hw.layout.top
  have hpicks : (clouds [.returnTarget]).picks p.ns x e = true :=
    (hshown.picks_clouds (by decide)).mpr (by simp [hfr])
  refine ⟨e, ?_, he ▸ List.mem_cons_self, hshown.anchor, fun tag e' he' => ?_⟩
  · rw [World.select_oneCloud, he, List.filter_cons_of_pos hpicks]
    rfl
  · rw [← hshown.tags]
    rcases List.mem_cons.mp (he ▸ he') with rfl | hmem
    · have := Target.picks_clouds.mp hpicks
      simp [Target.picks_clouds, hshown.cloud] at this ⊢
      simp [this]
    · have hnot := hrest.picks_returnTarget hfrs [tag] e' hmem (x := x)
      have : e' ≠ e := by
        rintro rfl
        exact hne (List.mem_map_of_mem hmem)
      simp [hnot, this]

/-- The tag of a function that is not after that of a frame in the order of names is only on the
    frame if the frame is one of the function. -/
theorem CallFrame.eq_of_function_text {f : ResourceName} (hf : f.Valid) (hfr : fr.function.Valid)
    (hle : fr.function.compare f ≠ .lt)
    (h : ∃ tag ∈ fr.tags, tag.text ns = (Tag.function f).text ns) : f = fr.function := by
  obtain ⟨tag, htag, htext⟩ := h
  rcases CallFrame.mem_tags.mp htag with rfl | rfl | rfl | ⟨rfl, -⟩ | ⟨rfl, -⟩ | ⟨line, -, rfl⟩
  · cases Tag.text_fixed_inj (by decide) htext.symm
  · cases Tag.text_fixed_inj (by decide) htext.symm
  · exact (Tag.text_function_inj hfr hf htext).symm
  · cases Tag.text_fixed_inj (by decide) htext.symm
  · cases Tag.text_fixed_inj (by decide) htext.symm
  · exact absurd (Tag.compare_of_text_function_eq_position hfr hf htext.symm) hle

/-- The anchor of the frame that a call is returning to tells which of two commands is executed. -/
theorem Running.exists_anchor (hw : Running p others (fr :: frs) w) (hfr : fr.target = true)
    (hfrs : ∀ fr ∈ frs, fr.target = false) :
    ∃ a : Int, a ≤ 1 ∧ ∀ (anchor : Argument.Anchor) (r : ScoreRange),
      Modifier.executorsOf p.ns w x
        [.ifEntity (.select { tags := [.returnTarget, .function fr.function], anchor := some r }),
          .at (oneCloud .returnTarget), .rotatedAs (oneCloud .returnTarget), .anchored anchor] =
        if r.accepts a then [x] else [] := by
  obtain ⟨e, hselect, he, ⟨a, ha, hle⟩, hpicks⟩ := hw.target (x := x) hfr hfrs
  refine ⟨a, hle, fun anchor r => ?_⟩
  have hanchored : ∀ e' ∈ w.entities, Target.picks p.ns x
      (.select { tags := [.returnTarget, .function fr.function], anchor := some r }) e' = true ↔
        e' = e ∧ r.accepts a = true := by
    intro e' he'
    rw [Target.picks_anchored, Bool.and_eq_true, hpicks _ e' he']
    constructor
    · rintro ⟨⟨rfl, -⟩, hanchor⟩
      exact ⟨rfl, by simpa [ha] using hanchor⟩
    · rintro ⟨rfl, hr⟩
      exact ⟨⟨rfl, _, CallFrame.mem_tags.mpr (.inr (.inr (.inl rfl))), rfl⟩, by simpa [ha] using hr⟩
  cases hr : r.accepts a with
  | true =>
    rw [World.executorsOf_ifEntity_pos rfl he ((hanchored e he).mpr ⟨rfl, hr⟩),
      executorsOf_here hselect]
    rfl
  | false =>
    refine World.executorsOf_ifEntity_neg rfl fun e' he' => Bool.eq_false_iff.mpr fun hp => ?_
    cases ((hanchored e' he').mp hp).2.symm.trans hr

/-- A call that returns to a frame that was there at a stop goes on in the function of the frame. -/
theorem Running.returnCases_fire (hw : Running p others (fr :: frs) w) (hfr : fr.target = true)
    (hfrs : ∀ fr ∈ frs, fr.target = false) {callers : List ResourceName}
    (hsorted : callers.Pairwise fun f g => f.compare g = .lt) (hvalid : ∀ f ∈ callers, f.Valid)
    (hmem : fr.function ∈ callers)
    (h : Completes p.config us [.function (.of fr.function .returnSelf)] x w fun w' =>
      NoTarget p.ns w' ∧ Q w') :
    Completes p.config us (returnCases callers) x w Q := by
  obtain ⟨before, after, rfl⟩ := List.append_of_mem hmem
  rw [returnCases, List.flatMap_append, List.flatMap_cons]
  -- The functions before the caller are not the one that the frame is tagged with.
  refine .append (.skip_all (fun i hi call => ?_) (.append ?_))
  · obtain ⟨f, hf, hi⟩ := List.mem_flatMap.mp hi
    have hlt := (List.pairwise_append.mp hsorted).2.2 f hf _ List.mem_cons_self
    have hnone : ∀ e ∈ w.entities, (clouds [.returnTarget, .function f]).picks p.ns x e =
        false := by
      obtain ⟨e, -, -, -, hpicks⟩ := hw.target (x := x) hfr hfrs
      refine fun e' he' => Bool.eq_false_iff.mpr fun hp => ?_
      have hf := CallFrame.eq_of_function_text (hvalid f (List.mem_append_left _ hf))
        (hvalid _ hmem) (by simp [Std.OrientedCmp.gt_of_lt hlt])
        ((hpicks (.function f) e' he').mp hp).2
      simp [hf] at hlt
    simp only [List.mem_cons, List.not_mem_nil, or_false] at hi
    rcases hi with rfl | rfl <;> exact effect_returnCase_skip hnone _ _ call
  -- Once the caller has gone on, no call is returning to a frame.
  obtain ⟨a, hle, hexecutors⟩ := hw.exists_anchor (x := x) hfr hfrs
  by_cases ha : a = 1
  · refine .cons (.execute ((hexecutors ..).trans (if_pos (by simp [ha])))
      (h.mono fun w' ⟨hno, hQ⟩ => ?_))
    exact .of_effect (effect_returnCase_skip (hno.picks _) _ _) (.returnCases_skip hno hQ after)
  · refine .cons (.execute_skip ((hexecutors ..).trans (if_neg (by simp [ha])))
      (.execute ((hexecutors ..).trans (if_pos (by simp; omega))) ?_))
    exact h.mono fun w' ⟨hno, hQ⟩ => .returnCases_skip hno hQ after

/-- The tag of a call of a function is only on a frame of the function if the call is being
    executed. -/
theorem CallFrame.position_text_iff (hfr : fr.function.Valid) :
    (∃ tag ∈ fr.tags, tag.text ns = (Tag.position fr.function (callSite line)).text ns) ↔
      fr.site = some line := by
  constructor
  · rintro ⟨tag, htag, htext⟩
    rcases CallFrame.mem_tags.mp htag with rfl | rfl | rfl | ⟨rfl, -⟩ | ⟨rfl, -⟩ |
        ⟨line', hline, rfl⟩
    · cases Tag.text_fixed_inj (by decide) htext.symm
    · cases Tag.text_fixed_inj (by decide) htext.symm
    · have := Tag.compare_of_text_function_eq_position hfr hfr htext
      simp at this
    · cases Tag.text_fixed_inj (by decide) htext.symm
    · cases Tag.text_fixed_inj (by decide) htext.symm
    · have := (Tag.text_position_inj hfr hfr htext).2
      simp only [callSite, Position.mk.injEq, and_true] at this
      rw [hline, this]
  · exact fun h =>
      ⟨_, CallFrame.mem_tags.mpr (.inr (.inr (.inr (.inr (.inr ⟨line, h, rfl⟩))))), rfl⟩

/-- The commands that go on after some calls of a function. -/
theorem Completes.returnSites_skip (h : NoTarget p.ns w) (hQ : Q w) (f : ResourceName)
    (sites : List CallSite) :
    Completes p.config us
      (sites.map fun site => .execute
        [.ifEntity (clouds [.returnTarget, .position f (callSite site.line)])]
        (.function (.of f (.piece (callSite site.line))))) x w Q := by
  refine .skip_all (fun i hi call => ?_) hQ
  obtain ⟨site, -, rfl⟩ := List.mem_map.mp hi
  simp [World.executorsOf_ifEntity_neg rfl (h.picks _)]

/-- A call that returns to a frame goes on after the call that the frame is tagged with. -/
theorem Running.returnSelf_fire (hw : Running p others (fr :: frs) w) (htarget : fr.target = true)
    (hfrs : ∀ fr ∈ frs, fr.target = false) (hf : f.name.Valid) (hname : fr.function = f.name)
    (hsite : fr.site = some line) (hmem : line ∈ f.calls.map (·.line))
    (h : Completes p.config us [.function (.of f.name (.piece (callSite line)))] x w fun w' =>
      NoTarget p.ns w' ∧ Q w') : Completes p.config us (returnSelf f) x w Q := by
  obtain ⟨e, -, he, -, hpicks⟩ := hw.target (x := x) htarget hfrs
  have hexecutors : ∀ line', Modifier.executorsOf p.ns w x
      [.ifEntity (clouds [.returnTarget, .position f.name (callSite line')])] =
        if line' = line then [x] else [] := by
    intro line'
    have hposition : (∃ tag ∈ fr.tags, tag.text p.ns =
        (Tag.position f.name (callSite line')).text p.ns) ↔ line = line' := by
      rw [← hname, ← Option.some.injEq, ← hsite]
      exact CallFrame.position_text_iff (hname ▸ hf)
    by_cases hline : line' = line
    · rw [if_pos hline]
      exact World.executorsOf_ifEntity_pos rfl he
        ((hpicks _ e he).mpr ⟨rfl, hposition.mpr hline.symm⟩)
    · rw [if_neg hline]
      exact World.executorsOf_ifEntity_neg rfl fun e' he' => Bool.eq_false_iff.mpr fun hp =>
        hline (hposition.mp ((hpicks _ e' he').mp hp).2).symm
  rw [returnSelf]
  generalize f.calls = sites at hmem ⊢
  induction sites with
  | nil => simp at hmem
  | cons site sites ih =>
    rw [List.map_cons]
    by_cases hline : site.line = line
    · rw [hline]
      refine .cons (.execute ((hexecutors line).trans (if_pos rfl)) (h.mono fun w' ⟨hno, hQ⟩ => ?_))
      exact .returnSites_skip hno hQ f.name sites
    · refine .cons (.execute_skip ((hexecutors _).trans (if_neg hline)) (ih ?_))
      simpa [Ne.symm hline] using hmem

/-! ### Pieces -/

/-- A piece is executed by its commands. -/
theorem Completes.piece (hp : p.WellFormed) (hf : p.function? f.name = some f)
    (hrest : f.Rest (bs.of f.name) q ss) (h : Completes p.config (units p bs)
      ((if q.place = .function then afterCall f.name q.line else []) ++ rest p f ss) x w Q) :
    Completes p.config (units p bs) [.function (.of f.name (.piece q))] x w Q :=
  .function (hp.lines?_function bs hf (piece_mem_functionUnits p hrest)) h

/-- With a number of steps left, what is left of a function leads to an outcome. -/
def Simulates (p : Pack) (bs : BreakpointMap) (others : List Entity) (x : Executor)
    (n : Nat) : Prop :=
  ∀ f ss stack fr frs t w, Remaining p bs x n ((f, ss) :: stack) t →
    Executing p bs f ss stack fr frs → Running p others (fr :: frs) w →
    Completes p.config (units p bs) (rest p f ss) x w (Outcome p bs others x fr stack frs n t w)

section

variable (ih : Simulates p bs others x n) (hp : p.WellFormed)

include ih hp

/-- After a call the function goes on with what follows it. -/
theorem Simulates.afterCall (hw : Running p others (fr :: frs) w)
    (hremaining : Remaining p bs x n ((f, ss) :: stack) t) (hf : p.function? f.name = some f)
    (hrest : f.Rest (bs.of f.name) (callSite line) ss) (hname : fr.function = f.name)
    (hsite : ∀ l, fr.site = some l → l = line)
    (hwaiting : Waiting p bs f.name fr.suspended stack frs) :
    Completes p.config (units p bs) [.function (.of f.name (.piece (callSite line)))] x w
      (Outcome p bs others x fr stack frs n t w) := by
  have hvalid : f.name.Valid :=
    hp.valid _ (List.mem_map_of_mem (f := Prod.fst) (Pack.mem_of_function? hf))
  have hwithin : ∃ before, f.segments (bs.of f.name) = before ++ ss := by
    rcases hrest with ⟨-, rfl⟩ | ⟨before, terminator, h⟩
    · exact ⟨[], rfl⟩
    · exact ⟨before ++ [.cut (callSite line) terminator], by simp [h]⟩
  refine .piece hp hf hrest (.append ?_)
  refine (hw.afterCall hvalid hname hsite hwaiting.target_eq_false).mono
    fun w₁ ⟨hw₁, hfollows⟩ => ?_
  refine (ih f ss stack { fr with site := none, target := false } frs t w₁ hremaining
    ⟨hf, hwithin, hname, rfl, rfl, hwaiting⟩ hw₁).mono ?_
  exact fun w' h => h.after (Nat.le_refl n) hfollows

/-- A return ends the program, leaves the caller to go on, or goes on in it. -/
theorem Simulates.return (hremaining : Remaining p bs x n stack t)
    (h : Executing p bs f [] stack fr frs) (hw : Running p others (fr :: frs) w) :
    Completes p.config (units p bs) [.function (.of f.name .return)] x w
      (Outcome p bs others x fr stack frs (n + 1) t w) := by
  have hlines : Units.lines? (units p bs) (.of f.name .return) =
      some (returnFront ++ returnCases (p.callers f.name)) :=
    hp.lines?_function bs h.function (by simp [functionUnits, return_, returnFront, returnCases])
  refine .function hlines (.append ?_)
  cases h.waiting with
  | nil =>
    cases hremaining
    refine (hw.returnFront_last (hp.lines?_global bs (by simp [globalUnits]))).mono fun w₁ h₁ => ?_
    exact .returnCases_skip h₁.1.noTarget (.inr (by rw [if_pos (.inr rfl)]; exact h₁)) _
  | @cons _ _ g ss' stack' fr' frs' site hg hsite hcallee hrest hname hline htarget hsuspended
      hwaiting =>
    cases hlive : fr.suspended with
    | false =>
      -- The caller goes on by itself, once the unit is done.
      refine (hw.returnFront_live hlive).mono ?_
      rintro w₁ ⟨hw₁, hfollows⟩
      refine .returnCases_skip (hw₁.noTarget h.waiting.target_eq_false) (.inr ?_) _
      rw [if_neg (by simp [hlive])]
      exact ⟨[], t, n, by omega, hw₁, hremaining, rfl, hfollows⟩
    | true =>
      -- The caller has stopped with its callee: it is found by its name and the line of the call.
      refine (hw.returnFront_suspended hlive).mono ?_
      rintro w₁ ⟨hw₁, hfollows⟩
      have hfr' := hsuspended hlive
      have hvalid : ∀ caller ∈ p.callers f.name, caller.Valid := fun caller hcaller =>
        hp.valid caller ((p.callers_sublist _).subset hcaller)
      have hmem : g.name ∈ p.callers f.name := Pack.mem_callers hg hsite hcallee
      refine hw₁.returnCases_fire rfl hwaiting.target_eq_false
        (hp.sorted_names.sublist (p.callers_sublist _)) hvalid (by simpa [hname] using hmem) ?_
      rw [show ({ fr' with target := true } : CallFrame).function = g.name from hname]
      have hself : Units.lines? (units p bs) (.of g.name .returnSelf) = some (returnSelf g) :=
        hp.lines?_function bs hg (by simp [functionUnits])
      refine .function hself ?_
      refine hw₁.returnSelf_fire rfl hwaiting.target_eq_false (hvalid _ hmem) hname hline
        (List.mem_map_of_mem hsite) ?_
      refine (ih.afterCall hp hw₁ hremaining hg hrest hname (by simp [hline]) hwaiting).mono ?_
      intro w' h'
      have hno := h'.noTarget hfr'
      exact ⟨hno, hno, (h'.after (Nat.le_succ n) hfollows).of_suspended hfr' hlive⟩

/-- Where the program does not stop at a cut it goes on with what follows. -/
theorem Simulates.next (h : Executing p bs f (.cut q terminator :: ss) stack fr frs)
    (hresumable : terminator.isResumable = true)
    (hremaining : Remaining p bs x n ((f, ss) :: stack) t) (hw : Running p others (fr :: frs) w) :
    Completes p.config (units p bs) [.function (.of f.name (.piece q))] x w
      (Outcome p bs others x fr stack frs n t w) := by
  obtain ⟨l, -, hcut⟩ := Function.cut_mem_segments_iff.mp (h.mem_segments List.mem_cons_self)
  refine .piece hp h.function h.rest_cut ?_
  rw [if_neg (place_of_mem_cuts hcut hresumable), List.nil_append]
  exact ih f ss stack fr frs t w hremaining h.tail hw

end

/-- Where the program stops at a cut it is paused. -/
theorem Executing.paused (h : Executing p bs f (.cut q terminator :: ss) stack fr frs)
    (hresumable : terminator.isResumable = true)
    (hremaining : Remaining p bs x n ((f, ss) :: stack) t) (hstopped : Stopped p others x f.name q
      ((fr :: frs).map fun fr => { fr with suspended := true }) w') (hfollows : Follows w w' []) :
    Paused p bs others x (n + 1) w w' (stopEvent p.ns f.name q :: t) := by
  obtain ⟨before, hbefore⟩ := h.within
  exact .intro (by omega) hbefore hresumable h.tail.suspend rfl hstopped hremaining hfollows

/-- The condition of a step is executed at the depths up to its bound. -/
theorem executorsOf_given (hdepth : w.scores "current" .depth = some (n : Int)) (bound : Int) :
    Modifier.executorsOf p.ns w x
      [.given (expandCondition p.config (Session.stepCondition bound))] =
      if (n : Int) ≤ bound then [x] else [] := by
  have hbound : depthBound? p.ns (expandCondition p.config (Session.stepCondition bound)) =
      some bound :=
    depthBound?_expandCondition p.config bound
  simp only [Modifier.executorsOf_cons, Modifier.executors, hbound, Score.depth,
    World.scoreIn_variable, hdepth, ScoreRange.accepts, Option.any_some, Modifier.executorsOf_nil,
    decide_eq_true_eq]
  split <;> simp

/-- The program stops at a cut. -/
theorem Executing.completes_stop (hp : p.WellFormed) (hsteps : bs.StepsByDepth)
    (hx : ∀ i, x = some i → i ∈ others.map (·.id))
    (h : Executing p bs f (.cut q terminator :: ss) stack fr frs)
    (hstops : terminator.stops (stack.length + 1) = true)
    (hremaining : Remaining p bs x n ((f, ss) :: stack) t) (hw : Running p others (fr :: frs) w) :
    Completes p.config (units p bs) (rest p f (.cut q terminator :: ss)) x w
      (Outcome p bs others x fr stack frs (n + 1) (stopEvent p.ns f.name q :: t) w) := by
  have hsuspend : Units.lines? (units p bs) .suspend = some Generate.suspend :=
    hp.lines?_global bs (by simp [globalUnits])
  have hstop : Completes p.config (units p bs) (stop p.config f q) x w fun w' =>
      Stopped p others x f.name q ((fr :: frs).map fun fr => { fr with suspended := true }) w' ∧
        Follows w w' [] := by
    have := hw.stop hx hsuspend
      (fun w' i Q _ h => show Completes p.config (units p bs) [id i] x w' Q from h) f q
    simpa using this
  cases terminator with
  | static => exact hstop.mono fun w' ⟨hs, hf⟩ => .inl (h.paused rfl hremaining hs hf)
  | breakpoint => exact hstop.mono fun w' ⟨hs, hf⟩ => .inl (h.paused rfl hremaining hs hf)
  | step place condition =>
    obtain ⟨b, hb, htype, rfl⟩ := Function.of_step_mem_segments (h.mem_segments List.mem_cons_self)
    obtain ⟨bound, hbound⟩ := hsteps _ _ _ hb htype
    have hle : ((frs.length + 1 : Nat) : Int) ≤ bound := by
      simpa [hbound, stepBound?_stepCondition, h.waiting.length_eq] using hstops
    refine .append ?_
    rw [hbound]
    refine (hw.stop hx hsuspend (fun w₁ i Q hdepth h => ?_) f q).mono fun w' ⟨hs, hf⟩ => ?_
    · exact .eachLine ((executorsOf_given (hdepth.trans hw.depth) bound).trans (if_pos hle)) h
    · exact .execute_skip hs.executorsOf_unlessStopped (.inl (h.paused rfl hremaining hs hf))
  | «continue» => simp at hstops
  | call => simp at hstops
  | «return» => simp at hstops

/-- The program passes a cut. -/
theorem Simulates.pass (ih : Simulates p bs others x n) (hp : p.WellFormed)
    (hsteps : bs.StepsByDepth) (h : Executing p bs f (.cut q terminator :: ss) stack fr frs)
    (hresumable : terminator.isResumable = true)
    (hstops : terminator.stops (stack.length + 1) = false)
    (hremaining : Remaining p bs x n ((f, ss) :: stack) t) (hw : Running p others (fr :: frs) w) :
    Completes p.config (units p bs) (rest p f (.cut q terminator :: ss)) x w
      (Outcome p bs others x fr stack frs n t w) := by
  have hnext := ih.next hp h hresumable hremaining hw
  cases terminator with
  | static => simp at hstops
  | breakpoint => simp at hstops
  | step place condition =>
    obtain ⟨b, hb, htype, rfl⟩ := Function.of_step_mem_segments (h.mem_segments List.mem_cons_self)
    obtain ⟨bound, hbound⟩ := hsteps _ _ _ hb htype
    have hgt : ¬ ((frs.length + 1 : Nat) : Int) ≤ bound := by
      simpa [hbound, stepBound?_stepCondition, h.waiting.length_eq] using hstops
    refine .append (.skip_all (fun i hi call => ?_) (.execute hw.executorsOf_unlessStopped hnext))
    obtain ⟨i, -, rfl⟩ := List.mem_map.mp hi
    have := (executorsOf_given (p := p) (x := x) hw.depth bound).trans (if_neg hgt)
    simp [hbound, this]
  | «continue» => exact hnext
  | call => simp [Terminator.isResumable] at hresumable
  | «return» => simp [Terminator.isResumable] at hresumable

/-- A call of a function that is not in the datapack is a command. -/
theorem Simulates.outside (ih : Simulates p bs others x n) (hp : p.WellFormed) {text : Text}
    (h : Executing p bs f (.cut q (.call line text call) :: ss) stack fr frs)
    (hcall : p.function? call.name = none) (hremaining : Remaining p bs x n ((f, ss) :: stack) t)
    (hw : Running p others (fr :: frs) w) :
    Completes p.config (units p bs) (rest p f (.cut q (.call line text call) :: ss)) x w
      (Outcome p bs others x fr stack frs n
        (.command x (Edit.apply text (hideEdits p.ns text call.mentions.selectors)) :: t) w) := by
  obtain ⟨rfl, -⟩ := Function.of_call_mem_segments (h.mem_segments List.mem_cons_self)
  have hcontains : p.contains call.name = false := by
    simpa [Pack.contains, Pack.function?] using hcall
  simp only [rest, ending, hcontains, Bool.false_eq_true, if_false, callOutside]
  refine .cons (.of_effect (fun _ => rfl) ?_)
  refine (ih.afterCall hp (hw.note _) hremaining h.function h.rest_cut h.named (by simp [h.site])
    h.waiting).mono fun w' h' => ?_
  exact h'.after (Nat.le_refl n) ⟨rfl, rfl⟩

/-- Nothing stands before a call that is a command of its own. -/
theorem editedFront_eq_nil {text : Text} (h : call.column = 0) : editedFront ns text call = [] := by
  simp [editedFront, h, hideEdits, Edit.apply]

/-- What follows nothing is a command of its own. -/
theorem Completes.behind_nil {c : PackConfig} {i : Instruction} (h : Completes c us [i] x w Q) :
    Completes c us [.behind [] i] x w Q :=
  .of_effect_eq (fun _ => by simp) h

/-- A function that is called is executed from its start on. -/
theorem Simulates.start (ih : Simulates p bs others x n) (hp : p.WellFormed)
    (hf : p.function? f.name = some f) (hwaiting : Waiting p bs f.name false stack frs)
    (hremaining : Remaining p bs x n ((f, f.segments (bs.of f.name)) :: stack) t)
    (hw : Running p others frs w) :
    Completes p.config (units p bs) [.function (.of f.name .start)] x w
      (Outcome p bs others x { function := f.name } stack frs n t w) := by
  have hlines : Units.lines? (units p bs) (.of f.name .start) = some (Generate.start p f.name) :=
    hp.lines?_function bs hf (by simp [functionUnits])
  have hmem : f.name ∈ p.names := List.mem_map_of_mem (f := Prod.fst) (Pack.mem_of_function? hf)
  refine .function hlines (hw.start hmem fun w₁ hw₁ hfollows => ?_)
  refine .piece hp hf (f.rest_entry _) ?_
  refine (ih f _ stack { function := f.name } frs t w₁ hremaining
    ⟨hf, ⟨[], rfl⟩, rfl, rfl, rfl, hwaiting⟩ hw₁).mono fun w' h => ?_
  exact h.after (Nat.le_refl n) hfollows

/-- A call of a function of the datapack executes the function, and goes on after it. -/
theorem Simulates.inside (ih : ∀ m ≤ n, Simulates p bs others x m) (hp : p.WellFormed)
    (hplain : p.PlainCalls) {text : Text} {g : Function}
    (h : Executing p bs f (.cut q (.call line text call) :: ss) stack fr frs)
    (hcall : p.function? call.name = some g)
    (hremaining : Remaining p bs x n ((g, g.segments (bs.of g.name)) :: (f, ss) :: stack) t)
    (hw : Running p others (fr :: frs) w) :
    Completes p.config (units p bs) (rest p f (.cut q (.call line text call) :: ss)) x w
      (Outcome p bs others x fr stack frs (n + 1) t w) := by
  obtain ⟨rfl, hsite⟩ := Function.of_call_mem_segments (h.mem_segments List.mem_cons_self)
  have hname : g.name = call.name := hp.functions.named _ (Pack.mem_of_function? hcall)
  have hcontains : p.contains call.name = true :=
    (congrArg Option.isSome hcall : p.contains call.name = (some g).isSome)
  have hcolumn : call.column = 0 := hplain _ (Pack.mem_of_function? h.function) _ hsite hcontains
  simp only [rest, ending, hcontains, if_true, callInside, editedFront_eq_nil hcolumn]
  -- The caller is marked and waits for the call.
  refine .append ((hw.mark h.named h.site line (call.column + 1) call.anchor).mono ?_)
  rintro w₁ ⟨hw₁, hfollows₁⟩
  have hwaiting : Waiting p bs g.name false ((f, ss) :: stack)
      ({ fr with site := some line } :: frs) :=
    .cons h.function hsite hname.symm h.rest_cut h.named rfl h.target (by simp) h.waiting
  rw [← hname] at hcall ⊢
  refine .cons
    (.behind_nil (((ih n (Nat.le_refl n)).start hp hcall hwaiting hremaining hw₁).mono ?_))
  rintro w₂ (hpaused | hreturned)
  · have hstopped : Modifier.executorsOf p.ns w₂ x [unlessStopped] = [] := by
      cases hpaused with
      | intro _ _ _ _ _ hstopped _ _ => exact hstopped.executorsOf_unlessStopped
    exact .execute_skip hstopped (.inl (hpaused.after (Nat.le_succ n) hfollows₁))
  · rw [if_neg (by simp)] at hreturned
    obtain ⟨t₁, t₂, m, hm, hw₂, hremaining₂, rfl, hfollows₂⟩ := hreturned
    refine .execute hw₂.executorsOf_unlessStopped ?_
    refine ((ih m (by omega)).afterCall hp hw₂ hremaining₂ h.function h.rest_cut h.named (by simp)
      h.waiting).mono fun w' h' => ?_
    exact h'.after (by omega) (hfollows₁.trans hfollows₂)

/-- What is left of a function leads to an outcome. -/
theorem simulates (hp : p.WellFormed) (hplain : p.PlainCalls) (hsteps : bs.StepsByDepth)
    (hx : ∀ i, x = some i → i ∈ others.map (·.id)) (n : Nat) : Simulates p bs others x n := by
  induction n using Nat.strongRecOn with
  | _ n ih =>
    intro f ss stack fr frs t w hremaining h hw
    cases hremaining with
    | @«return» n _ _ _ hremaining =>
      exact (ih n (by omega)).return hp hremaining h hw
    | @command n _ l _ _ t hl hremaining =>
      simp only [rest, hl, if_true]
      refine .cons (.of_effect (fun _ => rfl) ?_)
      refine (ih n (by omega) f _ stack fr frs t _ hremaining h.tail (hw.note _)).mono
        fun w' h' => ?_
      exact h'.after (by omega) ⟨rfl, rfl⟩
    | @skipped n _ l _ _ _ hl hremaining =>
      simp only [rest, hl, Bool.false_eq_true, if_false, List.nil_append]
      refine (ih n (by omega) f _ stack fr frs t w hremaining h.tail hw).mono fun w' h' => ?_
      exact h'.after (by omega) (.refl w)
    | stop hstops hremaining => exact h.completes_stop hp hsteps hx hstops hremaining hw
    | @pass n _ _ _ _ _ _ hresumable hstops hremaining =>
      refine ((ih n (by omega)).pass hp hsteps h hresumable hstops hremaining hw).mono
        fun w' h' => ?_
      exact h'.after (by omega) (.refl w)
    | @inside n _ _ _ _ _ _ _ _ _ hcall hremaining =>
      exact Simulates.inside (fun m hm => ih m (by omega)) hp hplain h hcall hremaining hw
    | @outside n _ _ _ _ _ _ _ _ hcall hremaining =>
      refine ((ih n (by omega)).outside hp h hcall hremaining hw).mono fun w' h' => ?_
      exact h'.after (by omega) (.refl w)

end

end DatapackDebug
