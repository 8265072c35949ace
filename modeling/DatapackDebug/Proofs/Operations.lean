import DatapackDebug.Proofs.Outcomes

namespace DatapackDebug

/-!
# What the operations of a session do

All that an operation can lead to consists of steps, after which the program may go on.

* `Continues.performs` — letting the program go on once the datapack is up to date;
* `Operation.performed` — what each of the operations does;
* `Session.Run`, `Session.Run.invariant` — operations one after the other, and what they keep;
* `Session.play` — runs with given hosts.
-/

namespace SessionM

open Session

variable {V : ResourceName → Prop} {s s' s₁ : Session} {h : History} {r : Except SessionError Unit}
  {l : Launch} {source : Status} {commands : List ServerCommand} {f : ResourceName}

/-! ### Operations that let the program go on -/

section

variable (hgoes : Goes s source commands s')

include hgoes

theorem Goes.ne_reload : ∀ c ∈ commands, c.command ≠ "reload" := by
  -- The commands are told from `reload` by their first byte.
  intro c hc hreload
  have hhead : c.command.head? = some 0x72 := by rw [hreload]; rfl
  cases hgoes with
  | start =>
    simp only [List.mem_cons, List.not_mem_nil, or_false] at hc
    rcases hc with rfl | rfl <;> cases hhead
  | resume =>
    rw [List.mem_singleton.mp hc] at hhead
    cases hhead

theorem Goes.carries (hactive : s.status.isActive = true) : s.Carries V s' := by
  have hrunning : ∀ source stop scheduled, stop = none ∨ stop = s.stop →
      s.Carries V (s.runningFrom source stop scheduled) := by
    intro source stop scheduled hstop
    refine { Carries.refl V s with
      stop := fun stop' hstop' => ?_, status := .inr (.inr ⟨hactive, ?_⟩) }
    · rcases hstop with rfl | rfl
      · cases hstop'
      · exact .inr ⟨stop', hstop', rfl⟩
    · show ((s.status.transfer? .running [source]).getD s.status).isActive = true
      unfold Status.transfer?
      split
      · rfl
      · exact hactive
  cases hgoes with
  | start => exact hrunning _ _ _ (.inr rfl)
  | resume => exact hrunning _ _ _ (.inl rfl)

theorem Goes.stepDepth : s'.stepDepth = s.stepDepth := by
  cases hgoes <;> rfl

end

/-- Once the datapack is up to date the program goes on. -/
theorem Continues.performs (hcontinues : Continues source s h s')
    (hactive : s.status.isActive = true) : Performs V s h s' := by
  have hgoing : ∀ {h₁ s₁ commands s₂ rest s'} (reply : Option ConnectionError),
      Updates s h₁ (.ok ()) s₁ → Goes s₁ source commands s₂ → (∀ e ∈ rest, e.1.IsOther) →
      s₁.Carries V s' → s'.stepDepth = s₁.stepDepth →
      Performs V s (h₁ ++ ⟨.inject commands, reply⟩ :: rest) s' := by
    intro h₁ s₁ commands s₂ rest s' reply hupdates hgoes hrest hcarries hdepth
    have hcurrent := hupdates.upToDate
    exact ⟨s₁, h₁, _, rfl, hupdates.steps hactive, .inr
      { active := hcurrent.status ▸ hactive, current := hcurrent.stale, key := hcurrent.key
        unmodified := hcurrent.sourceModified, place := by rw [hcurrent.stop]
        exchanges := ⟨commands, reply, rest, rfl, hgoes.ne_reload, hrest⟩, carries := hcarries
        stepDepth := hdepth }⟩
  cases hcontinues with
  | outdated hupdates => exact (hupdates.steps hactive).performs
  | failed hupdates hgoes hfails =>
    exact hgoing _ hupdates hgoes hfails.isOther hfails.keeps.carries hfails.keeps.stepDepth
  | done hupdates hgoes =>
    exact hgoing none hupdates hgoes (by simp) (hgoes.carries (hupdates.upToDate.status ▸ hactive))
      hgoes.stepDepth

theorem Resumes.performs (hresumes : Resumes s h s') : Performs V s h s' := by
  have hdepth : ∀ (s : Session) (depth : Option Int), Steps V s [] { s with stepDepth := depth } :=
    fun s _ => .single (.other (by simp) { Carries.refl V s with })
  cases hresumes with
  | refused => exact Steps.refl.performs
  | unasked _ hasks => exact ((hdepth s none).trans hasks.quiet.steps).performs
  | @resumed h₁ h₂ _ s₁ _ depth hstopped hasks hcontinues =>
    have hquiet := hasks.quiet
    have hsteps : Steps V s h₁ { s₁ with stepDepth := depth } := by
      simpa using ((hdepth s none).trans hquiet.steps).trans (hdepth s₁ depth)
    have hactive : s₁.status.isActive = true := by
      rw [hquiet.status _ rfl, hstopped]
      rfl
    exact (hcontinues.performs hactive).after hsteps hquiet.keeps.place

theorem Configures.performs (hconfigures : Configures s h s') : Performs V s h s' := by
  have hsteps : Steps V s [] { s with configured := true } :=
    .single (.other (by simp) { Carries.refl V s with })
  cases hconfigures with
  | noted => exact hsteps.performs
  | started hlaunched hcontinues =>
    have hactive : s.status.isActive = true := by
      rw [hlaunched]
      rfl
    exact (hcontinues.performs hactive).after hsteps rfl

/-! ### Breakpoints -/

/-- A move of a breakpoint does not move a stop to another function. -/
theorem function_foldl_moveStop (f : ResourceName) (moves : List (Position × Position))
    (stop : Stop) : (moves.foldl (moveStop f) stop).function = stop.function := by
  induction moves generalizing stop with
  | nil => rfl
  | cons move moves ih =>
    rw [List.foldl_cons, ih]
    unfold moveStop
    split <;> rfl

/-- Breakpoints are moved by commands that change tags. -/
theorem head?_moveCommands {ns : Text} {moves : List (Position × Position)} {c : ServerCommand}
    (hc : c ∈ moves.flatMap (moveCommands ns f)) : c.command.head? = some 0x74 := by
  obtain ⟨move, -, hc⟩ := List.mem_flatMap.mp hc
  simp only [moveCommands, List.mem_cons, List.not_mem_nil, or_false] at hc
  rcases hc with rfl | rfl <;> rfl

/-- A request that changes nothing is a step. -/
theorem step_of_isOther {q : SessionRequest} {reply : sessionSignature.Reply q} (hq : q.IsOther) :
    Step V s [⟨q, reply⟩] s :=
  .other (List.forall_mem_singleton.mpr hq) (.refl V s)

theorem Moves.steps {old new : Breakpoints} (hmoves : Moves f old new s h s') : Steps V s h s' := by
  have hsteps : Steps V s [] (s.withMovedStop f (old.moves new)) := by
    refine .single (.other (by simp) { Carries.refl V s with stop := fun stop' hstop' => ?_ })
    obtain ⟨stop, hstop, rfl⟩ := Option.map_eq_some_iff.mp hstop'
    exact .inr ⟨stop, hstop, (function_foldl_moveStop ..).symm⟩
  have hother : SessionRequest.IsOther (.inject ((old.moves new).flatMap (moveCommands s.ns f))) :=
    fun c hc => ServerCommand.isOther_of_head (head?_moveCommands hc) (by decide) (by decide)
  cases hmoves with
  | unmoved => exact hsteps
  | failed hfails => exact hsteps.trans (.step (step_of_isOther hother) hfails.steps)
  | moved => exact hsteps.trans (.single (step_of_isOther hother))

theorem Moves.sourceModified {old new : Breakpoints} (hmoves : Moves f old new s h s') :
    s'.sourceModified = s.sourceModified := by
  cases hmoves with
  | unmoved | moved => rfl
  | failed hfails => exact hfails.keeps.sourceModified

theorem steps_withBreakpoints {lines : List Int} : Steps V s [] (s.withBreakpoints f lines) := by
  refine .single (.breakpoints fun b hb hverified => ?_)
  -- Only breakpoints of functions of the datapack have an effect.
  obtain ⟨line, -, rfl⟩ := List.mem_map.mp hb
  cases hf : s.function? f with
  | none => simp [RequestedBreakpoint.isVerified, hf, lineRefusal?] at hverified
  | some fn => rfl

theorem Places.steps {α : Type} {r : Except SessionError α} (hplaces : Places s h r s') :
    Steps V s h s' := by
  cases hplaces with
  | refused => exact .refl
  | unplaced hactive hreload => exact .single (.reload hactive hreload)
  | moved hactive hreload _ hmoves =>
    exact .step (.reload hactive hreload) (steps_withBreakpoints.trans hmoves.steps)
  | updated hactive hreload hupdates =>
    have hsteps : Steps V _ _ s' := hupdates.steps (hreload.status ▸ hactive)
    exact .step (.reload hactive hreload) (steps_withBreakpoints.trans hsteps)

/-- After breakpoints were set no change is left to be read. -/
theorem Places.sourceModified {α : Type} {a : α} (hplaces : Places s h (.ok a) s') :
    s'.sourceModified = false := by
  cases hplaces with
  | unplaced _ hreload => exact hreload.sourceModified
  | moved _ hreload _ hmoves => exact hmoves.sourceModified.trans hreload.sourceModified
  | updated _ _ hupdates => exact hupdates.sourceModified

/-! ### Launching -/

/-- A call of a function loads no datapack and lets no program go on if the function is not one of
    the two that do. -/
theorem isOther_call {ns l name : Text} (hname : name.getLast? = some 0x6c) :
    SessionRequest.IsOther (.inject [⟨ns, "function " ++ l ++ name⟩]) := by
  refine List.forall_mem_singleton.mpr (ServerCommand.isOther_of_last ?_)
  show ("function " ++ l ++ name : Text).getLast? = some 0x6c
  rw [List.getLast?_append, hname]
  rfl

/-- Enabling and disabling datapacks loads no datapack and lets no program go on. -/
theorem isOther_datapack {ns c : Text} (hc : c.head? = some 0x64) :
    SessionRequest.IsOther (.inject [⟨ns, c⟩]) :=
  List.forall_mem_singleton.mpr (ServerCommand.isOther_of_head hc (by decide) (by decide))

theorem isOther_enableRequest (s : Session) (l : Launch) : (enableRequest s l).IsOther :=
  isOther_datapack rfl

theorem isOther_installRequest (s : Session) (l : Launch) : (installRequest s l).IsOther :=
  isOther_call rfl

theorem Prepares.steps (hstatus : s.status = .initialized) (hprepares : Prepares s l h r s') :
    Steps V s h s' := by
  cases hprepares with
  | unread hload => exact .step (.accepted hstatus) (.single (.unread hstatus hload))
  | missing hload => exact .step (.accepted hstatus) (.single (.read hstatus hload))
  | @generated tree cancelled functions h _ _ hload hgenerates =>
    have hlisten : Step V { s with launch := some l, functions } [⟨.listen l.ns, ()⟩]
        { s with launch := some l, functions } := step_of_isOther trivial
    have hread : Steps V s [⟨.findTree (Path.clean l.datapack), tree⟩, ⟨.isCancelled, cancelled⟩]
        { s with launch := some l, functions } :=
      .step (.accepted hstatus) (.single (.read hstatus hload))
    exact (hread.trans (.step hlisten (.single (.generate hgenerates))) :)

theorem Prepares.stop (hprepares : Prepares s l h r s') : s'.stop = s.stop := by
  cases hprepares with
  | unread | missing => rfl
  | generated _ hgenerates => exact hgenerates.stop

/-- All of a launch that succeeds is one step, since the session becomes active only at its end. -/
theorem Prepares.installed (hstatus : s.status = .initialized)
    (hprepares : Prepares s l h (.ok ()) s₁) :
    Step V s (h ++ [⟨reloadRequest s₁, none⟩, ⟨enableRequest s₁ l, none⟩,
      ⟨installRequest s₁ l, none⟩])
      { s₁ with status := .launched } := by
  cases hprepares with
  | generated hload hgenerates =>
    refine Step.installed hstatus hload hgenerates ?_
    exact List.forall_mem_cons.mpr ⟨isOther_enableRequest s₁ l,
      List.forall_mem_singleton.mpr (isOther_installRequest s₁ l)⟩

theorem Interrupts.steps (hinterrupts : Interrupts s l h) : Steps V s h s := by
  have henable := isOther_enableRequest s l
  cases hinterrupts with
  | loading => exact .single .command
  | enabling => exact .step .command (.single (step_of_isOther henable))
  | installing =>
    exact .step .command (.step (step_of_isOther henable)
      (.single (step_of_isOther (isOther_installRequest s l))))

theorem Installing.steps (hinstalling : Installing s h r s') : Steps V s h s' := by
  cases hinstalling with
  | refused => exact .refl
  | unprepared hstatus hprepares => exact hprepares.steps hstatus
  | interrupted hstatus hprepares hinterrupts hfails =>
    exact (hprepares.steps hstatus).trans (hinterrupts.steps.trans hfails.steps)
  | installed hstatus hprepares => exact .single (hprepares.installed hstatus)

theorem Launching.performs (hlaunching : Launching s h s') : Performs V s h s' := by
  cases hlaunching with
  | installed hinstalling => exact hinstalling.steps.performs
  | started hinstalling _ hcontinues =>
    have hsteps : Steps V s _ _ := hinstalling.steps
    cases hinstalling with
    | installed _ hprepares =>
      exact (hcontinues.performs rfl).after hsteps (congrArg _ hprepares.stop)

/-! ### Reports of the server -/

theorem Handles.steps {e : LogEvent} (hnames : e.NamesIn V) (hhandles : Handles e s h s') :
    Steps V s h s' := by
  have hexited : s.Carries V s.exited :=
    { Carries.refl V s with stop := by simp [Session.exited], status := .inr (.inl rfl) }
  have hstopped : ∀ {f p}, s.status = .running →
      (Report.addedTag? e.output).bind (Tag.parsePosition? s.ns) = some (f, p) →
      Steps V s [] (s.stoppedAt f p) := by
    intro f p hrunning hplace
    obtain ⟨tag, htag, hplace⟩ := Option.bind_eq_some_iff.mp hplace
    refine .single (.other (by simp) { Carries.refl V s with stop := ?_, status := ?_ })
    · rintro _ ⟨rfl⟩
      exact .inl (hnames s.ns tag f p htag hplace)
    · exact .inr (.inr ⟨by rw [hrunning]; rfl, rfl⟩)
  cases hhandles with
  | ignored => exact .refl
  | exited => exact .single (.other (List.forall_mem_singleton.mpr trivial) hexited)
  | ended =>
    refine .single (.other ?_ { hexited with })
    exact List.forall_mem_cons.mpr ⟨trivial, List.forall_mem_singleton.mpr trivial⟩
  | unasked _ hrunning hplace hasks => exact (hstopped hrunning hplace).trans hasks.quiet.steps
  | stopped _ hrunning hplace hasks =>
    refine ((hstopped hrunning hplace).trans hasks.quiet.steps).trans (.single ?_)
    exact step_of_isOther (q := .notify _) trivial

/-! ### Ending -/

theorem CleansUp.steps (hcleans : CleansUp l h) : Steps V s h s := by
  have huninstall : (uninstallRequest l).IsOther := isOther_call rfl
  have hclose : ∀ reply, Steps V s [⟨.unlisten, ()⟩, ⟨.removeAll l.output, reply⟩,
      ⟨.closeConnection, ()⟩] s := fun reply =>
    .step (step_of_isOther (q := .unlisten) trivial)
      (.step .removed (.single (step_of_isOther (q := .closeConnection) trivial)))
  cases hcleans with
  | lost => exact .step (step_of_isOther huninstall) (hclose _)
  | done =>
    exact .step (step_of_isOther huninstall)
      (.step (step_of_isOther (isOther_datapack rfl)) (hclose _))

theorem Terminates.steps (hterminates : Terminates s h s') : Steps V s h s' := by
  cases hterminates with
  | again hfails => exact hfails.steps
  | cleaned _ hcleans hfails =>
    have hmarked : Steps V s [] { s with cleanedUp := true } :=
      .single (.other (by simp) { Carries.refl V s with })
    exact hmarked.trans (hcleans.steps.trans hfails.steps)

end SessionM

/-! ### Operations and runs -/

open SessionM

namespace Operation

/-- The functions that the operation tells of are in `V`. -/
def NamesIn (V : ResourceName → Prop) : Operation → Prop
  | .event e => e.NamesIn V
  | _ => True

theorem namesIn_true (op : Operation) : op.NamesIn fun _ => True := by
  cases op with
  | event e => exact fun _ _ _ _ _ _ => trivial
  | _ => trivial

end Operation

/-- Operations one after the other, with the exchanges of each. -/
inductive Session.Run : Session → List (Operation × History) → Session → Prop where
  | nil {s} : Session.Run s [] s
  | cons {s op h r s₁ log s'} : (Operation.perform op).Yields s h r s₁ → Session.Run s₁ log s' →
      Session.Run s ((op, h) :: log) s'

/-- A run of two parts is a run of the first and one of the second. -/
theorem Session.Run.split {s s' : Session} {log₁ log₂ : List (Operation × History)}
    (hrun : Session.Run s (log₁ ++ log₂) s') :
    ∃ s₁, Session.Run s log₁ s₁ ∧ Session.Run s₁ log₂ s' := by
  induction log₁ generalizing s with
  | nil => exact ⟨s, .nil, hrun⟩
  | cons x log₁ ih =>
    cases hrun with
    | cons hop hrest =>
      obtain ⟨s₁, hfirst, hsecond⟩ := ih hrest
      exact ⟨s₁, .cons hop hfirst, hsecond⟩

namespace Operation

open Session

variable {V : ResourceName → Prop} {s : Session}

/-- What an operation does: some steps, after which the program may go on, or it notes that a source
    has changed. -/
def Does (V : ResourceName → Prop) (op : Operation) (s : Session) (h : History)
    (s' : Session) : Prop :=
  Performs V s h s' ∨ op = .sourceModified ∧ h = [] ∧ s' = { s with sourceModified := true }

/-- The request that lets the program go on comes after all steps. -/
theorem Does.going {op : Operation} {s' : Session} {h₁ h₂ : History} {e : Exchange sessionSignature}
    (hdoes : op.Does V s (h₁ ++ e :: h₂) s') (he : e.1.GoesOn) :
    ∃ s₁, Steps V s h₁ s₁ ∧ Going V s s₁ (e :: h₂) s' := by
  rcases hdoes with hperforms | ⟨-, hnil, -⟩
  · exact hperforms.going he
  · simp at hnil

/-- Every operation does what operations do. -/
theorem performed {op : Operation} (hnames : op.NamesIn V) :
    op.perform.Ensures s fun h _ s' => op.Does V s h s' := by
  refine leads.mono fun h r s' hleads => ?_
  cases op with
  | launch o => exact .inl (Launching.performs hleads)
  | configurationDone => exact .inl (Configures.performs hleads)
  | setBreakpoints source lines => exact .inl (Places.steps hleads).performs
  | resume step => exact .inl (Resumes.performs hleads)
  | stackTrace | scopes | variablesAt => exact .inl (Asks.quiet hleads).steps.performs
  | event e => exact .inl (Handles.steps hnames hleads).performs
  | sourceModified => exact .inr ⟨rfl, hleads⟩
  | terminate => exact .inl (Terminates.steps hleads).performs

end Operation

/-- What steps keep, and the note that a source has changed, is kept by operations one after the
    other. -/
theorem Session.Run.invariant {P : Session → Prop} {s s' : Session}
    {log : List (Operation × History)} (hrun : Run s log s') (hs : P s)
    (hstep : ∀ s h s', Step (fun _ => True) s h s' → P s → P s')
    (hnote : ∀ s : Session, P s → P { s with sourceModified := true }) : P s' := by
  have hsteps : ∀ s h s', Steps (fun _ => True) s h s' → P s → P s' := by
    intro s h s' hsteps hs
    induction hsteps with
    | refl => exact hs
    | step hfirst _ ih => exact ih (hstep _ _ _ hfirst hs)
  induction hrun with
  | nil => exact hs
  | @cons _ op _ _ _ _ _ hop _ ih =>
    refine ih ?_
    rcases Operation.performed op.namesIn_true _ _ _ hop with
      ⟨s₁, h₁, h₂, -, hfirst, ⟨-, rfl⟩ | hgoing⟩ | ⟨-, -, rfl⟩
    · exact hsteps _ _ _ hfirst hs
    · -- What letting the program go on changes could have changed in a step.
      exact hstep s₁ [] _ (.other (by simp) hgoing.carries) (hsteps _ _ _ hfirst hs)
    · exact hnote _ hs

/-! ### Runs with given hosts -/

/-- Perform operations, each with its host. -/
def Session.play (s : Session) :
    List (Operation × SteadyHost) → List (Operation × History) × Session
  | [] => ([], s)
  | (op, host) :: rest =>
    let first := op.perform.talk host.reply s
    let others := first.1.2.play rest
    ((op, first.2) :: others.1, others.2)

theorem Session.run_play (s : Session) (script : List (Operation × SteadyHost)) :
    Run s (s.play script).1 (s.play script).2 := by
  induction script generalizing s with
  | nil => exact .nil
  | cons x script ih => exact .cons (yields_talk ..) (ih _)

/-- Debug the function of the sample. -/
def sampleLaunch : Operation := .launch { datapack := "p", function := "t:f", output := "o" }

/-- Set breakpoints in the function of the sample. -/
def sampleBreakpoints (lines : List Int) : Operation :=
  .setBreakpoints "p/data/t/functions/f.mcfunction" lines

end DatapackDebug
