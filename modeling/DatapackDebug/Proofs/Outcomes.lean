import DatapackDebug.Proofs.SessionSteps

namespace DatapackDebug

/-!
# What the operations of a session can lead to

Each operation is followed through the requests that it makes once, and all that it can lead to is
written down: its exchanges, and the session after it.  What holds of operations is read off that.

* `Goes`, `Continues` — letting the program go on, once the datapack is up to date;
* `Installing`, `Launching` — installing the datapack, and starting the debugged function;
* `Moves`, `Places` — moving breakpoints, and setting those of a source;
* `Handles` — what a report of the server leads to;
* `Terminates` — the end of a session;
* `Operation`, `Operation.leads` — the operations of a session, and what each of them leads to.
-/

/-! ### Sessions and events -/

namespace Session

/-- The session once the program runs, if it had a given status before. -/
def runningFrom (s : Session) (source : Status) (stop : Option Stop) (scheduled : Bool) : Session :=
  { s with stop, scheduled, status := (s.status.transfer? .running [source]).getD s.status }

/-- The session with breakpoints at lines of a function. -/
def withBreakpoints (s : Session) (f : ResourceName) (lines : List Int) : Session :=
  { s with breakpoints := s.breakpoints.set f ((lines.map fun line =>
      ⟨line, lineRefusal? (s.function? f) line⟩).foldl RequestedBreakpoint.addTo []) }

/-- The session with its stop where moves of breakpoints take it. -/
def withMovedStop (s : Session) (f : ResourceName) (moves : List (Position × Position)) : Session :=
  { s with stop := s.stop.map fun stop => moves.foldl (SessionM.moveStop f) stop }

/-- The session once the program has stopped. -/
def stoppedAt (s : Session) (f : ResourceName) (p : Position) : Session :=
  { s with
    stop := some { function := f, position := p, reason := SessionM.stopReason s f p }
    stepDepth := none, status := .stopped }

/-- The session once the debugged function has ended. -/
def exited (s : Session) :
    Session := { s with stop := none, stepDepth := none, status := .terminated }

end Session

/-- Does the event tell that the debugged function has ended? -/
def LogEvent.isExit (ns : Text) (e : LogEvent) : Bool :=
  Report.addedTag? e.output == some (Tag.text ns .exit)

/-- Does the event tell of a stop? -/
def LogEvent.isStop (ns : Text) (e : LogEvent) : Bool :=
  ((Report.addedTag? e.output).bind (Tag.parsePosition? ns)).isSome

namespace SessionM

variable {s : Session}

/-! ### Going on -/

/-- The commands that let the program go on, and the session after them: the debugged function is
    started, or the function that stopped is resumed. -/
inductive Goes (s : Session) : Status → List ServerCommand → Session → Prop where
  | start {l : Launch} : Goes s .launched
      [⟨l.ns, "scoreboard players set launch " ++ l.ns ++ "_function_id " ++
        Text.ofNat (s.idOf l.entry)⟩, ⟨l.ns, "function " ++ l.ns ++ ":schedule"⟩]
          (s.runningFrom .launched s.stop true)
  | resume : Goes s .stopped [⟨s.ns, "function " ++ s.ns ++ ":resume_self"⟩]
      (s.runningFrom .stopped none s.scheduled)

/-- What bringing the datapack up to date and letting the program go on can lead to. -/
inductive Continues (source : Status) (s : Session) : History → Session → Prop where
  | outdated {h r s'} : Updates s h r s' → Continues source s h s'
  | failed {h₁ h₂ commands failure s₁ s₂ s'} : Updates s h₁ (.ok ()) s₁ →
      Goes s₁ source commands s₂ →
      FailsTo s₁ h₂ s' → Continues source s (h₁ ++ ⟨.inject commands, some failure⟩ :: h₂) s'
  | done {h commands s₁ s'} : Updates s h (.ok ()) s₁ → Goes s₁ source commands s' →
      Continues source s (h ++ [⟨.inject commands, none⟩]) s'

/-- What going on after a stop can lead to. -/
inductive Resumes (s : Session) : History → Session → Prop where
  | refused : Resumes s [] s
  | unasked {h e s'} : s.status = .stopped →
      Asks { s with stepDepth := none } h (.error e : Except SessionError Int) s' → Resumes s h s'
  | resumed {h₁ h₂ depth s₁ s'} (stepDepth : Option Int) : s.status = .stopped →
      Asks { s with stepDepth := none } h₁ (.ok depth : Except SessionError Int) s₁ →
      Continues .stopped { s₁ with stepDepth } h₂ s' → Resumes s (h₁ ++ h₂) s'

/-- What it can lead to that the client has set its breakpoints. -/
inductive Configures (s : Session) : History → Session → Prop where
  | noted : Configures s [] { s with configured := true }
  | started {h s'} : s.status = .launched → Continues .launched { s with configured := true } h s' →
      Configures s h s'

namespace Ensures

variable {s s₁ : Session} {h₁ : History}

/-- Once the datapack is up to date the program goes on. -/
theorem goOn {source : Status} {commands : List ServerCommand} {g : Session → Session}
    (hupdates : Updates s h₁ (.ok ()) s₁) (hgoes : Goes s₁ source commands (g s₁)) :
    (SessionM.inject commands >>= fun _ => modify g).Ensures s₁ fun h _ s' =>
      Continues source s (h₁ ++ h) s' := by
  refine bind (inject ?_ fun failure h₂ e s' hfails => .failed hupdates hgoes hfails)
  rintro _ _ _ ⟨⟩
  exact .done hupdates hgoes

theorem schedule : SessionM.schedule.Ensures s fun h _ s' => Continues .launched s h s' := by
  unfold SessionM.schedule
  refine bind (update.mono fun h₁ r s₁ hupdates => ?_)
  cases r with
  | error e => exact .outdated hupdates
  | ok _ =>
    refine launch_bind (fun _ => ?_) fun l _ => get_bind (goOn hupdates .start)
    rw [List.append_nil]
    exact .outdated hupdates

/-- The last part of going on after a stop. -/
theorem resumeSelf : Ensures (do
      SessionM.update
      SessionM.inject [⟨(← get).ns, "function " ++ (← get).ns ++ ":resume_self"⟩]
      modify fun s =>
        { s with stop := none, status := (s.status.transfer? .running [.stopped]).getD s.status }) s
      fun h _ s' => Continues .stopped s h s' := by
  refine bind (update.mono fun h₁ r s₁ hupdates => ?_)
  cases r with
  | error e => exact .outdated hupdates
  | ok _ => exact get_bind (get_bind (goOn hupdates .resume))

theorem resume {step : Option StepKind} : (SessionM.resume step).Ensures s fun h _ s' =>
    Resumes s h s' := by
  unfold SessionM.resume SessionM.injectOne
  refine bind (Quiet.require.mono ?_)
  rintro h r s' ⟨rfl, rfl, hstatus⟩
  cases r with
  | error e => exact .refused
  | ok _ =>
    have hstopped : s.status = .stopped := by simpa using hstatus _ rfl
    refine modify_bind ?_
    cases step with
    | none =>
      have hasks : Asks { s with stepDepth := none } [] (.ok 0 : Except SessionError Int)
          { s with stepDepth := none } := .nothing _
      exact resumeSelf.mono fun h _ s' hcontinues =>
        (Resumes.resumed none hstopped hasks hcontinues :)
    | some kind =>
      -- The depth is asked for first.
      refine bind (Asks.currentDepth.mono fun h₁ r s₁ hasks => ?_)
      cases r with
      | error e => exact .unasked hstopped hasks
      | ok depth => exact modify_bind (resumeSelf.mono fun h _ s' => .resumed _ hstopped hasks)

theorem configurationDone : SessionM.configurationDone.Ensures s fun h _ s' =>
    Configures s h s' := by
  unfold SessionM.configurationDone
  refine modify_bind (get_bind (ite (fun hlaunched => ?_) fun _ => pure .noted))
  simp only [Bool.and_eq_true, beq_iff_eq] at hlaunched
  exact schedule.mono fun h _ s' hcontinues => .started hlaunched.1 hcontinues

end Ensures

/-! ### Installing datapacks -/

/-- The first part of a launch, which installs the datapack. -/
def install (o : LaunchOptions) : SessionM Unit := do
  SessionM.require [.initialized] .alreadyLaunched
  let l ← checkOptions o
  modify fun s => { s with launch := some l }
  loadFunctions
  if ((← get).function? l.entry).isNone then throw (.functionNotFound l.entry)
  ask (.listen l.ns)
  generate (← get).effectiveBreakpoints
  injectEach ["reload", "datapack enable " ++ packArgument l.output,
    "function " ++ l.ns ++ ":install"]
  modify fun s => { s with status := .launched }

/-- After the datapack was installed the debugged function is started, if the client is ready. -/
theorem launchWith_eq (o : LaunchOptions) : launchWith o = (do
    install o
    if (← get).configured then schedule) := by
  unfold launchWith install
  simp only [bind_assoc]
  refine congrArg _ (funext fun _ => congrArg _ (funext fun l => congrArg _ (funext fun _ =>
    congrArg _ (funext fun _ => congrArg _ (funext fun s => ?_)))))
  split
  · rfl
  · refine Eq.trans ?_ (bind_assoc (ask (.listen l.ns)) _ _).symm
    refine congrArg _ (funext fun _ => ?_)
    simp only [bind_assoc]

/-- The requests of a launch before the datapack is written. -/
def readingRequests (l : Launch) (tree : Except FileFailure FileTree) (cancelled : Bool) :
    History :=
  [⟨.findTree (Path.clean l.datapack), tree⟩, ⟨.isCancelled, cancelled⟩, ⟨.listen l.ns, ()⟩]

/-- The request to the server to enable the datapack. -/
def enableRequest (s : Session) (l : Launch) : SessionRequest :=
  .inject [⟨s.ns, "datapack enable " ++ packArgument l.output⟩]

/-- The request to the server to install the datapack. -/
def installRequest (s : Session) (l : Launch) : SessionRequest :=
  .inject [⟨s.ns, "function " ++ l.ns ++ ":install"⟩]

/-- What a launch can lead to before the server is asked to load the datapack. -/
inductive Prepares (s : Session) (l : Launch) :
    History → Except SessionError Unit → Session → Prop where
  | unread {tree cancelled e} : Datapack.load s.grammar l.datapack tree cancelled = .error e →
      Prepares s l [⟨.findTree (Path.clean l.datapack), tree⟩, ⟨.isCancelled, cancelled⟩]
        (.error (.datapack e)) { s with launch := some l }
  | missing {tree cancelled functions} :
      Datapack.load s.grammar l.datapack tree cancelled = .ok functions →
      Prepares s l [⟨.findTree (Path.clean l.datapack), tree⟩, ⟨.isCancelled, cancelled⟩]
        (.error (.functionNotFound l.entry)) { s with launch := some l, functions }
  | generated {tree cancelled functions h r s'} :
      Datapack.load s.grammar l.datapack tree cancelled = .ok functions →
      Generates { s with launch := some l, functions }.effectiveBreakpoints
        { s with launch := some l, functions } h r s' →
      Prepares s l (readingRequests l tree cancelled ++ h) r s'

/-- The commands of a launch up to one that fails. -/
inductive Interrupts (s : Session) (l : Launch) : History → Prop where
  | loading {failure} : Interrupts s l [⟨reloadRequest s, some failure⟩]
  | enabling {failure} : Interrupts s l [⟨reloadRequest s, none⟩, ⟨enableRequest s l, some failure⟩]
  | installing {failure} : Interrupts s l [⟨reloadRequest s, none⟩, ⟨enableRequest s l, none⟩,
      ⟨installRequest s l, some failure⟩]

/-- What installing the datapack can lead to. -/
inductive Installing (s : Session) : History → Except SessionError Unit → Session → Prop where
  | refused {e} : Installing s [] (.error e) s
  | unprepared {l h e s'} : s.status = .initialized → Prepares s l h (.error e) s' →
      Installing s h (.error e) s'
  | interrupted {l h₁ h₂ h₃ e s₁ s'} : s.status = .initialized → Prepares s l h₁ (.ok ()) s₁ →
      Interrupts s₁ l h₂ → FailsTo s₁ h₃ s' → Installing s (h₁ ++ (h₂ ++ h₃)) (.error e) s'
  | installed {l h s₁} : s.status = .initialized → Prepares s l h (.ok ()) s₁ →
      Installing s (h ++ [⟨reloadRequest s₁, none⟩, ⟨enableRequest s₁ l, none⟩,
        ⟨installRequest s₁ l, none⟩]) (.ok ()) { s₁ with status := .launched }

theorem Ensures.install {o : LaunchOptions} : (SessionM.install o).Ensures s (Installing s) := by
  unfold SessionM.install SessionM.require
  refine bind (get_bind (ite (fun hstatus => pure ?_) fun _ => throw .refused))
  have hstatus : s.status = .initialized := by simpa using hstatus
  cases SessionM.checkOptions o with
  | error e => exact bind (throw .refused)
  | ok l =>
    refine bind (pure (modify_bind (bind (loadFunctions ?_ ?_ ?_))))
    · rintro ⟨⟩
    · rintro _ tree cancelled e ⟨rfl⟩ hload
      exact .unprepared hstatus (.unread hload)
    · rintro _ tree cancelled functions ⟨rfl⟩ hload
      refine get_bind (ite (fun _ => bind (throw (.unprepared hstatus (.missing hload)))) fun _ =>
        ask_bind fun _ => get_bind (bind (generate.mono fun h₁ r s₁ hgenerates => ?_)))
      have hprepares : Prepares s l (readingRequests l tree cancelled ++ h₁) r s₁ :=
        .generated hload hgenerates
      cases r with
      | error e => exact .unprepared hstatus hprepares
      | ok _ =>
        refine bind
          (bind (get_bind (inject (bind (get_bind (inject (bind (get_bind (inject (pure ?_)
          fun failure h e s' hfails => ?_))) fun failure h e s' hfails => ?_)))
          fun failure h e s' hfails => ?_)))
        · rintro _ _ _ ⟨⟩
          exact (Installing.installed hstatus hprepares :)
        · exact (Installing.interrupted hstatus hprepares .installing hfails :)
        · exact (Installing.interrupted hstatus hprepares .enabling hfails :)
        · exact (Installing.interrupted hstatus hprepares .loading hfails :)

/-- What a launch can lead to. -/
inductive Launching (s : Session) : History → Session → Prop where
  | installed {h r s'} : Installing s h r s' → Launching s h s'
  | started {h₁ h₂ s₁ s'} : Installing s h₁ (.ok ()) s₁ → s₁.configured = true →
      Continues .launched s₁ h₂ s' → Launching s (h₁ ++ h₂) s'

theorem Ensures.launchWith {o : LaunchOptions} :
    (SessionM.launchWith o).Ensures s fun h _ s' => Launching s h s' := by
  rw [launchWith_eq]
  refine bind (install.mono fun h₁ r s₁ hinstalling => ?_)
  cases r with
  | error e => exact .installed hinstalling
  | ok _ =>
    refine get_bind (ite (fun hconfigured => ?_) fun _ => pure ?_)
    · exact schedule.mono fun h₂ _ s' hcontinues => .started hinstalling hconfigured hcontinues
    · rw [List.append_nil]
      exact .installed hinstalling

/-! ### Breakpoints -/

/-- What moving breakpoints can lead to. -/
inductive Moves (f : ResourceName) (old new : Breakpoints) (s : Session) :
    History → Session → Prop where
  | unmoved : old.moves new = [] → Moves f old new s [] (s.withMovedStop f (old.moves new))
  | failed {failure h s'} : FailsTo (s.withMovedStop f (old.moves new)) h s' →
      Moves f old new s
        (⟨.inject ((old.moves new).flatMap (moveCommands s.ns f)), some failure⟩ :: h) s'
  | moved : Moves f old new s [⟨.inject ((old.moves new).flatMap (moveCommands s.ns f)), none⟩]
      (s.withMovedStop f (old.moves new))

/-- What setting breakpoints can lead to.  Only after a change of sources are they moved. -/
inductive Places {α : Type} (s : Session) : History → Except SessionError α → Session → Prop where
  | refused {e} : Places s [] (.error e) s
  | unplaced {h r s'} {first : Except SessionError Unit} : s.status.isActive = true →
      Reloads s h first s' → Places s h r s'
  | moved {f lines old new h₁ h₂ r s₁ s'} : s.status.isActive = true → Reloads s h₁ (.ok ()) s₁ →
      s₁.stale = true → Moves f old new (s₁.withBreakpoints f lines) h₂ s' →
      Places s (h₁ ++ h₂) r s'
  | updated {f lines h₁ h₂ r s₁ s'} {last : Except SessionError Unit} : s.status.isActive = true →
      Reloads s h₁ (.ok ()) s₁ → Updates (s₁.withBreakpoints f lines) h₂ last s' →
      Places s (h₁ ++ h₂) r s'

/-- Only a failure has to be told. -/
theorem Places.congr {α β : Type} {s' : Session} {h : History} {r : Except SessionError α}
    {r' : Except SessionError β} (hplaces : Places s h r s')
    (hr : ∀ e, r = .error e → r' = .error e) : Places s h r' s' := by
  cases hplaces with
  | refused => exact hr _ rfl ▸ .refused
  | unplaced hactive hreload => exact .unplaced hactive hreload
  | moved hactive hreload hstale hmoves => exact .moved hactive hreload hstale hmoves
  | updated hactive hreload hupdates => exact .updated hactive hreload hupdates

namespace Ensures

variable {s : Session}

theorem moveBreakpoints {f : ResourceName} {old new : Breakpoints} :
    (SessionM.moveBreakpoints f old new).Ensures s fun h _ s' => Moves f old new s h s' := by
  unfold SessionM.moveBreakpoints SessionM.modifyStop
  refine modify_bind (get_bind (ite (fun hempty => pure ?_) fun _ => inject .moved ?_))
  · exact .unmoved (List.isEmpty_iff.mp hempty)
  · exact fun failure h e s' hfails => .failed hfails

theorem setBreakpoints {source : Text} {lines : List Int} :
    (SessionM.setBreakpoints source lines).Ensures s (Places s) := by
  unfold SessionM.setBreakpoints
  refine bind (Quiet.require.mono ?_)
  rintro h r s' ⟨rfl, rfl, hstatus⟩
  cases r with
  | error e => exact .refused
  | ok _ =>
    have hactive : s.status.isActive = true := hstatus _ rfl
    refine bind (reloadModified.mono fun h₁ r s₁ hreload => ?_)
    cases r with
    | error e => exact .unplaced hactive hreload
    | ok _ =>
      refine launch_bind (fun _ => ?_) fun l _ => ?_
      · rw [List.append_nil]
        exact .unplaced hactive hreload
      cases FunctionFile.name? (Datapack.dataDir l.datapack) source with
      | none =>
        refine pure ?_
        rw [List.append_nil]
        exact .unplaced hactive hreload
      | some f =>
        refine get_bind (get_bind (modify_bind (get_bind (bind (tryCatch (bind
          (ite (fun hmoved => moveBreakpoints.mono fun h r s' hmoves => ?_) fun _ =>
            update.mono fun h r s' hupdates => ?_)))))))
        · have hstale : s₁.stale = true := (Bool.and_eq_true_iff.mp hmoved).1
          cases r with
          | error e => exact pure (pure (by simpa using .moved hactive hreload hstale hmoves))
          | ok _ => exact pure (pure (by simpa using .moved hactive hreload hstale hmoves))
        · cases r with
          | error e => exact pure (pure (by simpa using .updated hactive hreload hupdates))
          | ok _ => exact pure (pure (by simpa using .updated hactive hreload hupdates))

end Ensures

/-! ### Reports of the server -/

/-- What handling a report of the server can lead to. -/
inductive Handles (e : LogEvent) (s : Session) : History → Session → Prop where
  | ignored : e.isExit s.ns = false → (s.status == .running && e.isStop s.ns) = false →
      Handles e s [] s
  | exited : e.isExit s.ns = true → s.endReported = true →
      Handles e s [⟨.notify (.exited 0 []), ()⟩] s.exited
  | ended : e.isExit s.ns = true → s.endReported = false →
      Handles e s [⟨.notify (.exited 0 []), ()⟩, ⟨.notify .terminated, ()⟩]
        { s.exited with endReported := true }
  | unasked {f p h error s'} : e.isExit s.ns = false → s.status = .running →
      (Report.addedTag? e.output).bind (Tag.parsePosition? s.ns) = some (f, p) →
      Asks (s.stoppedAt f p) h (.error error : Except SessionError (List Frame)) s' →
      Handles e s h s'
  | stopped {f p h s₁} {frames : List Frame} : e.isExit s.ns = false → s.status = .running →
      (Report.addedTag? e.output).bind (Tag.parsePosition? s.ns) = some (f, p) →
      Asks (s.stoppedAt f p) h (.ok frames) s₁ →
      Handles e s (h ++ [⟨.notify (.stopped (stopReason s f p) (s₁.pathOf f) p.line), ()⟩]) s₁

theorem Ensures.handleEvent {e : LogEvent} :
    (SessionM.handleEvent e).Ensures s fun h _ s' => Handles e s h s' := by
  unfold SessionM.handleEvent
  cases htag : Report.addedTag? e.output with
  | none =>
    exact pure (.ignored (by simp [LogEvent.isExit, htag]) (by simp [LogEvent.isStop, htag]))
  | some tag =>
    refine get_bind (ite (fun htext => ?_) fun htext => ?_)
    · have hexit : e.isExit s.ns = true := by simpa [LogEvent.isExit, htag] using htext
      exact modify_bind (ask_bind fun _ => reportEnd (.exited hexit) (.ended hexit))
    · have hexit : e.isExit s.ns = false := by simpa [LogEvent.isExit, htag] using htext
      cases hplace : Tag.parsePosition? s.ns tag with
      | none => exact pure (.ignored hexit (by simp [LogEvent.isStop, htag, hplace]))
      | some place =>
        refine get_bind (ite (fun hrunning => set_bind ?_) fun hother => pure (.ignored hexit ?_))
        · have hrunning : s.status = .running := beq_iff_eq.mp hrunning
          have hplace : (Report.addedTag? e.output).bind (Tag.parsePosition? s.ns) =
              some place := by
            rw [htag, Option.bind_some, hplace]
          refine bind (Asks.frames.mono fun h r s₁ hasks => ?_)
          cases r with
          | error error => exact .unasked hexit hrunning hplace hasks
          | ok frames => exact get_bind (ask fun _ => .stopped hexit hrunning hplace hasks)
        · rw [Bool.not_eq_true] at hother
          rw [hother, Bool.false_and]

/-! ### Ending sessions -/

/-- The request to the server to uninstall the datapack. -/
def uninstallRequest (l : Launch) : SessionRequest :=
  .inject [⟨l.ns, "function " ++ l.ns ++ ":uninstall"⟩]

/-- The request to the server to disable the datapack. -/
def disableRequest (l : Launch) : SessionRequest :=
  .inject [⟨l.ns, "datapack disable " ++ packArgument l.output⟩]

/-- The requests that remove the datapack. -/
inductive CleansUp (l : Launch) : History → Prop where
  | lost {failure reply} : CleansUp l [⟨uninstallRequest l, some failure⟩, ⟨.unlisten, ()⟩,
      ⟨.removeAll l.output, reply⟩, ⟨.closeConnection, ()⟩]
  | done {answer : Option ConnectionError} {reply} : CleansUp l [⟨uninstallRequest l, none⟩,
      ⟨disableRequest l, answer⟩, ⟨.unlisten, ()⟩, ⟨.removeAll l.output, reply⟩,
      ⟨.closeConnection, ()⟩]

/-- What the end of a session can lead to. -/
inductive Terminates (s : Session) : History → Session → Prop where
  | again {h s'} : FailsTo s h s' → Terminates s h s'
  | cleaned {l h₁ h₂ s'} : s.cleanedUp = false → CleansUp l h₁ →
      FailsTo { s with cleanedUp := true } h₂ s' → Terminates s (h₁ ++ h₂) s'

namespace Ensures

variable {s : Session}

theorem cleanUp {l : Launch} : (SessionM.cleanUp l).Ensures s fun h r s' =>
    CleansUp l h ∧ (∃ failure, r = .ok failure) ∧ s' = { s with cleanedUp := true } := by
  have hclose : ∀ {h : History}, (∀ reply, CleansUp l (h ++ [⟨.unlisten, ()⟩,
      ⟨.removeAll l.output, reply⟩, ⟨.closeConnection, ()⟩])) → Ensures (do
        SessionM.ask .unlisten
        let failure ← SessionM.ask (.removeAll l.output)
        SessionM.ask .closeConnection
        return failure) { s with cleanedUp := true } fun h' r s' =>
          CleansUp l (h ++ h') ∧ (∃ failure, r = .ok failure) ∧ s' = { s with cleanedUp := true } :=
    fun hh => ask_bind fun _ => ask_bind fun reply => ask_bind fun _ =>
      pure ⟨hh reply, ⟨_, rfl⟩, rfl⟩
  unfold SessionM.cleanUp
  refine modify_bind (bind (ask_bind fun reply => ?_))
  match reply with
  | some failure => exact pure (hclose fun _ => .lost)
  | none =>
    refine ask_bind fun answer => ?_
    match answer with
    | some failure => exact pure (hclose fun _ => .done)
    | none => exact pure (hclose fun _ => .done)

/-- The session ends, and what comes after that changes nothing. -/
theorem ending {m : SessionM Unit} (hm : ∀ s₂, m.Ensures s₂ fun h _ s' => h = [] ∧ s₂ = s') :
    Ensures (do
      modify fun s => { s with status := .terminated }
      SessionM.reportEnd
      m) s fun h _ s' => FailsTo s h s' := by
  have hlast : ∀ h s₂, FailsTo s h s₂ → m.Ensures s₂ fun h' _ s' => FailsTo s (h ++ h') s' := by
    refine fun h s₂ hfails => (hm s₂).mono ?_
    rintro h' r s' ⟨rfl, rfl⟩
    rwa [List.append_nil]
  refine modify_bind (bind (reportEnd (fun _ => ?_) fun hunreported => ?_))
  · exact hlast [] _ .ended
  · exact hlast _ _ (.reported hunreported)

theorem terminate : SessionM.terminate.Ensures s fun h _ s' => Terminates s h s' := by
  unfold SessionM.terminate
  refine get_bind ?_
  cases s.launch with
  | none =>
    rintro _ _ _ ⟨⟩
    exact .again .ended
  | some l =>
    refine get_bind (ite (fun _ => bind (pure ?_)) fun hinstalled => ?_)
    · exact (ending fun _ => pure ⟨rfl, rfl⟩).mono fun _ _ _ hfails => .again hfails
    · refine bind (cleanUp.mono ?_)
      rintro h₁ _ _ ⟨hcleans, ⟨failure, rfl⟩, rfl⟩
      refine (ending fun _ => ?_).mono fun _ _ _ hfails =>
        .cleaned (by simpa using hinstalled) hcleans hfails
      cases failure with
      | none => exact pure ⟨rfl, rfl⟩
      | some e => exact throw ⟨rfl, rfl⟩

end Ensures

end SessionM

/-! ### Operations -/

open SessionM

/-- What a client asks of a session, or what happens to it. -/
inductive Operation where
  | launch (o : LaunchOptions)
  | configurationDone
  | setBreakpoints (source : Text) (lines : List Int)
  | resume (step : Option StepKind)
  | stackTrace
  | scopes (depth : Int)
  | variablesAt (reference : Int)
  | event (e : LogEvent)
  | sourceModified
  | terminate

namespace Operation

/-- Perform an operation.  Breakpoints that were set but could not be brought to the server are a
    failure. -/
def perform : Operation → SessionM Unit
  | .launch o => launchWith o
  | .configurationDone => SessionM.configurationDone
  | .setBreakpoints source lines => do
    match ← SessionM.setBreakpoints source lines with
    | (_, none) => return ()
    | (_, some e) => throw e
  | .resume step => SessionM.resume step
  | .stackTrace => do let _ ← SessionM.stackTrace
  | .scopes depth => do let _ ← SessionM.scopes depth
  | .variablesAt reference => do let _ ← SessionM.variablesAt reference
  | .event e => handleEvent e
  | .sourceModified => SessionM.sourceModified
  | .terminate => SessionM.terminate

/-- What an operation can lead to. -/
def Leads : Operation → Session → History → Except SessionError Unit → Session → Prop
  | .launch _, s, h, _, s' => Launching s h s'
  | .configurationDone, s, h, _, s' => Configures s h s'
  | .setBreakpoints _ _, s, h, r, s' => Places s h r s'
  | .resume _, s, h, _, s' => Resumes s h s'
  | .stackTrace, s, h, r, s' | .scopes _, s, h, r, s' | .variablesAt _, s, h, r, s' => Asks s h r s'
  | .event e, s, h, _, s' => Handles e s h s'
  | .sourceModified, s, h, _, s' => h = [] ∧ s' = { s with sourceModified := true }
  | .terminate, s, h, _, s' => Terminates s h s'

theorem leads {op : Operation} {s : Session} : op.perform.Ensures s (op.Leads s) := by
  have hasks : ∀ {α : Type} (m : SessionM α), m.Ensures s (Asks s) →
      Ensures (m >>= fun _ => Pure.pure ()) s (Asks s) :=
    fun m hm => Asks.bind hm fun _ _ => .pure (.nothing _)
  cases op with
  | launch o => exact Ensures.launchWith
  | configurationDone => exact Ensures.configurationDone
  | setBreakpoints source lines =>
    refine .bind (Ensures.setBreakpoints.mono fun h r s' hplaces => ?_)
    match r with
    | .error e => exact hplaces.congr (by simp)
    | .ok (_, none) =>
      refine .pure ?_
      rw [List.append_nil]
      exact hplaces.congr (by simp)
    | .ok (_, some e) =>
      refine .throw ?_
      rw [List.append_nil]
      exact hplaces.congr (by simp)
  | resume step => exact Ensures.resume
  | stackTrace => exact hasks _ Asks.stackTrace
  | scopes depth => exact hasks _ Asks.scopes
  | variablesAt reference => exact hasks _ Asks.variablesAt
  | event e => exact Ensures.handleEvent
  | sourceModified =>
    rintro _ _ _ ⟨⟩
    exact ⟨rfl, rfl⟩
  | terminate => exact Ensures.terminate

end Operation

end DatapackDebug
