import DatapackDebug.Proofs.Rollout

namespace DatapackDebug

/-!
# The installation of a datapack

The server calls `install` of the datapack that it has loaded.  Later it may load other datapacks of
the same session, and nothing is installed again.

* `Session.Calm` — what all operations do except a launch: they install nothing, and load what was
  written;
* `SessionM.Launches` — what a launch does, which installs a datapack as its last request;
* `Session.Installed` — the datapack was installed once, in every session that is active;
* `Session.Run.rolledOut` — all of this when the program goes on.
-/

open SessionM

variable {e : Exchange sessionSignature} {result : Except SessionError Unit} {g : Session → Session}
  {h₁ : History} {s₁ : Session} {op : Operation}

/-! ### Operations that install nothing -/

/-- Only a call of `install` counts as an installation. -/
theorem Milestone.eq_install_of_ofCall? {succeeded : Bool} {path : Text}
    (h : Milestone.ofCall? succeeded path = some .installed) : path = "install" := by
  unfold Milestone.ofCall? at h
  by_cases huninstall : (path == "uninstall") = true
  · rw [if_pos huninstall] at h
    cases h
  · rw [if_neg huninstall] at h
    by_cases hinstall : (path == "install") = true
    · exact beq_iff_eq.mp hinstall
    · rw [if_neg hinstall] at h
      repeat' split at h
      all_goals cases h

/-- A command that neither loads nor installs a datapack. -/
def ServerCommand.IsSilent (c : ServerCommand) : Prop :=
  c.command ≠ "reload" ∧ c.called? ≠ some (Text.ofString "install")

theorem ServerCommand.isSilent_of_head {c : ServerCommand} {b : UInt8}
    (hhead : c.command.head? = some b) (hreload : b ≠ 0x72) (hcall : b ≠ 0x66) : c.IsSilent := by
  refine ⟨(ServerCommand.isOther_of_head hhead hreload hcall).1, ?_⟩
  rw [ServerCommand.called?_eq_none hhead hcall]
  simp

theorem ServerCommand.isSilent_call {name ns call : Text} (path : Text)
    (hcall : call = 0x3a :: path) (hpath : 0x3a ∉ path) (hinstall : path ≠ "install") :
    ServerCommand.IsSilent ⟨name, "function " ++ ns ++ call⟩ := by
  refine ⟨fun h => ?_, ?_⟩
  · cases congrArg List.head? h
  · rw [ServerCommand.called?_call hcall hpath]
    simpa using hinstall

namespace Session

variable {r : Rollout} {s s' : Session} {h h₂ : History}

/-- Nothing is installed, nothing but what was written is loaded, and the session is active only if
    it was so before. -/
structure Calm (s : Session) (h : History) (s' : Session) : Prop where
  launch : s'.launch = s.launch
  status : s'.status = s.status ∨ s'.status = .terminated ∨
    s.status.isActive = true ∧ s'.status.isActive = true
  installs : .installed ∉ History.milestones h
  served : ∀ r : Rollout, r.served.isSome = true → (r.afterAll h).served.isSome = true

namespace Calm

theorem trans (hfirst : Calm s h₁ s₁) (hsecond : Calm s₁ h₂ s') : Calm s (h₁ ++ h₂) s' where
  launch := hsecond.launch.trans hfirst.launch
  status := by
    rcases hsecond.status with h | h | ⟨hbefore, hafter⟩
    · rw [h]
      exact hfirst.status
    · exact .inr (.inl h)
    · rcases hfirst.status with h' | h' | ⟨hactive, -⟩
      · exact .inr (.inr ⟨h' ▸ hbefore, hafter⟩)
      · rw [h'] at hbefore
        cases hbefore
      · exact .inr (.inr ⟨hactive, hafter⟩)
  installs := by
    rw [History.milestones_append, List.mem_append, not_or]
    exact ⟨hfirst.installs, hsecond.installs⟩
  served r hr := by
    rw [Rollout.afterAll_append]
    exact hsecond.served _ (hfirst.served r hr)

theorem cons (hfirst : Calm s [e] s₁) (hsecond : Calm s₁ h s') :
    Calm s (e :: h) s' := hfirst.trans hsecond

/-- Requests that neither install nor load anything. -/
theorem of_silent (hlaunch : s'.launch = s.launch)
    (hstatus : s'.status = s.status ∨ s'.status = .terminated ∨
      s.status.isActive = true ∧ s'.status.isActive = true)
    (hh : ∀ e ∈ h, loads e = false ∧ .installed ∉ exchangeMilestones e) : Calm s h s' where
  launch := hlaunch
  status := hstatus
  installs := by
    rw [History.milestones, List.mem_flatMap]
    rintro ⟨e, he, hinstalled⟩
    exact (hh e he).2 hinstalled
  served r hr := by
    rw [Rollout.served_afterAll fun e he => (hh e he).1]
    exact hr

theorem refl (s : Session) : Calm s [] s := of_silent rfl (.inl rfl) (by simp)

end Calm

end Session

namespace SessionM

open Session

variable {s s' : Session} {h : History} {source : Status} {commands : List ServerCommand}

theorem FailsTo.calm (hfails : FailsTo s h s') : Calm s h s' := by
  refine .of_silent hfails.keeps.launch (hfails.keeps.status.imp_right .inl) ?_
  cases hfails with
  | kept | ended => simp
  | reported => exact List.forall_mem_singleton.mpr ⟨rfl, by simp [exchangeMilestones]⟩

theorem Reloads.calm (hreloads : Reloads s h result s') : Calm s h s' := by
  cases hreloads with
  | unmodified | unlaunched => exact .of_silent rfl (.inl rfl) (by simp)
  | failed | reloaded =>
    refine .of_silent rfl (.inl rfl) (List.forall_mem_cons.mpr ⟨⟨rfl, List.not_mem_nil⟩, ?_⟩)
    exact List.forall_mem_singleton.mpr ⟨rfl, List.not_mem_nil⟩

theorem Generates.calm {m : BreakpointMap} (hgenerates : Generates m s h result s') :
    Calm s h s' := by
  cases hgenerates with
  | refused hcancelled =>
    refine .of_silent rfl (.inl rfl) fun e he => ?_
    obtain ⟨q, reply⟩ := e
    cases hcancelled _ he
    exact ⟨rfl, List.not_mem_nil⟩
  | failed | written =>
    refine .of_silent rfl (.inl rfl) (List.forall_mem_cons.mpr ⟨⟨rfl, List.not_mem_nil⟩, ?_⟩)
    exact List.forall_mem_singleton.mpr ⟨rfl, List.not_mem_nil⟩

theorem Updates.calm (hupdates : Updates s h result s') : Calm s h s' := by
  cases hupdates with
  | outdated hreloads => exact hreloads.calm
  | current hreloads => exact hreloads.calm
  | unwritten hreloads hgenerates => exact hreloads.calm.trans hgenerates.calm
  | @unloaded _ _ _ failure _ _ s₂ _ hreloads hgenerates hfails =>
    refine hreloads.calm.trans (hgenerates.calm.trans (Calm.cons ?_ hfails.calm))
    refine .of_silent rfl (.inl rfl) (List.forall_mem_singleton.mpr ⟨rfl, ?_⟩)
    rw [milestones_reloadRequest]
    exact List.not_mem_nil
  | @loaded h₁ h₂ s₁ s₂ hreloads hgenerates =>
    refine hreloads.calm.trans ?_
    have hcalm := hgenerates.calm
    refine ⟨hcalm.launch, hcalm.status, ?_, fun r _ => ?_⟩
    · rw [History.milestones_append, hgenerates.alike.2, History.milestones_cons,
        milestones_reloadRequest]
      exact List.not_mem_nil
    · -- What the server loads now was written just before.
      obtain ⟨l, objectives, -, ⟨pack, -, hwritten⟩, -⟩ := hgenerates.holds r.toDeployment
      rw [Rollout.afterAll_append, Rollout.afterAll_cons,
        ((r.afterAll h₂).served_after_reload s' (List.forall_mem_nil _)).2,
        Rollout.toDeployment_afterAll, hwritten]
      rfl

theorem Asks.calm {α : Type} {result : Except SessionError α} (hasks : Asks s h result s') :
    Calm s h s' := by
  have hquery : ∀ (h : History) (stop : Option Stop), (∀ e ∈ h, e.1.IsQuery) →
      Calm s h { s with stop } := by
    refine fun h stop hh => .of_silent rfl (.inl rfl) fun e he => ?_
    obtain ⟨q, reply⟩ := e
    have hq := hh _ he
    cases q with
    | query commands last => exact ⟨rfl, List.not_mem_nil⟩
    | _ => cases hq
  cases hasks with
  | answered stop hh => exact hquery _ stop hh
  | failed h₁ stop hh _ hfails => exact (hquery h₁ stop hh).trans hfails.calm

/-- Injecting commands that neither install nor load a datapack. -/
theorem silent_inject (hcommands : ∀ c ∈ commands, c.IsSilent) (reply : Option ConnectionError) :
    loads ⟨.inject commands, reply⟩ = false ∧
      .installed ∉ exchangeMilestones ⟨.inject commands, reply⟩ := by
  refine ⟨?_, fun hinstalled => ?_⟩
  · cases reply with
    | none => exact List.any_eq_false.mpr fun c hc => by simpa using (hcommands c hc).1
    | some _ => rfl
  · obtain ⟨c, hc, hcall⟩ := List.mem_filterMap.mp hinstalled
    obtain ⟨path, hpath, hcall⟩ := Option.bind_eq_some_iff.mp hcall
    exact (hcommands c hc).2 (Milestone.eq_install_of_ofCall? hcall ▸ hpath)

theorem calm_inject (hcommands : ∀ c ∈ commands, c.IsSilent) (reply : Option ConnectionError) :
    Calm s [⟨.inject commands, reply⟩] s :=
  .of_silent rfl (.inl rfl) (List.forall_mem_singleton.mpr (silent_inject hcommands reply))

theorem calm_notify (event : SessionEvent) : Calm s [⟨.notify event, ()⟩] s :=
  .of_silent rfl (.inl rfl) (List.forall_mem_singleton.mpr ⟨rfl, by simp [exchangeMilestones]⟩)

theorem Goes.silent (hgoes : Goes s source commands s') : ∀ c ∈ commands, c.IsSilent := by
  cases hgoes with
  | start =>
    refine List.forall_mem_cons.mpr ⟨?_, List.forall_mem_singleton.mpr ?_⟩
    · exact ServerCommand.isSilent_of_head rfl (by decide) (by decide)
    · exact ServerCommand.isSilent_call "schedule" rfl (by decide) (by decide)
  | resume =>
    refine List.forall_mem_singleton.mpr ?_
    exact ServerCommand.isSilent_call "resume_self" rfl (by decide) (by decide)

/-- The program runs from now on, if it did not do so before. -/
theorem Goes.calm (hgoes : Goes s source commands s') : Calm s [] s' := by
  have hrunning : ∀ {source : Status} {stop : Option Stop} {scheduled : Bool},
      source.isActive = true → Calm s [] (s.runningFrom source stop scheduled) := by
    intro source stop scheduled hsource
    refine .of_silent rfl ?_ (by simp)
    rw [runningFrom, Status.transfer?]
    by_cases hstatus : s.status.isOneOf [source] = true
    · have hactive : s.status = source := by simpa using hstatus
      rw [if_pos hstatus, hactive]
      exact .inr (.inr ⟨hsource, rfl⟩)
    · rw [if_neg hstatus]
      exact .inl rfl
  cases hgoes <;> exact hrunning rfl

theorem Continues.calm (hcontinues : Continues source s h s') : Calm s h s' := by
  cases hcontinues with
  | outdated hupdates => exact hupdates.calm
  | failed hupdates hgoes hfails =>
    exact hupdates.calm.trans (.cons (calm_inject hgoes.silent _) hfails.calm)
  | done hupdates hgoes => exact hupdates.calm.trans (.cons (calm_inject hgoes.silent _) hgoes.calm)

theorem Configures.calm (hconfigures : Configures s h s') : Calm s h s' := by
  have hnoted : Calm s [] { s with configured := true } := .of_silent rfl (.inl rfl) (by simp)
  cases hconfigures with
  | noted => exact hnoted
  | started _ hcontinues => exact hnoted.trans hcontinues.calm

theorem Resumes.calm (hresumes : Resumes s h s') : Calm s h s' := by
  have hdepth : ∀ (s : Session) (depth : Option Int), Calm s [] { s with stepDepth := depth } :=
    fun s depth => .of_silent rfl (.inl rfl) (by simp)
  cases hresumes with
  | refused => exact .refl s
  | unasked _ hasks => exact (hdepth s none).trans hasks.calm
  | resumed depth _ hasks hcontinues =>
    exact ((hdepth s none).trans hasks.calm).trans ((hdepth _ depth).trans hcontinues.calm)

theorem Moves.calm {f : ResourceName} {old new : Breakpoints} (hmoves : Moves f old new s h s') :
    Calm s h s' := by
  have hmoved : Calm s [] (s.withMovedStop f (old.moves new)) := .of_silent rfl (.inl rfl) (by simp)
  have hsilent : ∀ c ∈ (old.moves new).flatMap (moveCommands s.ns f), c.IsSilent := fun c hc =>
    ServerCommand.isSilent_of_head (head?_moveCommands hc) (by decide) (by decide)
  cases hmoves with
  | unmoved => exact hmoved
  | failed hfails => exact hmoved.trans (.cons (calm_inject hsilent _) hfails.calm)
  | moved => exact hmoved.trans (calm_inject hsilent _)

theorem Places.calm {α : Type} {result : Except SessionError α} (hplaces : Places s h result s') :
    Calm s h s' := by
  have hplaced : ∀ (s : Session) f lines, Calm s [] (s.withBreakpoints f lines) :=
    fun s f lines => .of_silent rfl (.inl rfl) (by simp)
  cases hplaces with
  | refused => exact .refl s
  | unplaced _ hreloads => exact hreloads.calm
  | moved _ hreloads _ hmoves => exact hreloads.calm.trans ((hplaced _ _ _).trans hmoves.calm)
  | updated _ hreloads hupdates => exact hreloads.calm.trans ((hplaced _ _ _).trans hupdates.calm)

theorem Handles.calm {e : LogEvent} (hhandles : Handles e s h s') : Calm s h s' := by
  have hstopped : ∀ f p, s.status = .running → Calm s [] (s.stoppedAt f p) := by
    refine fun f p hrunning => .of_silent rfl (.inr (.inr ⟨?_, rfl⟩)) (by simp)
    rw [hrunning]
    rfl
  cases hhandles with
  | ignored => exact .refl s
  | exited | ended =>
    refine .of_silent rfl (.inr (.inl rfl)) ?_
    simp [loads, exchangeMilestones]
  | unasked _ hrunning _ hasks => exact (hstopped _ _ hrunning).trans hasks.calm
  | stopped _ hrunning _ hasks =>
    exact ((hstopped _ _ hrunning).trans hasks.calm).trans (calm_notify _)

theorem CleansUp.calm {l : Launch} (hcleans : CleansUp l h) :
    Calm s h { s with cleanedUp := true } := by
  have huninstall : ServerCommand.IsSilent ⟨l.ns, "function " ++ l.ns ++ ":uninstall"⟩ :=
    ServerCommand.isSilent_call "uninstall" rfl (by decide) (by decide)
  have hdisable : ServerCommand.IsSilent ⟨l.ns, "datapack disable " ++ packArgument l.output⟩ :=
    ServerCommand.isSilent_of_head rfl (by decide) (by decide)
  refine .of_silent rfl (.inl rfl) ?_
  cases hcleans with
  | lost =>
    refine List.forall_mem_cons.mpr ⟨silent_inject (List.forall_mem_singleton.mpr huninstall) _, ?_⟩
    simp [loads, exchangeMilestones]
  | done =>
    refine List.forall_mem_cons.mpr ⟨silent_inject (List.forall_mem_singleton.mpr huninstall) _,
      List.forall_mem_cons.mpr ⟨silent_inject (List.forall_mem_singleton.mpr hdisable) _, ?_⟩⟩
    simp [loads, exchangeMilestones]

theorem Terminates.calm (hterminates : Terminates s h s') : Calm s h s' := by
  cases hterminates with
  | again hfails => exact hfails.calm
  | cleaned _ hcleans hfails => exact hcleans.calm.trans hfails.calm

/-- The operation is calm, from whichever session it starts. -/
def Calms {α : Type} (m : SessionM α) : Prop := ∀ s, m.Ensures s fun h _ s' => Calm s h s'

/-! ### The launch -/

/-- What a launch leads to before the debugged function is started. -/
inductive Launches (s : Session) : History → Except SessionError Unit → Session → Prop where
  | refused {e : SessionError} : Launches s [] (.error e) s
  | failed {h : History} {e : SessionError} {s' : Session} : s.status = .initialized →
      s'.status = .initialized ∨ s'.status = .terminated → .installed ∉ History.milestones h →
      (∀ x ∈ h, ¬x.1.GoesOn) → Launches s h (.error e) s'
  | installed {h : History} {s' : Session} : s.status = .initialized → s'.status = .launched →
      Step (fun _ => True) s h s' →
      (∀ r : Rollout, (r.afterAll h).served.isSome = true ∧
        (r.afterAll h).installs = r.installs ++ [(r.afterAll h).served]) →
      Launches s h (.ok ()) s'

/-- What is asked before the datapack is installed. -/
structure Prelude (h : History) : Prop where
  milestones : History.milestones h = []
  stays : ∀ x ∈ h, ¬x.1.GoesOn

theorem Prelude.append {h₂ : History} (hfirst : Prelude h₁) (hsecond : Prelude h₂) :
    Prelude (h₁ ++ h₂) := by
  refine ⟨?_, List.forall_mem_append.mpr ⟨hfirst.stays, hsecond.stays⟩⟩
  rw [History.milestones_append, hfirst.milestones, hsecond.milestones]
  rfl

theorem Prepares.prelude {l : Launch} (hstatus : s.status = .initialized)
    (hprepares : Prepares s l h result s') : Prelude h :=
  ⟨hprepares.alike.2, (hprepares.steps (V := fun _ => True) hstatus).not_goesOn⟩

theorem Interrupts.prelude {l : Launch} (hinterrupts : Interrupts s l h) : Prelude h :=
  ⟨hinterrupts.silent, (hinterrupts.steps (V := fun _ => True)).not_goesOn⟩

/-- What was written is loaded, and then installed. -/
theorem Prelude.installation {r : Rollout} {e₁ e₂ : Exchange sessionSignature}
    (hprelude : Prelude (h ++ [⟨reloadRequest s, (none : Option ConnectionError)⟩, e₁]))
    (hwritten : (r.afterAll h).written.isSome = true) (he₁ : e₁.1.IsOther) (he₂ : e₂.1.IsOther)
    (hinstalled : .installed ∈ exchangeMilestones e₂) :
    let r' := r.afterAll (h ++ [⟨reloadRequest s, (none : Option ConnectionError)⟩, e₁, e₂])
    r'.served.isSome = true ∧ r'.installs = r.installs ++ [r'.served] := by
  intro r'
  let r₁ := r.afterAll (h ++ [⟨reloadRequest s, (none : Option ConnectionError)⟩, e₁])
  have hlast : r' = r₁.after e₂ := by
    show r.afterAll (h ++ ([_, e₁] ++ [e₂])) = _
    rw [← List.append_assoc, Rollout.afterAll_append]
    rfl
  have hserved₁ : r₁.served = (r.afterAll h).written := by
    show (r.afterAll (h ++ [_, e₁])).served = _
    rw [Rollout.afterAll_append, Rollout.afterAll_cons]
    exact ((r.afterAll h).served_after_reload s (List.forall_mem_singleton.mpr he₁)).2
  have hserved : r'.served = r₁.served := by
    rw [hlast]
    exact Rollout.served_after_of_not_loads (not_loads_of_isOther he₂)
  refine ⟨by rw [hserved, hserved₁, hwritten], ?_⟩
  have hinstalls₁ : r₁.installs = r.installs :=
    Rollout.installs_afterAll (by rw [hprelude.milestones]; exact List.not_mem_nil)
  rw [hserved, ← hinstalls₁, hlast]
  exact if_pos hinstalled

/-- No program goes on before the installation. -/
theorem Launches.not_goesOn (hlaunches : Launches s h result s') : ∀ x ∈ h, ¬x.1.GoesOn := by
  cases hlaunches with
  | refused => simp
  | failed _ _ _ hstays => exact hstays
  | installed _ _ hstep => exact hstep.not_goesOn

/-- A launch that fails before the installation. -/
theorem Launches.of_fails {h₂ : History} {e : SessionError} (hstatus : s.status = .initialized)
    (hstatus₁ : s₁.status = .initialized) (hprelude : Prelude h₁) (hfails : FailsTo s₁ h₂ s') :
    Launches s (h₁ ++ h₂) (.error e) s' := by
  refine .failed hstatus (hstatus₁ ▸ hfails.keeps.status) ?_ ?_
  · rw [History.milestones_append, hprelude.milestones]
    exact hfails.calm.installs
  · exact List.forall_mem_append.mpr ⟨hprelude.stays, fun x hx => (hfails.isOther x hx).not_goesOn⟩

theorem Launches.of_prelude {e : SessionError} (hstatus : s.status = .initialized)
    (hstatus₁ : s₁.status = .initialized) (hprelude : Prelude h) : Launches s h (.error e) s₁ := by
  rw [← List.append_nil h]
  exact .of_fails hstatus hstatus₁ hprelude .kept

theorem Installing.launches (hinstalling : Installing s h result s') : Launches s h result s' := by
  cases hinstalling with
  | refused => exact .refused
  | unprepared hstatus hprepares =>
    exact .of_prelude hstatus (hprepares.alike.1.status.trans hstatus) (hprepares.prelude hstatus)
  | interrupted hstatus hprepares hinterrupts hfails =>
    rw [← List.append_assoc]
    exact .of_fails hstatus (hprepares.alike.1.status.trans hstatus)
      ((hprepares.prelude hstatus).append hinterrupts.prelude) hfails
  | @installed l h s₁ hstatus hprepares =>
    refine .installed hstatus rfl (hprepares.installed hstatus) fun r => ?_
    -- None of the requests before the last one is seen.
    have hunseen : Prelude [⟨reloadRequest s₁, none⟩, ⟨enableRequest s₁ l, none⟩] := by
      refine ⟨?_, List.forall_mem_cons.mpr ⟨not_goesOn_reloadRequest s₁,
        List.forall_mem_singleton.mpr (isOther_enableRequest s₁ l).not_goesOn⟩⟩
      rw [History.milestones_cons, milestones_reloadRequest, History.milestones_cons,
        milestones_enableRequest]
      rfl
    refine Prelude.installation ((hprepares.prelude hstatus).append hunseen) ?_
      (isOther_enableRequest s₁ l) (isOther_installRequest s₁ l) ?_
    · cases hprepares with
      | generated _ hgenerates =>
        obtain ⟨_, _, -, ⟨pack, -, hpack⟩, -⟩ := hgenerates.holds r.toDeployment
        rw [Rollout.toDeployment_afterAll]
        exact Option.isSome_of_eq_some hpack
    · rw [milestones_installRequest]
      exact List.mem_singleton_self _

end SessionM

/-! ### Runs -/

open Session

/-- No operation but a launch installs a datapack. -/
theorem Operation.calms (hop : ∀ o, op ≠ .launch o) : Calms op.perform := by
  refine fun s => Operation.leads.mono fun h result s' hleads => ?_
  cases op with
  | launch o => exact absurd rfl (hop o)
  | configurationDone => exact Configures.calm hleads
  | setBreakpoints source lines => exact Places.calm hleads
  | resume step => exact Resumes.calm hleads
  | stackTrace | scopes | variablesAt => exact Asks.calm hleads
  | event e => exact Handles.calm hleads
  | sourceModified =>
    obtain ⟨rfl, rfl⟩ := hleads
    exact .of_silent rfl (.inl rfl) (by simp)
  | terminate => exact Terminates.calm hleads

namespace Session

variable {log : List (Operation × History)}

/-- Before the launch nothing is installed.  A session that is active has installed one datapack,
    and the server has loaded one that was written. -/
structure Installed (r : Rollout) (s : Session) : Prop where
  before : s.status = .initialized → r.installs = []
  once : s.status.isActive = true → r.served.isSome = true ∧ ∃ l functions x,
    s.launch = some l ∧ l.Deploys functions x ∧ r.installs = [x]

variable {r : Rollout} {s s' : Session} {h h₂ : History}

theorem Installed.initial (g : Grammar) : Installed {} { grammar := g } :=
  ⟨fun _ => rfl, (by cases ·)⟩

/-- What installs nothing keeps the datapack installed. -/
theorem Installed.calm (hs : Installed r s) (hcalm : Calm s h s') :
    Installed (r.afterAll h) s' := by
  have hinstalls := Rollout.installs_afterAll (r := r) hcalm.installs
  have hkept : s.status.isActive = true → (r.afterAll h).served.isSome = true ∧ ∃ l functions x,
      s'.launch = some l ∧ l.Deploys functions x ∧ (r.afterAll h).installs = [x] := by
    intro hactive
    rw [hinstalls, hcalm.launch]
    exact ⟨hcalm.served r (hs.once hactive).1, (hs.once hactive).2⟩
  refine ⟨fun hstatus => ?_, fun hactive => ?_⟩
  · rw [hinstalls]
    rcases hcalm.status with h | h | ⟨-, h⟩
    · exact hs.before (h ▸ hstatus)
    · rw [hstatus] at h
      cases h
    · rw [hstatus] at h
      cases h
  · rcases hcalm.status with h | h | ⟨h, -⟩
    · exact hkept (h ▸ hactive)
    · rw [h] at hactive
      cases hactive
    · exact hkept h

/-- A launch installs the datapack that it has written. -/
theorem Installed.launches (hs : Installed r s) (hserved : Served r s)
    (hnames : SessionM.NamesIn ResourceName.Valid h) (hlaunches : Launches s h result s') :
    Installed (r.afterAll h) s' := by
  cases hlaunches with
  | refused => exact hs
  | failed hstatus hstatus' hinstalls =>
    refine ⟨fun _ => ?_, fun hactive => ?_⟩
    · rw [Rollout.installs_afterAll hinstalls]
      exact hs.before hstatus
    · rcases hstatus' with h | h <;> rw [h] at hactive <;> cases hactive
  | installed hstatus hstatus' hstep hinstalls =>
    obtain ⟨hsome, hinstalls⟩ := hinstalls r
    have hactive : s'.status.isActive = true := by
      rw [hstatus']
      rfl
    obtain ⟨l, functions, hl, hdeploys⟩ := (hserved.step hnames hstep).served hactive hsome
    refine ⟨fun h => ?_, fun _ => ⟨hsome, l, functions, _, hl, hdeploys, ?_⟩⟩
    · rw [hstatus'] at h
      cases h
    · rw [hinstalls, hs.before hstatus]
      rfl

/-- An operation that lets the program go on, and is no launch, starts from a session that is
    active. -/
theorem isActive_of_goesOn (hop : ∀ o, op ≠ .launch o) (hyields : op.perform.Yields s h result s')
    (he : e ∈ h) (hgo : e.1.GoesOn) : s.status.isActive = true := by
  have hsteps : ¬Steps (fun _ => True) s h s' := fun hsteps => hsteps.not_goesOn e he hgo
  have hleads := Operation.leads _ _ _ hyields
  cases op with
  | launch o => exact absurd rfl (hop o)
  | configurationDone =>
    cases (hleads : Configures s h s') with
    | noted => cases he
    | started hlaunched =>
      rw [hlaunched]
      rfl
  | resume step =>
    cases (hleads : SessionM.Resumes s h s') with
    | refused => cases he
    | unasked hstopped | resumed _ hstopped =>
      rw [hstopped]
      rfl
  | setBreakpoints source lines => exact absurd (Places.steps hleads) hsteps
  | stackTrace | scopes | variablesAt => exact absurd (Asks.quiet hleads).steps hsteps
  | event e' => exact absurd (Handles.steps (Operation.namesIn_true (.event e')) hleads) hsteps
  | sourceModified =>
    rw [hleads.1] at he
    cases he
  | terminate => exact absurd (Terminates.steps hleads) hsteps

/-- An operation keeps to datapacks of the session. -/
theorem Served.does {V : ResourceName → Prop} (hs : Served r s)
    (hnames : SessionM.NamesIn ResourceName.Valid h) (hdoes : op.Does V s h s') :
    Served (r.afterAll h) s' := by
  rcases hdoes with ⟨s₁, h₁, h₂, rfl, hsteps, hlast⟩ | ⟨-, rfl, rfl⟩
  case inr => exact { hs with }
  have hs₁ : Served (r.afterAll h₁) s₁ := hs.steps (namesIn_append.mp hnames).1 hsteps
  rcases hlast with ⟨rfl, rfl⟩ | hgoing
  · rwa [List.append_nil]
  · obtain ⟨commands, reply, rest, rfl, -, hrest⟩ := hgoing.exchanges
    have hkept := Rollout.afterAll_of_isOther
      (r := (r.afterAll h₁).after ⟨.inject commands, reply⟩) hrest
    rw [Rollout.afterAll_append, Rollout.afterAll_cons]
    exact ((hs₁.command commands reply).congr (congrArg Deployment.written hkept.1) hkept.2).carries
      hgoing.carries

/-- An operation installs a datapack at most once, and only if none was installed before. -/
theorem Installed.performed (hs : Installed r s) (hserved : Served r s)
    (hnames : SessionM.NamesIn ResourceName.Valid h) (hop : op.perform.Yields s h result s') :
    Installed (r.afterAll h) s' := by
  by_cases hlaunch : ∃ o, op = .launch o
  · obtain ⟨o, rfl⟩ := hlaunch
    cases (Operation.leads _ _ _ hop : Launching s h s') with
    | installed hinstalling => exact hs.launches hserved hnames hinstalling.launches
    | started hinstalling _ hcontinues =>
      rw [Rollout.afterAll_append]
      exact (hs.launches hserved (namesIn_append.mp hnames).1 hinstalling.launches).calm
        hcontinues.calm
  · exact hs.calm (Operation.calms (fun o ho => hlaunch ⟨o, ho⟩) _ _ _ _ hop)

/-- Every session of a run has one datapack installed, and datapacks of its own on the server. -/
theorem Run.installed (hrun : Run s log s')
    (hnames : ∀ x ∈ log, SessionM.NamesIn ResourceName.Valid x.2) (hserved : Served r s)
    (hs : Installed r s) :
    Served (r.afterAll (log.flatMap (·.2))) s' ∧ Installed (r.afterAll (log.flatMap (·.2))) s' := by
  induction hrun generalizing r with
  | nil => exact ⟨hserved, hs⟩
  | @cons _ op _ _ _ _ _ hop _ ih =>
    obtain ⟨hh, hrest⟩ := List.forall_mem_cons.mp hnames
    rw [List.flatMap_cons, Rollout.afterAll_append]
    have hdoes := Operation.performed op.namesIn_true _ _ _ hop
    exact ih hrest (hserved.does hh hdoes) (hs.performed hserved hh hop)

/-- One datapack of the session was installed, another one may be loaded; if what is written is
    known, it is the datapack of the functions of the session. -/
structure RolledOut (r : Rollout) (s : Session) (l : Launch) (first now : Functions) : Prop where
  launch : s.launch = some l
  installed : ∃ x, l.Deploys first x ∧ r.installs = [x]
  served : l.Deploys now r.served
  written : r.written.isSome = true → l.Deploys s.functions r.written

/-- When the program goes on. -/
theorem Performs.rolledOut {V : ResourceName → Prop} (hs : Served r s) (hinstalled : Installed r s)
    (hactive : s.status.isActive = true) (hnames : SessionM.NamesIn ResourceName.Valid h₁)
    (hcalm : Calm s (h₁ ++ e :: h₂) s') (hperforms : Performs V s (h₁ ++ e :: h₂) s')
    (he : e.1.GoesOn) : ∃ l first now, RolledOut (r.afterAll h₁) s' l first now := by
  obtain ⟨s₁, hsteps, hgoing⟩ := hperforms.going he
  have hs₁ : Served (r.afterAll h₁) s₁ := hs.steps hnames hsteps
  obtain ⟨hsome, l, first, x, hl, hdeploys, hinstalls⟩ := hinstalled.once hactive
  have hlaunch : s'.launch = some l := hcalm.launch.trans hl
  have hlaunch₁ : s₁.launch = some l := hgoing.carries.launch ▸ hlaunch
  -- Nothing is loaded by the command that lets the program go on, nor after it.
  have hserved : (r.afterAll h₁).served.isSome = true := by
    have hlast := hcalm.served r hsome
    obtain ⟨commands, reply, rest, heq, hcommands, hrest⟩ := hgoing.exchanges
    rw [Rollout.afterAll_append, Rollout.served_afterAll] at hlast
    · exact hlast
    · rw [heq]
      refine List.forall_mem_cons.mpr ⟨?_, fun x hx => not_loads_of_isOther (hrest x hx)⟩
      cases reply with
      | none => exact List.any_eq_false.mpr fun c hc => by simpa using hcommands c hc
      | some _ => rfl
  obtain ⟨l', now, hl', hnow⟩ := hs₁.served hgoing.active hserved
  cases hlaunch₁.symm.trans hl'
  refine ⟨l, first, now, hlaunch, ⟨x, hdeploys, ?_⟩, hnow, fun hwritten => ?_⟩
  · have hcalm₁ := hcalm.installs
    rw [History.milestones_append, List.mem_append, not_or] at hcalm₁
    rw [Rollout.installs_afterAll hcalm₁.1, hinstalls]
  · obtain ⟨l', functions, hl', hdeploys, hcurrent⟩ := hs₁.written hgoing.active hwritten
    cases hlaunch₁.symm.trans hl'
    rw [hgoing.carries.functions, ← hcurrent hgoing.current]
    exact hdeploys

/-- Whenever the program goes on after a run in which any request may have failed, one datapack of
    the session was installed and one is loaded. -/
theorem Run.rolledOut {g : Grammar} (hrun : Run { grammar := g } log s)
    (hnames : NamesIn ResourceName.Valid (log ++ [(op, h₁)]))
    (hop : op.perform.Yields s (h₁ ++ e :: h₂) result s') (he : e.1.GoesOn) :
    ∃ l first now, RolledOut (Rollout.afterAll {} (log.flatMap (·.2) ++ h₁)) s' l first now := by
  obtain ⟨hlog, hlast⟩ := List.forall_mem_append.mp hnames
  have hh₁ : SessionM.NamesIn ResourceName.Valid h₁ := (List.forall_mem_singleton.mp hlast).2
  obtain ⟨hserved, hinstalled⟩ :=
    hrun.installed (fun x hx => (hlog x hx).2) (.initial {} g) (.initial g)
  rw [Rollout.afterAll_append]
  by_cases hlaunch : ∃ o, op = .launch o
  · obtain ⟨o, rfl⟩ := hlaunch
    have hlaunching : Launching s (h₁ ++ e :: h₂) s' := Operation.leads _ _ _ hop
    generalize heq : h₁ ++ e :: h₂ = h at hlaunching
    -- The program is started after the installation, if at all.
    cases hlaunching with
    | installed hinstalling => exact absurd he (hinstalling.launches.not_goesOn e (heq ▸ by simp))
    | @started h₃ h₄ s₁ _ hinstalling _ hcontinues =>
      have hinstall : e ∉ h₃ := fun hmem => hinstalling.launches.not_goesOn e hmem he
      obtain ⟨h₅, rfl, rfl⟩ : ∃ h₅, h₁ = h₃ ++ h₅ ∧ h₄ = h₅ ++ e :: h₂ := by
        rcases List.append_eq_append_iff.mp heq with ⟨as, rfl, has⟩ | ⟨bs, rfl, hbs⟩
        · cases as with
          | nil => exact ⟨[], by simp, by simpa using has.symm⟩
          | cons x as =>
            cases (List.cons.inj has).1
            simp at hinstall
        · exact ⟨bs, rfl, hbs⟩
      obtain ⟨hnames₃, hnames₅⟩ := namesIn_append.mp hh₁
      have hactive : s₁.status.isActive = true := by
        cases hinstalling with
        | installed => rfl
      rw [Rollout.afterAll_append]
      exact Performs.rolledOut (hserved.steps hnames₃ (hinstalling.steps (V := fun _ => True)))
        (hinstalled.launches hserved hnames₃ hinstalling.launches) hactive hnames₅ hcontinues.calm
        (hcontinues.performs (V := fun _ => True) hactive) he
  · have hother : ∀ o, op ≠ .launch o := fun o ho => hlaunch ⟨o, ho⟩
    have hactive := isActive_of_goesOn hother hop (by simp) he
    rcases Operation.performed op.namesIn_true _ _ _ hop with hperforms | ⟨-, hnil, -⟩
    · exact Performs.rolledOut hserved hinstalled hactive hh₁ (Operation.calms hother _ _ _ _ hop)
        hperforms he
    · simp at hnil

end Session

end DatapackDebug
