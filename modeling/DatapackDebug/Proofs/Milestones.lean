import DatapackDebug.Proofs.Names
import DatapackDebug.Proofs.Operations

namespace DatapackDebug

/-!
# Milestones of sessions

What a session does can be seen from outside: the commands that it injects, the events that it
reports, and the reports of the server that it accepts.

* `Milestone`, `Operation.milestones` — what can be seen of an operation;
* `Phase`, `Phase.Leads` — how far a session is, and which milestones lead from one phase to
  another;
* `Session.Passes` — a part of an operation leads on, and leaves a session that is consistent;
* `Operation.passes` — every operation does, whatever the host replies;
* `Session.Course`, `Session.Course.leads` — the milestones of operations one after the other.
-/

open SessionM

variable {ns : Text} {commands : List ServerCommand} {r : Except SessionError Unit} {s₁ : Session}
  {reply : Option ConnectionError}

/-! ### Milestones -/

/-- What can be seen in the course of a session. -/
inductive Milestone where
  /-- the server has installed the datapack -/
  | installed
  /-- the client has set its breakpoints -/
  | configured
  /-- the server has started the debugged function -/
  | started
  /-- the report of a stop was accepted -/
  | stopped
  /-- the server has resumed the program -/
  | resumed
  /-- the report of the end of the debugged function was handled -/
  | exit
  /-- the server was asked to uninstall the datapack -/
  | uninstalled
  /-- something was reported to the client -/
  | reported (e : SessionEvent)
deriving DecidableEq, Repr

/-- The path of the function that a command calls. -/
def ServerCommand.called? (c : ServerCommand) : Option Text := do
  let name ← Text.dropStart? "function " c.command
  let (_, path) ← Text.cutLast? ':' name
  some path

/-- What the call of a function means.  An attempt to uninstall the datapack counts even if it
    fails. -/
def Milestone.ofCall? (succeeded : Bool) (path : Text) : Option Milestone :=
  if path == "uninstall" then some .uninstalled
  else if !succeeded then none
  else if path == "install" then some .installed
  else if path == "schedule" then some .started
  else if path == "resume_self" then some .resumed
  else none

/-- What can be seen of injected commands. -/
def injectionMilestones (commands : List ServerCommand) (reply : Option ConnectionError) :
    List Milestone :=
  commands.filterMap fun c => c.called?.bind (Milestone.ofCall? reply.isNone)

/-- What can be seen of an exchange. -/
def exchangeMilestones : Exchange sessionSignature → List Milestone
  | ⟨.inject commands, reply⟩ => injectionMilestones commands reply
  | ⟨.notify e, _⟩ => [.reported e]
  | _ => []

/-- What can be seen of exchanges. -/
def SessionM.History.milestones (h : History) : List Milestone := h.flatMap exchangeMilestones

/-- What can be seen when an operation starts.  The report of a stop is accepted while the program
    runs. -/
def Operation.opening (op : Operation) (s : Session) : List Milestone :=
  match op with
  | .configurationDone => [.configured]
  | .event e =>
    if e.isExit s.ns then [.exit]
    else if s.status == .running && e.isStop s.ns then [.stopped]
    else []
  | _ => []

/-- What can be seen of an operation. -/
def Operation.milestones (op : Operation) (s : Session) (h : History) : List Milestone :=
  op.opening s ++ History.milestones h

/-! ### Milestones of commands -/

theorem SessionM.History.milestones_append (h₁ h₂ : History) :
    History.milestones (h₁ ++ h₂) = History.milestones h₁ ++ History.milestones h₂ :=
  List.flatMap_append

theorem SessionM.History.milestones_cons (e : Exchange sessionSignature) (h : History) :
    History.milestones (e :: h) = exchangeMilestones e ++ History.milestones h :=
  List.flatMap_cons

namespace ServerCommand

/-- The path of a function is what follows the last colon. -/
theorem called?_call {name call path : Text} (hcall : call = 0x3a :: path) (hpath : 0x3a ∉ path) :
    called? ⟨name, "function " ++ ns ++ call⟩ = some path := by
  unfold called?
  rw [hcall, List.append_assoc, Text.dropStart?_append]
  show (Text.cutLast? 0x3a (ns ++ 0x3a :: path)).bind (fun parts => some parts.2) = some path
  rw [Text.cutLast?_append hpath]
  rfl

/-- Calls of functions are told by their first byte. -/
theorem called?_eq_none {c : ServerCommand} {b : UInt8} (hhead : c.command.head? = some b)
    (hb : b ≠ 0x66) : c.called? = none := by
  obtain ⟨name, command⟩ := c
  cases command with
  | nil => cases hhead
  | cons a rest =>
    cases hhead
    have hdrop : Text.dropStart? "function " (b :: rest) = none := if_neg (by simpa using hb.symm)
    show (Text.dropStart? "function " (b :: rest)).bind _ = none
    rw [hdrop]
    rfl

end ServerCommand

/-- Commands that call no function are not seen. -/
theorem injectionMilestones_eq_nil (h : ∀ c ∈ commands, c.called? = none) :
    injectionMilestones commands reply = [] := by
  refine List.filterMap_eq_nil_iff.mpr fun c hc => ?_
  rw [h c hc]
  rfl

/-- What is seen of the call of a function. -/
theorem injectionMilestones_call {name call path : Text} (hother : ∀ c ∈ commands, c.called? = none)
    (hcall : call = 0x3a :: path) (hpath : 0x3a ∉ path) :
    injectionMilestones (commands ++ [⟨name, "function " ++ ns ++ call⟩]) reply =
      (Milestone.ofCall? reply.isNone path).toList := by
  have hnone : injectionMilestones commands reply = [] := injectionMilestones_eq_nil hother
  unfold injectionMilestones at hnone ⊢
  rw [List.filterMap_append, hnone, List.nil_append, List.filterMap_cons,
    ServerCommand.called?_call hcall hpath, Option.bind_some]
  cases Milestone.ofCall? reply.isNone path <;> rfl

/-! ### Phases -/

/-- How far a session is. -/
structure Phase where
  status : Status
  configured : Bool
  cleanedUp : Bool
  endReported : Bool
deriving DecidableEq, Repr

/-- How far the session is. -/
def Session.phase (s : Session) : Phase := ⟨s.status, s.configured, s.cleanedUp, s.endReported⟩

/-- Which milestones lead from one phase to another.  A session may end at any time, and there is no
    guard on the report that the debugged function has ended. -/
inductive Phase.Leads : Phase → List Milestone → Phase → Prop where
  | refl {p} : Leads p [] p
  | installed {p ms q} : p.status = .initialized → Leads { p with status := .launched } ms q →
      Leads p (.installed :: ms) q
  | configured {p ms q} : Leads { p with configured := true } ms q → Leads p (.configured :: ms) q
  | started {p ms q} : p.status = .launched → p.configured = true →
      Leads { p with status := .running } ms q → Leads p (.started :: ms) q
  | stopped {p ms q} : p.status = .running → Leads { p with status := .stopped } ms q →
      Leads p (.stopped :: ms) q
  | resumed {p ms q} : p.status = .stopped → Leads { p with status := .running } ms q →
      Leads p (.resumed :: ms) q
  | reportedStop {p ms q reason path line} : p.status = .stopped → Leads p ms q →
      Leads p (.reported (.stopped reason path line) :: ms) q
  | ended {p ms q} : Leads { p with status := .terminated } ms q → Leads p ms q
  | reportedEnd {p ms q} : p.status = .terminated → p.endReported = false →
      Leads { p with endReported := true } ms q → Leads p (.reported .terminated :: ms) q
  | exit {p ms q} : p.endReported = false →
      Leads { p with status := .terminated, endReported := true } ms q →
      Leads p (.exit :: .reported (.exited 0 []) :: .reported .terminated :: ms) q
  | exitAgain {p ms q} : p.endReported = true → Leads { p with status := .terminated } ms q →
      Leads p (.exit :: .reported (.exited 0 []) :: ms) q
  | uninstalled {p ms q} : p.cleanedUp = false → Leads { p with cleanedUp := true } ms q →
      Leads p (.uninstalled :: ms) q

theorem Phase.Leads.trans {p q r : Phase} {ms ms' : List Milestone} (h : p.Leads ms q)
    (h' : q.Leads ms' r) : p.Leads (ms ++ ms') r := by
  induction h with
  | refl => exact h'
  | installed hstatus _ ih => exact .installed hstatus (ih h')
  | configured _ ih => exact .configured (ih h')
  | started hstatus hconfigured _ ih => exact .started hstatus hconfigured (ih h')
  | stopped hstatus _ ih => exact .stopped hstatus (ih h')
  | resumed hstatus _ ih => exact .resumed hstatus (ih h')
  | reportedStop hstatus _ ih => exact .reportedStop hstatus (ih h')
  | ended _ ih => exact .ended (ih h')
  | reportedEnd hstatus hunreported _ ih => exact .reportedEnd hstatus hunreported (ih h')
  | exit hunreported _ ih => exact .exit hunreported (ih h')
  | exitAgain hreported _ ih => exact .exitAgain hreported (ih h')
  | uninstalled hinstalled _ ih => exact .uninstalled hinstalled (ih h')

namespace Session

/-- The stop of a session and its start agree with its status. -/
structure Consistent (s : Session) : Prop where
  stop : s.status = .stopped → s.stop.isSome = true
  noStop : s.status ∈ [.initialized, .launched, .running] → s.stop.isSome = false
  unscheduled : s.status ∈ [.initialized, .launched] → s.scheduled = false

/-- The session passes milestones, and stays consistent. -/
structure Passes (s : Session) (ms : List Milestone) (s' : Session) : Prop where
  leads : s.phase.Leads ms s'.phase
  consistent : s.Consistent → s'.Consistent

/-- Nothing has changed that milestones tell of. -/
structure Alike (s s' : Session) : Prop where
  phase : s'.phase = s.phase
  stop : s'.stop.isSome = s.stop.isSome
  scheduled : s'.scheduled = s.scheduled

variable {s s' : Session} {ms ms' : List Milestone}

theorem Passes.refl (s : Session) : s.Passes [] s := ⟨.refl, id⟩

theorem Passes.trans (h : s.Passes ms s₁) (h' : s₁.Passes ms' s') : s.Passes (ms ++ ms') s' :=
  ⟨h.leads.trans h'.leads, fun hs => h'.consistent (h.consistent hs)⟩

theorem Alike.refl (s : Session) : s.Alike s := ⟨rfl, rfl, rfl⟩

theorem Alike.trans (h : s.Alike s₁) (h' : s₁.Alike s') : s.Alike s' :=
  ⟨h'.phase.trans h.phase, h'.stop.trans h.stop, h'.scheduled.trans h.scheduled⟩

theorem Alike.status (h : s.Alike s') : s'.status = s.status := congrArg Phase.status h.phase

theorem Alike.passes (h : s.Alike s') : s.Passes [] s' := by
  refine ⟨h.phase ▸ .refl, fun hs => ⟨?_, ?_, ?_⟩⟩
  · rw [h.status, h.stop]
    exact hs.stop
  · rw [h.status, h.stop]
    exact hs.noStop
  · rw [h.status, h.scheduled]
    exact hs.unscheduled

/-- A session that has ended is consistent. -/
theorem Consistent.of_terminated (h : s.status = .terminated) : s.Consistent :=
  ⟨by simp [h], by simp [h], by simp [h]⟩

end Session

/-! ### Parts of operations -/

open Session

namespace SessionM

variable {s s' : Session} {h : History}

theorem FailsTo.passes (hfails : FailsTo s h s') : s.Passes (History.milestones h) s' := by
  cases hfails with
  | kept => exact .refl s
  | ended => exact ⟨.ended .refl, fun _ => .of_terminated rfl⟩
  | reported hunreported =>
    exact ⟨.ended (.reportedEnd rfl hunreported .refl), fun _ => .of_terminated rfl⟩

theorem Reloads.alike (hreloads : Reloads s h r s') : s.Alike s' ∧ History.milestones h = [] := by
  cases hreloads <;> exact ⟨⟨rfl, rfl, rfl⟩, rfl⟩

theorem Generates.alike {m : BreakpointMap} (hgenerates : Generates m s h r s') :
    s.Alike s' ∧ History.milestones h = [] := by
  cases hgenerates with
  | refused hcancelled =>
    refine ⟨.refl s, List.flatMap_eq_nil_iff.mpr fun e he => ?_⟩
    obtain ⟨q, reply⟩ := e
    cases hcancelled _ he
    rfl
  | failed | written => exact ⟨⟨rfl, rfl, rfl⟩, rfl⟩

theorem milestones_reloadRequest (s : Session) (reply : Option ConnectionError) :
    exchangeMilestones ⟨reloadRequest s, reply⟩ = [] :=
  injectionMilestones_eq_nil
    (List.forall_mem_singleton.mpr (ServerCommand.called?_eq_none rfl (by decide)))

theorem milestones_enableRequest (s : Session) (l : Launch) (reply : Option ConnectionError) :
    exchangeMilestones ⟨enableRequest s l, reply⟩ = [] :=
  injectionMilestones_eq_nil
    (List.forall_mem_singleton.mpr (ServerCommand.called?_eq_none rfl (by decide)))

theorem milestones_installRequest (s : Session) (l : Launch) (reply : Option ConnectionError) :
    exchangeMilestones ⟨installRequest s l, reply⟩ =
      (Milestone.ofCall? reply.isNone "install").toList :=
  injectionMilestones_call (List.forall_mem_nil _) rfl (by decide)

/-- Nothing is seen of a launch before the datapack is loaded. -/
theorem Prepares.alike {l : Launch} (hprepares : Prepares s l h r s') :
    s.Alike s' ∧ History.milestones h = [] := by
  cases hprepares with
  | unread | missing => exact ⟨⟨rfl, rfl, rfl⟩, rfl⟩
  | @generated _ _ functions _ _ _ _ hgenerates =>
    have hread : s.Alike { s with launch := some l, functions } := ⟨rfl, rfl, rfl⟩
    exact ⟨hread.trans hgenerates.alike.1, hgenerates.alike.2⟩

/-- Nothing is seen of commands that fail. -/
theorem Interrupts.silent {l : Launch} (hinterrupts : Interrupts s l h) :
    History.milestones h = [] := by
  have hfailed : Milestone.ofCall? false "install" = none := rfl
  cases hinterrupts <;>
    simp [History.milestones, milestones_reloadRequest, milestones_enableRequest,
      milestones_installRequest, hfailed]

/-- Bringing the datapack up to date is not seen, unless it ends the session. -/
theorem Updates.passes (hupdates : Updates s h r s') :
    s.Passes (History.milestones h) s' ∧ (r = .ok () → s.Alike s' ∧ History.milestones h = []) := by
  cases hupdates with
  | outdated hreloads =>
    rw [hreloads.alike.2]
    exact ⟨hreloads.alike.1.passes, by simp⟩
  | current hreloads =>
    rw [hreloads.alike.2]
    exact ⟨hreloads.alike.1.passes, fun _ => ⟨hreloads.alike.1, rfl⟩⟩
  | unwritten hreloads hgenerates =>
    rw [History.milestones_append, hreloads.alike.2, hgenerates.alike.2]
    exact ⟨(hreloads.alike.1.trans hgenerates.alike.1).passes, by simp⟩
  | unloaded hreloads hgenerates hfails =>
    rw [History.milestones_append, History.milestones_append, History.milestones_cons,
      hreloads.alike.2, hgenerates.alike.2, milestones_reloadRequest]
    exact ⟨(hreloads.alike.1.trans hgenerates.alike.1).passes.trans hfails.passes, by simp⟩
  | loaded hreloads hgenerates =>
    rw [History.milestones_append, History.milestones_append, History.milestones_cons,
      hreloads.alike.2, hgenerates.alike.2, milestones_reloadRequest]
    have halike := hreloads.alike.1.trans hgenerates.alike.1
    exact ⟨halike.passes, fun _ => ⟨halike, rfl⟩⟩

/-- Asking the server is not seen, unless it ends the session. -/
theorem Asks.passes {α : Type} {r : Except SessionError α} (hasks : Asks s h r s') :
    s.Passes (History.milestones h) s' ∧
      (∀ a, r = .ok a → s.Alike s' ∧ History.milestones h = []) := by
  have hquery : ∀ h : History, (∀ e ∈ h, e.1.IsQuery) → History.milestones h = [] := by
    refine fun h hh => List.flatMap_eq_nil_iff.mpr fun e he => ?_
    obtain ⟨q, reply⟩ := e
    have hq := hh _ he
    cases q with
    | query commands last => rfl
    | _ => cases hq
  have halike : ∀ stop : Option Stop, stop.map Stop.place = s.stop.map Stop.place →
      s.Alike { s with stop } := by
    refine fun stop hplace => ⟨rfl, ?_, rfl⟩
    simpa using congrArg Option.isSome hplace
  cases hasks with
  | answered stop hh hplace =>
    rw [hquery _ hh]
    exact ⟨(halike stop hplace).passes, fun _ _ => ⟨halike stop hplace, rfl⟩⟩
  | failed h₁ stop hh hplace hfails =>
    rw [History.milestones_append, hquery _ hh]
    exact ⟨(halike stop hplace).passes.trans hfails.passes, by simp⟩

/-- The operation passes milestones, from whichever session it starts. -/
def Progresses {α : Type} (m : SessionM α) : Prop :=
  ∀ s, m.Ensures s fun h _ s' => s.Passes (History.milestones h) s'

/-! ### Going on -/

variable {source : Status}

/-- The program runs from now on, which is seen unless the commands for it fail. -/
theorem Goes.passes (hgoes : Goes s₁ source commands s') (halike : s.Alike s₁)
    (hstatus : s.status = source) (hready : source = .launched → s.configured = true) :
    s.Passes (injectionMilestones commands none) s' ∧
      ∀ failure, injectionMilestones commands (some failure) = [] := by
  have hrunning : ∀ {m : Milestone} {stop : Option Stop} {scheduled : Bool},
      (∀ q, Phase.Leads { s.phase with status := .running } [] q → s.phase.Leads [m] q) →
      (s.Consistent → stop.isSome = false) → s.Passes [m]
      (s₁.runningFrom source stop scheduled) := by
    intro m stop scheduled hleads hstop
    have htransfer : (s₁.status.transfer? .running [source]).getD s₁.status = .running := by
      rw [halike.status, hstatus]
      simp [Status.transfer?]
    rw [runningFrom, htransfer]
    refine ⟨hleads _ ?_, fun hs => ⟨by simp, fun _ => hstop hs, by simp⟩⟩
    rw [← halike.phase]
    exact .refl
  cases hgoes with
  | start =>
    have hcall : ∀ {ns score : Text} (reply : Option ConnectionError), score.head? = some 0x73 →
        injectionMilestones [⟨ns, score⟩, ⟨ns, "function " ++ ns ++ ":schedule"⟩] reply =
          (Milestone.ofCall? reply.isNone "schedule").toList := fun reply hscore =>
      injectionMilestones_call (List.forall_mem_singleton.mpr
        (ServerCommand.called?_eq_none hscore (by decide))) rfl (by decide)
    refine ⟨?_, fun failure => hcall (some failure) rfl⟩
    rw [hcall none rfl]
    refine hrunning (m := .started) (fun q => .started hstatus (hready rfl)) fun hs => ?_
    rw [halike.stop]
    exact hs.noStop (by simp [hstatus])
  | resume =>
    have hcall : ∀ reply : Option ConnectionError,
        injectionMilestones [⟨s₁.ns, "function " ++ s₁.ns ++ ":resume_self"⟩] reply =
          (Milestone.ofCall? reply.isNone "resume_self").toList := fun reply =>
      injectionMilestones_call (List.forall_mem_nil _) rfl (by decide)
    refine ⟨?_, fun failure => hcall (some failure)⟩
    rw [hcall none]
    exact hrunning (m := .resumed) (fun q => .resumed hstatus) fun _ => rfl

theorem Continues.passes (hcontinues : Continues source s h s') (hstatus : s.status = source)
    (hready : source = .launched → s.configured = true) : s.Passes (History.milestones h) s' := by
  cases hcontinues with
  | outdated hupdates => exact hupdates.passes.1
  | @failed _ h₂ commands failure _ _ _ hupdates hgoes hfails =>
    obtain ⟨halike, hsilent⟩ := hupdates.passes.2 rfl
    rw [History.milestones_append, hsilent, History.milestones_cons]
    show s.Passes (injectionMilestones commands (some failure) ++ History.milestones h₂) s'
    rw [(hgoes.passes halike hstatus hready).2]
    exact halike.passes.trans hfails.passes
  | @done _ commands _ _ hupdates hgoes =>
    obtain ⟨halike, hsilent⟩ := hupdates.passes.2 rfl
    rw [History.milestones_append, hsilent, History.milestones_cons]
    show s.Passes (injectionMilestones commands none ++ []) s'
    rw [List.append_nil]
    exact (hgoes.passes halike hstatus hready).1

theorem Configures.passes (hconfigures : Configures s h s') :
    s.Passes (.configured :: History.milestones h) s' := by
  have hpasses : s.Passes [.configured] { s with configured := true } :=
    ⟨.configured .refl, fun hs => ⟨hs.stop, hs.noStop, hs.unscheduled⟩⟩
  cases hconfigures with
  | noted => exact hpasses
  | started hlaunched hcontinues => exact hpasses.trans (hcontinues.passes hlaunched fun _ => rfl)

theorem Resumes.passes (hresumes : Resumes s h s') : s.Passes (History.milestones h) s' := by
  have hdepth : ∀ (s : Session) (depth : Option Int), s.Alike { s with stepDepth := depth } :=
    fun _ _ => ⟨rfl, rfl, rfl⟩
  cases hresumes with
  | refused => exact .refl s
  | unasked _ hasks => exact (hdepth s none).passes.trans hasks.passes.1
  | resumed depth hstopped hasks hcontinues =>
    obtain ⟨halike, hsilent⟩ := hasks.passes.2 _ rfl
    have halike := ((hdepth s none).trans halike).trans (hdepth _ depth)
    rw [History.milestones_append, hsilent]
    exact halike.passes.trans (hcontinues.passes (halike.status.trans hstopped) (by simp))

/-! ### Launching -/

/-- What installing the datapack leads to. -/
structure Installs (s : Session) (h : History) (r : Except SessionError Unit)
    (s' : Session) : Prop where
  passes : s.Passes (History.milestones h) s'
  done : r = .ok () → s'.status = .launched ∧ s'.scheduled = s.scheduled
  failed : ∀ e, r = .error e → s'.status = s.status ∨ s'.status = .terminated

/-- An attempt that has failed before the status has changed. -/
theorem Installs.of_fails {h₁ : History} {e : SessionError} (halike : s.Alike s₁)
    (hh : History.milestones h = History.milestones h₁) (hfails : FailsTo s₁ h₁ s') :
    Installs s h (.error e) s' := by
  refine ⟨?_, by simp, fun _ _ => ?_⟩
  · rw [hh]
    exact halike.passes.trans hfails.passes
  · rw [← halike.status]
    exact hfails.keeps.status

/-- Installing the datapack is seen if it succeeds. -/
theorem Installing.installs (hinstalling : Installing s h r s') : Installs s h r s' := by
  cases hinstalling with
  | refused => exact .of_fails (.refl s) rfl .kept
  | unprepared _ hprepares =>
    refine .of_fails hprepares.alike.1 ?_ .kept
    exact hprepares.alike.2
  | interrupted _ hprepares hinterrupts hfails =>
    refine .of_fails hprepares.alike.1 ?_ hfails
    rw [History.milestones_append, History.milestones_append, hprepares.alike.2, hinterrupts.silent]
    rfl
  | @installed l h s₁ hinitialized hprepares =>
    obtain ⟨halike, hsilent⟩ := hprepares.alike
    refine ⟨⟨?_, fun hs => ⟨by simp, fun _ => ?_, fun _ => ?_⟩⟩, fun _ => ⟨rfl, ?_⟩, by simp⟩
    · show s.phase.Leads _ { s₁.phase with status := .launched }
      rw [History.milestones_append, hsilent, History.milestones_cons, milestones_reloadRequest,
        History.milestones_cons, milestones_enableRequest, History.milestones_cons,
        milestones_installRequest, halike.phase]
      exact .installed hinitialized .refl
    · exact halike.stop.trans (hs.noStop (by simp [hinitialized]))
    · exact halike.scheduled.trans (hs.unscheduled (by simp [hinitialized]))
    · exact halike.scheduled

theorem Launching.passes (hlaunching : Launching s h s') : s.Passes (History.milestones h) s' := by
  cases hlaunching with
  | installed hinstalling => exact hinstalling.installs.passes
  | started hinstalling hconfigured hcontinues =>
    have hinstalls := hinstalling.installs
    rw [History.milestones_append]
    exact hinstalls.passes.trans (hcontinues.passes (hinstalls.done rfl).1 fun _ => hconfigured)

/-! ### Breakpoints -/

theorem Moves.passes {f : ResourceName} {old new : Breakpoints} (hmoves : Moves f old new s h s') :
    s.Passes (History.milestones h) s' := by
  have hmoved : s.Alike (s.withMovedStop f (old.moves new)) := ⟨rfl, by simp [withMovedStop], rfl⟩
  have hnone : ∀ reply : Option ConnectionError, exchangeMilestones
      ⟨.inject ((old.moves new).flatMap (moveCommands s.ns f)), reply⟩ = [] := fun reply =>
    injectionMilestones_eq_nil fun c hc =>
      ServerCommand.called?_eq_none (head?_moveCommands hc) (by decide)
  cases hmoves with
  | unmoved => exact hmoved.passes
  | failed hfails =>
    rw [History.milestones_cons, hnone]
    exact hmoved.passes.trans hfails.passes
  | moved =>
    rw [History.milestones_cons, hnone]
    exact hmoved.passes

theorem Places.passes {α : Type} {r : Except SessionError α} (hplaces : Places s h r s') :
    s.Passes (History.milestones h) s' := by
  have hplaced : ∀ (s : Session) f lines, s.Alike (s.withBreakpoints f lines) :=
    fun _ _ _ => ⟨rfl, rfl, rfl⟩
  cases hplaces with
  | refused => exact .refl s
  | unplaced _ hreloads =>
    rw [hreloads.alike.2]
    exact hreloads.alike.1.passes
  | moved _ hreloads _ hmoves =>
    rw [History.milestones_append, hreloads.alike.2]
    exact (hreloads.alike.1.trans (hplaced _ _ _)).passes.trans hmoves.passes
  | updated _ hreloads hupdates =>
    rw [History.milestones_append, hreloads.alike.2]
    exact (hreloads.alike.1.trans (hplaced _ _ _)).passes.trans hupdates.passes.1

/-! ### Events and the end -/

theorem Handles.passes {e : LogEvent} (hhandles : Handles e s h s') :
    s.Passes (Operation.milestones (.event e) s h) s' := by
  have hexited : e.isExit s.ns = true → Operation.opening (.event e) s = [.exit] := fun hexit =>
    if_pos hexit
  -- A stop that is accepted is seen before the server is asked for more.
  have hstopped : ∀ {f p}, e.isExit s.ns = false → s.status = .running →
      (Report.addedTag? e.output).bind (Tag.parsePosition? s.ns) = some (f, p) →
      s.Passes (Operation.opening (.event e) s) (s.stoppedAt f p) := by
    intro f p hexit hrunning hplace
    have hopening : Operation.opening (.event e) s = [.stopped] := by
      simp [Operation.opening, LogEvent.isStop, hexit, hrunning, hplace]
    rw [hopening]
    exact ⟨.stopped hrunning .refl, fun hs =>
      ⟨fun _ => rfl, by simp [stoppedAt], by simp [stoppedAt]⟩⟩
  unfold Operation.milestones
  cases hhandles with
  | ignored hexit hstop =>
    rw [Operation.opening, hexit, hstop]
    exact .refl s
  | exited hexit hreported =>
    rw [hexited hexit]
    exact ⟨.exitAgain hreported .refl, fun _ => .of_terminated rfl⟩
  | ended hexit hunreported =>
    rw [hexited hexit]
    exact ⟨.exit hunreported .refl, fun _ => .of_terminated rfl⟩
  | unasked hexit hrunning hplace hasks =>
    exact (hstopped hexit hrunning hplace).trans hasks.passes.1
  | stopped hexit hrunning hplace hasks =>
    obtain ⟨halike, hsilent⟩ := hasks.passes.2 _ rfl
    rw [History.milestones_append, hsilent]
    exact (hstopped hexit hrunning hplace).trans
      (halike.passes.trans ⟨.reportedStop halike.status .refl, id⟩)

/-- Removing the datapack is seen once, whether it succeeds or not. -/
theorem CleansUp.milestones {l : Launch} (hcleans : CleansUp l h) :
    History.milestones h = [.uninstalled] := by
  have huninstall : ∀ reply : Option ConnectionError,
      exchangeMilestones ⟨uninstallRequest l, reply⟩ = [.uninstalled] := fun reply =>
    injectionMilestones_call (List.forall_mem_nil _) rfl (by decide)
  have hdisable : ∀ reply : Option ConnectionError,
      exchangeMilestones ⟨disableRequest l, reply⟩ = [] :=
    fun reply => injectionMilestones_eq_nil
      (List.forall_mem_singleton.mpr (ServerCommand.called?_eq_none rfl (by decide)))
  cases hcleans with
  | lost =>
    rw [History.milestones_cons, huninstall]
    rfl
  | done =>
    rw [History.milestones_cons, huninstall, History.milestones_cons, hdisable]
    rfl

theorem Terminates.passes (hterminates : Terminates s h s') :
    s.Passes (History.milestones h) s' := by
  cases hterminates with
  | again hfails => exact hfails.passes
  | cleaned hinstalled hcleans hfails =>
    have hpasses : s.Passes [.uninstalled] { s with cleanedUp := true } :=
      ⟨.uninstalled hinstalled .refl, fun hs => ⟨hs.stop, hs.noStop, hs.unscheduled⟩⟩
    rw [History.milestones_append, hcleans.milestones]
    exact hpasses.trans hfails.passes

end SessionM

/-! ### Operations one after the other -/

/-- Of an operation that opens with nothing, only its exchanges are seen. -/
theorem Operation.progresses {op : Operation} (hopening : ∀ s, op.opening s = []) :
    Progresses op.perform := by
  refine fun s => leads.mono fun h r s' hleads => ?_
  cases op with
  | launch o => exact Launching.passes hleads
  | configurationDone => cases hopening s
  | setBreakpoints source lines => exact Places.passes hleads
  | resume step => exact Resumes.passes hleads
  | stackTrace | scopes | variablesAt => exact (Asks.passes hleads).1
  | event e =>
    have hpasses := Handles.passes hleads
    rwa [Operation.milestones, hopening] at hpasses
  | sourceModified =>
    obtain ⟨rfl, rfl⟩ := hleads
    exact Alike.passes ⟨rfl, rfl, rfl⟩
  | terminate => exact Terminates.passes hleads

/-- Every operation passes its milestones. -/
theorem Operation.passes (op : Operation) (s : Session) :
    op.perform.Ensures s fun h _ s' => s.Passes (op.milestones s h) s' := by
  cases op with
  | configurationDone => exact leads.mono fun _ _ _ hleads => Configures.passes hleads
  | event e => exact leads.mono fun _ _ _ hleads => Handles.passes hleads
  | _ => exact progresses (fun _ => rfl) s

/-- The milestones of operations one after the other, whatever the host replies. -/
inductive Session.Course : Session → List Milestone → Session → Prop where
  | nil {s} : Session.Course s [] s
  | cons {s op h r s₁ ms s'} : (Operation.perform op).Yields s h r s₁ → Session.Course s₁ ms s' →
      Session.Course s (op.milestones s h ++ ms) s'

/-- Operations one after the other pass their milestones. -/
theorem Session.Course.passes {s s' : Session} {ms : List Milestone} (hcourse : Course s ms s') :
    s.Passes ms s' := by
  induction hcourse with
  | nil => exact .refl _
  | cons hop _ ih => exact (Operation.passes _ _ _ _ _ hop).trans ih

theorem Session.consistent_initial (g : Grammar) : Session.Consistent { grammar := g } :=
  ⟨by simp, fun _ => rfl, fun _ => rfl⟩

/-- The milestones of operations with given hosts. -/
def Session.playMilestones (s : Session) : List (Operation × SteadyHost) → List Milestone
  | [] => []
  | (op, host) :: rest =>
    let first := op.perform.talk host.reply s
    op.milestones s first.2 ++ first.1.2.playMilestones rest

theorem Session.course_play (s : Session) (script : List (Operation × SteadyHost)) :
    Course s (s.playMilestones script) (s.play script).2 := by
  induction script generalizing s with
  | nil => exact .nil
  | cons x script ih => exact .cons (yields_talk ..) (ih _)

end DatapackDebug
