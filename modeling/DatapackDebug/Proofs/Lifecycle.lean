import DatapackDebug.Proofs.Milestones

namespace DatapackDebug

/-!
# The life of a session

A session is launched, runs and stops in turns, and ends once.  This holds whatever the client asks
in whichever order, and whichever requests to the server fail.

* `Status.Path` — the changes of status, each with its milestone;
* `Phase.Leads.count_started`, `Phase.Leads.before_started`, `Phase.Leads.turns`,
  `Phase.Leads.count_uninstalled` — how often and in which order milestones are passed;
* `IgnoresConfigured` — operations to which it makes no difference whether the client is ready;
* `launch_configured_comm` — the client may be ready before or after the launch;
* `session_lifecycle` — all of this for every run of a session.
-/

open SessionM Session

variable {s s' : Session} {h : History} {r : Except SessionError Unit}

/-! ### Changes of status -/

/-- The changes of status: from the launch to the start, from there on in turns, and from everywhere
    to the end. -/
inductive Status.Path : Status → List Milestone → Status → Prop where
  | here {t} : Path t [] t
  | launch {ms t} : Path .launched ms t → Path .initialized (.installed :: ms) t
  | start {ms t} : Path .running ms t → Path .launched (.started :: ms) t
  | stop {ms t} : Path .stopped ms t → Path .running (.stopped :: ms) t
  | resume {ms t} : Path .running ms t → Path .stopped (.resumed :: ms) t
  | terminate {t₀ ms t} : Path .terminated ms t → Path t₀ ms t
  | other {m t₀ ms t} : m ∉ [.installed, .started, .stopped, .resumed] → Path t₀ ms t →
      Path t₀ (m :: ms) t

namespace Status.Path

variable {t₀ t : Status} {ms : List Milestone}

/-- The end is never left. -/
theorem eq_terminated (hpath : Path t₀ ms t) (ht₀ : t₀ = .terminated) : t = .terminated := by
  induction hpath with
  | here => exact ht₀
  | launch | start | stop | resume => cases ht₀
  | terminate _ ih => exact ih rfl
  | other _ _ ih => exact ih ht₀

/-- No way leads back to the beginning. -/
theorem ne_initialized (hpath : Path t₀ ms t) (ht₀ : t₀ ≠ .initialized) : t ≠ .initialized := by
  induction hpath with
  | here => exact ht₀
  | launch => exact absurd rfl ht₀
  | start _ ih | stop _ ih | resume _ ih | terminate _ ih => exact ih (by simp)
  | other _ _ ih => exact ih ht₀

end Status.Path

/-! ### Milestones in order -/

/-- How often the debugged function may still be started. -/
def Status.startsLeft : Status → Nat
  | .initialized | .launched => 1
  | _ => 0

/-- The debugged function is started only once. -/
theorem Status.Path.count_started {t₀ t : Status} {ms : List Milestone} (hpath : Path t₀ ms t) :
    ms.count .started ≤ t₀.startsLeft := by
  induction hpath with
  | here => simp
  | start _ ih =>
    rw [List.count_cons_self]
    exact Nat.succ_le_succ ih
  | launch _ ih | stop _ ih | resume _ ih =>
    rw [List.count_cons_of_ne (by simp)]
    exact ih
  | terminate _ ih => exact ih.trans (Nat.zero_le _)
  | other hm _ ih =>
    rw [List.count_cons_of_ne (by rintro rfl; simp at hm)]
    exact ih

/-- Is the milestone a stop, or the end of one? -/
def Milestone.isTurn : Milestone → Bool
  | .stopped | .resumed => true
  | _ => false

/-- The stops and their ends. -/
def turns (ms : List Milestone) : List Milestone := ms.filter Milestone.isTurn

/-- The last turn that has led to a status; a program that was started counts as resumed. -/
def Status.lastTurn : Status → Milestone
  | .stopped => .stopped
  | _ => .resumed

namespace Status.Path

variable {t₀ t : Status} {ms : List Milestone}

theorem turns_other {m : Milestone} (hm : m ∉ [.installed, .started, .stopped, .resumed]) :
    turns (m :: ms) = turns ms := by
  refine List.filter_cons_of_neg ?_
  cases m with
  | stopped | resumed => simp at hm
  | _ => simp [Milestone.isTurn]

theorem turns_eq_nil (hpath : Path t₀ ms t) (ht₀ : t₀ = .terminated) : turns ms = [] := by
  induction hpath with
  | here => rfl
  | launch | start | stop | resume => cases ht₀
  | terminate _ ih => exact ih rfl
  | other hm _ ih => rw [turns_other hm, ih ht₀]

/-- Stops and their ends alternate. -/
theorem isChain_turns (hpath : Path t₀ ms t) : (t₀.lastTurn :: turns ms).IsChain (· ≠ ·) := by
  induction hpath with
  | here => exact .singleton _
  | launch _ ih | start _ ih => exact ih
  | stop _ ih | resume _ ih => exact .cons_cons (by simp [lastTurn]) ih
  | terminate hpath _ =>
    rw [turns_eq_nil hpath rfl]
    exact .singleton _
  | other hm _ ih =>
    rw [turns_other hm]
    exact ih

end Status.Path

namespace Phase.Leads

variable {p q : Phase} {ms : List Milestone}

theorem path (h : p.Leads ms q) : Status.Path p.status ms q.status := by
  induction h with
  | refl => exact .here
  | installed hstatus _ ih => exact hstatus ▸ .launch ih
  | started hstatus _ _ ih => exact hstatus ▸ .start ih
  | stopped hstatus _ ih => exact hstatus ▸ .stop ih
  | resumed hstatus _ ih => exact hstatus ▸ .resume ih
  | ended _ ih => exact .terminate ih
  | configured _ ih | reportedStop _ _ ih | reportedEnd _ _ _ ih | uninstalled _ _ ih =>
    exact .other (by simp) ih
  | exit _ _ ih => exact .other (by simp) (.other (by simp) (.other (by simp) (.terminate ih)))
  | exitAgain _ _ ih => exact .other (by simp) (.other (by simp) (.terminate ih))

/-- The datapack is removed only once. -/
theorem count_uninstalled (h : p.Leads ms q) :
    ms.count .uninstalled ≤ if p.cleanedUp then 0 else 1 := by
  induction h with
  | refl => simp
  | uninstalled hinstalled _ ih =>
    rw [List.count_cons_self, hinstalled]
    exact Nat.succ_le_succ ih
  | ended _ ih => exact ih
  | _ => simp_all

/-- The client is ready only if it has said so. -/
theorem configured_mem (h : p.Leads ms q) (hq : q.configured = true) :
    p.configured = true ∨ .configured ∈ ms := by
  induction h with
  | refl => exact .inl hq
  | configured => exact .inr List.mem_cons_self
  | ended _ ih => exact ih hq
  | _ => simp_all

/-- Before the debugged function is started the datapack is installed and the client is ready. -/
theorem before_started (h : p.Leads ms q) {before after : List Milestone}
    (hms : ms = before ++ .started :: after) :
    (p.status = .launched ∨ .installed ∈ before) ∧
    (p.configured = true ∨ .configured ∈ before) := by
  have peel : ∀ {x : Milestone} {xs before : List Milestone}, x ≠ .started →
      x :: xs = before ++ .started :: after →
      ∃ rest, before = x :: rest ∧ xs = rest ++ .started :: after := by
    intro x xs before hx hxs
    cases before with
    | nil => exact absurd (List.cons.inj hxs).1 hx
    | cons b rest =>
      obtain ⟨hb, hrest⟩ := List.cons.inj hxs
      exact ⟨rest, by rw [hb], hrest⟩
  induction h generalizing before with
  | refl => simp at hms
  | started hstatus hconfigured => exact ⟨.inl hstatus, .inl hconfigured⟩
  | ended _ ih =>
    obtain ⟨hinstalled, hconfigured⟩ := ih hms
    exact ⟨.inr (hinstalled.resolve_left (by simp)), hconfigured⟩
  | installed _ _ ih | configured _ ih | stopped _ _ ih | resumed _ _ ih | reportedStop _ _ ih
  | reportedEnd _ _ _ ih | uninstalled _ _ ih =>
    obtain ⟨rest, rfl, hrest⟩ := peel (by simp) hms
    obtain ⟨hinstalled, hconfigured⟩ := ih hrest
    simp_all
  | exit _ _ ih =>
    obtain ⟨_, rfl, hreports⟩ := peel (by simp) hms
    obtain ⟨_, rfl, hreport⟩ := peel (by simp) hreports
    obtain ⟨_, rfl, hrest⟩ := peel (by simp) hreport
    obtain ⟨hinstalled, hconfigured⟩ := ih hrest
    simp_all
  | exitAgain _ _ ih =>
    obtain ⟨_, rfl, hreport⟩ := peel (by simp) hms
    obtain ⟨_, rfl, hrest⟩ := peel (by simp) hreport
    obtain ⟨hinstalled, hconfigured⟩ := ih hrest
    simp_all

end Phase.Leads

/-! ### Ready before or after the launch -/

/-- The session, with or without a client that is ready. -/
def Session.withConfigured (s : Session) (b : Bool) : Session := { s with configured := b }

namespace SessionM

variable {α β : Type}

/-- It makes no difference to the operation whether the client is ready. -/
def IgnoresConfigured (m : SessionM α) : Prop :=
  ∀ s h r s', m.Yields s h r s' → s'.configured = s.configured ∧
    ∀ b, m.Yields (s.withConfigured b) h r (s'.withConfigured b)

namespace IgnoresConfigured

theorem pure (a : α) : IgnoresConfigured (Pure.pure a) := by
  rintro s _ _ _ ⟨⟩
  exact ⟨rfl, fun _ => .done⟩

theorem throw (e : SessionError) : IgnoresConfigured (MonadExcept.throw e : SessionM α) := by
  rintro s _ _ _ ⟨⟩
  exact ⟨rfl, fun _ => .done⟩

theorem bind {m : SessionM α} {f : α → SessionM β} (hm : IgnoresConfigured m)
    (hf : ∀ a, IgnoresConfigured (f a)) : IgnoresConfigured (m >>= f) := by
  intro s h r s' hyields
  obtain ⟨h₁, h₂, ⟨r₁, s₁⟩, rfl, hfirst, hsecond⟩ := Dialogue.Yields.of_bind hyields
  obtain ⟨hs₁, hfirst⟩ := hm _ _ _ _ hfirst
  cases r₁ with
  | ok a =>
    obtain ⟨hs', hsecond⟩ := hf a _ _ _ _ hsecond
    exact ⟨hs'.trans hs₁, fun b => (hfirst b).bind (hsecond b)⟩
  | error e =>
    cases hsecond
    exact ⟨hs₁, fun b => (hfirst b).bind .done⟩

theorem get_bind {f : Session → SessionM β} (hf : ∀ s, IgnoresConfigured (f s))
    (hsame : ∀ s b, f (s.withConfigured b) = f s) : IgnoresConfigured (MonadState.get >>= f) := by
  intro s h r s' hyields
  obtain ⟨hs', hyields⟩ := hf s _ _ _ _ hyields
  refine ⟨hs', fun b => ?_⟩
  have hb := hyields b
  rw [← hsame s b] at hb
  exact hb

theorem modify_of_comm {g : Session → Session}
    (hg : ∀ s b, g (s.withConfigured b) = (g s).withConfigured b)
    (hkept : ∀ s, (g s).configured = s.configured) :
    IgnoresConfigured (modify g : SessionM PUnit) := by
  rintro s _ _ _ ⟨⟩
  refine ⟨hkept s, fun b => ?_⟩
  rw [← hg s b]
  exact .done

theorem ask (q : SessionRequest) : IgnoresConfigured (SessionM.ask q) := by
  intro s h r s' hyields
  cases hyields with
  | @ask _ _ reply _ _ hnext =>
    cases hnext
    exact ⟨rfl, fun _ => .ask .done⟩

theorem ite {c : Prop} [Decidable c] {m m' : SessionM α} (hm : IgnoresConfigured m)
    (hm' : IgnoresConfigured m') : IgnoresConfigured (if c then m else m') := by
  split
  · exact hm
  · exact hm'

theorem require (states : List Status) (e : SessionError) :
    IgnoresConfigured (SessionM.require states e) :=
  get_bind (fun _ => ite (pure _) (throw e)) fun _ _ => rfl

theorem launch : IgnoresConfigured SessionM.launch := by
  refine get_bind (fun s => ?_) fun _ _ => rfl
  cases s.launch with
  | none => exact throw _
  | some l => exact pure l

theorem connectionFailed (e : ConnectionError) :
    IgnoresConfigured (SessionM.connectionFailed e : SessionM α) := by
  unfold SessionM.connectionFailed SessionM.reportEnd
  cases e.loss? with
  | none => exact throw _
  | some why =>
    refine bind (modify_of_comm (fun _ _ => rfl) fun _ => rfl) fun _ => bind ?_ fun _ => throw _
    refine get_bind (fun _ => ite (pure _) ?_) fun _ _ => rfl
    exact bind (modify_of_comm (fun _ _ => rfl) fun _ => rfl) fun _ => ask _

theorem inject (commands : List ServerCommand) : IgnoresConfigured (SessionM.inject commands) := by
  refine bind (ask _) fun reply => ?_
  match reply with
  | none => exact pure _
  | some e => exact connectionFailed e

theorem injectEach (commands : List Text) : IgnoresConfigured (SessionM.injectEach commands) := by
  induction commands with
  | nil => exact pure _
  | cons c commands ih =>
    exact bind (get_bind (fun _ => inject _) fun _ _ => rfl) fun _ => ih

theorem loadFunctions : IgnoresConfigured SessionM.loadFunctions := by
  unfold SessionM.loadFunctions SessionM.isCancelled
  refine bind launch fun l => bind (ask _) fun tree => bind (ask _) fun cancelled =>
    get_bind (fun s => ?_) fun _ _ => rfl
  cases Datapack.load s.grammar l.datapack tree cancelled with
  | error e => exact throw _
  | ok functions => exact modify_of_comm (fun _ _ => rfl) fun _ => rfl

theorem generate (m : BreakpointMap) : IgnoresConfigured (SessionM.generate m) := by
  unfold SessionM.generate SessionM.isCancelled
  refine bind launch fun l => bind (ask _) fun cancelled => get_bind (fun s => ?_) fun _ _ => rfl
  match GeneratedPack.generate l.config s.functions m cancelled with
  | .error .cancelled => exact throw _
  | .error (.config e) => exact throw _
  | .ok pack =>
    refine bind (ask _) fun reply => ?_
    match reply with
    | some e => exact throw _
    | none => exact modify_of_comm (fun _ _ => rfl) fun _ => rfl

theorem checkOptions (o : LaunchOptions) :
    IgnoresConfigured (liftM (SessionM.checkOptions o) : SessionM Launch) := by
  cases SessionM.checkOptions o with
  | error e => exact throw e
  | ok l => exact pure l

theorem install (o : LaunchOptions) : IgnoresConfigured (SessionM.install o) := by
  refine bind (require _ _) fun _ => bind (checkOptions o) fun l =>
    bind (modify_of_comm (fun _ _ => rfl) fun _ => rfl) fun _ => bind loadFunctions fun _ =>
      get_bind (fun s => ?_) fun _ _ => rfl
  have hrest : IgnoresConfigured (do
      SessionM.ask (.listen l.ns)
      SessionM.generate (← get).effectiveBreakpoints
      SessionM.injectEach ["reload", "datapack enable " ++ packArgument l.output,
        "function " ++ l.ns ++ ":install"]
      modify fun s => { s with status := .launched }) :=
    bind (ask _) fun _ => get_bind (fun _ => bind (generate _) fun _ => bind (injectEach _) fun _ =>
      modify_of_comm (fun _ _ => rfl) fun _ => rfl) fun _ _ => rfl
  exact ite (bind (throw _) fun _ => hrest) hrest

end IgnoresConfigured

/-- The client is ready: the debugged function is started if the datapack is installed. -/
theorem yields_configurationDone :
    SessionM.configurationDone.Yields s h r s' ↔
      if s.status = .launched ∧
        s.scheduled = false then schedule.Yields (s.withConfigured true) h r s'
      else h = [] ∧ r = .ok () ∧ s' = s.withConfigured true := by
  have hunfold : SessionM.configurationDone.Yields s h r s' ↔ SessionM.Yields
      (if s.status == .launched && !s.scheduled then schedule else pure ()) (s.withConfigured true)
        h r s' := Iff.rfl
  rw [hunfold]
  by_cases hstart : s.status = .launched ∧ s.scheduled = false
  · rw [if_pos hstart, if_pos (by simp [hstart.1, hstart.2])]
  · rw [if_neg hstart, if_neg (by simpa using hstart)]
    constructor
    · rintro ⟨⟩
      exact ⟨rfl, rfl, rfl⟩
    · rintro ⟨rfl, rfl, rfl⟩
      exact .done

/-- A launch installs the datapack, and starts the debugged function if the client is ready. -/
theorem yields_launchWith {o : LaunchOptions} :
    (launchWith o).Yields s h r s' ↔ ∃ h₁ h₂ r₁ s₁, h = h₁ ++ h₂ ∧ (install o).Yields s h₁ r₁ s₁ ∧
      if r₁ = .ok () ∧ s₁.configured = true then schedule.Yields s₁ h₂ r s'
      else h₂ = [] ∧ r = r₁ ∧ s' = s₁ := by
  rw [launchWith_eq]
  constructor
  · intro hyields
    obtain ⟨h₁, h₂, ⟨r₁, s₁⟩, rfl, hinstall, hrest⟩ := Dialogue.Yields.of_bind hyields
    refine ⟨h₁, h₂, r₁, s₁, rfl, hinstall, ?_⟩
    cases r₁ with
    | error e =>
      cases hrest
      simp
    | ok _ =>
      have hrest : SessionM.Yields (if s₁.configured then schedule else pure ()) s₁ h₂ r s' := hrest
      by_cases hconfigured : s₁.configured = true
      · rw [if_pos hconfigured] at hrest
        simpa [hconfigured] using hrest
      · rw [if_neg hconfigured] at hrest
        cases hrest
        simp [hconfigured]
  · rintro ⟨h₁, h₂, r₁, s₁, rfl, hinstall, hrest⟩
    refine hinstall.bind ?_
    cases r₁ with
    | error e =>
      simp only [reduceCtorEq, false_and, if_false] at hrest
      obtain ⟨rfl, rfl, rfl⟩ := hrest
      exact .done
    | ok _ =>
      show SessionM.Yields (if s₁.configured then schedule else pure ()) s₁ h₂ r s'
      by_cases hconfigured : s₁.configured = true
      · simpa [hconfigured] using hrest
      · rw [if_neg hconfigured]
        simp only [hconfigured] at hrest
        obtain ⟨rfl, rfl, rfl⟩ := hrest
        exact .done

/-- A session is launched only once. -/
theorem yields_launchWith_of_ne {o : LaunchOptions} (hs : s.status ≠ .initialized) :
    (launchWith o).Yields s h r s' ↔ h = [] ∧ r = .error .alreadyLaunched ∧ s' = s := by
  have hrequire : (SessionM.require [.initialized] .alreadyLaunched).run.run s =
      .done (.error .alreadyLaunched, s) := by
    show ((if s.status.isOneOf [.initialized] then pure () else throw .alreadyLaunched :
      SessionM Unit)).run.run s = _
    rw [if_neg (by simpa using hs)]
    rfl
  have hlaunch : (launchWith o).run.run s = .done (.error .alreadyLaunched, s) := by
    show Dialogue.bind ((SessionM.require [.initialized] .alreadyLaunched).run.run s) _ = _
    rw [hrequire]
    rfl
  rw [SessionM.Yields, hlaunch]
  constructor
  · rintro ⟨⟩
    exact ⟨rfl, rfl, rfl⟩
  · rintro ⟨rfl, rfl, rfl⟩
    exact .done

/-- Both ways to start a session that was not launched yet: the datapack is installed, and if that
    succeeds the debugged function is started. -/
def StartsReady (o : LaunchOptions) (s : Session) (h : History) (s' : Session) : Prop :=
  ∃ h₁ h₂ r₁ s₁, h = h₁ ++ h₂ ∧ (install o).Yields s h₁ r₁ s₁ ∧
    if r₁ = .ok () then ∃ r, schedule.Yields (s₁.withConfigured true) h₂ r s'
    else h₂ = [] ∧ s' = s₁.withConfigured true

end SessionM

/-- Two operations one after the other, with all their exchanges. -/
def Session.RunsPair (s : Session) (first second : Operation) (h : History) (s' : Session) : Prop :=
  ∃ h₁ h₂, h = h₁ ++ h₂ ∧ Run s [(first, h₁), (second, h₂)] s'

theorem Session.runsPair_iff {first second : Operation} :
    s.RunsPair first second h s' ↔ ∃ h₁ h₂ r₁ s₁ r₂, h = h₁ ++ h₂ ∧
    first.perform.Yields s h₁ r₁ s₁ ∧
      second.perform.Yields s₁ h₂ r₂ s' := by
  constructor
  · rintro ⟨h₁, h₂, rfl, hrun⟩
    cases hrun with
    | cons hfirst hrun =>
      cases hrun with
      | cons hsecond hrun =>
        cases hrun
        exact ⟨h₁, h₂, _, _, _, rfl, hfirst, hsecond⟩
  · rintro ⟨h₁, h₂, r₁, s₁, r₂, rfl, hfirst, hsecond⟩
    exact ⟨h₁, h₂, rfl, .cons hfirst (.cons hsecond .nil)⟩

section

variable {o : LaunchOptions}

/-- The client is ready after the launch. -/
theorem launch_configured_iff (hinitialized : s.status = .initialized)
    (hconfigured : s.configured = false) (hscheduled : s.scheduled = false) :
    s.RunsPair (.launch o) .configurationDone h s' ↔ StartsReady o s h s' := by
  -- The launch ends with the installation, since the client is not ready, and the rest is left to
  -- the second operation, which does nothing if the installation has failed.
  have hsecond : ∀ {h₁ h₂ r₁ s₁}, (install o).Yields s h₁ r₁ s₁ →
      ((∃ r₂, configurationDone.Yields s₁ h₂ r₂ s') ↔
        if r₁ = .ok () then ∃ r, schedule.Yields (s₁.withConfigured true) h₂ r s'
        else h₂ = [] ∧ s' = s₁.withConfigured true) := by
    intro h₁ h₂ r₁ s₁ hinstall
    have hinstalls := (Ensures.install _ _ _ hinstall).installs
    simp only [yields_configurationDone]
    cases r₁ with
    | ok _ =>
      have hlaunched := hinstalls.done rfl
      simp [hlaunched.1, hlaunched.2, hscheduled]
    | error e =>
      have hstatus : s₁.status ≠ .launched := by
        rcases hinstalls.failed e rfl with hstatus | hstatus <;> simp [hstatus, hinitialized]
      simp [hstatus]
  rw [runsPair_iff]
  constructor
  · rintro ⟨h₁, h₂, r₁, s₁, r₂, rfl, hlaunch, hready⟩
    obtain ⟨h₃, h₄, r₃, s₃, rfl, hinstall, hrest⟩ := yields_launchWith.mp hlaunch
    have hignored := (IgnoresConfigured.install o _ _ _ _ hinstall).1
    rw [if_neg (by simp [hignored, hconfigured])] at hrest
    obtain ⟨rfl, rfl, rfl⟩ := hrest
    exact ⟨h₃, h₂, r₁, s₁, by simp, hinstall, (hsecond hinstall).mp ⟨r₂, hready⟩⟩
  · rintro ⟨h₁, h₂, r₁, s₁, rfl, hinstall, hrest⟩
    have hignored := (IgnoresConfigured.install o _ _ _ _ hinstall).1
    obtain ⟨r₂, hready⟩ := (hsecond hinstall).mpr hrest
    refine ⟨h₁, h₂, r₁, s₁, r₂, rfl, ?_, hready⟩
    refine yields_launchWith.mpr ⟨h₁, [], r₁, s₁, by simp, hinstall, ?_⟩
    rw [if_neg (by simp [hignored, hconfigured])]
    exact ⟨rfl, rfl, rfl⟩

/-- The client is ready before the launch. -/
theorem configured_launch_iff (hinitialized : s.status = .initialized)
    (hconfigured : s.configured = false) :
    s.RunsPair .configurationDone (.launch o) h s' ↔ StartsReady o s h s' := by
  have hsame : (s.withConfigured true).withConfigured false = s := by
    rw [← hconfigured]
    rfl
  have hfirst : ∀ {h₁ r₁ s₁}, configurationDone.Yields s h₁ r₁ s₁ ↔
      h₁ = [] ∧ r₁ = .ok () ∧ s₁ = s.withConfigured true := by
    intro h₁ r₁ s₁
    rw [yields_configurationDone, if_neg (by simp [hinitialized])]
  rw [runsPair_iff]
  constructor
  · rintro ⟨h₁, h₂, r₁, s₁, r₂, rfl, hready, hlaunch⟩
    obtain ⟨rfl, -, rfl⟩ := hfirst.mp hready
    obtain ⟨h₃, h₄, r₃, s₃, rfl, hinstall, hrest⟩ := yields_launchWith.mp hlaunch
    obtain ⟨hs₃, hignored⟩ := IgnoresConfigured.install o _ _ _ _ hinstall
    have hs₃ : s₃.configured = true := hs₃
    have hinstall₀ := hignored false
    rw [hsame] at hinstall₀
    have hback : (s₃.withConfigured false).withConfigured true = s₃ := by
      rw [← hs₃]
      rfl
    refine ⟨h₃, h₄, r₃, _, rfl, hinstall₀, ?_⟩
    rw [hback]
    simp only [hs₃, and_true] at hrest
    split at hrest
    · rw [if_pos ‹_›]
      exact ⟨r₂, hrest⟩
    · rw [if_neg ‹_›]
      exact ⟨hrest.1, hrest.2.2⟩
  · rintro ⟨h₁, h₂, r₁, s₁, rfl, hinstall, hrest⟩
    have hinstall₁ := (IgnoresConfigured.install o _ _ _ _ hinstall).2 true
    obtain ⟨r₂, hleft⟩ : ∃ r₂, if r₁ = .ok () ∧ (s₁.withConfigured true).configured = true
        then schedule.Yields (s₁.withConfigured true) h₂ r₂ s'
        else h₂ = [] ∧ r₂ = r₁ ∧ s' = s₁.withConfigured true := by
      by_cases hr₁ : r₁ = .ok ()
      · simpa [hr₁, Session.withConfigured] using hrest
      · simpa [hr₁] using hrest
    exact ⟨[], h₁ ++ h₂, .ok (), _, r₂, rfl, hfirst.mpr ⟨rfl, rfl, rfl⟩,
      yields_launchWith.mpr ⟨h₁, h₂, r₁, _, rfl, hinstall₁, hleft⟩⟩

/-- The client may be ready before or after the launch: the session makes the same requests,
    whatever the host replies, and ends up the same. -/
theorem launch_configured_comm (hconfigured : s.configured = false)
    (hscheduled : s.status = .initialized → s.scheduled = false) :
    s.RunsPair (.launch o) .configurationDone h s' ↔
    s.RunsPair .configurationDone (.launch o) h s' := by
  by_cases hinitialized : s.status = .initialized
  · rw [launch_configured_iff hinitialized hconfigured (hscheduled hinitialized),
      configured_launch_iff hinitialized hconfigured]
  · rw [runsPair_iff, runsPair_iff]
    constructor
    · rintro ⟨h₁, h₂, r₁, s₁, r₂, rfl, hlaunch, hready⟩
      obtain ⟨rfl, -, rfl⟩ := (yields_launchWith_of_ne hinitialized).mp hlaunch
      have hstatus := ((Operation.passes _ _ _ _ _ hready).leads.path).ne_initialized hinitialized
      refine ⟨h₂, [], r₂, s', .error .alreadyLaunched, by simp, hready, ?_⟩
      exact (yields_launchWith_of_ne hstatus).mpr ⟨rfl, rfl, rfl⟩
    · rintro ⟨h₁, h₂, r₁, s₁, r₂, rfl, hready, hlaunch⟩
      have hstatus := ((Operation.passes _ _ _ _ _ hready).leads.path).ne_initialized hinitialized
      obtain ⟨rfl, -, rfl⟩ := (yields_launchWith_of_ne hstatus).mp hlaunch
      refine ⟨[], h₁, .error .alreadyLaunched, s, r₁, by simp, ?_, hready⟩
      exact (yields_launchWith_of_ne hinitialized).mpr ⟨rfl, rfl, rfl⟩

end

/-! ### Every run of a session -/

/-- The life of a session, whatever its client and its host do.  An operation changes the status
    along the allowed ways only, and never back from the end; a stop is recorded exactly while the
    program is stopped; the debugged function is started at most once, after the datapack was
    installed and the client was ready, which may be before or after the launch; stops and their
    ends alternate; and the datapack is uninstalled at most once. -/
theorem session_lifecycle {g : Grammar} {ms : List Milestone} {s : Session}
    (hcourse : Course { grammar := g } ms s) :
    (∀ op h r s', (Operation.perform op).Yields s h r s' →
      Status.Path s.status (op.milestones s h) s'.status ∧
        (s.status = .terminated → s'.status = .terminated)) ∧
    (s.status = .stopped → s.stop.isSome = true) ∧
    (s.status ∈ [.initialized, .launched, .running] → s.stop = none) ∧
    ms.count .started ≤ 1 ∧
    (∀ before after, ms = before ++ .started :: after → .installed ∈ before ∧
      .configured ∈ before) ∧
    (.configured ∉ ms → ∀ o h s', s.RunsPair (.launch o) .configurationDone h s' ↔
      s.RunsPair .configurationDone (.launch o) h s') ∧
    ((turns ms).IsChain (· ≠ ·) ∧ (turns ms).head? ≠ some .resumed) ∧
    ms.count .uninstalled ≤ 1 := by
  have hleads := hcourse.passes.leads
  have hs := hcourse.passes.consistent (consistent_initial g)
  refine ⟨fun op h r s' hop => ?_, hs.stop, fun hstatus => ?_, hleads.path.count_started,
    fun before after hms => ?_, fun hready o h s' => ?_, ?_, hleads.count_uninstalled⟩
  · have hpath := (Operation.passes op s _ _ _ hop).leads.path
    exact ⟨hpath, hpath.eq_terminated⟩
  · simpa using hs.noStop hstatus
  · obtain ⟨hinstalled, hconfigured⟩ := hleads.before_started hms
    exact ⟨hinstalled.resolve_left (by simp [Session.phase]),
      hconfigured.resolve_left (by simp [Session.phase])⟩
  · refine launch_configured_comm ?_ fun hinitialized => hs.unscheduled (by simp [hinitialized])
    by_contra hconfigured
    have hmem := hleads.configured_mem (by simpa [Session.phase] using hconfigured)
    exact hready (hmem.resolve_left (by simp [Session.phase]))
  · -- The first turn is no end of a stop, as if the program had been resumed before.
    have hchain : (.resumed :: turns ms).IsChain (· ≠ ·) := hleads.path.isChain_turns
    cases hturns : turns ms with
    | nil => exact ⟨.nil, by simp⟩
    | cons m rest =>
      rw [hturns] at hchain
      cases hchain with
      | cons_cons hm hrest => exact ⟨hrest, by simpa using hm.symm⟩

/-- A program that is launched, stops, goes on, stops once more and is terminated twice. -/
def turnsScript : List (Operation × SteadyHost) :=
  let host : SteadyHost := { tree := sampleTree "say a" }
  let stop : Operation := .event ⟨"mcfd", "Added tag 'mcfd+t+f+1_breakpoint' to Marker"⟩
  [(sampleLaunch, host), (.configurationDone, host), (stop, host), (stop, host),
    (.resume none, host), (stop, host), (.terminate, host), (.terminate, host)]

/-- The second report of a stop is not accepted, and the datapack is uninstalled once. -/
theorem lifecycle_turnsScript :
    let ms := Session.playMilestones { grammar := ⟨#[]⟩ } turnsScript
    ms = [.installed, .configured, .started, .stopped, .resumed, .stopped, .uninstalled,
        .reported .terminated] ∧
      ((turns ms).IsChain (· ≠ ·) ∧ (turns ms).head? ≠ some .resumed) ∧
      ms.count .started ≤ 1 ∧ ms.count .uninstalled ≤ 1 := by
  intro ms
  obtain ⟨-, -, -, hstarted, -, -, hturns, huninstalled⟩ :=
    session_lifecycle (Session.course_play { grammar := ⟨#[]⟩ } turnsScript)
  exact ⟨by decide +kernel, hturns, hstarted, huninstalled⟩

end DatapackDebug
