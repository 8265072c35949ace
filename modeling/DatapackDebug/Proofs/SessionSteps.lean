import DatapackDebug.Proofs.SessionLogic

namespace DatapackDebug

/-!
# Steps of sessions

Every operation of a session is a sequence of a few kinds of steps, and may at its end let the
program go on.  What holds of sessions at all times is proved for these steps only.

* `Asks`, `Quiet` — asking the server changes nothing that the datapack is made from;
* `Session.Step`, `Session.Steps` — the kinds of steps, and sequences of them;
* `Session.Going`, `Session.Performs` — the program goes on, with an up-to-date datapack;
* `Session.Performs.going` — a request that lets the program go on is made in a `Going`;
* `SessionM.UpToDate` — what bringing the datapack up to date achieves.
-/

variable {c : ServerCommand}

/-! ### Requests -/

/-- Does the command let the program go on? -/
def ServerCommand.GoesOn (c : ServerCommand) : Prop :=
  ∃ ns : Text, c.command = "function " ++ ns ++ ":resume_self" ∨
    c.command = "function " ++ ns ++ ":schedule"

/-- A request that neither reads nor writes files nor loads datapacks, and lets no program go on. -/
def SessionRequest.IsOther : SessionRequest → Prop
  | .findTree _ | .replaceDir _ _ | .removeAll _ => False
  | .inject commands => ∀ c ∈ commands, c.command ≠ "reload" ∧ ¬c.GoesOn
  | _ => True

/-- A request that lets the program go on. -/
def SessionRequest.GoesOn : SessionRequest → Prop
  | .inject commands => ∃ c ∈ commands, c.GoesOn
  | _ => False

/-- A question to the server. -/
def SessionRequest.IsQuery : SessionRequest → Prop
  | .query _ _ => True
  | _ => False

theorem SessionRequest.IsQuery.isOther {q : SessionRequest} (hq : q.IsQuery) : q.IsOther := by
  cases q with
  | query commands last => trivial
  | _ => cases hq

theorem SessionRequest.IsOther.not_goesOn {q : SessionRequest} (hq : q.IsOther) : ¬q.GoesOn := by
  cases q with
  | inject commands =>
    rintro ⟨c, hc, hgo⟩
    exact (hq c hc).2 hgo
  | _ => exact fun hgo => hgo

/-- Commands that let the program go on start as calls of functions do. -/
theorem ServerCommand.GoesOn.head (h : c.GoesOn) : c.command.head? = some 0x66 := by
  obtain ⟨ns, h | h⟩ := h <;> rw [h] <;> rfl

/-- A command is told from `reload` and from calls of functions by its first byte. -/
theorem ServerCommand.isOther_of_head {b : UInt8} (hhead : c.command.head? = some b)
    (hreload : b ≠ 0x72) (hcall : b ≠ 0x66) : c.command ≠ "reload" ∧ ¬c.GoesOn := by
  refine ⟨fun h => ?_, fun hgo => ?_⟩
  · rw [h] at hhead
    exact hreload (Option.some.inj hhead).symm
  · rw [hgo.head] at hhead
    exact hcall (Option.some.inj hhead).symm

/-- Calls of functions that install or uninstall the datapack are told by their last byte. -/
theorem ServerCommand.isOther_of_last (hlast : c.command.getLast? = some 0x6c) :
    c.command ≠ "reload" ∧ ¬c.GoesOn := by
  refine ⟨fun h => ?_, ?_⟩
  · rw [h] at hlast
    cases hlast
  · rintro ⟨ns, h | h⟩
    · rw [h, List.getLast?_append] at hlast
      cases hlast
    · rw [h, List.getLast?_append] at hlast
      cases hlast

/-! ### Asking the server -/

/-- Where the program has stopped. -/
def Stop.place (stop : Stop) : ResourceName × Position := (stop.function, stop.position)

/-- Of a stop only its place counts for the breakpoints of the datapack. -/
theorem Session.effectiveBreakpoints_congr {s s' : Session}
    (hfunctions : s'.functions = s.functions) (hbreakpoints : s'.breakpoints = s.breakpoints)
    (hdepth : s'.stepDepth = s.stepDepth)
    (hplace : s'.stop.map Stop.place = s.stop.map Stop.place) :
    s'.effectiveBreakpoints = s.effectiveBreakpoints := by
  have hstep : s'.withStep s'.breakpoints = s.withStep s.breakpoints := by
    rw [Session.withStep, Session.withStep, hdepth, hfunctions, hbreakpoints]
  rw [Session.effectiveBreakpoints, Session.effectiveBreakpoints, hstep]
  cases hstop : s.stop with
  | none =>
    rw [hstop, Option.map_none, Option.map_eq_none_iff] at hplace
    rw [Session.withStop, Session.withStop, hstop, hplace]
  | some stop =>
    rw [hstop, Option.map_some, Option.map_eq_some_iff] at hplace
    obtain ⟨stop', hstop', hplace⟩ := hplace
    obtain ⟨hfunction, hposition⟩ := Prod.mk.inj hplace
    have hstatic : ∀ f p, s'.isStaticBreakpoint f p = s.isStaticBreakpoint f p := fun f p => by
      simp only [Session.isStaticBreakpoint, Session.function?, hfunctions]
    rw [Session.withStop, Session.withStop, hstop, hstop']
    dsimp only
    rw [hstatic, hfunction, hposition]

attribute [simp] Status.isOneOf

/-- Is the datapack installed and the session not ended? -/
@[simp] def Status.isActive (s : Status) : Bool := s.isOneOf [.launched, .stopped, .running]

/-- What concerns the datapack is kept. -/
structure Session.SamePack (s s' : Session) : Prop where
  launch : s'.launch = s.launch
  functions : s'.functions = s.functions
  breakpoints : s'.breakpoints = s.breakpoints
  generated : s'.generated = s.generated
  stale : s'.stale = s.stale
  sourceModified : s'.sourceModified = s.sourceModified

/-- The session may have ended, or learnt something of its stop. -/
structure Session.Keeps (s s' : Session) : Prop extends SamePack s s' where
  stepDepth : s'.stepDepth = s.stepDepth
  scheduled : s'.scheduled = s.scheduled
  place : s'.stop.map Stop.place = s.stop.map Stop.place
  status : s'.status = s.status ∨ s'.status = .terminated

theorem Session.Keeps.refl (s : Session) : s.Keeps s :=
  ⟨⟨rfl, rfl, rfl, rfl, rfl, rfl⟩, rfl, rfl, rfl, .inl rfl⟩

namespace SessionM

/-- A failed request to the server keeps all but the status. -/
theorem FailsTo.keeps {s s' : Session} {h : History} (hfails : FailsTo s h s') : s.Keeps s' := by
  cases hfails with
  | kept => exact .refl s
  | ended | reported => exact { Session.Keeps.refl s with status := .inr rfl }

/-- A failed request to the server makes no other requests than reports. -/
theorem FailsTo.isOther {s s' : Session} {h : History} (hfails : FailsTo s h s') :
    ∀ e ∈ h, e.1.IsOther := by
  cases hfails with
  | kept | ended => simp
  | reported => exact List.forall_mem_singleton.mpr trivial

/-- The server may have been asked, and the session may have ended if that failed. -/
structure Quiet {α : Type} (s : Session) (h : History) (r : Except SessionError α)
    (s' : Session) : Prop where
  keeps : s.Keeps s'
  isOther : ∀ e ∈ h, e.1.IsOther
  status : ∀ a, r = .ok a → s'.status = s.status

theorem Quiet.require {s : Session} {states : List Status} {e : SessionError} :
    (SessionM.require states e).Ensures s fun h r s' =>
      h = [] ∧ s = s' ∧ ∀ a, r = .ok a → s.status.isOneOf states = true := by
  unfold SessionM.require
  refine .get_bind (.ite (fun hstatus => .pure ⟨rfl, rfl, fun _ _ => hstatus⟩) fun _ => ?_)
  exact .throw ⟨rfl, rfl, by simp⟩

/-- What asking the server can lead to: the session learns of its stop, or the last question
    fails. -/
inductive Asks {α : Type} (s : Session) : History → Except SessionError α → Session → Prop where
  | answered {h a} (stop : Option Stop) : (∀ e ∈ h, e.1.IsQuery) →
      stop.map Stop.place = s.stop.map Stop.place → Asks s h (.ok a) { s with stop }
  | failed {h₂ e s'} (h₁ : History) (stop : Option Stop) : (∀ e ∈ h₁, e.1.IsQuery) →
      stop.map Stop.place = s.stop.map Stop.place → FailsTo { s with stop } h₂ s' →
      Asks s (h₁ ++ h₂) (.error e) s'

namespace Asks

variable {α β : Type} {s : Session}

theorem nothing (r : Except SessionError α) : Asks s [] r s := by
  cases r with
  | ok a => exact answered s.stop (by simp) rfl
  | error e => exact failed [] s.stop (by simp) rfl .kept

/-- What is asked after something else. -/
theorem bind {m : SessionM α} {f : α → SessionM β} (hm : m.Ensures s (Asks s))
    (hf : ∀ a s₁, (f a).Ensures s₁ (Asks s₁)) : (m >>= f).Ensures s (Asks s) := by
  refine .bind (hm.mono fun h₁ r s₁ hfirst => ?_)
  cases hfirst with
  | failed _ _ hquery hplace hfails => exact .failed _ _ hquery hplace hfails
  | @answered _ a stop hquery hplace =>
    refine (hf a _).mono fun h₂ r s' hsecond => ?_
    cases hsecond with
    | answered _ hquery' hplace' =>
      exact .answered _ (List.forall_mem_append.mpr ⟨hquery, hquery'⟩) (hplace'.trans hplace)
    | failed _ _ hquery' hplace' hfails =>
      rw [← List.append_assoc]
      exact .failed _ _ (List.forall_mem_append.mpr ⟨hquery, hquery'⟩) (hplace'.trans hplace) hfails

theorem query {commands : List ServerCommand} {executor last : Text} :
    (SessionM.query commands executor last).Ensures s (Asks s) := by
  refine .query (fun reply outputs => ?_) fun reply h e s' hfails => ?_
  · exact .answered s.stop (List.forall_mem_singleton.mpr trivial) rfl
  · exact .failed [_] s.stop (List.forall_mem_singleton.mpr trivial) rfl hfails

/-- What the server has told of the stop is kept. -/
theorem modifyStop {f : Stop → Stop} (hf : ∀ stop, (f stop).place = stop.place) :
    (SessionM.modifyStop f).Ensures s (Asks s) := by
  rintro _ _ _ ⟨⟩
  refine .answered _ (by simp) ?_
  have hplace : Stop.place ∘ f = Stop.place := funext hf
  rw [Option.map_map, hplace]

theorem frames : SessionM.frames.Ensures s (Asks s) := by
  unfold SessionM.frames
  refine .get_bind ?_
  cases s.stop with
  | none => exact .throw (nothing _)
  | some stop =>
    cases hframes : stop.frames with
    | some frames =>
      simp only [hframes]
      exact .pure (nothing _)
    | none =>
      simp only [hframes]
      refine .get_bind (bind query fun outputs s₁ => .get_bind ?_)
      exact bind (modifyStop fun _ => rfl) fun _ _ => .pure (nothing _)

theorem scores : SessionM.scores.Ensures s (Asks s) := by
  unfold SessionM.scores
  refine .get_bind ?_
  cases s.stop with
  | none => exact .throw (nothing _)
  | some stop =>
    cases hscores : stop.scores with
    | some scores =>
      simp only [hscores]
      exact .pure (nothing _)
    | none =>
      simp only [hscores]
      refine .get_bind (bind query fun outputs s₁ => .get_bind ?_)
      exact bind (modifyStop fun _ => rfl) fun _ _ => .pure (nothing _)

theorem require {states : List Status} {e : SessionError} :
    (SessionM.require states e).Ensures s (Asks s) := by
  refine Quiet.require.mono ?_
  rintro h r s' ⟨rfl, rfl, -⟩
  exact nothing r

theorem currentDepth : SessionM.currentDepth.Ensures s (Asks s) := by
  refine bind frames fun frames s₁ => ?_
  cases frames with
  | nil => exact .pure (nothing _)
  | cons f fs => exact .pure (nothing _)

theorem stackTrace : SessionM.stackTrace.Ensures s (Asks s) := bind require fun _ _ => frames

theorem scopes {depth : Int} : (SessionM.scopes depth).Ensures s (Asks s) := by
  refine bind stackTrace fun frames s₁ => ?_
  cases frames with
  | nil => exact .pure (nothing _)
  | cons f fs => exact .pure (nothing _)

/-- What is asked unless it is refused. -/
theorem ite_throw {c : Prop} [Decidable c] {e : SessionError} {f : Unit → SessionM α}
    (hf : ∀ u s₁, (f u).Ensures s₁ (Asks s₁)) :
    Ensures (if c then f () else MonadExcept.throw e >>= f) s (Asks s) :=
  .ite (fun _ => hf () s) fun _ => bind (.throw (nothing _)) hf

theorem variablesAt {reference : Int} : (SessionM.variablesAt reference).Ensures s (Asks s) := by
  unfold SessionM.variablesAt
  refine bind require fun _ s₁ => ite_throw fun _ s₂ => bind frames fun frames s₃ => ?_
  cases frames with
  | nil => exact .throw (nothing _)
  | cons f fs => exact .ite (fun _ => scores) fun _ => .throw (nothing _)

/-- Asking the server changes nothing but what is known of the stop. -/
theorem quiet {s' : Session} {h : History} {r : Except SessionError α} (hasks : Asks s h r s') :
    Quiet s h r s' := by
  have hother : ∀ h : History, (∀ e ∈ h, e.1.IsQuery) → ∀ e ∈ h, e.1.IsOther :=
    fun h hquery e he => (hquery e he).isOther
  cases hasks with
  | answered _ hquery hplace =>
    exact ⟨{ Session.Keeps.refl s with place := hplace }, hother _ hquery, fun _ _ => rfl⟩
  | failed _ _ hquery hplace hfails =>
    have hkept := hfails.keeps
    refine ⟨{ hkept with place := hkept.place.trans hplace }, ?_, by simp⟩
    exact List.forall_mem_append.mpr ⟨hother _ hquery, hfails.isOther⟩

end Asks

end SessionM

/-! ### Steps -/

open SessionM

/-- The functions that an event tells of are in `V`. -/
def LogEvent.NamesIn (V : ResourceName → Prop) (e : LogEvent) : Prop :=
  ∀ ns tag f p, Report.addedTag? e.output = some tag → Tag.parsePosition? ns tag = some (f, p) → V f

namespace Session

/-- What concerns the datapack is kept; if the program has stopped somewhere else, then in a
    function of `V`. -/
structure Carries (V : ResourceName → Prop) (s s' : Session) : Prop extends SamePack s s' where
  stop : ∀ stop', s'.stop = some stop' →
    V stop'.function ∨ ∃ stop, s.stop = some stop ∧ stop.function = stop'.function
  status : s'.status = s.status ∨ s'.status = .terminated ∨
    s.status.isActive = true ∧ s'.status.isActive = true

theorem Keeps.carries {V : ResourceName → Prop} {s s' : Session} (h : s.Keeps s') :
    s.Carries V s' where
  toSamePack := h.toSamePack
  stop stop' hstop' := by
    have hplace := h.place
    rw [hstop', Option.map_some, eq_comm, Option.map_eq_some_iff] at hplace
    obtain ⟨stop, hstop, hplace⟩ := hplace
    exact .inr ⟨stop, hstop, congrArg Prod.fst hplace⟩
  status := h.status.imp_right .inl

theorem Carries.refl (V : ResourceName → Prop) (s : Session) :
    s.Carries V s := (Keeps.refl s).carries

/-- A session that is active was so before. -/
theorem Carries.isActive {V : ResourceName → Prop} {s s' : Session} (h : s.Carries V s')
    (hactive : s'.status.isActive = true) : s.status.isActive = true := by
  rcases h.status with hstatus | hstatus | ⟨hbefore, -⟩
  · rwa [← hstatus]
  · rw [hstatus] at hactive
    cases hactive
  · exact hbefore

/-- A part of an operation that lets no program go on. -/
inductive Step (V : ResourceName → Prop) : Session → History → Session → Prop where
  | other {s h s'} : (∀ e ∈ h, e.1.IsOther) → s.Carries V s' → Step V s h s'
  | breakpoints {s f} {requested : List RequestedBreakpoint} :
      (∀ b ∈ requested, b.isVerified = true → (s.function? f).isSome = true) →
      Step V s [] { s with
        breakpoints := s.breakpoints.set f (requested.foldl RequestedBreakpoint.addTo []) }
  | reload {s h r s'} : s.status.isActive = true → Reloads s h r s' → Step V s h s'
  | generate {s h r s'} : Generates s.effectiveBreakpoints s h r s' → Step V s h s'
  | command {s reply} : Step V s [⟨reloadRequest s, reply⟩] s
  | accepted {s l} : s.status = .initialized → Step V s [] { s with launch := some l }
  | unread {s} {l : Launch} {tree cancelled e} : s.status = .initialized →
      Datapack.load s.grammar l.datapack tree cancelled = .error e →
      Step V s [⟨.findTree (Path.clean l.datapack), tree⟩, ⟨.isCancelled, cancelled⟩] s
  | read {s} {l : Launch} {tree cancelled functions} : s.status = .initialized →
      Datapack.load s.grammar l.datapack tree cancelled = .ok functions →
      Step V s [⟨.findTree (Path.clean l.datapack), tree⟩, ⟨.isCancelled, cancelled⟩]
        { s with functions }
  | installed {s} {l : Launch} {tree cancelled functions h₁ h₂ s₁} : s.status = .initialized →
      Datapack.load s.grammar l.datapack tree cancelled = .ok functions →
      Generates { s with launch := some l, functions }.effectiveBreakpoints
        { s with launch := some l, functions } h₁ (.ok ()) s₁ →
      (∀ e ∈ h₂, e.1.IsOther) →
      Step V s (⟨.findTree (Path.clean l.datapack), tree⟩ :: ⟨.isCancelled, cancelled⟩ ::
        ⟨.listen l.ns, ()⟩ :: (h₁ ++ ⟨reloadRequest s₁, none⟩ :: h₂))
          { s₁ with status := .launched }
  | removed {s path reply} : Step V s [⟨.removeAll path, reply⟩] s

/-- Steps one after the other. -/
inductive Steps (V : ResourceName → Prop) : Session → History → Session → Prop where
  | refl {s} : Steps V s [] s
  | step {s h s₁ h' s'} : Step V s h s₁ → Steps V s₁ h' s' → Steps V s (h ++ h') s'

/-- The program goes on from the stop of `s`, with a datapack that is up to date with `s₁`. -/
structure Going (V : ResourceName → Prop) (s s₁ : Session) (h : History) (s' : Session) : Prop where
  active : s₁.status.isActive = true
  current : s₁.stale = false
  key : s₁.effectiveBreakpoints.key = s₁.generated
  unmodified : s₁.sourceModified = false
  place : s₁.stop.map Stop.place = s.stop.map Stop.place
  exchanges : ∃ commands reply rest, h = ⟨.inject commands, reply⟩ :: rest ∧
    (∀ c ∈ commands, c.command ≠ "reload") ∧ ∀ e ∈ rest, e.1.IsOther
  carries : s₁.Carries V s'
  stepDepth : s'.stepDepth = s₁.stepDepth

/-- What an operation does: some steps, and possibly at the end the program goes on. -/
def Performs (V : ResourceName → Prop) (s : Session) (h : History) (s' : Session) : Prop :=
  ∃ s₁ h₁ h₂, h = h₁ ++ h₂ ∧ Steps V s h₁ s₁ ∧ (h₂ = [] ∧ s' = s₁ ∨ Going V s s₁ h₂ s')

variable {V : ResourceName → Prop} {s s₁ s' : Session} {h h₁ h₂ : History}

theorem not_goesOn_reloadRequest (s : Session) : ¬(reloadRequest s).GoesOn := by
  rintro ⟨c, hc, hgo⟩
  cases List.mem_singleton.mp hc
  cases hgo.head

theorem not_goesOn_of_generates {m : BreakpointMap} {r : Except SessionError Unit}
    (hgenerates : Generates m s h r s') : ∀ e ∈ h, ¬e.1.GoesOn := by
  cases hgenerates with
  | refused hcancelled => exact fun e he => hcancelled e he ▸ id
  | failed | written => exact List.forall_mem_cons.mpr ⟨id, List.forall_mem_singleton.mpr id⟩

/-- No step lets the program go on. -/
theorem Step.not_goesOn (hstep : Step V s h s') : ∀ e ∈ h, ¬e.1.GoesOn := by
  cases hstep with
  | other hother => exact fun e he => (hother e he).not_goesOn
  | breakpoints | accepted => simp
  | reload _ hreloads =>
    cases hreloads with
    | unmodified | unlaunched => simp
    | failed | reloaded => exact List.forall_mem_cons.mpr ⟨id, List.forall_mem_singleton.mpr id⟩
  | generate hgenerates => exact not_goesOn_of_generates hgenerates
  | command => exact List.forall_mem_singleton.mpr (not_goesOn_reloadRequest s)
  | unread | read => exact List.forall_mem_cons.mpr ⟨id, List.forall_mem_singleton.mpr id⟩
  | installed _ _ hgenerates hother =>
    refine List.forall_mem_cons.mpr ⟨id,
      List.forall_mem_cons.mpr ⟨id, List.forall_mem_cons.mpr ⟨id, ?_⟩⟩⟩
    refine List.forall_mem_append.mpr ⟨not_goesOn_of_generates hgenerates, ?_⟩
    exact List.forall_mem_cons.mpr ⟨not_goesOn_reloadRequest _,
      fun e he => (hother e he).not_goesOn⟩
  | removed => exact List.forall_mem_singleton.mpr id

theorem Steps.not_goesOn (hsteps : Steps V s h s') : ∀ e ∈ h, ¬e.1.GoesOn := by
  induction hsteps with
  | refl => simp
  | step hstep _ ih => exact List.forall_mem_append.mpr ⟨hstep.not_goesOn, ih⟩

theorem Steps.single (hstep : Step V s h s') : Steps V s h s' := by
  simpa using Steps.step hstep .refl

theorem Steps.trans (hfirst : Steps V s h₁ s₁) (hsecond : Steps V s₁ h₂ s') :
    Steps V s (h₁ ++ h₂) s' := by
  induction hfirst with
  | refl => exact hsecond
  | step hstep _ ih =>
    rw [List.append_assoc]
    exact .step hstep (ih hsecond)

theorem Steps.performs (hsteps : Steps V s h s') : Performs V s h s' :=
  ⟨s', h, [], by simp, hsteps, .inl ⟨rfl, rfl⟩⟩

/-- The request that lets the program go on comes after all steps. -/
theorem Performs.going {e : Exchange sessionSignature} (hperforms : Performs V s (h₁ ++ e :: h₂) s')
    (he : e.1.GoesOn) : ∃ s₁, Steps V s h₁ s₁ ∧ Going V s s₁ (e :: h₂) s' := by
  obtain ⟨s₁, h₃, h₄, heq, hsteps, ⟨rfl, rfl⟩ | hgoing⟩ := hperforms
  · rw [List.append_nil] at heq
    exact absurd he (hsteps.not_goesOn e (heq ▸ by simp))
  · obtain ⟨commands, reply, rest, rfl, -, hrest⟩ := hgoing.exchanges
    -- Neither the steps nor what comes after that request let the program go on.
    rcases List.append_eq_append_iff.mp heq with ⟨as, rfl, has⟩ | ⟨bs, rfl, hbs⟩
    · cases as with
      | nil => exact ⟨s₁, by simpa using hsteps, has ▸ hgoing⟩
      | cons x as =>
        cases (List.cons.inj has).1
        exact absurd he (hsteps.not_goesOn e (by simp))
    · cases bs with
      | nil =>
        rw [List.nil_append] at hbs
        exact ⟨s₁, by simpa using hsteps, hbs ▸ hgoing⟩
      | cons x bs =>
        have hmem : e ∈ rest := by
          rw [(List.cons.inj hbs).2]
          simp
        exact absurd he (hrest e hmem).not_goesOn

/-- Steps before an operation that do not move the stop. -/
theorem Performs.after {s₀ : Session} {h₀ : History}
    (hperforms : Performs V s₀ h s') (hsteps : Steps V s h₀ s₀)
    (hplace : s₀.stop.map Stop.place = s.stop.map Stop.place) : Performs V s (h₀ ++ h) s' := by
  obtain ⟨s₁, h₁, h₂, rfl, hfirst, hlast⟩ := hperforms
  refine ⟨s₁, h₀ ++ h₁, h₂, by simp, hsteps.trans hfirst, hlast.imp_right fun hgoing => ?_⟩
  exact { hgoing with place := hgoing.place.trans hplace }

end Session

namespace SessionM

open Session

variable {V : ResourceName → Prop} {s s' : Session} {h : History} {r : Except SessionError Unit}
  {m : BreakpointMap}

theorem Quiet.steps {α : Type} {r : Except SessionError α} (hquiet : Quiet s h r s') :
    Steps V s h s' :=
  .single (.other hquiet.isOther hquiet.keeps.carries)

theorem FailsTo.steps (hfails : FailsTo s h s') : Steps V s h s' :=
  .single (.other hfails.isOther hfails.keeps.carries)

/-- Bringing the datapack up to date is done in steps. -/
theorem Updates.steps (hactive : s.status.isActive = true) (hupdates : Updates s h r s') :
    Steps V s h s' := by
  cases hupdates with
  | outdated hreload => exact .single (.reload hactive hreload)
  | current hreload => exact .single (.reload hactive hreload)
  | unwritten hreload hgenerate =>
    exact .step (.reload hactive hreload) (.single (.generate hgenerate))
  | unloaded hreload hgenerate hfails =>
    exact .step (.reload hactive hreload)
      (.step (.generate hgenerate) (.step .command hfails.steps))
  | loaded hreload hgenerate =>
    exact .step (.reload hactive hreload) (.step (.generate hgenerate) (.single .command))

/-- Reading the functions again leaves no change to be read. -/
theorem Reloads.sourceModified (hreload : Reloads s h r s') : s'.sourceModified = false := by
  cases hreload with
  | unmodified hmodified => exact hmodified
  | unlaunched | failed | reloaded => rfl

theorem Reloads.status (hreload : Reloads s h r s') : s'.status = s.status := by
  cases hreload <;> rfl

/-- Writing a datapack has nothing to do with changes of sources. -/
theorem Generates.sourceModified (hgenerate : Generates m s h r s') :
    s'.sourceModified = s.sourceModified := by
  cases hgenerate <;> rfl

theorem Generates.stop (hgenerate : Generates m s h r s') : s'.stop = s.stop := by
  cases hgenerate <;> rfl

/-- Bringing the datapack up to date leaves no change to be read, even if it fails. -/
theorem Updates.sourceModified (hupdates : Updates s h r s') : s'.sourceModified = false := by
  cases hupdates with
  | outdated hreload => exact hreload.sourceModified
  | current hreload => exact hreload.sourceModified
  | unwritten hreload hgenerate => exact hgenerate.sourceModified.trans hreload.sourceModified
  | unloaded hreload hgenerate hfails =>
    exact (hfails.keeps.sourceModified.trans hgenerate.sourceModified).trans hreload.sourceModified
  | loaded hreload hgenerate => exact hgenerate.sourceModified.trans hreload.sourceModified

/-- What holds once the datapack on the server is up to date. -/
structure UpToDate (s s' : Session) : Prop where
  stop : s'.stop = s.stop
  status : s'.status = s.status
  stale : s'.stale = false
  sourceModified : s'.sourceModified = false
  key : s'.effectiveBreakpoints.key = s'.generated

/-- Bringing the datapack up to date does what it says. -/
theorem Updates.upToDate (hupdates : Updates s h (.ok ()) s') : UpToDate s s' := by
  cases hupdates with
  | current hreload hstale hkey =>
    cases hreload with
    | unmodified hmodified => exact ⟨rfl, rfl, hstale, hmodified, hkey⟩
    | reloaded => cases hstale
  | loaded hreload hgenerate =>
    cases hgenerate with
    | written =>
      cases hreload with
      | unmodified hmodified => exact ⟨rfl, rfl, rfl, hmodified, rfl⟩
      | reloaded => exact ⟨rfl, rfl, rfl, rfl, rfl⟩

end SessionM

end DatapackDebug
