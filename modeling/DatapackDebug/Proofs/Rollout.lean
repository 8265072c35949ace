import DatapackDebug.Proofs.Deployment
import DatapackDebug.Proofs.Milestones
import DatapackDebug.Proofs.Resumable

namespace DatapackDebug

/-!
# The datapacks of a server

A session writes datapacks to a directory, and the server loads what it finds there when it is told
to.

* `Rollout` — what the exchanges of a session tell of the datapacks of the server;
* `Launch.Deploys` — files that are a datapack of some functions;
* `Session.Served` — what is written and what is loaded are datapacks of the session, by one lemma
  for each kind of step.
-/

open SessionM

/-! ### What is known of the server -/

/-- What is known of the datapacks of a server. -/
structure Rollout extends Deployment where
  /-- what the directory held when the server has last loaded its datapacks -/
  served : Option (Text × List (Text × Text)) := none
  /-- what was loaded whenever `install` was called -/
  installs : List (Option (Text × List (Text × Text))) := []

/-- Has the server loaded its datapacks? -/
def SessionM.loads : Exchange sessionSignature → Bool
  | ⟨.inject commands, (none : Option ConnectionError)⟩ => commands.any (·.command == "reload")
  | _ => false

/-- Nothing is loaded by other requests. -/
theorem SessionM.not_loads_of_isOther {e : Exchange sessionSignature} (he : e.1.IsOther) :
    loads e = false := by
  obtain ⟨q, reply⟩ := e
  cases q with
  | inject commands =>
    match reply with
    | none =>
      refine List.any_eq_false.mpr fun c hc => ?_
      simpa using (he c hc).1
    | some _ => rfl
  | _ => rfl

namespace Rollout

variable {e : Exchange sessionSignature}

/-- What is known after an exchange. -/
def after (r : Rollout) (e : Exchange sessionSignature) : Rollout where
  toDeployment := r.toDeployment.after e
  served := if loads e then r.written else r.served
  installs := if .installed ∈ exchangeMilestones e then r.installs ++ [r.served] else r.installs

/-- What is known after some exchanges. -/
def afterAll (r : Rollout) (h : History) : Rollout := h.foldl after r

variable {r : Rollout} {h : History}

theorem afterAll_append (r : Rollout) (h₁ h₂ : History) :
    r.afterAll (h₁ ++ h₂) = (r.afterAll h₁).afterAll h₂ := List.foldl_append

theorem afterAll_cons (r : Rollout) (e : Exchange sessionSignature) (h : History) :
    r.afterAll (e :: h) = (r.after e).afterAll h := rfl

theorem toDeployment_afterAll (r : Rollout) (h : History) :
    (r.afterAll h).toDeployment = r.toDeployment.afterAll h := by
  induction h generalizing r with
  | nil => rfl
  | cons e h ih => exact ih (r.after e)

theorem served_after_of_loads (he : loads e = true) :
    (r.after e).served = r.written := if_pos he

theorem served_after_of_not_loads (he : loads e = false) :
    (r.after e).served = r.served := if_neg (by simp [he])

theorem served_afterAll (hh : ∀ e ∈ h, loads e = false) : (r.afterAll h).served = r.served := by
  induction h generalizing r with
  | nil => rfl
  | cons e h ih =>
    obtain ⟨he, hh⟩ := List.forall_mem_cons.mp hh
    rw [afterAll_cons, ih hh, served_after_of_not_loads he]

theorem installs_afterAll (hh : .installed ∉ History.milestones h) :
    (r.afterAll h).installs = r.installs := by
  induction h generalizing r with
  | nil => rfl
  | cons e h ih =>
    rw [History.milestones_cons, List.mem_append, not_or] at hh
    rw [afterAll_cons, ih hh.2]
    exact if_neg hh.1

/-- Other requests change neither what is written nor what is loaded. -/
theorem afterAll_of_isOther (hh : ∀ e ∈ h, e.1.IsOther) :
    (r.afterAll h).toDeployment = r.toDeployment ∧ (r.afterAll h).served = r.served := by
  refine ⟨?_, served_afterAll fun e he => not_loads_of_isOther (hh e he)⟩
  rw [toDeployment_afterAll, Deployment.afterAll_of_isOther _ hh]

/-- The server loads what is written. -/
theorem served_after_reload (r : Rollout) (s : Session) (hh : ∀ e ∈ h, e.1.IsOther) :
    ((r.after ⟨reloadRequest s, (none : Option ConnectionError)⟩).afterAll h).written = r.written ∧
      ((r.after ⟨reloadRequest s, (none : Option ConnectionError)⟩).afterAll h).served =
        r.written := by
  have hloads : loads ⟨reloadRequest s, (none : Option ConnectionError)⟩ = true := by
    simp [loads, reloadRequest]
  rw [(afterAll_of_isOther hh).1, (afterAll_of_isOther hh).2]
  exact ⟨r.written_after_inject _ _, served_after_of_loads hloads⟩

/-- As long as nothing else is written, what is loaded is what is written. -/
theorem served_eq_written (hr : r.loaded = true → r.served = r.written) :
    (r.afterAll h).loaded = true → (r.afterAll h).served = (r.afterAll h).written := by
  induction h generalizing r with
  | nil => exact hr
  | cons e h ih =>
    refine ih fun hloaded => ?_
    obtain ⟨q, reply⟩ := e
    cases q with
    | replaceDir dir files => cases reply <;> cases hloaded
    | removeAll path => cases hloaded
    | inject commands =>
      cases reply with
      | some _ => exact hr hloaded
      | none =>
        have hwritten := r.written_after_inject commands none
        by_cases hloads : loads ⟨.inject commands, (none : Option ConnectionError)⟩ = true
        · exact (served_after_of_loads hloads).trans hwritten.symm
        · have hkept : r.toDeployment.after ⟨.inject commands, (none : Option ConnectionError)⟩ =
              r.toDeployment := if_neg hloads
          rw [after, hkept] at hloaded
          exact (served_after_of_not_loads (by simpa using hloads)).trans
            ((hr hloaded).trans hwritten.symm)
    | _ => exact hr hloaded

end Rollout

/-! ### What is written and what is loaded -/

/-- These files are the datapack of a launch for some functions, whose names can be read. -/
def Launch.Deploys (l : Launch) (functions : Functions)
    (x : Option (Text × List (Text × Text))) : Prop :=
  (⟨l.config, functions⟩ : Pack).WellFormed ∧
    ∃ m pack, GeneratedPack.generate l.config functions m false = .ok pack ∧
      x = some (l.output, pack.files)

theorem Deployment.Holds.deploys {d : Deployment} {l : Launch} {functions : Functions}
    {m : BreakpointMap} (hholds : d.Holds l functions m)
    (hfunctions : (⟨l.config, functions⟩ : Pack).WellFormed) : l.Deploys functions d.written :=
  ⟨hfunctions, m, hholds⟩

namespace Session

variable {result : Except SessionError Unit}

/-- The functions of a session are well-formed and have names that can be read, what it has written
    is the datapack of such functions, and so is what the server has loaded. -/
structure Served (r : Rollout) (s : Session) : Prop where
  functions : s.functions.WellFormed
  valid : ∀ e ∈ s.functions, e.1.Valid
  written : s.status.isActive = true → r.written.isSome = true → ∃ l functions,
    s.launch = some l ∧ l.Deploys functions r.written ∧ (s.stale = false → functions = s.functions)
  served : s.status.isActive = true → r.served.isSome = true → ∃ l functions,
    s.launch = some l ∧ l.Deploys functions r.served

variable {V : ResourceName → Prop} {r : Rollout} {s s₁ s' : Session} {h h₁ h₂ : History}

theorem Served.initial (r : Rollout) (g : Grammar) : Served r { grammar := g } :=
  ⟨⟨.nil, by simp, by simp⟩, by simp, (by cases ·), (by cases ·)⟩

/-- Only what is written and what is loaded counts. -/
theorem Served.congr {r' : Rollout} (hs : Served r s) (hwritten : r'.written = r.written)
    (hserved : r'.served = r.served) : Served r' s where
  functions := hs.functions
  valid := hs.valid
  written := by
    rw [hwritten]
    exact hs.written
  served := by
    rw [hserved]
    exact hs.served

theorem Served.carries (hs : Served r s) (hcarries : s.Carries V s') : Served r s' where
  functions := hcarries.functions ▸ hs.functions
  valid := hcarries.functions ▸ hs.valid
  written hactive := by
    rw [hcarries.launch, hcarries.stale, hcarries.functions]
    exact hs.written (hcarries.isActive hactive)
  served hactive := by
    rw [hcarries.launch]
    exact hs.served (hcarries.isActive hactive)

theorem Served.reloads (hs : Served r s) (hnames : SessionM.NamesIn ResourceName.Valid h)
    (hreloads : Reloads s h result s') : Served (r.afterAll h) s' := by
  cases hreloads with
  | unmodified => exact hs
  | unlaunched | failed => exact { hs with }
  | reloaded _ _ hload =>
    refine { hs with
      functions := Datapack.wellFormed_of_load hload, valid := hnames.of_load hload
      written := fun hactive hwritten => ?_ }
    obtain ⟨l, functions, hl, hdeploys, -⟩ := hs.written hactive hwritten
    exact ⟨l, functions, hl, hdeploys, fun hstale => by cases hstale⟩

/-- What is written next is a datapack of the functions that the session knows. -/
theorem Served.generates {m : BreakpointMap} (hs : Served r s)
    (hgenerates : Generates m s h result s') : Served (r.afterAll h) s' := by
  cases hgenerates with
  | refused hcancelled =>
    have hkept := Rollout.afterAll_of_isOther (r := r) fun x hx => hcancelled x hx ▸ trivial
    exact hs.congr (congrArg Deployment.written hkept.1) hkept.2
  | failed => exact { hs with written := fun _ hwritten => by cases hwritten }
  | @written l pack cancelled hl hpack =>
    refine { hs with written := fun _ _ =>
      ⟨l, s.functions, hl, ⟨⟨hs.functions, ?_⟩, ?_⟩, fun _ => rfl⟩ }
    · exact List.forall_mem_map.mpr hs.valid
    · exact ⟨m, pack, GeneratedPack.generate_of_ok hpack, rfl⟩

/-- A command that loads the datapacks of the server loads what is written. -/
theorem Served.command (hs : Served r s) (commands : List ServerCommand)
    (reply : Option ConnectionError) : Served (r.after ⟨.inject commands, reply⟩) s := by
  have hwritten := r.written_after_inject commands reply
  by_cases hloads : loads ⟨.inject commands, reply⟩ = true
  · have hserved : (r.after ⟨.inject commands, reply⟩).served = r.written :=
      Rollout.served_after_of_loads hloads
    refine ⟨hs.functions, hs.valid, fun hactive => ?_, fun hactive hsome => ?_⟩
    · rw [show (r.after ⟨.inject commands, reply⟩).written = r.written from hwritten]
      exact hs.written hactive
    · rw [hserved] at hsome ⊢
      obtain ⟨l, functions, hl, hdeploys, -⟩ := hs.written hactive hsome
      exact ⟨l, functions, hl, hdeploys⟩
  · exact hs.congr hwritten (Rollout.served_after_of_not_loads (by simpa using hloads))

/-- Before a launch nothing is said of the server. -/
theorem Served.inactive (hactive : ¬s.status.isActive = true) (hfunctions : s.functions.WellFormed)
    (hvalid : ∀ e ∈ s.functions, e.1.Valid) : Served r s :=
  ⟨hfunctions, hvalid, fun h => absurd h hactive, fun h => absurd h hactive⟩

theorem Served.step (hs : Served r s) (hnames : SessionM.NamesIn ResourceName.Valid h)
    (hstep : Step V s h s') : Served (r.afterAll h) s' := by
  have hinactive : s.status = .initialized → ¬s.status.isActive = true := by
    intro hstatus
    rw [hstatus]
    simp
  cases hstep with
  | other hother hcarries =>
    have hkept := Rollout.afterAll_of_isOther (r := r) hother
    exact (hs.congr (congrArg Deployment.written hkept.1) hkept.2).carries hcarries
  | breakpoints => exact { hs with }
  | reload _ hreloads => exact hs.reloads hnames hreloads
  | generate hgenerates => exact hs.generates hgenerates
  | command => exact hs.command _ _
  | accepted hstatus => exact .inactive (hinactive hstatus) hs.functions hs.valid
  | unread hstatus => exact .inactive (hinactive hstatus) hs.functions hs.valid
  | read hstatus hload =>
    exact .inactive (hinactive hstatus) (Datapack.wellFormed_of_load hload) (hnames.of_load hload)
  | @installed l tree cancelled functions h₁ h₂ s₁ hstatus hload hgenerates hother =>
    obtain ⟨l', objectives, hl, hholds, hs₁⟩ := hgenerates.holds r.toDeployment
    cases hl
    have hdeploys : l.Deploys functions (r.toDeployment.afterAll h₁).written := hholds.deploys
      ⟨Datapack.wellFormed_of_load hload, List.forall_mem_map.mpr (hnames.of_load hload)⟩
    have hlaunch : s₁.launch = some l := by rw [hs₁]
    have hfunctions : s₁.functions = functions := by rw [hs₁]
    -- Reading the functions and listening to the server changes nothing there.
    let r₁ := r.afterAll (⟨.findTree (Path.clean l.datapack), tree⟩ :: ⟨.isCancelled, cancelled⟩ ::
      ⟨.listen l.ns, ()⟩ :: h₁)
    have hr₁ : l.Deploys functions r₁.written := by
      rw [show r₁.toDeployment = r.toDeployment.afterAll h₁ from Rollout.toDeployment_afterAll ..]
      exact hdeploys
    have hsplit :
        r.afterAll (⟨.findTree (Path.clean l.datapack), tree⟩ :: ⟨.isCancelled, cancelled⟩ ::
        ⟨.listen l.ns, ()⟩ :: (h₁ ++ ⟨reloadRequest s₁, (none : Option ConnectionError)⟩ :: h₂)) =
        (r₁.after ⟨reloadRequest s₁, (none : Option ConnectionError)⟩).afterAll h₂ :=
      Rollout.afterAll_append ..
    obtain ⟨hwritten, hserved⟩ := r₁.served_after_reload s₁ hother
    rw [hsplit]
    refine ⟨hfunctions ▸ Datapack.wellFormed_of_load hload, hfunctions ▸ hnames.of_load hload,
      fun _ _ => ⟨l, functions, hlaunch, hwritten.symm ▸ hr₁, fun _ => hfunctions.symm⟩,
      fun _ _ => ⟨l, functions, hlaunch, hserved.symm ▸ hr₁⟩⟩
  | removed => exact { hs with written := fun _ hwritten => by cases hwritten }

theorem Served.steps (hs : Served r s) (hnames : SessionM.NamesIn ResourceName.Valid h)
    (hsteps : Steps V s h s') : Served (r.afterAll h) s' := by
  induction hsteps generalizing r with
  | refl => exact hs
  | step hstep _ ih =>
    obtain ⟨hfirst, hrest⟩ := namesIn_append.mp hnames
    rw [Rollout.afterAll_append]
    exact ih (hs.step hfirst hstep) hrest

end Session

end DatapackDebug
