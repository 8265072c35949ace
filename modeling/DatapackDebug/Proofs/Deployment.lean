import DatapackDebug.Proofs.BreakpointKey
import DatapackDebug.Proofs.Operations

namespace DatapackDebug

/-!
# The session and the datapack on the server

A session remembers the key of the breakpoints of the datapack that it has written, and writes a new
one if its breakpoints have another key.  It does not remember whether the server has loaded it.

* `Deployment` — what the exchanges of a session tell of the directory and of the server;
* `Deployment.Coherent` — the directory holds the datapack of the session, and the server has loaded
  it;
* `Session.Sound` — what holds of every session, by one lemma for each kind of step;
* `coherent_iff_loaded` — when the program goes on, the datapack is the right one exactly if it was
  written without a failure and loaded since.
-/

open SessionM

variable {functions : Functions} {m : BreakpointMap} {cancelled : Bool} {V : ResourceName → Prop}
  {tree : Except FileFailure FileTree}

/-! ### What is known of the server -/

/-- What is known of the datapack on the server. -/
structure Deployment where
  /-- the directory and the files that were last written, unless that has failed -/
  written : Option (Text × List (Text × Text)) := none
  /-- has the server loaded its datapacks since? -/
  loaded : Bool := false

namespace Deployment

/-- What is known after an exchange.  After a failure anything may be in the directory. -/
def after (d : Deployment) : Exchange sessionSignature → Deployment
  | ⟨.replaceDir dir files, (none : Option FileError)⟩ => ⟨some (dir, files), false⟩
  | ⟨.replaceDir _ _, _⟩ | ⟨.removeAll _, _⟩ => {}
  | ⟨.inject commands, (none : Option ConnectionError)⟩ =>
    if commands.any (·.command == "reload") then { d with loaded := true } else d
  | _ => d

/-- What is known after some exchanges. -/
def afterAll (d : Deployment) (h : History) : Deployment := h.foldl after d

/-- The directory holds the datapack of some functions with some breakpoints. -/
def Holds (d : Deployment) (l : Launch) (functions : Functions) (m : BreakpointMap) : Prop :=
  ∃ pack, GeneratedPack.generate l.config functions m false = .ok pack ∧
    d.written = some (l.output, pack.files)

/-- The directory holds the datapack of the session, and the server has loaded it. -/
def Coherent (d : Deployment) (s : Session) : Prop :=
  d.loaded = true ∧ ∃ l, s.launch = some l ∧ d.Holds l s.functions s.effectiveBreakpoints

theorem afterAll_append (d : Deployment) (h₁ h₂ : History) :
    d.afterAll (h₁ ++ h₂) = (d.afterAll h₁).afterAll h₂ := List.foldl_append

theorem after_of_isOther (d : Deployment) {e : Exchange sessionSignature} (he : e.1.IsOther) :
    d.after e = d := by
  obtain ⟨q, reply⟩ := e
  cases q with
  | findTree | replaceDir | removeAll => cases he
  | inject commands =>
    match reply with
    | none =>
      have hreload : ¬commands.any (·.command == "reload") = true := by
        simp only [List.any_eq_true, beq_iff_eq, not_exists, not_and]
        exact fun c hc => (he c hc).1
      exact if_neg hreload
    | some _ => rfl
  | isCancelled | listen | unlisten | query | closeConnection | notify => rfl

theorem afterAll_of_isOther (d : Deployment) {h : History} (hh : ∀ e ∈ h, e.1.IsOther) :
    d.afterAll h = d := by
  induction h with
  | nil => rfl
  | cons e h ih =>
    obtain ⟨he, hh⟩ := List.forall_mem_cons.mp hh
    rw [afterAll, List.foldl_cons, after_of_isOther d he]
    exact ih hh

end Deployment

/-- Commands do not change the directory. -/
theorem Deployment.written_after_inject (d : Deployment) (commands : List ServerCommand)
    (reply : Option ConnectionError) : (d.after ⟨.inject commands, reply⟩).written = d.written := by
  cases reply with
  | none =>
    show (if commands.any (·.command == "reload") then { d with loaded := true } else d).written = _
    split <;> rfl
  | some _ => rfl

theorem Deployment.written_afterAll_append (d : Deployment) (h₁ : History)
    (commands : List ServerCommand) (reply : Option ConnectionError) {h₂ : History}
    (hother : ∀ e ∈ h₂, e.1.IsOther) :
    (d.afterAll (h₁ ++ ⟨.inject commands, reply⟩ :: h₂)).written = (d.afterAll h₁).written := by
  rw [afterAll_append]
  show (((d.afterAll h₁).after ⟨.inject commands, reply⟩).afterAll h₂).written = _
  rw [afterAll_of_isOther _ hother, written_after_inject]

/-- A datapack that is cancelled in vain is the same. -/
theorem GeneratedPack.generate_of_ok {c : PackConfig} {pack : GeneratedPack}
    (h : GeneratedPack.generate c functions m cancelled = .ok pack) :
    GeneratedPack.generate c functions m false = .ok pack := by
  unfold GeneratedPack.generate at h ⊢
  split at h
  · cases h
  · split at h
    · cases h
    · exact h

/-- Sets with the same key make the same datapack, if names can be read back. -/
theorem Deployment.Holds.of_key {d : Deployment} {l : Launch} {m' : BreakpointMap}
    (hholds : d.Holds l functions m) (hm : m.WellFormed ResourceName.Unambiguous)
    (hm' : m'.WellFormed ResourceName.Unambiguous) (h : m.key = m'.key) :
    d.Holds l functions m' := by
  obtain ⟨pack, hpack, hwritten⟩ := hholds
  refine ⟨pack, ?_, hwritten⟩
  unfold GeneratedPack.generate at hpack ⊢
  rwa [Generate.files_congr (BreakpointMap.terminatorAt?_of_key hm' hm h.symm)]

/-- A datapack was written, and the session remembers its key. -/
theorem SessionM.Generates.holds {s s' : Session} {h : History}
    (hgenerates : Generates m s h (.ok ()) s') (d : Deployment) :
    ∃ l objectives, s.launch = some l ∧ (d.afterAll h).Holds l s.functions m ∧
      s' = { s with generated := m.key, objectives, stale := false } := by
  cases hgenerates with
  | @written l pack cancelled hl hpack =>
    exact ⟨l, pack.objectives, hl, ⟨pack, GeneratedPack.generate_of_ok hpack, rfl⟩, rfl⟩

/-! ### Names of functions -/

/-- The functions in a directory are in `V`. -/
def FileTree.NamesIn (V : ResourceName → Prop) (tree : FileTree) : Prop :=
  ∀ data, tree.find ["data"] = .ok data → ∀ file ∈ Datapack.functionFiles data,
    ∀ f, FunctionFile.nameOf? file.1 = some f → V f

theorem Datapack.names_of_load {g : Grammar} {dir : Text}
    (hload : Datapack.load g dir tree cancelled = .ok functions)
    (hnames : ∀ t, tree = .ok t → t.NamesIn V) : ∀ e ∈ functions, V e.1 := by
  cases tree with
  | error failure => cases hload
  | ok t =>
    unfold Datapack.load at hload
    split at hload
    · cases hload
    · split at hload
      · cases hload
      · rename_i data hdata
        dsimp only at hload
        split at hload
        · cases hload
        · cases hload
          intro e he
          obtain ⟨file, hfile, hname⟩ := List.mem_filterMap.mp (SortedAssoc.mem_of_mem_ofList he)
          obtain ⟨f, hf, rfl⟩ := Option.map_eq_some_iff.mp hname
          exact hnames t rfl data hdata file hfile f hf

/-- The functions in the directories that were read are in `V`. -/
def SessionM.NamesIn (V : ResourceName → Prop) (h : History) : Prop :=
  ∀ path (tree : FileTree), (⟨.findTree path, .ok tree⟩ : Exchange sessionSignature) ∈ h →
    tree.NamesIn V

theorem SessionM.NamesIn.of_load {path : Text} {h : History}
    (hnames : NamesIn V (⟨.findTree path, tree⟩ :: h)) {g : Grammar} {dir : Text}
    (hload : Datapack.load g dir tree cancelled = .ok functions) : ∀ e ∈ functions, V e.1 := by
  refine Datapack.names_of_load hload fun t ht => hnames path t ?_
  rw [ht]
  exact List.mem_cons_self

theorem SessionM.namesIn_true (h : History) : NamesIn (fun _ => True) h :=
  fun _ _ _ _ _ _ _ _ _ => trivial

theorem SessionM.namesIn_append {h₁ h₂ : History} :
    NamesIn V (h₁ ++ h₂) ↔ NamesIn V h₁ ∧ NamesIn V h₂ := by
  simp only [NamesIn, List.mem_append, or_imp, forall_and]

/-! ### Breakpoints of the client -/

namespace RequestedBreakpoint

theorem sorted_foldl_addTo (requested : List RequestedBreakpoint) {bs : Breakpoints}
    (hbs : SortedAssoc.Sorted Position.compare bs) :
    SortedAssoc.Sorted Position.compare (requested.foldl addTo bs) := by
  induction requested generalizing bs with
  | nil => exact hbs
  | cons r requested ih =>
    rw [List.foldl_cons]
    unfold addTo
    split
    · exact ih hbs
    · exact ih (hbs.insert _ _)

/-- Breakpoints of the client have no condition. -/
theorem at?_foldl_addTo {requested : List RequestedBreakpoint} {bs : Breakpoints} {p : Position}
    {b : Breakpoint} (hb : (requested.foldl addTo bs).at? p = some b) :
    bs.at? p = some b ∨ ∃ r ∈ requested, b = ⟨if r.isVerified then .normal else .invalid, []⟩ := by
  induction requested generalizing bs with
  | nil => exact .inl hb
  | cons r requested ih =>
    rcases ih hb with hat | ⟨r', hr', hb⟩
    · unfold addTo at hat
      split at hat
      · exact .inl hat
      · rw [Breakpoints.at?_set] at hat
        split at hat
        · cases hat
          exact .inr ⟨r, List.mem_cons_self, rfl⟩
        · exact .inl hat
    · exact .inr ⟨r', List.mem_cons_of_mem _ hr', hb⟩

end RequestedBreakpoint

/-! ### What holds of every session -/

namespace Session

variable {r : Except SessionError Unit}

/-- What holds of a session and of what is known of the server: the functions that the session knows
    of are in `V`, and the key that it remembers is that of the breakpoints of the datapack in the
    directory.  The functions of that datapack may be older ones. -/
structure Sound (V : ResourceName → Prop) (d : Deployment) (s : Session) : Prop where
  functions : ∀ e ∈ s.functions, V e.1
  breakpoints : s.breakpoints.WellFormed V
  stop : ∀ stop, s.stop = some stop → V stop.function
  launch : s.status.isActive = true → s.launch.isSome = true
  written : s.status.isActive = true → d.written.isSome = true → ∃ l functions m,
    s.launch = some l ∧ d.Holds l functions m ∧ m.WellFormed V ∧ m.key = s.generated ∧
      (s.stale = false → functions = s.functions)

variable {d : Deployment} {s s' : Session} {h : History}

theorem Sound.initial (V : ResourceName → Prop) (d : Deployment) (g : Grammar) :
    Sound V d { grammar := g } :=
  ⟨by simp, .nil, by simp, (by cases ·), (by cases ·)⟩

section

variable (hs : Sound V d s)

include hs

/-- Nothing of what concerns the datapack has changed. -/
theorem Sound.carries (hcarries : s.Carries V s') : Sound V d s' where
  functions := hcarries.functions ▸ hs.functions
  breakpoints := hcarries.breakpoints ▸ hs.breakpoints
  stop stop' hstop' := by
    rcases hcarries.stop stop' hstop' with hV | ⟨stop, hstop, hfunction⟩
    · exact hV
    · exact hfunction ▸ hs.stop stop hstop
  launch hactive := by
    rw [hcarries.launch]
    exact hs.launch (hcarries.isActive hactive)
  written hactive hwritten := by
    rw [hcarries.launch, hcarries.generated, hcarries.stale, hcarries.functions]
    exact hs.written (hcarries.isActive hactive) hwritten

/-- Breakpoints that the client has asked for are well-formed. -/
theorem Sound.setBreakpoints {f : ResourceName} {requested : List RequestedBreakpoint}
    (hf : ∀ b ∈ requested, b.isVerified = true → (s.function? f).isSome = true) :
    Sound V d { s with
      breakpoints := s.breakpoints.set f (requested.foldl RequestedBreakpoint.addTo []) } := by
  refine { hs with breakpoints := hs.breakpoints.set ?_ fun p b hb htype => ?_ }
  · exact RequestedBreakpoint.sorted_foldl_addTo requested .nil
  · rcases RequestedBreakpoint.at?_foldl_addTo hb with hnil | ⟨r, hr, rfl⟩
    · cases hnil
    · have hverified : r.isVerified = true := by
        cases hv : r.isVerified with
        | true => rfl
        | false => simp [hv] at htype
      obtain ⟨e, he, rfl⟩ := List.mem_map.mp (SortedAssoc.isSome_find?_iff.mp (hf r hr hverified))
      exact ⟨hs.functions e he, by simp⟩

/-- Only what was written is of importance. -/
theorem Sound.of_written {d' : Deployment} (h : d'.written = d.written) : Sound V d' s :=
  { hs with
    written := fun hactive hwritten => by
      obtain ⟨l, functions, m, hl, hholds, hrest⟩ := hs.written hactive (h ▸ hwritten)
      refine ⟨l, functions, m, hl, ?_, hrest⟩
      unfold Deployment.Holds
      rwa [h] }

/-- The functions were read again, so the datapack in the directory may be one of older ones. -/
theorem Sound.reloads (hnames : NamesIn V h) (hreloads : Reloads s h r s') :
    Sound V (d.afterAll h) s' := by
  cases hreloads with
  | unmodified => exact hs
  | unlaunched | failed => exact { hs with }
  | reloaded _ _ hload =>
    -- The directory still holds the functions from before, which the mark as stale allows for.
    refine { hs with functions := hnames.of_load hload, written := fun hactive hwritten => ?_ }
    obtain ⟨l, functions, m, hl, hholds, hm, hkey, -⟩ := hs.written hactive hwritten
    exact ⟨l, functions, m, hl, hholds, hm, hkey, fun hstale => by cases hstale⟩

theorem Sound.generates (hgenerates : Generates s.effectiveBreakpoints s h r s') :
    Sound V (d.afterAll h) s' := by
  have hm : s.effectiveBreakpoints.WellFormed V :=
    hs.breakpoints.effectiveBreakpoints hs.functions hs.stop
  cases r with
  | ok _ =>
    obtain ⟨l, objectives, hl, hholds, rfl⟩ := hgenerates.holds d
    exact { hs with written := fun _ _ => ⟨l, s.functions, _, hl, hholds, hm, rfl, fun _ => rfl⟩ }
  | error e =>
    cases hgenerates with
    | refused hcancelled =>
      rw [d.afterAll_of_isOther fun x hx => hcancelled x hx ▸ trivial]
      exact hs
    -- Nothing is known of the directory any more.
    | failed hl hpack => exact { hs with written := fun _ hwritten => by cases hwritten }

/-- A step keeps the session sound. -/
theorem Sound.step (hnames : NamesIn V h) (hstep : Step V s h s') : Sound V (d.afterAll h) s' := by
  cases hstep with
  | other hother hcarries =>
    rw [d.afterAll_of_isOther hother]
    exact hs.carries hcarries
  | breakpoints hf => exact hs.setBreakpoints hf
  | reload _ hreloads => exact hs.reloads hnames hreloads
  | generate hgenerates => exact hs.generates hgenerates
  | command => exact hs.of_written (d.written_after_inject _ _)
  | accepted hstatus =>
    -- Before a launch the session is not active, and nothing is said of its directory.
    have hactive : ¬s.status.isActive = true := by rw [hstatus]; simp
    exact { hs with launch := fun h => absurd h hactive, written := fun h => absurd h hactive }
  | unread => exact hs
  | read hstatus hload =>
    have hactive : ¬s.status.isActive = true := by rw [hstatus]; simp
    exact { hs with functions := hnames.of_load hload, written := fun h => absurd h hactive }
  | @installed l tree cancelled functions h₁ h₂ s₁ hstatus hload hgenerates hother =>
    have hfunctions : ∀ e ∈ functions, V e.1 := hnames.of_load hload
    obtain ⟨l', objectives, hl, hholds, rfl⟩ := hgenerates.holds d
    cases hl
    have hm : BreakpointMap.WellFormed V
        { s with launch := some l, functions }.effectiveBreakpoints :=
      .effectiveBreakpoints hs.breakpoints hfunctions hs.stop
    have hinstalled : Sound V (d.afterAll h₁) { s with
        status := .launched, launch := some l, functions, objectives, stale := false
        generated := { s with launch := some l, functions }.effectiveBreakpoints.key } :=
      { functions := hfunctions, breakpoints := hs.breakpoints, stop := hs.stop,
        launch := fun _ => rfl
        written := fun _ _ => ⟨l, functions, _, rfl, hholds, hm, rfl, fun _ => rfl⟩ }
    exact hinstalled.of_written (d.written_afterAll_append h₁ _ none hother)
  | removed => exact { hs with written := fun _ hwritten => by cases hwritten }

theorem Sound.steps (hnames : NamesIn V h) (hsteps : Steps V s h s') :
    Sound V (d.afterAll h) s' := by
  induction hsteps generalizing d with
  | refl => exact hs
  | step hstep _ ih =>
    obtain ⟨hfirst, hrest⟩ := namesIn_append.mp hnames
    rw [Deployment.afterAll_append]
    exact ih (hs.step hfirst hstep) hrest

end

/-- An operation keeps the session sound. -/
theorem Sound.does {op : Operation} (hs : Sound V d s) (hnames : NamesIn V h)
    (hdoes : op.Does V s h s') : Sound V (d.afterAll h) s' := by
  rcases hdoes with ⟨s₁, h₁, h₂, rfl, hsteps, hlast⟩ | ⟨-, rfl, rfl⟩
  case inr => exact { hs with }
  have hs₁ : Sound V (d.afterAll h₁) s₁ := hs.steps (namesIn_append.mp hnames).1 hsteps
  rcases hlast with ⟨rfl, rfl⟩ | hgoing
  · rwa [List.append_nil]
  · obtain ⟨commands, reply, rest, rfl, -, hrest⟩ := hgoing.exchanges
    exact (hs₁.carries hgoing.carries).of_written
      (d.written_afterAll_append h₁ commands reply hrest)

/-- The functions that the operations of a run and its host tell of are in `V`. -/
def NamesIn (V : ResourceName → Prop) (log : List (Operation × History)) : Prop :=
  ∀ x ∈ log, x.1.NamesIn V ∧ SessionM.NamesIn V x.2

/-- Every session of a run is sound. -/
theorem Sound.run {log : List (Operation × History)} (hs : Sound V d s) (hnames : NamesIn V log)
    (hrun : Run s log s') : Sound V (d.afterAll (log.flatMap (·.2))) s' := by
  induction hrun generalizing d with
  | nil => exact hs
  | cons hop _ ih =>
    obtain ⟨⟨hop', hh⟩, hrest⟩ := List.forall_mem_cons.mp hnames
    rw [List.flatMap_cons, Deployment.afterAll_append]
    exact ih (hs.does hh (Operation.performed hop' _ _ _ hop)) hrest

end Session

/-! ### When the program goes on -/

namespace Session

/-- The session when the program goes on: an operation that lets it go on changes nothing but the
    stop after that. -/
def atGoing (s s' : Session) : Session := { s' with stop := s.stop }

variable {d : Deployment} {s s₁ s' : Session} {h h₁ h₂ : History} {log : List (Operation × History)}
  {op : Operation} {r : Except SessionError Unit} {e : Exchange sessionSignature}

theorem Going.effectiveBreakpoints (hgoing : Going V s s₁ h s') :
    (s.atGoing s').effectiveBreakpoints = s₁.effectiveBreakpoints :=
  effectiveBreakpoints_congr hgoing.carries.functions hgoing.carries.breakpoints hgoing.stepDepth
    hgoing.place.symm

/-- When the program goes on, the directory holds the datapack of breakpoints that have the key of
    those of the session. -/
theorem Going.holds (hgoing : Going V s s₁ h s') (hs : Sound V d s₁)
    (hwritten : d.written.isSome = true) :
    ∃ l m, s'.launch = some l ∧ d.Holds l s'.functions m ∧ m.WellFormed V ∧
      (s.atGoing s').effectiveBreakpoints.WellFormed V ∧ m.key = s'.generated ∧
      (s.atGoing s').effectiveBreakpoints.key = s'.generated := by
  obtain ⟨l, functions, m, hl, hholds, hm, hkey, hcurrent⟩ := hs.written hgoing.active hwritten
  obtain rfl := hcurrent hgoing.current
  rw [hgoing.effectiveBreakpoints, hgoing.carries.launch, hgoing.carries.functions,
    hgoing.carries.generated]
  exact ⟨l, m, hl, hholds, hm, hs.breakpoints.effectiveBreakpoints hs.functions hs.stop, hkey,
    hgoing.key⟩

/-- When the program goes on after a run, the session is sound. -/
theorem Run.going {g : Grammar} (hrun : Run { grammar := g } log s)
    (hnames : NamesIn V (log ++ [(op, h₁)]))
    (hop : op.perform.Yields s (h₁ ++ e :: h₂) r s') (he : e.1.GoesOn) :
    ∃ s₁, Sound V (Deployment.afterAll {} (log.flatMap (·.2) ++ h₁)) s₁ ∧
      Going V s s₁ (e :: h₂) s' := by
  obtain ⟨hlog, hlast⟩ := List.forall_mem_append.mp hnames
  obtain ⟨hop', hh⟩ := List.forall_mem_singleton.mp hlast
  obtain ⟨s₁, hsteps, hgoing⟩ := (Operation.performed hop' _ _ _ hop).going he
  refine ⟨s₁, ?_, hgoing⟩
  rw [Deployment.afterAll_append]
  exact ((Sound.initial V {} g).run hlog hrun).steps hh hsteps

theorem namesIn_true (log : List (Operation × History)) : NamesIn (fun _ => True) log := by
  rintro ⟨op, h⟩ -
  exact ⟨op.namesIn_true, SessionM.namesIn_true h⟩

end Session

open Session in
/-- Whenever the program goes on after a run in which any request may have failed, the datapack in
    the directory is one of the functions of the session, and its breakpoints have the key that the
    session remembers, which is that of its own breakpoints.  If names can be read back from keys,
    the directory holds the datapack of the session and the server has loaded it exactly if it was
    written without a failure and the server has loaded its datapacks since. -/
theorem coherent_iff_loaded {g : Grammar} {log : List (Operation × History)} {op : Operation}
    {s s' : Session} {h₁ h₂ : History} {commands : List ServerCommand}
    {reply : Option ConnectionError} {r : Except SessionError Unit}
    (hrun : Run { grammar := g } log s)
    (hop : op.perform.Yields s (h₁ ++ ⟨.inject commands, reply⟩ :: h₂) r s')
    (hgo : ∃ c ∈ commands, c.GoesOn) :
    let d := Deployment.afterAll {} (log.flatMap (·.2) ++ h₁)
    (d.written.isSome = true → ∃ l m, s'.launch = some l ∧ d.Holds l s'.functions m ∧
      m.key = s'.generated ∧ (s.atGoing s').effectiveBreakpoints.key = s'.generated) ∧
    (Session.NamesIn ResourceName.Unambiguous (log ++ [(op, h₁)]) →
      (d.Coherent (s.atGoing s') ↔ d.written.isSome = true ∧ d.loaded = true)) := by
  intro d
  refine ⟨fun hwritten => ?_, fun hnames => ⟨?_, ?_⟩⟩
  · -- Keys agree whatever the names are.
    obtain ⟨s₁, hs, hgoing⟩ := hrun.going (namesIn_true _) hop hgo
    obtain ⟨l, m, hl, hholds, -, -, hkey, hkey'⟩ := hgoing.holds hs hwritten
    exact ⟨l, m, hl, hholds, hkey, hkey'⟩
  · rintro ⟨hloaded, l, -, pack, -, hwritten⟩
    exact ⟨hwritten ▸ rfl, hloaded⟩
  · rintro ⟨hwritten, hloaded⟩
    obtain ⟨s₁, hs, hgoing⟩ := hrun.going hnames hop hgo
    obtain ⟨l, m, hl, hholds, hm, hm', hkey, hkey'⟩ := hgoing.holds hs hwritten
    refine ⟨hloaded, l, hl, ?_⟩
    -- Breakpoints with the same key give the same datapack, as names can be read back from keys.
    exact hholds.of_key hm hm' (hkey.trans hkey'.symm)

/-! ### A datapack that was not loaded -/

/-- Breakpoints were set after the launch, but the server was not told to load the datapack. -/
def unloadedPlay : List (Operation × History) × Session :=
  Session.play { grammar := ⟨#[]⟩ }
    [(sampleLaunch, { tree := sampleTree "# breakpoint" }),
      (sampleBreakpoints [1], { tree := sampleTree "# breakpoint", failure := some .cancelled })]

/-- The program starts. -/
def unloadedStart : (Except SessionError Unit × Session) × History :=
  (Operation.perform .configurationDone).talk
    (SteadyHost.reply { tree := sampleTree "# breakpoint" }) unloadedPlay.2

/-- The commands that start the program. -/
def startCommands : List ServerCommand :=
  [⟨"mcfd", "scoreboard players set launch mcfd_function_id 1"⟩, ⟨"mcfd", "function mcfd:schedule"⟩]

theorem exchanges_unloadedStart : unloadedStart.2 = [⟨.inject startCommands, none⟩] := by
  have hrequests : (unloadedStart.2.map (·.1) : List SessionRequest) = [.inject startCommands] := by
    decide +kernel
  obtain ⟨⟨q, reply⟩, hhistory, hq⟩ := List.map_eq_singleton_iff.mp hrequests
  cases hq
  have hreply : reply = none := reply_of_mem_talk (hhistory ▸ List.mem_singleton_self _)
  rw [hhistory, hreply]

theorem namesIn_sampleTree (source : Text) :
    (sampleTree source).NamesIn ResourceName.Unambiguous := by
  intro data hdata file hfile f hf
  have hfiles : (sampleTree source).find ["data"] =
      .ok (.dir [("t", .dir [("functions", .dir [("f.mcfunction", .file source)])])]) := by rfl
  cases hfiles.symm.trans hdata
  have hmem : file ∈ FileTree.files
      (.dir [("t", .dir [("functions", .dir [("f.mcfunction", .file source)])])]) :=
    List.mem_of_mem_filter (List.mem_mergeSort.mp hfile)
  simp only [FileTree.files, FileTree.entryFiles, List.map_cons, List.map_nil, List.append_nil,
    List.mem_singleton] at hmem
  have hname : FunctionFile.nameOf? ["t", "functions", "f.mcfunction"] = some ⟨"t", "f"⟩ := by
    decide +kernel
  cases hmem
  cases hname.symm.trans hf
  exact ⟨by decide, by decide⟩

theorem namesIn_talk {α : Type} {m : SessionM α} {s : Session} {host : SteadyHost}
    (hhost : host.tree.NamesIn V) : SessionM.NamesIn V (m.talk host.reply s).2 := by
  intro path tree htree
  have hreply : (.ok tree : Except FileFailure FileTree) = .ok host.tree := reply_of_mem_talk htree
  cases hreply
  exact hhost

theorem Session.namesIn_play {script : List (Operation × SteadyHost)}
    (hscript : ∀ x ∈ script, x.1.NamesIn V ∧ x.2.tree.NamesIn V) (s : Session) :
    Session.NamesIn V (s.play script).1 := by
  induction script generalizing s with
  | nil => simp [Session.play, Session.NamesIn]
  | cons x script ih =>
    obtain ⟨hx, hscript⟩ := List.forall_mem_cons.mp hscript
    exact List.forall_mem_cons.mpr ⟨⟨hx.1, namesIn_talk hx.2⟩, ih hscript _⟩

open Session in
/-- The program starts with a datapack that the server has not loaded. -/
theorem not_coherent_unloadedStart :
    Run { grammar := ⟨#[]⟩ } unloadedPlay.1 unloadedPlay.2 ∧
      (Operation.perform .configurationDone).Yields unloadedPlay.2
        ([] ++ ⟨.inject startCommands, none⟩ :: []) (.ok ()) unloadedStart.1.2 ∧
      (∃ c ∈ startCommands, c.GoesOn) ∧
      Session.NamesIn ResourceName.Unambiguous (unloadedPlay.1 ++ [(.configurationDone, [])]) ∧
      ¬(Deployment.afterAll {} (unloadedPlay.1.flatMap (·.2) ++ [])).Coherent
        (unloadedPlay.2.atGoing unloadedStart.1.2) := by
  have hrun : Run { grammar := ⟨#[]⟩ } unloadedPlay.1 unloadedPlay.2 := run_play ..
  have hstart : (Operation.perform .configurationDone).Yields unloadedPlay.2
      ([] ++ ⟨.inject startCommands, none⟩ :: []) (.ok ()) unloadedStart.1.2 := by
    have htalk : (Operation.perform .configurationDone).Yields unloadedPlay.2 unloadedStart.2
      unloadedStart.1.1 unloadedStart.1.2 := yields_talk ..
    have hresult : unloadedStart.1.1 = .ok () := by decide +kernel
    rw [exchanges_unloadedStart, hresult] at htalk
    exact htalk
  have hgo : ∃ c ∈ startCommands, c.GoesOn :=
    ⟨_, List.mem_cons_of_mem _ List.mem_cons_self, "mcfd", .inr rfl⟩
  have hnames : Session.NamesIn ResourceName.Unambiguous
      (unloadedPlay.1 ++ [(.configurationDone, [])]) := by
    refine List.forall_mem_append.mpr ⟨namesIn_play ?_ _, ?_⟩
    · exact List.forall_mem_cons.mpr ⟨⟨trivial, namesIn_sampleTree _⟩,
        List.forall_mem_singleton.mpr ⟨trivial, namesIn_sampleTree _⟩⟩
    · exact List.forall_mem_singleton.mpr ⟨trivial, by simp [SessionM.NamesIn]⟩
  refine ⟨hrun, hstart, hgo, hnames, fun hcoherent => ?_⟩
  have hloaded := (((coherent_iff_loaded hrun hstart hgo).2 hnames).mp hcoherent).2
  exact absurd hloaded (by decide +kernel)

end DatapackDebug
