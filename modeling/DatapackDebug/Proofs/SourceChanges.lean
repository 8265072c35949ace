import DatapackDebug.Proofs.Deployment

namespace DatapackDebug

/-!
# Changes of sources

When a source has changed, the session reads the functions again before it uses them.  It forgets
the change before it reads, also if reading fails.

* `LoadRecord` — which attempts to read the functions have succeeded, as the exchanges tell;
* `LoadRecord.Tracks` — what holds since a change was noted, by one lemma for each kind of step;
* `change_lost_iff` — breakpoints are set or the program goes on without the change exactly if there
  was one attempt to read the functions since then and it has failed.
-/

open SessionM Session

/-! ### Attempts to read the functions -/

/-- Can a datapack be read?  Neither the grammar nor the name of the directory matters. -/
def Datapack.isReadable (tree : Except FileFailure FileTree) (cancelled : Bool) : Bool :=
  (Datapack.load ⟨#[]⟩ [] tree cancelled).isOk

theorem Datapack.isReadable_eq (g : Grammar) (dir : Text) (tree : Except FileFailure FileTree)
    (cancelled : Bool) :
    Datapack.isReadable tree cancelled = (Datapack.load g dir tree cancelled).isOk := by
  unfold Datapack.isReadable Datapack.load
  split
  · rfl
  · split
    · rfl
    · dsimp only
      split <;> rfl

/-- A look at a directory. -/
def SessionRequest.Looks : SessionRequest → Prop
  | .findTree _ => True
  | _ => False

theorem SessionRequest.IsOther.not_looks {q : SessionRequest} (hq : q.IsOther) : ¬q.Looks := by
  cases q with
  | findTree path => cases hq
  | _ => exact id

theorem SessionM.Generates.not_looks {m : BreakpointMap} {s s' : Session} {h : History}
    {r : Except SessionError Unit} (hgenerates : Generates m s h r s') : ∀ e ∈ h, ¬e.1.Looks := by
  cases hgenerates with
  | refused hcancelled => exact fun e he => hcancelled e he ▸ id
  | failed | written => exact List.forall_mem_cons.mpr ⟨id, List.forall_mem_singleton.mpr id⟩

/-- The attempts to read the functions. -/
structure LoadRecord where
  /-- what was found in the directory just now -/
  found : Option (Except FileFailure FileTree) := none
  /-- of each attempt, whether it has succeeded -/
  results : List Bool := []

namespace LoadRecord

/-- The attempts after an exchange: the session looks at the directory and then asks whether the
    request was cancelled. -/
def after (r : LoadRecord) : Exchange sessionSignature → LoadRecord
  | ⟨.findTree _, tree⟩ => { r with found := some tree }
  | ⟨.isCancelled, cancelled⟩ =>
    match r.found with
    | some tree => ⟨none, r.results ++ [Datapack.isReadable tree cancelled]⟩
    | none => r
  | _ => { r with found := none }

/-- The attempts after some exchanges. -/
def afterAll (r : LoadRecord) (h : History) : LoadRecord := h.foldl after r

theorem afterAll_append (r : LoadRecord) (h₁ h₂ : History) :
    r.afterAll (h₁ ++ h₂) = (r.afterAll h₁).afterAll h₂ := List.foldl_append

/-- Without a look at the directory there is no attempt. -/
theorem afterAll_of_not_looks {r : LoadRecord} (hr : r.found = none) {h : History}
    (hh : ∀ e ∈ h, ¬e.1.Looks) : r.afterAll h = r := by
  obtain ⟨found, results⟩ := r
  cases hr
  induction h with
  | nil => rfl
  | cons e h ih =>
    obtain ⟨he, hh⟩ := List.forall_mem_cons.mp hh
    have hafter : after ⟨none, results⟩ e = ⟨none, results⟩ := by
      obtain ⟨q, reply⟩ := e
      cases q with
      | findTree path => exact absurd trivial he
      | _ => rfl
    rw [afterAll, List.foldl_cons, hafter]
    exact ih hh

/-- An attempt is recorded. -/
theorem afterAll_load {r : LoadRecord} (path : Text) (tree : Except FileFailure FileTree)
    (cancelled : Bool) (g : Grammar) (dir : Text) :
    r.afterAll [⟨.findTree path, tree⟩, ⟨.isCancelled, cancelled⟩] =
      ⟨none, r.results ++ [(Datapack.load g dir tree cancelled).isOk]⟩ := by
  rw [← Datapack.isReadable_eq]
  rfl

/-! ### What holds since a change -/

/-- What holds since a change was noted: the functions were read, or the change is still noted and
    they were not read while the datapack was installed, or one attempt to read them has failed. -/
structure Tracks (r : LoadRecord) (s : Session) : Prop where
  found : r.found = none
  course : true ∈ r.results ∨
    (s.sourceModified = true ∧ (s.status.isActive = true → r.results = [])) ∨
    (s.sourceModified = false ∧ s.status ≠ .initialized ∧ r.results = [false])

namespace Tracks

variable {V : ResourceName → Prop} {r : LoadRecord} {s s' : Session} {h : History}
  {result : Except SessionError Unit} {d : Deployment}

/-- Nothing was read, and what is noted is the same. -/
theorem quiet (hr : r.Tracks s) (hh : ∀ e ∈ h, ¬e.1.Looks)
    (hmodified : s'.sourceModified = s.sourceModified)
    (hactive : s'.status.isActive = true → s.status.isActive = true)
    (hinitialized : s'.status = .initialized → s.status = .initialized) :
    (r.afterAll h).Tracks s' := by
  rw [afterAll_of_not_looks hr.found hh]
  refine ⟨hr.found, ?_⟩
  rw [hmodified]
  rcases hr.course with hread | ⟨hnoted, hresults⟩ | ⟨hlost, hstatus, hresults⟩
  · exact .inl hread
  · exact .inr (.inl ⟨hnoted, fun h => hresults (hactive h)⟩)
  · exact .inr (.inr ⟨hlost, fun h => hstatus (hinitialized h), hresults⟩)

theorem carries (hr : r.Tracks s) (hcarries : s.Carries V s')
    (hh : ∀ e ∈ h, ¬e.1.Looks) : (r.afterAll h).Tracks s' := by
  refine hr.quiet hh hcarries.sourceModified hcarries.isActive fun hstatus => ?_
  rcases hcarries.status with h | h | ⟨-, h⟩
  · exact h ▸ hstatus
  · exact absurd (hstatus.symm.trans h) (by simp)
  · rw [hstatus] at h
    cases h

theorem generates {m : BreakpointMap} (hr : r.Tracks s) (hgenerates : Generates m s h result s') :
    (r.afterAll h).Tracks s' := by
  have hlooks := hgenerates.not_looks
  cases hgenerates with
  | refused | failed | written => exact hr.quiet hlooks rfl id id

/-- A successful attempt. -/
theorem read {path : Text} {tree : Except FileFailure FileTree} {cancelled : Bool} {g : Grammar}
    {dir : Text} {functions : Functions}
    (hload : Datapack.load g dir tree cancelled = .ok functions) :
    (r.afterAll [⟨.findTree path, tree⟩, ⟨.isCancelled, cancelled⟩]).Tracks s' := by
  rw [afterAll_load path tree cancelled g dir, hload]
  exact ⟨rfl, .inl (by simp [Except.isOk, Except.toBool])⟩

theorem reloads (hr : r.Tracks s) (hactive : s.status.isActive = true)
    (hlaunch : s.launch.isSome = true) (hreloads : Reloads s h result s') :
    (r.afterAll h).Tracks s' := by
  cases hreloads with
  | unmodified => exact hr
  | unlaunched _ hl =>
    rw [hl] at hlaunch
    cases hlaunch
  | reloaded _ _ hload => exact read hload
  | @failed l tree cancelled e hmodified _ hload =>
    rw [afterAll_load (Path.clean l.datapack) tree cancelled s.grammar l.datapack, hload]
    refine ⟨rfl, ?_⟩
    -- An attempt is made only while the change is noted, so that it is the first one, and the last.
    rcases hr.course with hread | ⟨-, hresults⟩ | ⟨hlost, -⟩
    · exact .inl (List.mem_append_left _ hread)
    · rw [hresults hactive]
      refine .inr (.inr ⟨rfl, fun hstatus => ?_, rfl⟩)
      have hstatus : s.status = .initialized := hstatus
      rw [hstatus] at hactive
      cases hactive
    · rw [hmodified] at hlost
      cases hlost

/-- Steps keep track of a change. -/
theorem step (hr : r.Tracks s) (hlaunch : s.status.isActive = true → s.launch.isSome = true)
    (hstep : Step V s h s') : (r.afterAll h).Tracks s' := by
  cases hstep with
  | other hother hcarries => exact hr.carries hcarries fun e he => (hother e he).not_looks
  | breakpoints | accepted => exact hr.quiet (by simp) rfl id id
  | reload hactive hreloads => exact hr.reloads hactive (hlaunch hactive) hreloads
  | generate hgenerates => exact hr.generates hgenerates
  | command | removed => exact hr.quiet (List.forall_mem_singleton.mpr id) rfl id id
  | read _ hload => exact read hload
  | @unread l tree cancelled e hstatus hload =>
    -- A launch that fails does not touch the note, and the session stays as inactive as it was.
    rw [afterAll_load (Path.clean l.datapack) tree cancelled s.grammar l.datapack, hload]
    refine ⟨rfl, ?_⟩
    rcases hr.course with hread | ⟨hnoted, -⟩ | ⟨-, hstatus', -⟩
    · exact .inl (List.mem_append_left _ hread)
    · refine .inr (.inl ⟨hnoted, fun hactive => ?_⟩)
      rw [hstatus] at hactive
      cases hactive
    · exact absurd hstatus hstatus'
  | @installed l tree cancelled functions h₁ h₂ s₁ _ hload hgenerates hother =>
    have hread :
        (r.afterAll [⟨.findTree (Path.clean l.datapack), tree⟩, ⟨.isCancelled, cancelled⟩]).Tracks
        { s₁ with status := .launched } := read hload
    refine hread.quiet (h := ⟨.listen l.ns, ()⟩ :: (h₁ ++ ⟨reloadRequest s₁, none⟩ :: h₂)) ?_
      rfl id id
    refine List.forall_mem_cons.mpr ⟨id, List.forall_mem_append.mpr ⟨hgenerates.not_looks, ?_⟩⟩
    exact List.forall_mem_cons.mpr ⟨id, fun e he => (hother e he).not_looks⟩

theorem steps (hr : r.Tracks s) (hs : Sound (fun _ => True) d s)
    (hsteps : Steps (fun _ => True) s h s') : (r.afterAll h).Tracks s' := by
  induction hsteps generalizing r d with
  | refl => exact hr
  | step hstep _ ih =>
    rw [afterAll_append]
    exact ih (hr.step hs.launch hstep) (hs.step (namesIn_true _) hstep)

theorem going {s₁ : Session} (hr : r.Tracks s₁) (hgoing : Going V s s₁ h s') :
    (r.afterAll h).Tracks s' := by
  obtain ⟨commands, reply, rest, rfl, -, hrest⟩ := hgoing.exchanges
  refine hr.carries hgoing.carries (List.forall_mem_cons.mpr ⟨id, fun e he => ?_⟩)
  exact (hrest e he).not_looks

/-- An operation keeps track of a change. -/
theorem performs (hr : r.Tracks s) (hs : Sound (fun _ => True) d s)
    (hperforms : Performs (fun _ => True) s h s') : (r.afterAll h).Tracks s' := by
  obtain ⟨s₁, h₁, h₂, rfl, hsteps, hlast⟩ := hperforms
  have hr₁ : (r.afterAll h₁).Tracks s₁ := hr.steps hs hsteps
  rcases hlast with ⟨rfl, rfl⟩ | hgoing
  · rwa [List.append_nil]
  · rw [afterAll_append]
    exact hr₁.going hgoing

/-- Operations other than to note another change keep track of a change. -/
theorem run {log : List (Operation × History)} (hr : r.Tracks s) (hs : Sound (fun _ => True) d s)
    (hrun : Run s log s') (hlog : ∀ x ∈ log, x.1 ≠ .sourceModified) :
    (r.afterAll (log.flatMap (·.2))).Tracks s' := by
  induction hrun generalizing r d with
  | nil => exact hr
  | @cons _ op _ _ _ _ _ hop _ ih =>
    obtain ⟨hnoted, hrest⟩ := List.forall_mem_cons.mp hlog
    have hdoes := Operation.performed op.namesIn_true _ _ _ hop
    have hs₁ := hs.does (namesIn_true _) hdoes
    rcases hdoes with hperforms | ⟨hop, -⟩
    · rw [List.flatMap_cons, afterAll_append]
      exact ih (hr.performs hs hperforms) hs₁ hrest
    · exact absurd hop hnoted

end Tracks

end LoadRecord

/-! ### Changes that are lost -/

/-- An operation that has set breakpoints, or has let the program go on, has left no change
    noted. -/
theorem Operation.sourceModified_of_ok {op : Operation} {s s' : Session} {h : History}
    (hop : op.perform.Yields s h (.ok ()) s')
    (hkind : (∃ source lines, op = .setBreakpoints source lines) ∨ ∃ e ∈ h, e.1.GoesOn) :
    op ≠ .sourceModified ∧ s'.sourceModified = false := by
  rcases hkind with ⟨source, lines, rfl⟩ | ⟨e, he, hgo⟩
  · exact ⟨by simp, Places.sourceModified (leads _ _ _ hop)⟩
  · obtain ⟨h₁, h₂, rfl⟩ := List.append_of_mem he
    have hdoes := Operation.performed op.namesIn_true _ _ _ hop
    obtain ⟨s₁, -, hgoing⟩ := hdoes.going hgo
    refine ⟨?_, hgoing.carries.sourceModified.trans hgoing.unmodified⟩
    rintro rfl
    have hnone : h₁ ++ e :: h₂ = [] := by
      generalize h₁ ++ e :: h₂ = h at hop
      cases hop
      rfl
    simp at hnone

open LoadRecord in
/-- A source has changed for the last time in a run, and after that breakpoints were set or the
    program went on without a failure.  The functions were not read since then exactly if there was
    one attempt to read them, and it has failed. -/
theorem change_lost_iff {g : Grammar} {before since : List (Operation × History)} {op : Operation}
    {s s' : Session} {h₀ h : History}
    (hrun : Run { grammar := g } (before ++ (.sourceModified, h₀) :: since) s)
    (hsince : ∀ x ∈ since, x.1 ≠ .sourceModified) (hop : op.perform.Yields s h (.ok ()) s')
    (hkind : (∃ source lines, op = .setBreakpoints source lines) ∨ ∃ e ∈ h, e.1.GoesOn) :
    let results := (LoadRecord.afterAll {} (since.flatMap (·.2) ++ h)).results
    true ∉ results ↔ results = [false] := by
  intro results
  obtain ⟨s₀, hbefore, hafter⟩ := hrun.split
  cases hafter with
  | @cons _ _ _ _ s₁ _ _ hnoted hafter =>
    cases hnoted
    have hs₀ : Sound (fun _ => True) _ s₀ :=
      (Sound.initial _ {} g).run (namesIn_true before) hbefore
    have hs₁ : Sound (fun _ => True) _ { s₀ with sourceModified := true } := { hs₀ with }
    have hnoted : Tracks {} { s₀ with sourceModified := true } :=
      ⟨rfl, .inr (.inl ⟨rfl, fun _ => rfl⟩)⟩
    have hlast := hnoted.run hs₁ hafter hsince
    have hs := hs₁.run (namesIn_true since) hafter
    obtain ⟨hother, hmodified⟩ := Operation.sourceModified_of_ok hop hkind
    have htracks : Tracks (LoadRecord.afterAll {} (since.flatMap (·.2) ++ h)) s' := by
      rw [afterAll_append]
      rcases Operation.performed op.namesIn_true _ _ _ hop with hperforms | ⟨hop, -⟩
      · exact hlast.performs hs hperforms
      · exact absurd hop hother
    -- The operation leaves no change noted, so that the functions were read or the change was lost.
    rcases htracks.course with hread | ⟨hstill, -⟩ | ⟨-, -, hfailed⟩
    · have hread : true ∈ results := hread
      refine ⟨fun hnot => absurd hread hnot, fun hfailed => ?_⟩
      rw [hfailed] at hread
      simp at hread
    · rw [hmodified] at hstill
      cases hstill
    · have hfailed : results = [false] := hfailed
      exact ⟨fun _ => hfailed, fun _ => by simp [hfailed]⟩

/-- A source has changed, and reading it was cancelled when breakpoints were set. -/
def cancelledPlay : List (Operation × History) × Session :=
  Session.play { grammar := ⟨#[]⟩ }
    [(sampleLaunch, { tree := sampleTree "say a" }),
      (.sourceModified, { tree := sampleTree "say b" }),
      (sampleBreakpoints [1], { tree := sampleTree "say b", cancelled := true })]

/-- Breakpoints are set once more. -/
def laterBreakpoints : (Except SessionError Unit × Session) × History :=
  (sampleBreakpoints []).perform.talk (SteadyHost.reply { tree := sampleTree "say b" })
    cancelledPlay.2

/-- Breakpoints are set without a failure in the functions as they were before the change. -/
theorem change_lost_laterBreakpoints :
    (sampleBreakpoints []).perform.Yields cancelledPlay.2 laterBreakpoints.2 (.ok ())
      laterBreakpoints.1.2 ∧
      true ∉ (LoadRecord.afterAll {}
      ((cancelledPlay.1.drop 2).flatMap (·.2) ++ laterBreakpoints.2)).results := by
  have hrun : Run { grammar := ⟨#[]⟩ }
      (cancelledPlay.1.take 1 ++ (.sourceModified, []) :: cancelledPlay.1.drop 2)
        cancelledPlay.2 := by
    show Run _ cancelledPlay.1 _
    exact run_play ..
  have hop : (sampleBreakpoints []).perform.Yields cancelledPlay.2 laterBreakpoints.2 (.ok ())
      laterBreakpoints.1.2 := by
    have hresult : laterBreakpoints.1.1 = .ok () := by decide +kernel
    rw [← hresult]
    exact yields_talk ..
  refine ⟨hop, (change_lost_iff hrun ?_ hop (.inl ⟨_, _, rfl⟩)).mpr ?_⟩
  · exact List.forall_mem_singleton.mpr (by simp [sampleBreakpoints])
  · decide +kernel

end DatapackDebug
