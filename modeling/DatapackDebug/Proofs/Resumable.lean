import DatapackDebug.Proofs.EffectiveBreakpoints
import DatapackDebug.Proofs.Operations
import DatapackDebug.Proofs.Units

namespace DatapackDebug

/-!
# Stops stay resumable

While the program has stopped, the client may set other breakpoints, also where the program has
stopped, and the datapack is then generated anew.

* `Function.mem_resumeTargets_of_terminator` — a position stays one where execution can be taken up
  again as long as some breakpoint is there;
* `Places.settled` — setting breakpoints does not move the stop if no source has changed;
* `Session.Run.wellFormed_functions` — the functions of a session are numbered line by line;
* `stop_resumes` — so the program can always be resumed where it has stopped.
-/

open SessionM

variable {bs : Breakpoints} {p : Position} {s s' : Session} {fn : Function}
  {r : Except SessionError Unit}

/-! ### Positions where execution is taken up again -/

/-- A position where execution is taken up again is one for other breakpoints, too, if one of these
    is there. -/
theorem Function.mem_resumeTargets_of_terminator {f : Function} {bs' : Breakpoints} {b : Breakpoint}
    (hp : p ∈ resumeTargets (split f.lines bs)) (hb : bs'.at? p = some b)
    (htype : b.type ≠ .invalid) : p ∈ resumeTargets (split f.lines bs') := by
  obtain ⟨t, ht, hcut⟩ := Function.mem_resumeTargets_iff.mp hp
  obtain ⟨l, hl, hcut⟩ := Function.cut_mem_segments_iff.mp hcut
  obtain ⟨t', ht'⟩ := Breakpoint.exists_terminator? htype p.place
  have hbreakpoint : ∀ q, (p, t) ∈ breakpointCut bs q → (p, t') ∈ breakpointCut bs' q :=
    fun q hq => by
    obtain ⟨rfl, -⟩ := mem_breakpointCut_iff.mp hq
    exact mem_breakpointCut_iff.mpr ⟨rfl, b, hb, ht'⟩
  suffices h : ∃ t', t'.isResumable = true ∧ (p, t') ∈ (cuts bs' l).1 by
    obtain ⟨t', ht', hcut'⟩ := h
    exact Function.mem_resumeTargets_iff.mpr ⟨t', ht',
      Function.cut_mem_segments_iff.mpr ⟨l, hl, hcut'⟩⟩
  have hresumable := Breakpoint.isResumable_of_terminator? ht'
  cases hline : l.line with
  | breakpoint =>
    -- A breakpoint of the source takes the place of one that is set.
    simp only [cuts, hline] at hcut ⊢
    exact ⟨t, ht, hcut⟩
  | call call =>
    simp only [cuts, hline, List.mem_append, List.mem_singleton] at hcut ⊢
    rcases hcut with (hbefore | hcall) | hafter
    · exact ⟨t', hresumable, .inl (.inl (hbreakpoint _ hbefore))⟩
    · cases hcall
      cases ht
    · exact ⟨t', hresumable, .inr (hbreakpoint _ hafter)⟩
  | _ =>
    simp only [cuts, hline] at hcut ⊢
    exact ⟨t', hresumable, hbreakpoint _ hcut⟩

/-- Execution is taken up again at every breakpoint of the source. -/
theorem Session.mem_resumeTargets_of_static {f : ResourceName} (hfn : s.function? f = some fn)
    (hnumbered : fn.Numbered) (hstatic : s.isStaticBreakpoint f p = true) (bs : Breakpoints) :
    p ∈ resumeTargets (split fn.lines bs) := by
  simp only [Session.isStaticBreakpoint, hfn, Bool.and_eq_true, beq_iff_eq,
    decide_eq_true_eq] at hstatic
  obtain ⟨⟨hplace, hline⟩, hany⟩ := hstatic
  cases hl : fn.lines[p.line - 1]? with
  | none => simp [hl] at hany
  | some l =>
    have hbreakpoint : l.line = .breakpoint := by simpa [hl] using hany
    have hnumber : l.number = p.line := by
      have := NumberedFrom.number_of_getElem? hnumbered hl
      omega
    refine Function.mem_resumeTargets_iff.mpr ⟨.static, rfl, Function.cut_mem_segments_iff.mpr
      ⟨l, List.mem_of_getElem? hl, ?_⟩⟩
    simp only [cuts, hbreakpoint, List.mem_singleton, Prod.mk.injEq, and_true]
    rw [hnumber, ← hplace]

/-- The place of the stop stays one where execution can be taken up again. -/
theorem Session.stop_mem_resumeTargets_effective {stop : Stop} (hstop : s.stop = some stop)
    (hfn : s.function? stop.function = some fn) (hnumbered : fn.Numbered)
    (hp : stop.position ∈ resumeTargets (split fn.lines bs)) :
    stop.position ∈ resumeTargets (split fn.lines (s.effectiveBreakpoints.of stop.function)) := by
  cases hstatic : s.isStaticBreakpoint stop.function stop.position with
  | true => exact mem_resumeTargets_of_static hfn hnumbered hstatic _
  | false =>
    obtain ⟨b, hb, htype⟩ := BreakpointMap.has_iff.mp (has_effectiveBreakpoints_stop hstop hstatic)
    exact Function.mem_resumeTargets_of_terminator hp hb htype

/-! ### What is generated for a position -/

namespace Generate

/-- The line that finds the marker of a position. -/
def findLine (f : ResourceName) (p : Position) (i : Nat) : Instruction :=
  .execute [.ifEntity (clouds [.breakpoint, .position f p])] (.setScore .resumePosition i)

/-- The line that goes on at a position. -/
def runLine (f : ResourceName) (p : Position) (i : Nat) : Instruction :=
  .execute [.ifScore .resumePosition (.exactly i)] (.function (.of f (.piece p)))

/-- A position where execution is taken up again has its two lines. -/
theorem lines_mem_resume (f : Function) {parts : List Partition} (hp : p ∈ resumeTargets parts) :
    ∃ i, findLine f.name p i ∈ resume f parts ∧ runLine f.name p i ∈ resume f parts := by
  obtain ⟨i, hi, hget⟩ := List.mem_iff_getElem.mp hp
  refine ⟨i, ?_, ?_⟩
  · refine List.mem_append_left _ (List.mem_append_left _ (List.mem_append_right _ ?_))
    exact List.mem_mapIdx.mpr ⟨i, hi, by rw [hget]; rfl⟩
  · refine List.mem_append_right _ ?_
    exact List.mem_mapIdx.mpr ⟨i, hi, by rw [hget]; rfl⟩

/-- A position where execution is taken up again has a unit. -/
theorem exists_piece_mem_functionUnits (p : Pack) {f : Function} {q : Position}
    (hq : q ∈ resumeTargets (split f.lines bs)) :
    ∃ lines, (UnitName.of f.name (.piece q), lines) ∈ functionUnits p f bs := by
  obtain ⟨t, -, hcut⟩ := Function.mem_resumeTargets_iff.mp hq
  obtain ⟨before, rest, hsegments⟩ := List.append_of_mem hcut
  exact ⟨_, piece_mem_functionUnits p (.inr ⟨before, t, hsegments⟩)⟩

end Generate

/-- Every unit of a datapack has a file. -/
theorem GeneratedPack.isSome_function? {c : PackConfig} {functions : Functions} {m : BreakpointMap}
    {cancelled : Bool} {pack : GeneratedPack} {u : UnitName} {lines : List Instruction}
    (hpack : GeneratedPack.generate c functions m cancelled = .ok pack)
    (hu : (u, lines) ∈ Generate.units ⟨c, functions⟩ m) :
    (pack.function? u.path).isSome = true := by
  unfold GeneratedPack.generate at hpack
  split at hpack
  · cases hpack
  · split at hpack
    · cases hpack
    · cases hpack
      refine SortedAssoc.isSome_find?_ofList ?_
      rw [List.map_append]
      refine List.mem_append_left _ (List.mem_map.mpr ⟨_, List.mem_map_of_mem hu, rfl⟩)

theorem Datapack.wellFormed_of_load {g : Grammar} {dir : Text} {tree : Except FileFailure FileTree}
    {cancelled : Bool} {functions : Functions}
    (hload : Datapack.load g dir tree cancelled = .ok functions) : functions.WellFormed := by
  unfold Datapack.load at hload
  split at hload
  · cases hload
  · split at hload
    · cases hload
    · dsimp only at hload
      split at hload
      · cases hload
      · cases hload
        exact Datapack.wellFormed_functionsOf ..

/-! ### Setting breakpoints -/

/-- The functions and the stop are the same, and no source has changed. -/
structure Session.Settled (s s' : Session) : Prop where
  functions : s'.functions = s.functions
  place : s'.stop.map Stop.place = s.stop.map Stop.place
  stale : s'.stale = false
  sourceModified : s'.sourceModified = false

theorem Session.Settled.trans {s₁ s₂ s₃ : Session} (h₁ : s₁.Settled s₂) (h₂ : s₂.Settled s₃) :
    s₁.Settled s₃ :=
  ⟨h₂.functions.trans h₁.functions, h₂.place.trans h₁.place, h₂.stale, h₂.sourceModified⟩

namespace SessionM

variable {h : History}

/-- Where no source has changed nothing is read again. -/
theorem Reloads.eq_of_unmodified (hreloads : Reloads s h r s')
    (hmodified : s.sourceModified = false) : s' = s := by
  cases hreloads with
  | unmodified => rfl
  | unlaunched h | failed h | reloaded h =>
    rw [hmodified] at h
    cases h

theorem Generates.settled {m : BreakpointMap} (hgenerates : Generates m s h r s')
    (hstale : s.stale = false) (hmodified : s.sourceModified = false) : s.Settled s' := by
  cases hgenerates with
  | refused | failed => exact ⟨rfl, rfl, hstale, hmodified⟩
  | written => exact ⟨rfl, rfl, rfl, hmodified⟩

theorem Updates.settled (hupdates : Updates s h r s') (hstale : s.stale = false)
    (hmodified : s.sourceModified = false) : s.Settled s' := by
  cases hupdates with
  | outdated hreloads | current hreloads =>
    cases hreloads.eq_of_unmodified hmodified
    exact ⟨rfl, rfl, hstale, hmodified⟩
  | unwritten hreloads hgenerates | loaded hreloads hgenerates =>
    cases hreloads.eq_of_unmodified hmodified
    exact hgenerates.settled hstale hmodified
  | unloaded hreloads hgenerates hfails =>
    cases hreloads.eq_of_unmodified hmodified
    have hsettled := hgenerates.settled hstale hmodified
    have hkeeps := hfails.keeps
    exact hsettled.trans ⟨hkeeps.functions, hkeeps.place, hkeeps.stale.trans hsettled.stale,
      hkeeps.sourceModified.trans hsettled.sourceModified⟩

/-- Setting breakpoints does not move the stop. -/
theorem Places.settled {α : Type} {r : Except SessionError α} (hplaces : Places s h r s')
    (hstale : s.stale = false) (hmodified : s.sourceModified = false) : s.Settled s' := by
  have hkept : s.Settled s := ⟨rfl, rfl, hstale, hmodified⟩
  cases hplaces with
  | refused => exact hkept
  | unplaced _ hreloads =>
    cases hreloads.eq_of_unmodified hmodified
    exact hkept
  | moved _ hreloads hmoved =>
    cases hreloads.eq_of_unmodified hmodified
    cases hstale.symm.trans hmoved
  | updated _ hreloads hupdates =>
    cases hreloads.eq_of_unmodified hmodified
    exact { hupdates.settled hstale hmodified with }

end SessionM

namespace Session

variable {log : List (Operation × History)}

/-- Setting breakpoints again and again does not move the stop. -/
theorem Run.settled (hrun : Run s log s')
    (hlog : ∀ x ∈ log, ∃ source lines, x.1 = .setBreakpoints source lines)
    (hstale : s.stale = false) (hmodified : s.sourceModified = false) : s.Settled s' := by
  induction hrun with
  | nil => exact ⟨rfl, rfl, hstale, hmodified⟩
  | cons hop _ ih =>
    obtain ⟨⟨source, lines, hset⟩, hothers⟩ := List.forall_mem_cons.mp hlog
    cases hset
    have hfirst := Places.settled (Operation.leads _ _ _ hop) hstale hmodified
    exact hfirst.trans (ih hothers hfirst.stale hfirst.sourceModified)

/-- Functions are numbered line by line, whichever sources they were read from. -/
theorem Step.wellFormed_functions {V : ResourceName → Prop} {h : History} (hstep : Step V s h s')
    (hs : s.functions.WellFormed) : s'.functions.WellFormed := by
  cases hstep with
  | other _ hcarries => exact hcarries.functions ▸ hs
  | breakpoints | command | accepted | unread | removed => exact hs
  | reload _ hreloads =>
    cases hreloads with
    | unmodified | unlaunched | failed => exact hs
    | reloaded _ _ hload => exact Datapack.wellFormed_of_load hload
  | generate hgenerates => cases hgenerates <;> exact hs
  | read _ hload => exact Datapack.wellFormed_of_load hload
  | installed _ hload hgenerates =>
    cases hgenerates with
    | written => exact Datapack.wellFormed_of_load hload

theorem Run.wellFormed_functions (hrun : Run s log s') (hs : s.functions.WellFormed) :
    s'.functions.WellFormed :=
  hrun.invariant hs (fun _ _ _ hstep => hstep.wellFormed_functions) fun _ hs => hs

/-- The datapack of a session can resume the program at a position of a function: the unit that
    resumes the function finds the marker and goes on there, and the unit to go on with has a
    file. -/
structure Resumes (s : Session) (fn : Function) (p : Position) : Prop where
  target : p ∈ resumeTargets (split fn.lines (s.effectiveBreakpoints.of fn.name))
  lines : ∀ c, ∃ lines i,
    (UnitName.of fn.name .resume, lines) ∈ Generate.units ⟨c, s.functions⟩ s.effectiveBreakpoints ∧
      Generate.findLine fn.name p i ∈ lines ∧ Generate.runLine fn.name p i ∈ lines
  file : ∀ c cancelled pack,
    GeneratedPack.generate c s.functions s.effectiveBreakpoints cancelled = .ok pack →
      (pack.function? (UnitName.of fn.name (.piece p)).path).isSome = true

/-- What is generated for a position where execution is taken up again. -/
theorem Resumes.of_mem (hfn : (fn.name, fn) ∈ s.functions)
    (hp : p ∈ resumeTargets (split fn.lines (s.effectiveBreakpoints.of fn.name))) :
    s.Resumes fn p := by
  have hunits : ∀ c u lines,
      (u, lines) ∈ Generate.functionUnits ⟨c, s.functions⟩ fn (s.effectiveBreakpoints.of fn.name) →
      (u, lines) ∈ Generate.units ⟨c, s.functions⟩ s.effectiveBreakpoints := fun c u lines hu =>
    List.mem_append_left _ (List.mem_flatMap.mpr ⟨(fn.name, fn), hfn, hu⟩)
  refine ⟨hp, fun c => ?_, fun c cancelled pack hpack => ?_⟩
  · obtain ⟨i, hfind, hrun⟩ := Generate.lines_mem_resume fn hp
    refine ⟨_, i, hunits c _ _ (List.mem_append_left _ ?_), hfind, hrun⟩
    simp
  · obtain ⟨lines, hpiece⟩ := Generate.exists_piece_mem_functionUnits ⟨c, s.functions⟩ hp
    exact GeneratedPack.isSome_function? hpack (hunits c _ lines hpiece)

end Session

open Session in
/-- A session has stopped at a position where the datapack with some breakpoints can take up
    execution, and no source has changed.  Whatever breakpoints are set after that, and however the
    next step goes, its datapack can resume the program there.  Breakpoints of the user are in that
    datapack as they are. -/
theorem stop_resumes {g : Grammar} {log later : List (Operation × History)} {s s' : Session}
    {stop : Stop} {fn : Function} (m : BreakpointMap) (depth : Option Int)
    (hrun : Run { grammar := g } log s) (hstop : s.stop = some stop) (hstale : s.stale = false)
    (hmodified : s.sourceModified = false) (hfn : s.function? stop.function = some fn)
    (hp : stop.position ∈ resumeTargets (split fn.lines (m.of stop.function)))
    (hlater : Run s later s')
    (hsets : ∀ x ∈ later, ∃ source lines, x.1 = .setBreakpoints source lines) :
    { s' with stepDepth := depth }.Resumes fn stop.position ∧
      ∀ f p b, (s'.breakpoints.of f).at? p = some b → b.type = .normal →
        ({ s' with stepDepth := depth }.effectiveBreakpoints.of f).at? p = some b := by
  have hfunctions : s.functions.WellFormed := hrun.wellFormed_functions ⟨.nil, by simp, by simp⟩
  have hmem : (stop.function, fn) ∈ s.functions := SortedAssoc.mem_of_find? hfn
  have hname : fn.name = stop.function := hfunctions.named _ hmem
  -- Setting breakpoints neither changes functions nor where the program has stopped.
  have hsettled := hlater.settled hsets hstale hmodified
  have hplace := hsettled.place
  rw [hstop, Option.map_some, Option.map_eq_some_iff] at hplace
  obtain ⟨stop', hstop', hplace⟩ := hplace
  obtain ⟨hfunction, hposition⟩ := Prod.mk.inj hplace
  refine ⟨.of_mem ?_ ?_, fun f p b hb htype => ?_⟩
  · rw [hname]
    exact hsettled.functions ▸ hmem
  · rw [hname, ← hfunction, ← hposition]
    refine stop_mem_resumeTargets_effective hstop' ?_ (hfunctions.numbered _ hmem) (hposition ▸ hp)
    rw [hfunction]
    exact (congrArg (SortedAssoc.find? _ _) hsettled.functions).trans hfn
  · -- One-shot breakpoints are only added where there is no breakpoint with an effect.
    have hhas : s'.breakpoints.has f p = true := BreakpointMap.has_iff.mpr ⟨b, hb, by simp [htype]⟩
    rw [← hb]
    exact { s' with stepDepth := depth }.extends_effectiveBreakpoints.at?_of_has hhas

/-! ### A breakpoint that is removed where the program has stopped -/

/-- The program has stopped before the only line of its function. -/
def stoppedPlay : List (Operation × History) × Session :=
  Session.play { grammar := ⟨#[]⟩ }
    [(sampleLaunch, { tree := sampleTree "say a" }),
      (.configurationDone, { tree := sampleTree "say a" }),
      (.event ⟨"mcfd", "Added tag 'mcfd+t+f+1_breakpoint' to Marker"⟩,
        { tree := sampleTree "say a" })]

/-- Then all breakpoints are removed, and the datapack is written but not loaded. -/
def removedPlay : List (Operation × History) × Session :=
  stoppedPlay.2.play [(sampleBreakpoints [],
    { tree := sampleTree "say a", failure := some .cancelled })]

/-- The stop. -/
def sampleStop : Stop := { function := ⟨"t", "f"⟩, position := ⟨1, .breakpoint⟩, reason := .step }

/-- A breakpoint where the program has stopped. -/
def stopBreakpoints : BreakpointMap := [(⟨"t", "f"⟩, [(⟨1, .breakpoint⟩, ⟨.normal, []⟩)])]

open Session in
/-- The program can be resumed where the breakpoint was. -/
theorem removedPlay_resumes : ∃ fn :
    Function, stoppedPlay.2.function? sampleStop.function = some fn ∧
    { removedPlay.2 with stepDepth := none }.Resumes fn sampleStop.position := by
  have hstop : stoppedPlay.2.stop = some sampleStop := by decide +kernel
  have htargets : (stoppedPlay.2.function? sampleStop.function).any (fun fn => sampleStop.position ∈
      resumeTargets (split fn.lines (stopBreakpoints.of sampleStop.function))) = true := by
        decide +kernel
  cases hfn : stoppedPlay.2.function? sampleStop.function with
  | none =>
    rw [hfn] at htargets
    cases htargets
  | some fn =>
    rw [hfn, Option.any_some, decide_eq_true_eq] at htargets
    refine ⟨fn, rfl, (stop_resumes stopBreakpoints none (run_play ..) hstop ?_ ?_ hfn htargets
      (run_play stoppedPlay.2 _) ?_).1⟩
    · decide +kernel
    · decide +kernel
    · exact List.forall_mem_singleton.mpr ⟨_, _, rfl⟩

end DatapackDebug
