import DatapackDebug.Proofs.Partition
import DatapackDebug.Session.Pack

namespace DatapackDebug

/-!
# The breakpoints that a datapack is generated with

To the breakpoints of the user a session adds those of a step and the place of the stop.

* `BreakpointMap.at?_add`, `BreakpointMap.of_set` — what changes, and nothing else;
* `BreakpointMap.Ordered` — functions and positions are in order, so that look-up finds every entry;
* `BreakpointMap.Extends` — breakpoints are added only where none had an effect;
* `Session.extends_effectiveBreakpoints` — that is all that a session does to those of the user;
* `Generate.files_congr` — a datapack depends on how breakpoints end pieces, and on nothing else of
  them.
-/

variable {m : BreakpointMap} {f : ResourceName} {p : Position} {bs : Breakpoints}

/-! ### Changes of sets -/

theorem Breakpoints.at?_set (bs : Breakpoints) (p q : Position) (b : Breakpoint) :
    (bs.set p b).at? q = if q = p then some b else bs.at? q :=
  SortedAssoc.find?_insert p q b bs

namespace BreakpointMap

section

variable (m : BreakpointMap) (f g : ResourceName)

theorem of_set (bs : Breakpoints) : (m.set f bs).of g = if g = f then bs else m.of g := by
  unfold BreakpointMap.of BreakpointMap.set
  split
  · rename_i hempty
    rw [SortedAssoc.find?_erase]
    by_cases hg : g = f
    · rw [if_pos hg, if_pos hg, List.isEmpty_iff.mp hempty]
      rfl
    · rw [if_neg hg, if_neg hg]
  · rw [SortedAssoc.find?_insert]
    by_cases hg : g = f
    · rw [if_pos hg, if_pos hg]
      rfl
    · rw [if_neg hg, if_neg hg]

theorem of_add (p : Position) (b : Breakpoint) :
    (m.add f p b).of g = if g = f then (m.of f).set p b else m.of g := by
  rw [BreakpointMap.of, BreakpointMap.add, SortedAssoc.find?_insert]
  split
  · rfl
  · rfl

theorem at?_add (p q : Position) (b : Breakpoint) :
    ((m.add f p b).of g).at? q = if g = f ∧ q = p then some b else (m.of g).at? q := by
  rw [of_add]
  by_cases hg : g = f
  · subst hg
    rw [if_pos rfl, Breakpoints.at?_set]
    simp
  · rw [if_neg hg, if_neg fun h => hg h.1]

end

/-- A breakpoint has an effect if it is there and is not an invalid one. -/
theorem has_iff : m.has f p = true ↔ ∃ b, (m.of f).at? p = some b ∧ b.type ≠ .invalid := by
  unfold BreakpointMap.has
  cases (m.of f).at? p <;> simp

/-! ### Order -/

/-- Functions and positions are in order. -/
structure Ordered (m : BreakpointMap) : Prop where
  functions : SortedAssoc.Sorted ResourceName.compare m
  positions : ∀ f, SortedAssoc.Sorted Position.compare (m.of f)

theorem Ordered.nil : Ordered [] := ⟨.nil, fun _ => .nil⟩

theorem Ordered.set (hm : m.Ordered) (f : ResourceName)
    (hbs : SortedAssoc.Sorted Position.compare bs) : (m.set f bs).Ordered := by
  refine ⟨?_, fun g => ?_⟩
  · unfold BreakpointMap.set
    split
    · exact List.Pairwise.filter _ hm.functions
    · exact hm.functions.insert f bs
  · rw [of_set]
    split
    · exact hbs
    · exact hm.positions g

theorem Ordered.add (hm : m.Ordered) (f : ResourceName) (p : Position) (b : Breakpoint) :
    (m.add f p b).Ordered := by
  refine ⟨hm.functions.insert f _, fun g => ?_⟩
  rw [of_add]
  split
  · exact (hm.positions f).insert p b
  · exact hm.positions g

/-! ### Additions -/

/-- Breakpoints of `P` are added where none had an effect. -/
structure Extends (P : ResourceName → Position → Breakpoint → Prop)
    (m m' : BreakpointMap) : Prop where
  at? : ∀ f p, (m'.of f).at? p = (m.of f).at? p ∨
    m.has f p = false ∧ ∃ b, (m'.of f).at? p = some b ∧ P f p b
  ordered : m.Ordered → m'.Ordered

namespace Extends

variable {P : ResourceName → Position → Breakpoint → Prop} {m' m'' : BreakpointMap}

theorem refl (m : BreakpointMap) : Extends P m m := ⟨fun _ _ => .inl rfl, id⟩

/-- What has an effect is kept. -/
theorem at?_of_has (h : Extends P m m') (hhas : m.has f p = true) :
    (m'.of f).at? p = (m.of f).at? p := by
  rcases h.at? f p with hkept | ⟨hnone, -⟩
  · exact hkept
  · rw [hhas] at hnone
    cases hnone

theorem has (h : Extends P m m') (hhas : m.has f p = true) : m'.has f p = true := by
  rw [BreakpointMap.has, h.at?_of_has hhas]
  exact hhas

theorem trans (h₁ : Extends P m m') (h₂ : Extends P m' m'') : Extends P m m'' := by
  refine ⟨fun f p => ?_, h₂.ordered ∘ h₁.ordered⟩
  rcases h₂.at? f p with hkept | ⟨hnone, b, hb, hP⟩
  · rw [hkept]
    exact h₁.at? f p
  · refine .inr ⟨?_, b, hb, hP⟩
    cases hhas : m.has f p with
    | false => rfl
    | true => exact hnone ▸ (h₁.has hhas).symm

theorem foldl {α : Type} {g : BreakpointMap → α → BreakpointMap} {xs : List α}
    (hg : ∀ m, ∀ x ∈ xs, Extends P m (g m x)) (m : BreakpointMap) : Extends P m (xs.foldl g m) := by
  induction xs generalizing m with
  | nil => exact refl m
  | cons x xs ih =>
    obtain ⟨hx, hxs⟩ := List.forall_mem_cons.mp (fun x hx m => hg m x hx)
    exact (hx m).trans (ih (fun m x h => hxs x h m) (g m x))

theorem addMissing {b : Breakpoint} (hP : P f p b) (m : BreakpointMap) :
    Extends P m (Session.addMissing m f p b) := by
  unfold Session.addMissing
  split
  · exact refl m
  · rename_i hhas
    refine ⟨fun g q => ?_, fun hm => hm.add f p b⟩
    rw [at?_add]
    split
    · rename_i hplace
      obtain ⟨rfl, rfl⟩ := hplace
      exact .inr ⟨by simpa using hhas, b, rfl, hP⟩
    · exact .inl rfl

end Extends

/-- A breakpoint that is added where it was missing is there. -/
theorem has_addMissing (m : BreakpointMap) (f : ResourceName) (p : Position) {b : Breakpoint}
    (hb : b.type ≠ .invalid) : (Session.addMissing m f p b).has f p = true := by
  unfold Session.addMissing
  split
  · assumption
  · refine has_iff.mpr ⟨b, ?_, hb⟩
    rw [at?_add, if_pos ⟨rfl, rfl⟩]

end BreakpointMap

/-! ### Sessions -/

namespace Session

/-- What a session adds to the breakpoints of the user. -/
inductive Adds (s : Session) (f : ResourceName) (p : Position) (b : Breakpoint) : Prop where
  | step {depth : Int} : s.stepDepth = some depth → f ∈ s.functions.map (·.1) →
      b = ⟨.step, stepCondition depth⟩ → Adds s f p b
  | stop {stop : Stop} : s.stop = some stop → stop.function = f → stop.position = p →
      b = ⟨.continue, []⟩ → Adds s f p b

theorem extends_withStep (s : Session) (m : BreakpointMap) : m.Extends s.Adds (s.withStep m) := by
  unfold withStep
  cases hdepth : s.stepDepth with
  | none => exact .refl m
  | some depth =>
    refine .foldl (fun m e he => ?_) m
    refine .foldl (fun m p _ => ?_) m
    exact .addMissing (.step hdepth (List.mem_map_of_mem he) rfl) m

theorem extends_withStop (s : Session) (m : BreakpointMap) : m.Extends s.Adds (s.withStop m) := by
  unfold withStop
  cases hstop : s.stop with
  | none => exact .refl m
  | some stop =>
    dsimp only
    split
    · exact .refl m
    · exact .addMissing (.stop hstop rfl rfl rfl) m

/-- Breakpoints of a step and the place of the stop are added to those of the user. -/
theorem extends_effectiveBreakpoints (s : Session) :
    s.breakpoints.Extends s.Adds s.effectiveBreakpoints :=
  (s.extends_withStep s.breakpoints).trans (s.extends_withStop _)

/-- A stop at a place that is no breakpoint of the source is a place with a breakpoint. -/
theorem has_effectiveBreakpoints_stop {s : Session} {stop : Stop} (hstop : s.stop = some stop)
    (hstatic : s.isStaticBreakpoint stop.function stop.position = false) :
    s.effectiveBreakpoints.has stop.function stop.position = true := by
  rw [effectiveBreakpoints, withStop, hstop]
  dsimp only
  rw [hstatic]
  exact BreakpointMap.has_addMissing _ _ _ (by simp)

end Session

/-! ### What datapacks depend on -/

/-- How a breakpoint ends the piece before a position, if it does. -/
def BreakpointMap.terminatorAt? (m : BreakpointMap) (f : ResourceName) (p : Position) :
    Option Terminator :=
  (m.of f).terminatorAt? p

theorem cuts_congr {bs' : Breakpoints} (h : ∀ p, bs.terminatorAt? p = bs'.terminatorAt? p)
    (l : SourceLine) : cuts bs l = cuts bs' l := by
  have hcut : ∀ p, breakpointCut bs p = breakpointCut bs' p := fun p => by
    rw [breakpointCut, breakpointCut, h]
  unfold cuts
  simp only [hcut]

/-- The pieces of a function depend on how breakpoints end them. -/
theorem split_congr {bs' : Breakpoints} (h : ∀ p, bs.terminatorAt? p = bs'.terminatorAt? p)
    (lines : List SourceLine) : split lines bs = split lines bs' := by
  unfold split
  generalize max 1 lines.length = last
  generalize (⟨1, .entry⟩ : Position) = start
  generalize ([] : List SourceLine) = pending
  induction lines generalizing start pending with
  | nil => rfl
  | cons l ls ih =>
    unfold splitFrom
    rw [cuts_congr h]
    simp only [ih]

/-- The datapacks of two sets with the same effects are the same. -/
theorem Generate.files_congr {m' : BreakpointMap}
    (h : ∀ f p, m.terminatorAt? f p = m'.terminatorAt? f p) (p : Pack) :
    Generate.files p m = Generate.files p m' := by
  have hunits : Generate.units p m = Generate.units p m' := by
    unfold Generate.units Generate.functionUnits
    simp only [fun f lines => split_congr (h f) lines]
  unfold Generate.files
  rw [hunits]

end DatapackDebug
