import DatapackDebug.Proofs.Continuations

namespace DatapackDebug

/-!
# References between generated functions

* `Generate.unitNames` — the names of the units of a datapack;
* `mem_unitNames_of_cut` — a unit starts at every cut of a function;
* `mem_unitNames_of_mem_endTargets` — what a piece enters at its end is a unit;
* `mem_unitNames_of_mem_targets` — so is whatever a unit enters.
-/

variable {u : UnitName} {e : ResourceName × Function} {unit : UnitName × List Instruction}

/-! ### Names of units -/

namespace Generate

variable {p : Pack} {bs : BreakpointMap}

/-- The names of all units. -/
def unitNames (p : Pack) (bs : BreakpointMap) : List UnitName := (units p bs).map (·.1)

theorem mem_unitNames_of_global (hu : u ∈ UnitName.global) : u ∈ unitNames p bs := by
  rw [unitNames, units, List.map_append, map_fst_globalUnits]
  exact List.mem_append_right _ hu

section

variable (hp : p.functions.WellFormed)

include hp

/-- The parts of a function are units. -/
theorem mem_unitNames_of_part (he : e ∈ p.functions) {part : UnitPart}
    (hpart : part ∈ UnitPart.fixed ++ (split e.2.lines (bs.of e.1)).map fun q => .piece q.start) :
    .of e.1 part ∈ unitNames p bs := by
  rw [unitNames, units, List.map_append, List.map_flatMap]
  refine List.mem_append_left _ (List.mem_flatMap.mpr ⟨e, he, ?_⟩)
  rw [map_fst_functionUnits, ← hp.named e he]
  exact List.mem_map_of_mem (by rwa [hp.named e he])

theorem mem_unitNames_of_name {f : ResourceName} (hf : f ∈ p.names) {part : UnitPart}
    (hpart : part ∈ UnitPart.fixed) : .of f part ∈ unitNames p bs := by
  obtain ⟨e, he, rfl⟩ := List.mem_map.mp hf
  exact mem_unitNames_of_part hp he (List.mem_append_left _ hpart)

/-- A piece of a function starts at every cut. -/
theorem mem_unitNames_of_cut (he : e ∈ p.functions) {q : Position}
    (hq : q ∈ (e.2.allCuts (bs.of e.1)).map (·.1)) : .of e.1 (.piece q) ∈ unitNames p bs := by
  refine mem_unitNames_of_part hp he (List.mem_append_right _ ?_)
  rw [← e.2.map_followed (bs.of e.1), List.map_map] at hq
  obtain ⟨x, hx, rfl⟩ := List.mem_map.mp hq
  have hnext : x.2 ∈ split e.2.lines (bs.of e.1) := List.mem_of_mem_tail (List.of_mem_zip hx).2
  exact List.mem_map.mpr ⟨x.2, hnext, rfl⟩

end

/-! ### What units enter -/

theorem mem_names_of_contains {f : ResourceName} (h : p.contains f = true) : f ∈ p.names :=
  SortedAssoc.isSome_find?_iff.mp h

/-- The cut at the end of a piece that is not the last. -/
theorem cut_mem_allCuts {f : Function} {bs : Breakpoints} {part : Partition}
    (hpart : part ∈ split f.lines bs) (hne : part.terminator ≠ .return) :
    (part.stop, part.terminator) ∈ f.allCuts bs := by
  rw [split_eq_pieces] at hpart
  obtain ⟨l, hl, hcut⟩ := Function.cut_mem_segments_iff.mp
    ((mem_pieces_terminator hne).mp ⟨part, hpart, rfl, rfl⟩)
  exact List.mem_flatMap.mpr ⟨l, hl, hcut⟩

/-- What a piece enters at its end is a unit. -/
theorem mem_unitNames_of_mem_endTargets (hp : p.functions.WellFormed) (he : e ∈ p.functions)
    {part : Partition} (hpart : part ∈ split e.2.lines (bs.of e.1)) (hu : u ∈ endTargets p e.2 part)
    : u ∈ unitNames p bs := by
  have hnext : part.terminator ≠ .return → .of e.1 (.piece part.stop) ∈ unitNames p bs := fun hne =>
    mem_unitNames_of_cut hp he (List.mem_map_of_mem (cut_mem_allCuts hpart hne))
  rw [endTargets, hp.named e he] at hu
  cases hterminator : part.terminator with
  | static | breakpoint =>
    rw [hterminator] at hu
    obtain rfl := List.mem_singleton.mp hu
    exact mem_unitNames_of_global (by decide)
  | step place condition =>
    rw [hterminator] at hu hnext
    rcases List.mem_cons.mp hu with rfl | hu
    · exact mem_unitNames_of_global (by decide)
    · obtain rfl := List.mem_singleton.mp hu
      exact hnext (by simp)
  | «continue» =>
    rw [hterminator] at hu hnext
    obtain rfl := List.mem_singleton.mp hu
    exact hnext (by simp)
  | call line text call =>
    -- A call returns to the cut that it makes.
    have hcut := cut_mem_allCuts hpart (by simp [hterminator])
    rw [hterminator] at hu hnext hcut
    obtain ⟨l, -, hcut⟩ := List.mem_flatMap.mp hcut
    obtain ⟨hstop, rfl, -⟩ := of_call_mem_cuts hcut
    rcases List.mem_append.mp hu with hu | hu
    · split at hu
      next hcontains =>
        obtain rfl := List.mem_singleton.mp hu
        exact mem_unitNames_of_name hp (mem_names_of_contains hcontains) (by decide)
      · simp at hu
    · obtain rfl := List.mem_singleton.mp hu
      rw [hstop] at hnext
      exact hnext (by simp)
  | «return» =>
    rw [hterminator] at hu
    obtain rfl := List.mem_singleton.mp hu
    exact mem_unitNames_of_part hp he (List.mem_append_left _ (by decide))

/-- What the units of a function enter are units. -/
theorem mem_unitNames_of_functionUnits (hp : p.functions.WellFormed) (he : e ∈ p.functions)
    (hunit : unit ∈ functionUnits p e.2 (bs.of e.1)) (hu : u ∈ targets unit.2) :
    u ∈ unitNames p bs := by
  have hpart : ∀ part ∈ UnitPart.fixed, .of e.1 part ∈ unitNames p bs := fun part hpart =>
    mem_unitNames_of_part hp he (List.mem_append_left _ hpart)
  have hexit : .onExit ∈ unitNames p bs := mem_unitNames_of_global (by decide)
  -- Some of the cuts of the function, by the kinds of their terminators.
  have hcuts : ∀ kind : Terminator → Bool,
      ∀ q ∈ ((e.2.allCuts (bs.of e.1)).filter (kind ·.2)).map (·.1),
        .of e.1 (.piece q) ∈ unitNames p bs := fun kind q hq =>
    mem_unitNames_of_cut hp he ((List.filter_sublist.map _).subset hq)
  simp only [functionUnits, hp.named e he, List.mem_append, List.mem_cons, List.not_mem_nil,
    or_false, List.mem_map] at hunit
  rcases hunit with (rfl | rfl | rfl | rfl | rfl | rfl) | ⟨part, hmem, rfl⟩
  · rw [targets_start] at hu
    rcases List.mem_pair.mp hu with rfl | rfl
    · exact hexit
    · obtain ⟨first, parts, hparts, hstart⟩ :=
        exists_pieces_eq_cons e.2.lastLine ⟨1, .entry⟩ [] (e.2.segments (bs.of e.1))
      refine mem_unitNames_of_part hp he (List.mem_append_right _ ?_)
      rw [split_eq_pieces, hparts, ← hstart]
      exact List.mem_cons_self
  · rw [targets_scheduled] at hu
    rcases List.mem_cons.mp hu with rfl | hu
    · exact hexit
    · rcases List.mem_pair.mp hu with rfl | rfl <;> exact hpart _ (by decide)
  · rw [targets_validate] at hu
    simp at hu
  · rw [targets_return] at hu
    rcases List.mem_cons.mp hu with rfl | hu
    · exact hexit
    · obtain ⟨caller, hcaller, hu⟩ := List.mem_flatMap.mp hu
      obtain rfl : u = .of caller .returnSelf := by simpa using hu
      exact mem_unitNames_of_name hp ((p.callers_sublist e.1).subset hcaller) (by decide)
  · rw [targets_returnSelf, hp.named e he] at hu
    obtain ⟨site, hsite, rfl⟩ := List.mem_map.mp hu
    refine hcuts (·.isCall) _ ?_
    rw [← e.2.map_callSite_calls]
    exact List.mem_map.mpr ⟨site, hsite, rfl⟩
  · rw [targets_resume, hp.named e he, (hp.numbered e he).resumeTargets_eq] at hu
    obtain ⟨q, hq, rfl⟩ := List.mem_map.mp hu
    exact hcuts (·.isResumable) q hq
  · rw [targets_piece] at hu
    exact mem_unitNames_of_mem_endTargets hp he hmem hu

theorem targets_install : targets (install p) = .assignIds :: p.names.map (.of · .validate) := by
  rw [install, targets_append, targets_append, targets_flatMap, List.map_eq_flatMap (l := p.names)]
  rfl

theorem targets_schedule : targets (schedule p) = p.names.map (.of · .scheduled) :=
  targets_map (fun _ => rfl) _

theorem targets_resumeDispatch : targets (resumeDispatch p) = p.names.map (.of · .resume) :=
  targets_map (fun _ => rfl) _

theorem targets_logScores (objectives : List Text) : targets (logScores p objectives) = [] := by
  have hscores : targets (objectives.mapIdx fun i objective =>
      .execute [.atLog] (.logBlock (.chain (i + 1)) (p.ns ++ "_score")
        (.showScore (scoreOf (selectedEntity true) (.named objective))))) = [] :=
    targets_eq_nil fun i hi => by
      obtain ⟨k, hk, rfl⟩ := List.mem_mapIdx.mp hi
      rfl
  rw [logScores, targets_append, targets_append, hscores]
  rfl

/-- What the units enter that are there once are units. -/
theorem mem_unitNames_of_globalUnits (hp : p.functions.WellFormed)
    (hunit : unit ∈ globalUnits p (objectives p.functions)) (hu : u ∈ targets unit.2) :
    u ∈ unitNames p bs := by
  -- A part of each function of the datapack.
  have hparts : ∀ part ∈ UnitPart.fixed, u ∈ p.names.map (.of · part) → u ∈ unitNames p bs := by
    intro part hpart hu
    obtain ⟨f, hf, rfl⟩ := List.mem_map.mp hu
    exact mem_unitNames_of_name hp hf hpart
  simp only [globalUnits, List.mem_cons, List.not_mem_nil, or_false] at hunit
  rcases hunit with rfl | rfl | rfl | rfl | rfl | rfl | rfl | rfl | rfl
  · rw [targets_install] at hu
    rcases List.mem_cons.mp hu with rfl | hu
    · exact mem_unitNames_of_global (by decide)
    · exact hparts .validate (by decide) hu
  · exact absurd hu List.not_mem_nil
  · have hnone : targets (assignIds p) = [] := targets_eq_nil fun i hi => by
      obtain ⟨f, -, rfl⟩ := List.mem_map.mp hi
      rfl
    rw [hnone] at hu
    exact absurd hu List.not_mem_nil
  · rw [targets_schedule] at hu
    exact hparts .scheduled (by decide) hu
  · rw [targets_logScores] at hu
    exact absurd hu List.not_mem_nil
  · exact absurd hu List.not_mem_nil
  · obtain rfl : u = .resumeDispatch := List.eq_of_mem_replicate (n := 4) hu
    exact mem_unitNames_of_global (by decide)
  · rw [targets_resumeDispatch] at hu
    exact hparts .resume (by decide) hu
  · exact absurd hu List.not_mem_nil

/-- What a unit enters is a unit. -/
theorem mem_unitNames_of_mem_targets (hp : p.functions.WellFormed) (hunit : unit ∈ units p bs)
    (hu : u ∈ targets unit.2) : u ∈ unitNames p bs := by
  rcases List.mem_append.mp hunit with hunit | hunit
  · obtain ⟨e, he, hunit⟩ := List.mem_flatMap.mp hunit
    exact mem_unitNames_of_functionUnits hp he hunit hu
  · exact mem_unitNames_of_globalUnits hp hunit hu

end Generate

end DatapackDebug
