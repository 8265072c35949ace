import DatapackDebug.Proofs.Completes
import DatapackDebug.Proofs.Units

namespace DatapackDebug

/-!
# Scores that a run keeps

A command sets the scores that it names, and those that it does not name it leaves as they are.

* `Instruction.sets` — the scores that a command sets;
* `World.scores_run` — a score that no command of a datapack sets is kept by every run;
* `Pack.Sets` — the scores that a generated datapack may set;
* `Generate.sets_units` — its commands set no others.
-/

/-- The scores that a command sets. -/
@[simp] def Instruction.sets : Instruction → List Score
  | .setScore s _ | .addScore s _ | .removeScore s _ | .copyScore s _ => [s]
  | .behind _ i | .execute _ i | .eachLine _ i => i.sets
  | _ => []

/-! ### What is not set is kept -/

section Kept

variable {c : PackConfig} {us : Units} {name : Text} {o : Objective}
  {call : UnitName → Executor → World → Option World} {w : World} {x : Executor}

/-- Another score was set. -/
theorem World.scores_setScore {ns : Text} {s : Score} {n : Int} (hne : ⟨.variable name, o⟩ ≠ s) :
    (w.setScore ns x s n).scores name o = w.scores name o := by
  obtain ⟨holder, objective⟩ := s
  cases holder with
  | entities t => rfl
  | «variable» name' =>
    refine if_neg ?_
    rintro ⟨rfl, rfl⟩
    exact hne rfl

/-- What each step keeps is kept by all of them. -/
theorem World.scores_foldlM {α : Type} {step : World → α → Option World} {as : List α} {w' : World}
    (hstep : ∀ a ∈ as, ∀ w w', step w a = some w' → w'.scores name o = w.scores name o)
    (h : as.foldlM step w = some w') : w'.scores name o = w.scores name o := by
  induction as generalizing w with
  | nil =>
    cases h
    rfl
  | cons a as ih =>
    rw [List.foldlM_cons] at h
    obtain ⟨w₁, hw₁, hw'⟩ := Option.bind_eq_some_iff.mp h
    rw [ih (fun b hb => hstep b (List.mem_cons_of_mem _ hb)) hw',
      hstep a List.mem_cons_self w w₁ hw₁]

/-- A command keeps the scores that it does not set, if the functions that it runs keep them. -/
theorem Instruction.scores_effect
    (hcall : ∀ u x w w', call u x w = some w' → w'.scores name o = w.scores name o)
    {i : Instruction} (hi : ⟨.variable name, o⟩ ∉ i.sets) {w' : World}
    (h : i.effect c call x w = some w') : w'.scores name o = w.scores name o := by
  induction i generalizing x w w' with
  | function u => exact hcall u x w w' h
  | setScore s n | addScore s n | removeScore s n | copyScore s t =>
    cases h
    exact World.scores_setScore (fun heq => hi (List.mem_singleton.mpr heq))
  | execute ms i ih => exact World.scores_foldlM (fun y _ w w' => ih hi) h
  | eachLine condition i ih => exact World.scores_foldlM (fun y _ w w' => ih hi) h
  | behind text i ih =>
    rw [effect] at h
    split at h
    · exact ih hi h
    · cases h
      rfl
  | logBlock block name i ih =>
    cases block <;> cases h <;> rfl
  | _ =>
    cases h
    rfl

/-- A run keeps the scores that no command sets. -/
theorem World.scores_run (hus : ∀ unit ∈ us, ∀ i ∈ unit.2, ⟨.variable name, o⟩ ∉ i.sets)
    (bound : Nat) {u : UnitName} {w' : World} (h : World.run c us bound u x w = some w') :
    w'.scores name o = w.scores name o := by
  induction bound generalizing u x w w' with
  | zero => cases h
  | succ bound ih =>
    rw [World.run] at h
    split at h
    · cases h
      rfl
    · rename_i lines hlines
      obtain ⟨unit, hunit, rfl⟩ := Option.map_eq_some_iff.mp hlines
      exact World.scores_foldlM
        (fun i hi w w' => Instruction.scores_effect (fun u x w w' => ih)
          (hus unit (List.mem_of_find?_eq_some hunit) i hi)) h

end Kept

/-! ### What a generated datapack sets -/

/-- The scores of the debugger itself, which are not those of a function. -/
@[simp] def Score.reserved : List Score :=
  [.stopped, .anchor, .returningSuspended, .resumePosition, .depth, .launch]

namespace Pack

/-- The scores that the commands of a datapack may set: of the debugger itself all but the number to
    launch, those of entities, and those of its functions. -/
@[simp] def Sets (p : Pack) (s : Score) : Prop :=
  s ∈ Score.reserved.dropLast ∨ (∃ t, s.holder = .entities t) ∨
    ∃ f ∈ p.names, s.holder = .variable (p.holder f)

end Pack

namespace Generate

/-- Commands that set no other scores than those of a datapack. -/
def SetsOwn (p : Pack) (lines : List Instruction) : Prop :=
  ∀ i ∈ lines, ∀ s ∈ i.sets, p.Sets s

section SetsOwn

variable {p : Pack} {f : ResourceName} {fn : Function} {lines lines' : List Instruction} {α : Type}

@[simp] theorem setsOwn_nil : SetsOwn p [] := List.forall_mem_nil _

@[simp] theorem setsOwn_cons {i : Instruction} :
    SetsOwn p (i :: lines) ↔ (∀ s ∈ i.sets, p.Sets s) ∧ SetsOwn p lines :=
  List.forall_mem_cons

@[simp] theorem setsOwn_append :
    SetsOwn p (lines ++ lines') ↔ SetsOwn p lines ∧ SetsOwn p lines' :=
  List.forall_mem_append

/-- The commands for all items of a list. -/
@[simp] theorem setsOwn_map {as : List α} {command : α → Instruction} :
    SetsOwn p (as.map command) ↔ ∀ a ∈ as, ∀ s ∈ (command a).sets, p.Sets s :=
  List.forall_mem_map

@[simp] theorem setsOwn_flatMap {as : List α} {commands : α → List Instruction} :
    SetsOwn p (as.flatMap commands) ↔ ∀ a ∈ as, SetsOwn p (commands a) :=
  List.forall_mem_flatMap

/-- The commands for all items of a list, with their numbers. -/
@[simp] theorem setsOwn_mapIdx {as : List α} {command : Nat → α → Instruction} :
    SetsOwn p (as.mapIdx command) ↔
      ∀ k (hk : k < as.length), ∀ s ∈ (command k as[k]).sets, p.Sets s := by
  simp only [SetsOwn, List.mem_mapIdx, forall_exists_index]
  constructor
  · exact fun h k hk => h _ k hk rfl
  · rintro h _ k hk rfl
    exact h k hk

/-! ### The units of a function -/

/-- A function is resumed by the number of its piece. -/
theorem setsOwn_resume (parts : List Partition) : SetsOwn p (resume fn parts) := by
  simp [resume]

/-- The end of a piece stops the program, calls a function or returns. -/
theorem setsOwn_ending (part : Partition) : SetsOwn p (ending p fn part) := by
  cases hterminator : part.terminator with
  | call line text call =>
    simp only [ending, hterminator]
    split
    · unfold callInside anchorOfCall
      split <;> simp
    · simp [callOutside]
  | _ => simp [ending, hterminator, stop]

/-- A piece sets what its end sets; the commands of the source are not among its own. -/
theorem setsOwn_piece (part : Partition) : SetsOwn p (piece p fn part) := by
  unfold piece
  split <;> simp [afterCall, setsOwn_ending]

/-- The commands of a function set scores of its datapack. -/
theorem setsOwn_functionUnits (hf : fn.name ∈ p.names) (bs : Breakpoints) :
    ∀ unit ∈ functionUnits p fn bs, SetsOwn p unit.2 := by
  have hown : ∃ g ∈ p.names, p.holder fn.name = p.holder g := ⟨_, hf, rfl⟩
  simp only [functionUnits, List.mem_append, List.mem_map, List.mem_cons, List.not_mem_nil,
    or_false]
  rintro unit ((rfl | rfl | rfl | rfl | rfl | rfl) | ⟨part, -, rfl⟩)
  · simp [start, guarded, Instruction.under, scoreOf]
  · simp [scheduled, guarded]
  · simp [validate, hown]
  · simp [return_, returnCase]
  · simp [returnSelf]
  · exact setsOwn_resume _
  · exact setsOwn_piece part

/-! ### The units that are there once -/

/-- The commands that belong to no function set scores of the datapack. -/
theorem setsOwn_globalUnits (objectives : List Text) :
    ∀ unit ∈ globalUnits p objectives, SetsOwn p unit.2 := by
  simp only [globalUnits, List.mem_cons, List.not_mem_nil, or_false]
  rintro unit (rfl | rfl | rfl | rfl | rfl | rfl | rfl | rfl | rfl)
  · simp only [install, setsOwn_append, setsOwn_map, setsOwn_flatMap]
    exact ⟨by simp, fun f hf => by simpa using .inr ⟨f, hf, rfl⟩⟩
  · simp [uninstall, ownObjectives]
  · simpa [assignIds] using fun f hf => .inr (.inr ⟨f, hf, rfl⟩)
  · simp [schedule]
  · simp [logScores]
  · simp [suspend]
  · simp [resumeSelf]
  · simp [resumeDispatch]
  · simp [onExit]

end SetsOwn

/-- The commands of a datapack set no other scores than those of the datapack. -/
theorem sets_units {p : Pack} (hp : p.functions.WellFormed) (bs : BreakpointMap) :
    ∀ unit ∈ units p bs, ∀ i ∈ unit.2, ∀ s ∈ i.sets, p.Sets s := by
  intro unit hunit
  rcases List.mem_append.mp hunit with hunit | hunit
  · obtain ⟨e, he, hunit⟩ := List.mem_flatMap.mp hunit
    refine setsOwn_functionUnits ?_ _ unit hunit
    rw [hp.named e he]
    exact List.mem_map_of_mem he
  · exact setsOwn_globalUnits _ unit hunit

end Generate

end DatapackDebug
