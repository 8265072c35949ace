import DatapackDebug.Proofs.World

namespace DatapackDebug

/-!
# Commands that complete

Statements about the effect of commands that do not mention bounds on nested calls.

* `Completes` — the commands come to an end, in a world of which something holds;
* `Completes.nil`, `Completes.cons`, `Completes.append`, `Completes.function` — lists and calls;
* `Completes.execute`, `Completes.execute_skip` — one that executes, and none;
* `executorsOf_cons` — who executes what follows the first of several subcommands.
-/

/-! ### Completion -/

/-- The commands come to an end if calls may be nested deep enough, and then `Q` holds. -/
def Completes (c : PackConfig) (us : Units) (lines : List Instruction) (x : Executor) (w : World)
    (Q : World → Prop) : Prop :=
  ∃ w', Q w' ∧ ∃ n, ∀ m ≥ n, World.perform c (World.run c us m) lines x w = some w'

namespace Completes

variable {c : PackConfig} {us : Units} {lines lines' : List Instruction} {i : Instruction}
  {x y : Executor} {w w' : World} {Q Q' : World → Prop} {ms : List Modifier}

/-- What holds after commands may be weakened. -/
theorem mono (h : Completes c us lines x w Q) (hQ : ∀ w', Q w' → Q' w') :
    Completes c us lines x w Q' := by
  obtain ⟨w', hw', hn⟩ := h
  exact ⟨w', hQ w' hw', hn⟩

/-- No commands change nothing. -/
theorem nil (h : Q w) : Completes c us [] x w Q := ⟨w, h, 0, fun _ _ => rfl⟩

/-- Commands one after the other. -/
theorem append (h : Completes c us lines x w fun w' => Completes c us lines' x w' Q) :
    Completes c us (lines ++ lines') x w Q := by
  obtain ⟨w₁, ⟨w₂, hQ, n₂, h₂⟩, n₁, h₁⟩ := h
  refine ⟨w₂, hQ, max n₁ n₂, fun m hm => ?_⟩
  have h₁ := h₁ m (by omega)
  have h₂ := h₂ m (by omega)
  simp only [World.perform] at h₁ h₂ ⊢
  rw [List.foldlM_append, h₁]
  exact h₂

/-- A command before others. -/
theorem cons (h : Completes c us [i] x w fun w' => Completes c us lines x w' Q) :
    Completes c us (i :: lines) x w Q :=
  show Completes c us ([i] ++ lines) x w Q from append h

/-- A command with an effect that does not depend on functions. -/
theorem of_effect (h : ∀ call, i.effect c call x w = some w') (hQ : Q w') :
    Completes c us [i] x w Q :=
  ⟨w', hQ, 0, fun m _ => by simp [World.perform, h]⟩

/-- A function completes if its commands do. -/
theorem function {u : UnitName} (hu : us.lines? u = some lines) (h : Completes c us lines x w Q) :
    Completes c us [.function u] x w Q := by
  obtain ⟨w', hQ, n, hn⟩ := h
  refine ⟨w', hQ, n + 1, fun m hm => ?_⟩
  obtain ⟨m, rfl⟩ : ∃ m', m = m' + 1 := ⟨m - 1, by omega⟩
  have := hn m (by omega)
  simpa [World.perform, World.run, hu] using this

/-- A command completes like another one that has the same effect. -/
theorem of_effect_eq {i' : Instruction} (heq : ∀ call, i.effect c call x w = i'.effect c call y w)
    (h : Completes c us [i'] y w Q) : Completes c us [i] x w Q := by
  obtain ⟨w', hQ, n, hn⟩ := h
  refine ⟨w', hQ, n, fun m hm => ?_⟩
  simpa [World.perform, heq] using hn m hm

/-- A command that is executed once by `y`. -/
theorem execute (hms : Modifier.executorsOf c.ns w x ms = [y]) (h : Completes c us [i] y w Q) :
    Completes c us [.execute ms i] x w Q :=
  of_effect_eq (fun _ => by simp [hms]) h

/-- What a command does depends only on who executes it. -/
theorem execute_congr {ms' : List Modifier}
    (hms : Modifier.executorsOf c.ns w x ms = Modifier.executorsOf c.ns w x ms')
    (h : Completes c us [.execute ms' i] x w Q) : Completes c us [.execute ms i] x w Q :=
  of_effect_eq (fun _ => by simp [hms]) h

/-- A command that changes nothing, whoever executes it. -/
theorem execute_idle (hi : ∀ call y, i.effect c call y w = some w) (h : Q w) :
    Completes c us [.execute ms i] x w Q := by
  refine of_effect (fun call => ?_) h
  rw [Instruction.effect]
  induction Modifier.executorsOf c.ns w x ms with
  | nil => rfl
  | cons y ys ih => rw [List.foldlM_cons, hi call y]; exact ih

/-- A command that nobody executes. -/
theorem execute_skip (hms : Modifier.executorsOf c.ns w x ms = []) (h : Q w) :
    Completes c us [.execute ms i] x w Q :=
  of_effect (fun _ => by simp [hms]) h

/-- A command under a condition for each line is executed where the condition holds. -/
theorem eachLine {condition : LineCondition}
    (hms : Modifier.executorsOf c.ns w x condition.modifiers = [y]) (h : Completes c us [i] y w Q) :
    Completes c us [.eachLine condition i] x w Q :=
  of_effect_eq (fun _ => by simp [hms]) h

/-- Commands each of which leaves the world as it is. -/
theorem skip_all (h : ∀ i ∈ lines, ∀ call, i.effect c call x w = some w) (hQ : Q w) :
    Completes c us lines x w Q := by
  induction lines with
  | nil => exact nil hQ
  | cons i lines ih =>
    exact cons (of_effect (h i List.mem_cons_self)
      (ih fun i hi => h i (List.mem_cons_of_mem _ hi)))

end Completes

/-! ### Who executes -/

namespace Modifier

variable {ns : Text} {w : World} {x y : Executor} {m : Modifier} {ms : List Modifier}

/-- All who execute what follows several subcommands, of several executors. -/
theorem foldl_executors (xs : List Executor) :
    ms.foldl (fun xs m => xs.flatMap fun x => m.executors ns w x) xs
      = xs.flatMap fun x => executorsOf ns w x ms := by
  induction ms generalizing xs with
  | nil => simp [executorsOf]
  | cons m ms ih =>
    rw [List.foldl_cons, ih, List.flatMap_assoc]
    congr 1
    funext y
    rw [executorsOf, List.foldl_cons, ih]
    simp

@[simp] theorem executorsOf_nil : executorsOf ns w x [] = [x] := rfl

/-- Who executes what follows the first of several subcommands. -/
theorem executorsOf_cons :
    executorsOf ns w x (m :: ms) = (m.executors ns w x).flatMap fun y => executorsOf ns w y ms := by
  rw [executorsOf, List.foldl_cons, foldl_executors]
  simp

/-- Who executes what follows some subcommands and then others. -/
theorem executorsOf_append (ms' : List Modifier) :
    executorsOf ns w x (ms ++ ms') =
      (executorsOf ns w x ms).flatMap fun y => executorsOf ns w y ms' := by
  rw [executorsOf, List.foldl_append, foldl_executors]
  rfl

/-- A condition on a score lets go on where it holds. -/
@[simp] theorem executorsOf_ifScore (s : Score) (r : ScoreRange) :
    executorsOf ns w x (.ifScore s r :: ms) =
      if w.scoreIn ns x s r then executorsOf ns w x ms else [] := by
  rw [executorsOf_cons, executors]
  split <;> simp

/-- A condition on a score lets go on where it does not hold. -/
@[simp] theorem executorsOf_unlessScore (s : Score) (r : ScoreRange) :
    executorsOf ns w x (.unlessScore s r :: ms) =
      if w.scoreIn ns x s r then [] else executorsOf ns w x ms := by
  rw [executorsOf_cons, executors]
  split <;> simp

/-- A condition on entities lets go on where there are some. -/
theorem executorsOf_ifEntity (t : Target) :
    executorsOf ns w x (.ifEntity t :: ms) =
      if (w.select ns x t).isEmpty then [] else executorsOf ns w x ms := by
  rw [executorsOf_cons, executors]
  split <;> simp

end Modifier

/-! ### Scores -/

attribute [simp] Score.returningSuspended Score.depth Score.valid

namespace World

variable {ns : Text} {w : World} {x : Executor}

/-- The score of a name lies in a range. -/
@[simp] theorem scoreIn_variable (name : Text) (o : Objective) (r : ScoreRange) :
    w.scoreIn ns x ⟨.variable name, o⟩ r = (w.scores name o).any fun n => r.accepts n := rfl

/-- The score of a name after one was set. -/
@[simp] theorem scores_setVariable (name name' : Text) (o o' : Objective) (n : Int) :
    (w.setVariable name o n).scores name' o' =
      if name' = name ∧ o' = o then some n else w.scores name' o' := rfl

@[simp] theorem setVariable_entities (name : Text) (o : Objective) (n : Int) :
    (w.setVariable name o n).entities = w.entities := rfl

@[simp] theorem setVariable_record (name : Text) (o : Objective) (n : Int) :
    (w.setVariable name o n).record = w.record := rfl

end World

end DatapackDebug
