import DatapackDebug.Proofs.Names

namespace DatapackDebug

/-!
# Functions that generated commands name

A command that enters or schedules a function names it behind the word `function`.

* `Instruction.targets` — the generated functions that an instruction enters or schedules;
* `CallsByName` — a text holds such a command with exactly this name;
* `CallsByName.apply` — so it does under a condition for each line;
* `Instruction.callsByName` — the text of an instruction names all functions that it enters;
* `Instruction.runsUnit_iff` — and its command is of that kind only if there are such functions.
-/

/-- The generated functions that an instruction enters or schedules. -/
def Instruction.targets : Instruction → List UnitName
  | .function u | .schedule u => [u]
  | .logBlock _ _ i | .behind _ i | .execute _ i | .eachLine _ i => i.targets
  | _ => []

/-- The text holds the word `function` and the name, which no byte of a name follows. -/
def CallsByName (name t : Text) : Prop :=
  ∃ front rest, t = front ++ (Text.ofString "function " ++ name) ++ rest ∧
    rest.head?.any Argument.isResourceByte = false

namespace CallsByName

variable {name t : Text}

theorem append_left (h : CallsByName name t) (a : Text) : CallsByName name (a ++ t) := by
  obtain ⟨front, rest, rfl, hrest⟩ := h
  exact ⟨a ++ front, rest, by simp, hrest⟩

theorem append_right (h : CallsByName name t) {b : Text}
    (hb : b.head?.any Argument.isResourceByte = false) : CallsByName name (t ++ b) := by
  obtain ⟨front, rest, rfl, hrest⟩ := h
  refine ⟨front, rest ++ b, by simp, ?_⟩
  cases rest with
  | nil => exact hb
  | cons x rest => exact hrest

end CallsByName

/-! ### Lines of a text -/

namespace Text

variable {sep : UInt8}

theorem splitOn_of_not_mem {t : Text} (h : sep ∉ t) : splitOn sep t = [t] := by
  induction t with
  | nil => rfl
  | cons b t ih =>
    obtain ⟨hb, ht⟩ : sep ≠ b ∧ sep ∉ t := by simpa using h
    simp [splitOn, hb.symm, ih ht]

/-- The last part of one text and the first of the next one are joined. -/
theorem splitOn_append (sep : UInt8) (s t : Text) :
    ∃ before last first after, splitOn sep s = before ++ [last] ∧ splitOn sep t = first :: after ∧
      splitOn sep (s ++ t) = before ++ (last ++ first) :: after := by
  induction s with
  | nil =>
    obtain ⟨first, after, hfirst⟩ : ∃ first after, splitOn sep t = first :: after := by
      cases t with
      | nil => exact ⟨[], [], rfl⟩
      | cons b t =>
        rw [splitOn]
        split
        · exact ⟨_, _, rfl⟩
        · split <;> exact ⟨_, _, rfl⟩
    exact ⟨[], [], first, after, rfl, hfirst, by simpa using hfirst⟩
  | cons b s ih =>
    obtain ⟨before, last, first, after, hs, ht, hst⟩ := ih
    by_cases hb : b = sep
    · exact ⟨[] :: before, last, first, after, by simp [splitOn, hb, hs], ht,
        by simp [splitOn, hb, hst]⟩
    · cases before with
      | nil => exact ⟨[], b :: last, first, after, by simp_all [splitOn], ht, by simp_all [splitOn]⟩
      | cons part before =>
        exact ⟨(b :: part) :: before, last, first, after, by simp_all [splitOn], ht,
          by simp_all [splitOn]⟩

/-- The first part of a text starts as the text does, or is empty. -/
theorem head?_of_splitOn {t first : Text} {after : List Text} (h : splitOn sep t = first :: after) :
    first.head? = none ∨ first.head? = t.head? := by
  cases t with
  | nil =>
    obtain ⟨rfl, -⟩ := List.cons.inj h
    exact .inl rfl
  | cons b t =>
    rw [splitOn] at h
    split at h
    · obtain ⟨rfl, -⟩ := List.cons.inj h
      exact .inl rfl
    · split at h <;> obtain ⟨rfl, -⟩ := List.cons.inj h <;> exact .inr rfl

/-- A part of a text that is put together, with what stands before and after it. -/
theorem exists_join_eq (sep : Text) (before : List Text) (part : Text) (after : List Text) :
    ∃ front rest, join sep (before ++ part :: after) = front ++ part ++ rest ∧
      (rest = [] ∨ ∃ rest', rest = sep ++ rest') := by
  induction before with
  | nil =>
    cases after with
    | nil => exact ⟨[], [], by simp [join], .inl rfl⟩
    | cons next after =>
      exact ⟨[], sep ++ join sep (next :: after), by simp [join], .inr ⟨_, rfl⟩⟩
  | cons first before ih =>
    obtain ⟨front, rest, hjoin, hrest⟩ := ih
    refine ⟨first ++ sep ++ front, rest, ?_, hrest⟩
    cases before with
    | nil => simpa [join] using hjoin
    | cons next before => simpa [join] using hjoin

end Text

/-! ### Commands under conditions -/

/-- A command that goes on with its own subcommands behind a condition still names the function. -/
theorem CallsByName.apply {name line : Text} (h : CallsByName name line) (c : PackConfig)
    (condition : LineCondition) : CallsByName name (condition.apply c line) := by
  unfold LineCondition.apply
  refine CallsByName.append_left ?_ _
  cases hown : if condition.joins then Text.dropStart? "execute " line else none with
  | none => exact h.append_left _
  | some own =>
    have hline : line = Text.ofString "execute " ++ own := by
      split at hown
      · exact Text.eq_append_of_dropStart? hown
      · simp at hown
    obtain ⟨front, rest, hfront, hrest⟩ := h
    rw [hline, List.append_assoc] at hfront
    rcases List.append_eq_append_iff.mp hfront with ⟨front', -, hown⟩ | ⟨more, hexecute, hown⟩
    · exact ⟨front', rest, by simp [hown], hrest⟩
    · cases more with
      | nil => exact ⟨[], rest, by simpa using hown.symm, hrest⟩
      | cons b more =>
        -- The word `function` does not start inside `execute `.
        have hb : b = 0x66 := by
          have hhead := congrArg List.head? hown
          simpa [show Text.ofString "function " =
            [0x66, 0x75, 0x6e, 0x63, 0x74, 0x69, 0x6f, 0x6e, 0x20] from by decide] using hhead.symm
        have hmem : 0x66 ∈ Text.ofString "execute " := hexecute ▸ hb ▸ by simp
        exact absurd hmem (by decide)

/-- A text names the function in one of its lines. -/
theorem CallsByName.exists_line {name t : Text} (h : CallsByName name t) (hname : 0x0a ∉ name) :
    ∃ before line after, Text.splitOn 0x0a t = before ++ line :: after ∧ CallsByName name line := by
  obtain ⟨front, rest, rfl, hrest⟩ := h
  have hcall : 0x0a ∉ Text.ofString "function " ++ name :=
    List.mem_append.not.mpr (not_or.mpr ⟨by decide, hname⟩)
  obtain ⟨before, last, line, after, -, hline, hall⟩ :=
    Text.splitOn_append 0x0a front (Text.ofString "function " ++ name ++ rest)
  obtain ⟨before', last', first, after', hlast, hfirst, hboth⟩ :=
    Text.splitOn_append 0x0a (Text.ofString "function " ++ name) rest
  rw [Text.splitOn_of_not_mem hcall] at hlast
  obtain ⟨rfl, rfl⟩ : before' = [] ∧ last' = Text.ofString "function " ++ name := by
    cases before' with
    | nil => simpa using hlast.symm
    | cons => simp at hlast
  cases hline.symm.trans hboth
  refine ⟨before, _, after, by rw [List.append_assoc]; exact hall, last, first, by simp, ?_⟩
  rcases Text.head?_of_splitOn hfirst with hnone | hsame
  · rw [hnone]
    rfl
  · rw [hsame]
    exact hrest

/-- The text of an instruction names all functions that it enters or schedules. -/
theorem Instruction.callsByName {c : PackConfig} {u : UnitName} (hname : 0x0a ∉ u.text c.ns)
    {i : Instruction} (hu : u ∈ i.targets) : CallsByName (u.text c.ns) (i.text c) := by
  induction i with
  | function v =>
    obtain rfl := List.mem_singleton.mp hu
    exact ⟨[], [], by simp [text], rfl⟩
  | schedule v =>
    obtain rfl := List.mem_singleton.mp hu
    refine ⟨Text.ofString "schedule ", Text.ofString " 1t append", ?_, by decide⟩
    rw [text, show Text.ofString "schedule function " =
      Text.ofString "schedule " ++ Text.ofString "function " from by decide]
    simp
  | logBlock block name i ih =>
    rw [text]
    exact ((ih hu).append_left _).append_right (by decide)
  | behind t i ih => exact (ih hu).append_left _
  | execute ms i ih => exact (ih hu).append_left _
  | eachLine condition i ih =>
    obtain ⟨before, line, after, hlines, hline⟩ := (ih hu).exists_line hname
    rw [text, show Char.toUInt8 (Char.ofNat 10) = 0x0a from rfl, hlines, List.map_append,
      List.map_cons]
    obtain ⟨front, rest, hjoin, hrest⟩ := Text.exists_join_eq "\n" (before.map (condition.apply c))
      (condition.apply c line) (after.map (condition.apply c))
    rw [hjoin]
    refine ((hline.apply c condition).append_left front).append_right ?_
    rcases hrest with rfl | ⟨rest', rfl⟩
    · rfl
    · rfl
  | _ => simp [targets] at hu

/-! ### Commands without targets -/

/-- The text is a command that runs a function of the namespace, or schedules one. -/
def RunsUnit (ns t : Text) : Prop :=
  ∃ front ∈ [Text.ofString "function ", Text.ofString "schedule function "],
    ∃ path, t = front ++ (ns ++ ":" ++ path)

namespace Instruction

/-- The command that an instruction comes to: what it prints last, behind conditions or behind the
    beginning of a command of the source, or what it puts into a command block. -/
def command : Instruction → Instruction
  | .logBlock _ _ i | .behind _ i | .execute _ i | .eachLine _ i => i.command
  | i => i

/-- Is the instruction a command of the source? -/
def isSource : Instruction → Bool
  | .source _ => true
  | _ => false

/-- Commands that run or schedule functions are told by their first three bytes. -/
theorem take_of_runsUnit {ns t : Text} (h : RunsUnit ns t) :
    t.take 3 = Text.ofString "fun" ∨ t.take 3 = Text.ofString "sch" := by
  obtain ⟨front, hfront, path, rfl⟩ := h
  simp only [List.mem_cons, List.not_mem_nil, or_false] at hfront
  rcases hfront with rfl | rfl
  · exact .inl rfl
  · exact .inr rfl

/-- Unless it is one of the source, the command of an instruction runs or schedules a function of
    the namespace exactly if the instruction has a target. -/
theorem runsUnit_iff {c : PackConfig} {i : Instruction} (hsource : i.command.isSource = false) :
    RunsUnit c.ns (i.command.text c) ↔ i.targets ≠ [] := by
  induction i with
  | function u => exact iff_of_true ⟨_, List.mem_cons_self, u.path, rfl⟩ (List.cons_ne_nil _ _)
  | schedule u =>
    refine iff_of_true ⟨_, List.mem_cons_of_mem _ List.mem_cons_self, u.path ++ " 1t append", ?_⟩
      (List.cons_ne_nil _ _)
    simp [command, text, UnitName.text]
  | source t => cases hsource
  | logBlock _ _ i ih => exact ih hsource
  | behind _ i ih => exact ih hsource
  | execute _ i ih => exact ih hsource
  | eachLine _ i ih => exact ih hsource
  | _ =>
    refine iff_of_false (fun hruns => ?_) (fun htargets => htargets rfl)
    rcases take_of_runsUnit hruns with htake | htake
    · exact ne_of_beq_false rfl htake
    · exact ne_of_beq_false rfl htake

end Instruction

end DatapackDebug
