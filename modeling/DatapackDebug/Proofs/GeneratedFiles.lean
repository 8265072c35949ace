import DatapackDebug.Proofs.References
import DatapackDebug.Proofs.ScheduleLines

namespace DatapackDebug

/-!
# The files of generated datapacks

Every function that a generated command enters or schedules is a file of the datapack.

* `UnitName.isResourceByte_of_mem_path` — the paths of units are made of the bytes of names;
* `Generate.nodup_writes` — no file is written twice;
* `GeneratedPack.Linked` — every unit has a file of its own, and every reference leads to one;
* `generate_linked` — datapacks are generated so.
-/

/-! ### Bytes of names -/

theorem Position.isResourceByte_of_mem_text {q : Position} {b : UInt8} (hb : b ∈ q.text) :
    Argument.isResourceByte b = true := by
  have hplace : ∀ place : Place, place.text.all Argument.isResourceByte = true := by
    intro place
    cases place <;> decide
  rw [Position.text_eq] at hb
  rcases List.mem_append.mp hb with hb | hb
  · simp [Argument.isResourceByte, Text.isDigit_of_mem_ofNat hb]
  · rcases List.mem_cons.mp hb with rfl | hb
    · decide
    · exact List.all_eq_true.mp (hplace _) b hb

theorem UnitPart.isResourceByte_of_mem_text {part : UnitPart} {b : UInt8} (hb : b ∈ part.text) :
    Argument.isResourceByte b = true := by
  have hfixed : ∀ part ∈ fixed, part.text.all Argument.isResourceByte = true := by decide
  cases part with
  | piece q => exact Position.isResourceByte_of_mem_text hb
  | _ => exact List.all_eq_true.mp (hfixed _ (by decide)) b hb

/-- The paths of units are made of the bytes that names are made of. -/
theorem UnitName.isResourceByte_of_mem_path {u : UnitName} (hu : ∀ f part, u = .of f part → f.Valid)
    {b : UInt8} (hb : b ∈ u.path) : Argument.isResourceByte b = true := by
  have hglobal : ∀ u ∈ global, u.path.all Argument.isResourceByte = true := by decide
  cases u with
  | of f part =>
    have hplain := (hu f part rfl).plain
    have hslash : Argument.isResourceByte 0x2f = true := by decide
    rw [path_of] at hb
    simp only [List.mem_append, List.mem_cons] at hb
    rcases hb with hb | rfl | hb | rfl | hb
    · exact (hplain.ns b hb).1
    · exact hslash
    · exact (hplain.path b hb).1
    · exact hslash
    · exact UnitPart.isResourceByte_of_mem_text hb
  | _ => exact List.all_eq_true.mp (hglobal _ (by decide)) b hb

/-- There is no line break in the name of a unit. -/
theorem UnitName.newline_not_mem_text {c : PackConfig} (hc : c.error? = none) {u : UnitName}
    (hu : ∀ f part, u = .of f part → f.Valid) : 0x0a ∉ u.text c.ns := by
  have hns : ∀ b ∈ c.ns, PackConfig.isNamespaceByte b = true := by
    unfold PackConfig.error? at hc
    split at hc
    · simp at hc
    · split at hc
      · simp at hc
      · simpa using hc
  intro h
  simp only [text, List.mem_append] at h
  rcases h with (h | h) | h
  · exact absurd (hns _ h) (by decide)
  · exact absurd h (by decide)
  · exact absurd (isResourceByte_of_mem_path hu h) (by decide)

/-! ### Files -/

namespace Generate

variable {p : Pack} {bs : BreakpointMap}

theorem filePath_injective (ns functionDir : Text) :
    Function.Injective (filePath ns functionDir) := by
  intro s t h
  exact List.append_cancel_left (List.append_cancel_right h)

/-- The files of functions are in the directory of the data. -/
theorem head?_filePath (ns functionDir unit : Text) :
    (filePath ns functionDir unit).head? = some 0x64 := by
  simp [filePath, show Text.ofString "data/" = [0x64, 0x61, 0x74, 0x61, 0x2f] from by decide]

/-- The files in the order in which they are written. -/
def writes (p : Pack) (bs : BreakpointMap) : List (Text × Text) :=
  (units p bs).map (fun unit =>
      (filePath p.ns p.config.functionDir unit.1.path, fileContent p.config unit.2)) ++
    [(("pack.mcmeta" : Text), packMeta p.config), ("functions.txt", manifest p.functions)]

theorem files_eq (p : Pack) (bs : BreakpointMap) :
    files p bs = SortedAssoc.ofList Text.compare (writes p bs) := rfl

/-- No file is written twice. -/
theorem nodup_writes (hpaths : ((units p bs).map (·.1.path)).Nodup) :
    ((writes p bs).map (·.1)).Nodup := by
  have hunits : ((units p bs).map fun unit =>
    filePath p.ns p.config.functionDir unit.1.path).Nodup := by
    have := hpaths.map (filePath_injective p.ns p.config.functionDir)
    rwa [List.map_map] at this
  simp only [writes, List.map_append, List.map_map, List.map_cons, List.map_nil]
  refine List.nodup_append.mpr ⟨hunits, by decide, ?_⟩
  rintro a ha b hb rfl
  obtain ⟨unit, -, rfl⟩ := List.mem_map.mp ha
  have hhead : ∀ b ∈ [Text.ofString "pack.mcmeta", Text.ofString "functions.txt"],
      b.head? ≠ some 0x64 := by
    decide
  exact hhead _ hb (head?_filePath ..)

theorem length_functionUnits (p : Pack) (f : Function) (bs : Breakpoints) :
    (functionUnits p f bs).length = 6 + (split f.lines bs).length := by
  simp [functionUnits]
  omega

theorem length_units (p : Pack) (bs : BreakpointMap) :
    (units p bs).length = 6 * p.functions.length +
      (p.functions.flatMap fun e => split e.2.lines (bs.of e.1)).length + 9 := by
  have hparts : ∀ functions : Functions,
      (functions.flatMap fun e => functionUnits p e.2 (bs.of e.1)).length = 6 * functions.length +
        (functions.flatMap fun e => split e.2.lines (bs.of e.1)).length := by
    intro functions
    induction functions with
    | nil => rfl
    | cons e functions ih =>
      simp only [List.flatMap_cons, List.length_append, List.length_cons, length_functionUnits, ih]
      omega
  have hglobal : (globalUnits p (objectives p.functions)).length = 9 := rfl
  rw [units, List.length_append, hglobal]
  exact congrArg (· + 9) (hparts p.functions)

/-- Where no two units have the same path, each has its file. -/
theorem find?_files (hpaths : ((units p bs).map (·.1.path)).Nodup)
    {unit : UnitName × List Instruction} (hunit : unit ∈ units p bs) :
    SortedAssoc.find? Text.compare (filePath p.ns p.config.functionDir unit.1.path) (files p bs) =
      some (fileContent p.config unit.2) := by
  have hwrite :
      (filePath p.ns p.config.functionDir unit.1.path, fileContent p.config unit.2) ∈ writes p bs :=
    List.mem_append_left _ (List.mem_map.mpr ⟨unit, hunit, rfl⟩)
  rw [files_eq, SortedAssoc.find?_eq_some_iff (SortedAssoc.sorted_ofList _)]
  exact (SortedAssoc.ofList_perm (nodup_writes hpaths)).mem_iff.mpr hwrite

theorem length_files (hpaths : ((units p bs).map (·.1.path)).Nodup) :
    (files p bs).length = (units p bs).length + 2 := by
  rw [files_eq, (SortedAssoc.ofList_perm (nodup_writes hpaths)).length_eq]
  simp [writes]

end Generate

/-! ### Linked datapacks -/

/-- Every unit has a file of its own, and whatever is entered or scheduled has one. -/
structure GeneratedPack.Linked (p : Pack) (bs : BreakpointMap) (out : GeneratedPack) : Prop where
  nodup : ((Generate.units p bs).map (·.1.path)).Nodup
  length : out.files.length =
    6 * p.functions.length + (p.functions.flatMap
      fun e => split e.2.lines (bs.of e.1)).length + 9 + 2
  /-- no unit is overwritten -/
  written : ∀ unit ∈ Generate.units p bs,
    out.function? unit.1.path = some (Generate.fileContent p.config unit.2)
  /-- a command names what it enters, and that has a file -/
  called : ∀ unit ∈ Generate.units p bs, ∀ i ∈ unit.2, ∀ u ∈ i.targets,
    CallsByName (u.text p.ns) (i.text p.config) ∧ (out.function? u.path).isSome = true
  /-- no other command enters or schedules a function of the namespace, save those of the source -/
  uncalled : ∀ unit ∈ Generate.units p bs, ∀ i ∈ unit.2, i.command.isSource = false →
    i.targets = [] → ¬RunsUnit p.ns (i.command.text p.config)
  /-- a command of the source on the schedule names the generated function instead -/
  scheduled : ∀ e ∈ p.functions, ∀ l ∈ e.2.lines, ∀ s, l.line = .schedule s →
    p.contains s.function = true →
    (∃ front rest, l.edited p.ns p.functions =
        front ++ s.operation.front ++ UnitName.text p.ns (.of s.function .scheduled) ++ rest ∧
      (rest.head? = none ∨ rest.head? = some Text.blank)) ∧
    (out.function? (UnitName.of s.function .scheduled).path).isSome = true
  continued : ∀ e ∈ p.functions, e.2.Continued p (split e.2.lines (bs.of e.1))

/-- With settings that are accepted, functions that were read and valid names for them, a datapack
    is generated whatever the breakpoints are, and it has files for all that its commands name. -/
theorem generate_linked {g : Grammar} {c : PackConfig} {functions : Functions}
    (hc : c.error? = none) (hread : functions.ReadBy g) (hvalid : ∀ e ∈ functions, e.1.Valid)
    (bs : BreakpointMap) :
    ∃ out, GeneratedPack.generate c functions bs false = .ok out ∧
      out.Linked ⟨c, functions⟩ bs := by
  have hp : functions.WellFormed := hread.wellFormed
  have hnames : ∀ f ∈ (⟨c, functions⟩ : Pack).names, f.Valid := List.forall_mem_map.mpr hvalid
  have hpaths : ((Generate.units ⟨c, functions⟩ bs).map (·.1.path)).Nodup :=
    Generate.nodup_paths hp (fun f hf => (hnames f hf).slash_not_mem_ns) bs
  let out : GeneratedPack :=
    ⟨c.ns, c.functionDir, Generate.objectives functions, Generate.files ⟨c, functions⟩ bs⟩
  have hfile : ∀ u ∈ Generate.unitNames ⟨c, functions⟩ bs,
      (out.function? u.path).isSome = true := by
    intro u hu
    obtain ⟨unit, hunit, rfl⟩ := List.mem_map.mp hu
    exact Option.isSome_of_eq_some (Generate.find?_files hpaths hunit)
  refine ⟨out, by simp [GeneratedPack.generate, hc, out], ?_⟩
  exact
    { nodup := hpaths
      length := by rw [← Generate.length_units, ← Generate.length_files hpaths]
      written := fun unit hunit => Generate.find?_files hpaths hunit
      called := fun unit hunit i hi u hu => by
        have hentered : u ∈ Generate.unitNames ⟨c, functions⟩ bs :=
          Generate.mem_unitNames_of_mem_targets hp hunit (List.mem_flatMap.mpr ⟨i, hi, hu⟩)
        have hvalid : ∀ f part, u = .of f part → f.Valid := fun f part heq =>
          hnames f (Generate.mem_names_of_mem_units hp (heq ▸ hentered))
        exact ⟨Instruction.callsByName (UnitName.newline_not_mem_text hc hvalid) hu,
          hfile u hentered⟩
      uncalled := fun _ _ i _ hsource htargets hruns =>
        (Instruction.runsUnit_iff hsource).mp hruns htargets
      scheduled := fun e he l hl s hline hcontains => by
        have hname := Generate.mem_names_of_contains hcontains
        exact ⟨edited_schedule (hread.line_eq he hl) hline hname,
          hfile _ (Generate.mem_unitNames_of_name hp hname (by decide))⟩
      continued := fun e he => (hp.numbered e he).continued _ _ }

/-- Calls, and removals from the schedule. -/
def callGrammar : Grammar where
  nodes := #[⟨.root, "root", [1, 3], false, none, []⟩,
    ⟨.literal, "function", [2], false, none, []⟩,
    ⟨.argument .function, "name", [], true, none, "minecraft:function"⟩,
    ⟨.literal, "schedule", [4], false, none, []⟩,
    ⟨.literal, "clear", [5], false, none, []⟩,
    ⟨.argument (.string "greedy"), "function", [], true, none, "brigadier:string"⟩]

/-- A function that calls itself and takes itself off the schedule. -/
def selfCaller : Function :=
  .ofSource callGrammar ⟨"test", "-ns-"⟩ "-ns-.mcfunction"
    "function test:-ns-\n# breakpoint\nschedule clear test:-ns-"

/-- A breakpoint at the last line. -/
def selfCallerBreakpoints : BreakpointMap :=
  [(selfCaller.name, [(⟨3, .breakpoint⟩, ⟨.normal, []⟩)])]

/-- A function of one call and two stops has four pieces.  Its last line takes the generated
    function off the schedule. -/
theorem selfCaller_linked :
    PackConfig.error? {} = none ∧ Functions.ReadBy callGrammar [(selfCaller.name, selfCaller)] ∧
    selfCaller.name.Valid ∧
    ∃ out,
      GeneratedPack.generate {} [(selfCaller.name, selfCaller)] selfCallerBreakpoints false =
        .ok out ∧
      out.Linked ⟨{}, [(selfCaller.name, selfCaller)]⟩ selfCallerBreakpoints ∧
      out.files.length = 21 ∧
      ∃ l ∈ selfCaller.lines, ∃ front rest, l.edited "mcfd" [(selfCaller.name, selfCaller)] =
        front ++ Text.ofString "schedule clear " ++ Text.ofString "mcfd:test/-ns-/scheduled" ++
          rest := by
  have hc : PackConfig.error? {} = none := by decide
  have hread : Functions.ReadBy callGrammar [(selfCaller.name, selfCaller)] := by
    refine ⟨by unfold SortedAssoc.Sorted; decide, fun e he => ?_⟩
    obtain rfl := List.mem_singleton.mp he
    exact ⟨_, _, rfl⟩
  have hvalid : selfCaller.name.Valid := rfl
  obtain ⟨out, hout, hlinked⟩ :=
    generate_linked hc hread (by simpa using hvalid) selfCallerBreakpoints
  have hparts : (split selfCaller.lines (selfCallerBreakpoints.of selfCaller.name)).length = 4 := by
    decide
  have hlast : selfCaller.lines.getLast? = some ⟨3, "schedule clear test:-ns-",
      .schedule ⟨.clear, selfCaller.name, 15, 9, {}⟩⟩ := rfl
  have hmem := List.mem_of_getLast? hlast
  obtain ⟨⟨front, rest, hedited, -⟩, -⟩ :=
    hlinked.scheduled _ List.mem_cons_self _ hmem _ rfl rfl
  refine ⟨hc, hread, hvalid, out, hout, hlinked, ?_, _, hmem, front, rest, hedited⟩
  simpa [hparts] using hlinked.length

end DatapackDebug
