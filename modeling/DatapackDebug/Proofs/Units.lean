import DatapackDebug.Proofs.Names
import DatapackDebug.Proofs.Partition
import DatapackDebug.Proofs.World

namespace DatapackDebug

/-!
# The units of a generated datapack by their names

* `Functions.WellFormed` — functions in the order of their names, with numbered lines;
* `Functions.ReadBy` — functions that a grammar has read from source texts;
* `Datapack.wellFormed_functionsOf` — the functions of a datapack that is loaded are well-formed;
* `nodup_units` — no two units have the same name;
* `lines?_of_mem` — each unit is what the server finds under its path;
* `Generate.rest`, `piece_firstPiece` — the commands of a piece follow its segments.
-/

variable {p : Pack} {f : Function} {u : UnitName} {lines : List Instruction}

/-! ### Well-formed functions -/

/-- Functions in the order of their names, with lines that are numbered from one on. -/
structure Functions.WellFormed (functions : Functions) : Prop where
  sorted : SortedAssoc.Sorted ResourceName.compare functions
  named : ∀ e ∈ functions, e.2.name = e.1
  numbered : ∀ e ∈ functions, e.2.Numbered

/-- The lines of a source text are numbered from one on. -/
theorem Function.numbered_ofSource (g : Grammar) (name : ResourceName) (path source : Text) :
    (Function.ofSource g name path source).Numbered := by
  have hfrom : ∀ (lines : List Text) (k : Nat), NumberedFrom (k + 1) (lines.mapIdx fun i line =>
      { number := i + k + 1, text := Text.trim line, line := g.line (Text.trim line) }) := by
    intro lines
    induction lines with
    | nil => simp [NumberedFrom]
    | cons line lines ih =>
      intro k
      rw [List.mapIdx_cons]
      refine ⟨by simp, ?_⟩
      simpa [Nat.add_comm, Nat.add_left_comm] using ih (k + 1)
  exact hfrom _ 0

/-- Functions by their names, each of which a grammar has read from a source text. -/
structure Functions.ReadBy (g : Grammar) (functions : Functions) : Prop where
  sorted : SortedAssoc.Sorted ResourceName.compare functions
  read : ∀ e ∈ functions, ∃ path source, e.2 = Function.ofSource g e.1 path source

namespace Functions.ReadBy

variable {g : Grammar} {functions : Functions}

theorem wellFormed (h : functions.ReadBy g) : functions.WellFormed := by
  refine ⟨h.sorted, fun e he => ?_, fun e he => ?_⟩
  · obtain ⟨path, source, hread⟩ := h.read e he
    rw [hread]
    rfl
  · obtain ⟨path, source, hread⟩ := h.read e he
    rw [hread]
    exact Function.numbered_ofSource ..

/-- The lines of a function that was read are classified by their texts. -/
theorem line_eq (h : functions.ReadBy g) {e : ResourceName × Function} (he : e ∈ functions)
    {l : SourceLine} (hl : l ∈ e.2.lines) : l.line = g.line l.text := by
  obtain ⟨path, source, hread⟩ := h.read e he
  rw [hread] at hl
  obtain ⟨i, -, rfl⟩ := List.mem_mapIdx.mp hl
  rfl

end Functions.ReadBy

/-- The functions of a datapack are read when it is loaded. -/
theorem Datapack.readBy_functionsOf (g : Grammar) (dir : Text) (files : List (List Text × Text)) :
    (Datapack.functionsOf g dir files).ReadBy g := by
  refine ⟨SortedAssoc.sorted_ofList _, fun e he => ?_⟩
  obtain ⟨file, -, hfile⟩ := List.mem_filterMap.mp (SortedAssoc.mem_of_mem_ofList he)
  obtain ⟨name, -, rfl⟩ := Option.map_eq_some_iff.mp hfile
  exact ⟨_, _, rfl⟩

/-- The functions of a datapack that is loaded are well-formed. -/
theorem Datapack.wellFormed_functionsOf (g : Grammar) (dir : Text)
    (files : List (List Text × Text)) : (Datapack.functionsOf g dir files).WellFormed :=
  (Datapack.readBy_functionsOf g dir files).wellFormed

/-! ### Units by name -/

namespace Pack

/-- The function of a name. -/
def function? (p : Pack) (f : ResourceName) : Option Function :=
  SortedAssoc.find? ResourceName.compare f p.functions

/-- A datapack of well-formed functions whose names can be read. -/
structure WellFormed (p : Pack) : Prop where
  functions : p.functions.WellFormed
  valid : ∀ f ∈ p.names, f.Valid

/-- A function that is found is listed under its name. -/
theorem mem_of_function? {f : ResourceName} {g : Function} (h : p.function? f = some g) :
    (f, g) ∈ p.functions :=
  SortedAssoc.mem_of_find? h

/-- The functions of a datapack are listed in the order of their names. -/
theorem WellFormed.sorted_names (hp : p.WellFormed) : p.names.Pairwise fun f g =>
    f.compare g = .lt :=
  List.pairwise_map.mpr hp.functions.sorted

/-- The callers of a function are those that have a call of it. -/
theorem mem_callers {f : ResourceName} {g : Function} {site : CallSite}
    (hg : p.function? g.name = some g) (hsite : site ∈ g.calls) (hname : site.call.name = f) :
    g.name ∈ p.callers f :=
  List.mem_map.mpr ⟨_, List.mem_filter.mpr ⟨mem_of_function? hg,
    List.any_eq_true.mpr ⟨site, hsite, by simp [hname]⟩⟩, rfl⟩

/-- The callers of a function are some of the functions of the datapack, in their order. -/
theorem callers_sublist (p : Pack) (f : ResourceName) : (p.callers f).Sublist p.names :=
  List.filter_sublist.map _

end Pack

namespace Generate

/-- The names of the units of a function. -/
theorem map_fst_functionUnits (p : Pack) (f : Function) (bs : Breakpoints) :
    (functionUnits p f bs).map (·.1) =
      (UnitPart.fixed ++ (split f.lines bs).map fun part => UnitPart.piece part.start).map
        (UnitName.of f.name) := by
  simp [functionUnits, UnitPart.fixed, Function.comp_def]

/-- The names of the units that are there once. -/
theorem map_fst_globalUnits (p : Pack) (objectives : List Text) :
    (globalUnits p objectives).map (·.1) = UnitName.global := rfl

/-- The units of a function have different names. -/
theorem nodup_functionUnits (p : Pack) (hf : f.Numbered) (bs : Breakpoints) :
    ((functionUnits p f bs).map (·.1)).Nodup := by
  have hstarts := hf.nodup_starts bs
  have hpieces : ((split f.lines bs).map fun part => UnitPart.piece part.start).Nodup := by
    have := hstarts.map (f := UnitPart.piece) fun a b h => UnitPart.piece.inj h
    simpa [Function.comp_def] using this
  rw [map_fst_functionUnits]
  refine List.Nodup.map (fun a b h => (UnitName.of.inj h).2) ?_
  refine List.nodup_append.mpr ⟨by decide, hpieces, ?_⟩
  rintro a ha b hb rfl
  obtain ⟨part, -, rfl⟩ := List.mem_map.mp hb
  simp [UnitPart.fixed] at ha

/-- The units of a function are parts of it. -/
theorem of_mem_functionUnits {bs : Breakpoints} (hu : u ∈ (functionUnits p f bs).map (·.1)) :
    ∃ part, u = .of f.name part := by
  rw [map_fst_functionUnits] at hu
  obtain ⟨part, -, rfl⟩ := List.mem_map.mp hu
  exact ⟨part, rfl⟩

variable (hp : p.functions.WellFormed)

include hp

/-- The units of a datapack have different names. -/
theorem nodup_units (bs : BreakpointMap) : ((units p bs).map (·.1)).Nodup := by
  simp only [units, List.map_append, List.map_flatMap, map_fst_globalUnits]
  refine List.nodup_append.mpr ⟨List.nodup_flatMap.mpr ⟨fun e he => ?_, ?_⟩, by decide, ?_⟩
  · exact nodup_functionUnits p (hp.numbered e he) _
  · refine hp.sorted.imp_of_mem fun {a b} ha hb hlt u hua hub => ?_
    obtain ⟨part, rfl⟩ := of_mem_functionUnits hua
    obtain ⟨part', heq⟩ := of_mem_functionUnits hub
    have hname := (UnitName.of.inj heq).1
    rw [hp.named a ha, hp.named b hb] at hname
    simp [hname] at hlt
  · rintro u hu v hv rfl
    obtain ⟨e, he, hu⟩ := List.mem_flatMap.mp hu
    obtain ⟨part, rfl⟩ := of_mem_functionUnits hu
    simp [UnitName.global] at hv

/-- The functions that units are parts of are those of the datapack. -/
theorem mem_names_of_mem_units {bs : BreakpointMap} {f : ResourceName} {part : UnitPart}
    (h : .of f part ∈ (units p bs).map (·.1)) : f ∈ p.names := by
  simp only [units, List.map_append, List.mem_append, List.map_flatMap, List.mem_flatMap,
    map_fst_globalUnits] at h
  rcases h with ⟨e, he, hu⟩ | h
  · obtain ⟨part', heq⟩ := of_mem_functionUnits hu
    rw [(UnitName.of.inj heq).1, hp.named e he]
    exact List.mem_map_of_mem he
  · simp [UnitName.global] at h

/-- The units of a datapack have different paths, as long as no namespace holds a slash. -/
theorem nodup_paths (hns : ∀ f ∈ p.names, 0x2f ∉ f.ns) (bs : BreakpointMap) :
    ((units p bs).map (·.1.path)).Nodup := by
  rw [show ((units p bs).map (·.1.path)) = ((units p bs).map (·.1)).map UnitName.path by simp]
  have hof : ∀ u ∈ (units p bs).map (·.1), ∀ f part, u = .of f part → 0x2f ∉ f.ns :=
    fun u hu f part heq => hns f (mem_names_of_mem_units hp (heq ▸ hu))
  exact List.Nodup.map_on
    (fun u hu v hv h => UnitName.path_injective (hof u hu) (hof v hv) h) (nodup_units hp bs)

end Generate

/-- Where no two units have the same path, each is found under its path. -/
theorem Units.lines?_of_mem {us : Units} (hus : (us.map (·.1.path)).Nodup) (h : (u, lines) ∈ us) :
    us.lines? u = some lines := by
  induction us with
  | nil => simp at h
  | cons unit us ih =>
    obtain ⟨hne, hus⟩ := List.nodup_cons.mp hus
    rcases List.mem_cons.mp h with rfl | h
    · simp [Units.lines?]
    · have : unit.1.path ≠ u.path := fun heq => hne (List.mem_map.mpr ⟨_, h, heq.symm⟩)
      simpa [Units.lines?, this] using ih hus h

/-! ### What the server finds -/

namespace Pack.WellFormed

variable (hp : p.WellFormed) (bs : BreakpointMap)

include hp

/-- A unit that is there once is what the server finds under its path. -/
theorem lines?_global (h : (u, lines) ∈ Generate.globalUnits p (Generate.objectives p.functions)) :
    Units.lines? (Generate.units p bs) u = some lines :=
  Units.lines?_of_mem
    (Generate.nodup_paths hp.functions (fun f hf => (hp.valid f hf).slash_not_mem_ns) bs)
    (List.mem_append_right _ h)

/-- A unit of a function is what the server finds under its path. -/
theorem lines?_function (hf : p.function? f.name = some f)
    (h : (u, lines) ∈ Generate.functionUnits p f (bs.of f.name)) :
    Units.lines? (Generate.units p bs) u = some lines :=
  Units.lines?_of_mem
    (Generate.nodup_paths hp.functions (fun f hf => (hp.valid f hf).slash_not_mem_ns) bs)
    (List.mem_append_left _ (List.mem_flatMap.mpr ⟨_, Pack.mem_of_function? hf, h⟩))

end Pack.WellFormed

/-! ### Pieces and segments -/

namespace Generate

/-- The commands of what is executed until the next cut, and of the cut. -/
def rest (p : Pack) (f : Function) : List Segment → List Instruction
  | [] => ending p f ⟨⟨1, .entry⟩, ⟨f.lastLine, .return⟩, [], .return⟩
  | .line l :: ss =>
    (if l.line.isCommand then [.source (l.edited p.ns p.functions)] else []) ++ rest p f ss
  | .cut stop terminator :: _ => ending p f ⟨⟨1, .entry⟩, stop, [], terminator⟩

/-- The commands of a piece are those of its lines and of the cut that ends it. -/
theorem piece_firstPiece (p : Pack) (f : Function) (start : Position) (pending : List SourceLine)
    (ss : List Segment) :
    piece p f (firstPiece f.lastLine start pending ss) =
      (if start.place = .function then afterCall f.name start.line else []) ++
        (pending.filter (·.line.isCommand)).map (fun l => .source (l.edited p.ns p.functions)) ++
        rest p f ss := by
  induction ss generalizing pending with
  | nil => rfl
  | cons s ss ih =>
    cases s with
    | cut => rfl
    | line l =>
      rw [firstPiece, ih, rest]
      cases hl : l.line.isCommand <;> simp [hl]

/-- The unit of a position where a piece starts. -/
theorem piece_mem_functionUnits (p : Pack) {bs : Breakpoints} {q : Position} {ss : List Segment}
    (h : f.Rest bs q ss) :
    (UnitName.of f.name (.piece q),
      (if q.place = .function then afterCall f.name q.line else []) ++ rest p f ss) ∈
        functionUnits p f bs := by
  have hpart := h.firstPiece_mem
  have hpiece := piece_firstPiece p f q [] ss
  refine List.mem_append_right _ (List.mem_map.mpr ⟨_, hpart, ?_⟩)
  rw [firstPiece_start, hpiece]
  simp

end Generate

end DatapackDebug
