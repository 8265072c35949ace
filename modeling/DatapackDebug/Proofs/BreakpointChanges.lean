import DatapackDebug.Proofs.BreakpointKey
import Mathlib.Data.List.Sort

namespace DatapackDebug

/-!
# Keys of sets that were built by changes

A set of breakpoints starts empty.  Then the breakpoints of functions are replaced, single ones are
added, and the set may be copied.  In whichever order that is done, the key of the result tells
which breakpoints have an effect, and nothing else.

* `BreakpointMap.change`, `BreakpointMap.build` — a change of a set, and the set that changes make;
* `BreakpointMap.Tidy`, `BreakpointMap.tidy_build` — such a set is in order, and no function in it
  is without breakpoints;
* `BreakpointMap.clone_eq` — a copy is the set itself;
* `BreakpointMap.entries_eq_iff` — sets in order have the same entries exactly if look-up finds the
  same breakpoints that have an effect;
* `key_eq_iff_sameBreakpoints` — and then, and only then, they have the same key, if names and
  conditions can be read back from it; so they make the same datapack.
-/

variable {m : BreakpointMap}

/-! ### Insertion behind all other keys -/

/-- A key that comes after all others is inserted at the end. -/
theorem SortedAssoc.insert_of_forall_lt {κ α : Type} {cmp : κ → κ → Ordering} [Std.TransCmp cmp]
    {k : κ} {v : α} {m : List (κ × α)} (hm : ∀ e ∈ m, cmp e.1 k = .lt) :
    SortedAssoc.insert cmp k v m = m ++ [(k, v)] := by
  induction m with
  | nil => rfl
  | cons e m ih =>
    obtain ⟨he, hm⟩ := List.forall_mem_cons.mp hm
    have hgt : cmp k e.1 = .gt := Std.OrientedCmp.gt_of_lt he
    simp only [SortedAssoc.insert, hgt, ih hm, List.cons_append]

/-! ### Changes -/

/-- A change of a set of breakpoints. -/
inductive BreakpointChange where
  /-- the breakpoints of a function are these and no others; of those at one position the last
      counts -/
  | set (f : ResourceName) (bs : List (Position × Breakpoint))
  | add (f : ResourceName) (p : Position) (b : Breakpoint)
  /-- go on with a copy of the set -/
  | clone

namespace BreakpointMap

/-- The set after a change. -/
def change (m : BreakpointMap) : BreakpointChange → BreakpointMap
  | .set f bs => m.set f (SortedAssoc.ofList Position.compare bs)
  | .add f p b => m.add f p b
  | .clone => m.clone

/-- The set that changes make of the empty one. -/
def build (changes : List BreakpointChange) : BreakpointMap := changes.foldl change []

/-- The set is in order, and no function in it is without breakpoints. -/
structure Tidy (m : BreakpointMap) : Prop where
  ordered : m.Ordered
  nonempty : ∀ e ∈ m, e.2 ≠ []

theorem Tidy.nil : Tidy [] := ⟨.nil, by simp⟩

/-- Inserting breakpoints of a function leaves no function without breakpoints. -/
theorem Tidy.nonempty_insert (hm : m.Tidy) (f : ResourceName) {bs : Breakpoints} (hbs : bs ≠ []) :
    ∀ e ∈ SortedAssoc.insert ResourceName.compare f bs m, e.2 ≠ [] := by
  intro e he
  have hfind := (SortedAssoc.find?_eq_some_iff (hm.ordered.functions.insert f bs)).mpr he
  rw [SortedAssoc.find?_insert] at hfind
  split at hfind
  · rwa [← Option.some.inj hfind]
  · exact hm.nonempty e ((SortedAssoc.find?_eq_some_iff hm.ordered.functions).mp hfind)

/-- Replacing the breakpoints of a function keeps a set tidy. -/
theorem Tidy.set (hm : m.Tidy) (f : ResourceName) {bs : Breakpoints}
    (hbs : SortedAssoc.Sorted Position.compare bs) : (m.set f bs).Tidy := by
  refine ⟨hm.ordered.set f hbs, ?_⟩
  unfold BreakpointMap.set
  split
  · intro e he
    exact hm.nonempty e (List.mem_of_mem_filter he)
  · rename_i hempty
    exact hm.nonempty_insert f (by simpa using hempty)

/-- Adding a breakpoint keeps a set tidy. -/
theorem Tidy.add (hm : m.Tidy) (f : ResourceName) (p : Position) (b : Breakpoint) :
    (m.add f p b).Tidy := by
  refine ⟨hm.ordered.add f p b, hm.nonempty_insert f fun hnil => ?_⟩
  have hat : ((m.of f).set p b).at? p = some b := by rw [Breakpoints.at?_set, if_pos rfl]
  rw [hnil] at hat
  cases hat

/-- A copy of a tidy set is the set itself. -/
theorem clone_eq (hm : m.Tidy) : m.clone = m := by
  -- The functions come in order, so that each of them is inserted behind those that were copied.
  suffices h : ∀ copied rest : BreakpointMap,
      SortedAssoc.Sorted ResourceName.compare (copied ++ rest) → (∀ e ∈ rest, e.2 ≠ []) →
      rest.foldl (fun copy e => copy.set e.1 e.2) copied = copied ++ rest from
    h [] m hm.ordered.functions hm.nonempty
  intro copied rest
  induction rest generalizing copied with
  | nil => intro _ _; simp
  | cons e rest ih =>
    intro hsorted hnonempty
    obtain ⟨he, hrest⟩ := List.forall_mem_cons.mp hnonempty
    obtain ⟨-, -, hbefore⟩ := List.pairwise_append.mp hsorted
    have hset : copied.set e.1 e.2 = copied ++ [e] := by
      rw [BreakpointMap.set, if_neg (by simpa using he)]
      exact SortedAssoc.insert_of_forall_lt fun e' he' => hbefore e' he' e List.mem_cons_self
    rw [List.foldl_cons, hset, ih (copied ++ [e]) (by simpa using hsorted) hrest, List.append_assoc,
      List.singleton_append]

/-- A change keeps a set tidy. -/
theorem Tidy.change (hm : m.Tidy) (c : BreakpointChange) : (m.change c).Tidy := by
  cases c with
  | set f bs => exact hm.set f (SortedAssoc.sorted_ofList bs)
  | add f p b => exact hm.add f p b
  | clone =>
    show m.clone.Tidy
    rwa [clone_eq hm]

/-- A set that was built by changes is tidy. -/
theorem tidy_build (changes : List BreakpointChange) : (build changes).Tidy := by
  suffices h : ∀ m : BreakpointMap, m.Tidy →
      (changes.foldl BreakpointMap.change m).Tidy from h [] .nil
  induction changes with
  | nil => exact fun m hm => hm
  | cons c changes ih => exact fun m hm => ih (m.change c) (hm.change c)

/-! ### The order of entries -/

/-- Entries are in the order of functions, and in a function in that of positions. -/
def entryCompare (x y : ResourceName × Position × Breakpoint) : Ordering :=
  (ResourceName.compare x.1 y.1).then (Position.compare x.2.1 y.2.1)

instance : Std.TransCmp entryCompare :=
  transCmp_then (f := fun x : ResourceName × Position × Breakpoint => x.1) (g := fun x => x.2.1)

/-- The entries of a set in order are in order. -/
theorem sorted_entries (hm : m.Ordered) : m.entries.Pairwise fun x y => entryCompare x y = .lt := by
  refine List.pairwise_flatMap.mpr ⟨fun e he => ?_, hm.functions.imp fun {e e'} hlt x hx y hy => ?_⟩
  · -- In one function the positions decide.
    have hof : m.of e.1 = e.2 := by
      rw [BreakpointMap.of, (SortedAssoc.find?_eq_some_iff hm.functions).mpr he]
      rfl
    have hpositions : SortedAssoc.Sorted Position.compare e.2.effective :=
      List.Pairwise.filter _ (hof ▸ hm.positions e.1)
    refine List.pairwise_map.mpr (hpositions.imp fun {b b'} hlt => ?_)
    have hself : ResourceName.compare e.1 e.1 = .eq := Std.ReflCmp.compare_self
    rw [entryCompare, hself]
    exact hlt
  · obtain ⟨b, -, rfl⟩ := List.mem_map.mp hx
    obtain ⟨b', -, rfl⟩ := List.mem_map.mp hy
    rw [entryCompare, hlt]
    rfl

/-- Sets in order have the same entries exactly if look-up finds the same breakpoints with an
    effect. -/
theorem entries_eq_iff {m' : BreakpointMap} (hm : m.Ordered) (hm' : m'.Ordered) :
    m.entries = m'.entries ↔ ∀ f p b, b.type ≠ .invalid →
      ((m.of f).at? p = some b ↔ (m'.of f).at? p = some b) := by
  constructor
  · intro h f p b htype
    have hmem : (f, p, b) ∈ m.entries ↔ (f, p, b) ∈ m'.entries := by rw [h]
    rw [mem_entries_iff hm, mem_entries_iff hm'] at hmem
    simpa [htype] using hmem
  · intro h
    have hantisymm : Std.Antisymm fun x y => entryCompare x y = .lt := ⟨fun x y hxy hyx => by
      rw [Std.OrientedCmp.gt_of_lt hxy] at hyx
      cases hyx⟩
    have hirrefl : Std.Irrefl fun x y => entryCompare x y = .lt := ⟨fun x hx => by
      have hself : entryCompare x x = .eq := Std.ReflCmp.compare_self
      rw [hself] at hx
      cases hx⟩
    refine (sorted_entries hm).eq_of_mem_iff (sorted_entries hm') ?_
    rintro ⟨f, p, b⟩
    rw [mem_entries_iff hm, mem_entries_iff hm']
    exact and_congr_left fun htype => h f p b htype

/-! ### Keys -/

/-- The names of the functions are valid, and no condition holds a semicolon. -/
structure Readable (m : BreakpointMap) : Prop where
  names : ∀ e ∈ m, e.1.Valid
  conditions : ∀ e ∈ m, ∀ b ∈ e.2, 0x3b ∉ b.2.condition

end BreakpointMap

/-- Valid names can be read back from keys. -/
theorem ResourceName.Valid.unambiguous {f : ResourceName} (hf : f.Valid) : f.Unambiguous := by
  have hplain := hf.plain
  refine ⟨?_, fun h => (hplain.ns _ h).2.2 rfl⟩
  rw [ResourceName.text, show Text.ofString ":" = [0x3a] from by decide]
  simp only [List.mem_append, List.mem_singleton, not_or]
  refine ⟨⟨fun h => ?_, by decide⟩, fun h => ?_⟩
  · exact absurd (hplain.ns _ h).1 (by decide)
  · exact absurd (hplain.path _ h).1 (by decide)

namespace BreakpointMap

/-- The entries of a readable set can be read back from its key. -/
theorem Readable.mem_entries (hm : m.Readable) :
    ∀ e ∈ m.entries, e.1.Unambiguous ∧ 0x3b ∉ e.2.2.condition := by
  intro e he
  obtain ⟨e', he', hmem⟩ := List.mem_flatMap.mp he
  obtain ⟨b, hb, rfl⟩ := List.mem_map.mp hmem
  exact ⟨(hm.names e' he').unambiguous, hm.conditions e' he' b (List.mem_of_mem_filter hb)⟩

theorem Readable.wellFormed (hm : m.Readable) (hordered : m.Ordered) :
    m.WellFormed ResourceName.Unambiguous := by
  refine ⟨hordered, fun f p b hat htype => ?_⟩
  exact hm.mem_entries (f, p, b) ((mem_entries_iff hordered).mpr ⟨hat, htype⟩)

end BreakpointMap

/-- Sets with the same effects make the same datapack, or fail in the same way to make one. -/
theorem GeneratedPack.generate_congr {m' : BreakpointMap}
    (h : ∀ f p, m.terminatorAt? f p = m'.terminatorAt? f p) (c : PackConfig) (functions : Functions)
    (cancelled : Bool) :
    GeneratedPack.generate c functions m cancelled =
      GeneratedPack.generate c functions m' cancelled := by
  unfold GeneratedPack.generate
  rw [Generate.files_congr h]

open BreakpointMap in
/-- Two sets that were built by changes have the same key exactly if they have the same breakpoints
    with an effect: at the same positions of the same functions, of the same type and with the same
    condition. If they have the same key, they make the same datapack of whichever functions with
    whichever settings. -/
theorem key_eq_iff_sameBreakpoints (changes changes' : List BreakpointChange)
    (hreadable : (build changes).Readable) (hreadable' : (build changes').Readable) :
    ((build changes).key = (build changes').key ↔ ∀ f p b, b.type ≠ .invalid →
      (((build changes).of f).at? p = some b ↔ ((build changes').of f).at? p = some b)) ∧
    ((build changes).key = (build changes').key → ∀ config functions cancelled,
      GeneratedPack.generate config functions (build changes) cancelled =
        GeneratedPack.generate config functions (build changes') cancelled) := by
  have hordered := (tidy_build changes).ordered
  have hordered' := (tidy_build changes').ordered
  refine ⟨?_, fun hkey => ?_⟩
  · rw [← entries_eq_iff hordered hordered']
    constructor
    · exact entries_of_key hreadable.mem_entries hreadable'.mem_entries
    · intro hentries
      rw [key_eq, key_eq, hentries]
  · have hsame := terminatorAt?_of_key (hreadable.wellFormed hordered)
      (hreadable'.wellFormed hordered') hkey
    exact GeneratedPack.generate_congr hsame

/-- Two breakpoints and one without an effect, added one by one to a set that is then copied. -/
def addedChanges : List BreakpointChange :=
  [.add ⟨"t", "g"⟩ ⟨2, .afterFunction⟩ ⟨.step, "if score a b matches ..1"⟩,
    .add ⟨"t", "f"⟩ ⟨3, .breakpoint⟩ ⟨.invalid, []⟩,
    .add ⟨"t", "f"⟩ ⟨1, .breakpoint⟩ ⟨.normal, []⟩, .clone]

/-- The same two breakpoints, set function by function after another one that they replace. -/
def replacedChanges : List BreakpointChange :=
  [.set ⟨"t", "f"⟩ [(⟨7, .breakpoint⟩, ⟨.normal, []⟩)],
    .set ⟨"t", "f"⟩ [(⟨1, .breakpoint⟩, ⟨.normal, []⟩)],
    .set ⟨"t", "g"⟩ [(⟨2, .afterFunction⟩, ⟨.step, "if score a b matches ..1"⟩)]]

open BreakpointMap in
/-- The two sets are different, but have the same key and make the same datapacks. -/
theorem sameDatapacks_addedChanges : build addedChanges ≠ build replacedChanges ∧
    (build addedChanges).Readable ∧ (build replacedChanges).Readable ∧
    ∀ config functions cancelled, GeneratedPack.generate config functions
      (build addedChanges) cancelled =
      GeneratedPack.generate config functions (build replacedChanges) cancelled := by
  have hvalid : ResourceName.Valid ⟨"t", "f"⟩ ∧ ResourceName.Valid ⟨"t", "g"⟩ := ⟨rfl, rfl⟩
  have hadded : build addedChanges = [(⟨"t", "f"⟩, [(⟨1, .breakpoint⟩, ⟨.normal, []⟩),
      (⟨3, .breakpoint⟩, ⟨.invalid, []⟩)]),
      (⟨"t", "g"⟩, [(⟨2, .afterFunction⟩, ⟨.step, "if score a b matches ..1"⟩)])] := by decide
  have hreplaced : build replacedChanges = [(⟨"t", "f"⟩, [(⟨1, .breakpoint⟩, ⟨.normal, []⟩)]),
      (⟨"t", "g"⟩, [(⟨2, .afterFunction⟩, ⟨.step, "if score a b matches ..1"⟩)])] := by decide
  have hreadable : (build addedChanges).Readable := by
    rw [hadded]
    exact ⟨by simpa using hvalid, by decide⟩
  have hreadable' : (build replacedChanges).Readable := by
    rw [hreplaced]
    exact ⟨by simpa using hvalid, by decide⟩
  refine ⟨by rw [hadded, hreplaced]; decide, hreadable, hreadable', ?_⟩
  refine (key_eq_iff_sameBreakpoints addedChanges replacedChanges hreadable hreadable').2 ?_
  rw [hadded, hreplaced]
  decide

end DatapackDebug
