import DatapackDebug.Proofs.KeptScores
import DatapackDebug.Proofs.Validation

namespace DatapackDebug

/-!
# Numbers and holders of functions

Functions are numbered in the order of their names.  A function is launched by its number, and its
scores are held by its name, or by its number where the name is too long to hold a score.

* `Pack.id_lt_iff`, `Pack.exists_id_eq` — the numbers are those from one on, in the order of names;
* `Pack.length_holder_le`, `Pack.isResourceByte_of_mem_holder`, `Pack.holder_ne_reserved` — holders
  of functions can hold scores, and hold none of the debugger itself;
* `Generate.filter_fires_schedule`, `Generate.run_schedule` — the number of a function makes one
  command of `schedule` fire, and that one launches the function;
* `functions_unambiguous` — all of this for the functions of a datapack.
-/

namespace Pack

variable {p : Pack} {f g : ResourceName}

/-! ### Numbers -/

theorem id_le_length (hf : f ∈ p.names) : p.id f ≤ p.names.length := List.idxOf_lt_length_of_mem hf

/-- Every number up to that of functions is the number of one. -/
theorem exists_id_eq (hp : p.WellFormed) {n : Nat} (hpos : 1 ≤ n) (hle : n ≤ p.names.length) :
    ∃ f ∈ p.names, p.id f = n := by
  have hlt : n - 1 < p.names.length := by omega
  refine ⟨p.names[n - 1], List.getElem_mem hlt, ?_⟩
  rw [id, hp.nodup_names.idxOf_getElem]
  omega

/-- Numbers are in the order of names. -/
theorem id_lt_iff (hp : p.WellFormed) (hf : f ∈ p.names) (hg : g ∈ p.names) :
    p.id f < p.id g ↔ f.compare g = .lt := by
  have hlt : ∀ {f g : ResourceName}, f ∈ p.names → g ∈ p.names → p.id f < p.id g →
      f.compare g = .lt := by
    intro f g hf hg h
    have hf' := List.idxOf_lt_length_of_mem hf
    have hg' := List.idxOf_lt_length_of_mem hg
    have hpair := List.pairwise_iff_getElem.mp hp.sorted_names _ _ hf' hg'
      (Nat.succ_lt_succ_iff.mp h)
    rwa [List.getElem_idxOf hf', List.getElem_idxOf hg'] at hpair
  refine ⟨hlt hf hg, fun h => ?_⟩
  -- The names of other numbers would be in another order.
  rcases Nat.lt_trichotomy (p.id f) (p.id g) with hid | hid | hid
  · exact hid
  · rw [id_inj hf hid] at h
    simp at h
  · cases h.symm.trans (Std.OrientedCmp.gt_of_lt (hlt hg hf hid))

/-! ### Holders -/

theorem isResourceByte_of_mem_holder (hp : p.WellFormed) (hc : p.config.error? = none)
    (hf : f ∈ p.names) {b : UInt8} (hb : b ∈ p.holder f) : Argument.isResourceByte b = true := by
  by_cases hlong : maxHolderLength < f.text.length
  · rw [holder_of_long hlong, List.mem_append, List.mem_append] at hb
    rcases hb with (hb | hb) | hb
    · exact PackConfig.isResourceByte_of_isNamespaceByte
        ((PackConfig.ns_of_error?_eq_none hc).2 b hb)
    · revert b
      decide +kernel
    · simp [Argument.isResourceByte, Text.isDigit_of_mem_ofNat hb]
  · rw [holder_of_short hlong] at hb
    exact (ResourceName.parse_eq_ok (hp.valid f hf)).1 b hb

/-- The bound of namespaces leaves room for ten digits. -/
theorem length_holder_le (hc : p.config.error? = none) (hcount : p.names.length < Nat.pow 10 10)
    (hf : f ∈ p.names) : (p.holder f).length ≤ maxHolderLength := by
  by_cases hlong : maxHolderLength < f.text.length
  · have hns : p.ns.length ≤ maxNamespaceLength := by
      unfold PackConfig.error? at hc
      split at hc
      · cases hc
      · split at hc
        · cases hc
        · exact Nat.le_of_not_lt ‹_›
    have hdigits : (Text.ofNat (p.id f)).length ≤ 10 := by
      rw [Text.ofNat, List.length_map, Nat.length_toDigits_le_iff (by decide) (by decide)]
      exact Nat.lt_of_le_of_lt (id_le_length hf) hcount
    have hmiddle : (Text.ofString "_fn_").length = 4 := by decide
    rw [holder_of_long hlong, List.length_append, List.length_append, hmiddle]
    simp only [maxNamespaceLength, maxHolderLength] at hns ⊢
    omega
  · rw [holder_of_short hlong]
    exact Nat.le_of_not_lt hlong

/-- There is a colon in the holder of a function, or a digit at its end. -/
theorem holder_ne_reserved (p : Pack) (f : ResourceName) {s : Score} (hs : s ∈ Score.reserved) :
    s.holder ≠ .variable (p.holder f) := by
  have hreserved : ∀ s ∈ Score.reserved, ∃ name, s.holder = .variable name ∧ 0x3a ∉ name ∧
      name.getLast?.any Text.isDigit = false := by
    intro s hs
    simp only [Score.reserved, List.mem_cons, List.not_mem_nil, or_false] at hs
    rcases hs with rfl | rfl | rfl | rfl | rfl | rfl <;> exact ⟨_, rfl, by decide, by decide⟩
  obtain ⟨name, hname, hcolon, hlast⟩ := hreserved s hs
  rw [hname]
  rintro ⟨rfl⟩
  by_cases hlong : maxHolderLength < f.text.length
  · have hdigits := Text.ofNat_ne_nil (p.id f)
    rw [holder_of_long hlong, List.getLast?_append, List.getLast?_eq_some_getLast hdigits,
      Option.some_or, Option.any_some,
      Text.isDigit_of_mem_ofNat (List.getLast_mem hdigits)] at hlast
    cases hlast
  · rw [holder_of_short hlong] at hcolon
    exact hcolon f.colon_mem_text

end Pack

/-! ### The schedule -/

namespace World

variable {c : PackConfig} {call : UnitName → Executor → World → Option World} {x : Executor}
  {w : World}

theorem perform_append (lines lines' : List Instruction) :
    perform c call (lines ++ lines') x w =
      (perform c call lines x w).bind (perform c call lines' x) :=
  List.foldlM_append

theorem perform_cons (i : Instruction) (lines : List Instruction) :
    perform c call (i :: lines) x w = (i.effect c call x w).bind (perform c call lines x) :=
  List.foldlM_cons

end World

/-- Does somebody execute the command? -/
def Instruction.fires (ns : Text) (w : World) (x : Executor) : Instruction → Bool
  | .execute ms _ => !(Modifier.executorsOf ns w x ms).isEmpty
  | _ => true

namespace Generate

/-- The command of the schedule that launches a function. -/
def launchLine (p : Pack) (f : ResourceName) : Instruction :=
  .execute [.ifScore .launch (.exactly (p.id f))] (.function (.of f .scheduled))

theorem schedule_eq_map (p : Pack) : schedule p = p.names.map (launchLine p) := rfl

variable {p : Pack} {f entry : ResourceName} {w : World} {x : Executor} {ns : Text}

/-- A command of the schedule asks for the number of its function. -/
theorem executorsOf_launch (hlaunch : w.scores "launch" .functionId = some (p.id entry : Int)) :
    Modifier.executorsOf ns w x [.ifScore .launch (.exactly (p.id f))] =
      if p.id entry = p.id f then [x] else [] := by
  rw [Modifier.executorsOf_ifScore, Score.launch, World.scoreIn_variable, hlaunch]
  simp only [ScoreRange.accepts, Option.any_some, beq_iff_eq, Int.natCast_inj,
    Modifier.executorsOf_nil]

/-- The number of a function makes the command of the function fire, and no other. -/
theorem filter_fires_schedule (hp : p.WellFormed) (hentry : entry ∈ p.names)
    (hlaunch : w.scores "launch" .functionId = some (p.id entry : Int)) :
    (schedule p).filter (Instruction.fires ns w x) = [launchLine p entry] := by
  have hfires : ∀ f, Instruction.fires ns w x (launchLine p f) = (f == entry) := by
    intro f
    rw [launchLine, Instruction.fires, executorsOf_launch hlaunch]
    by_cases hf : f = entry
    · simp [hf]
    · have hid : p.id entry ≠ p.id f := fun h => hf (Pack.id_inj hentry h).symm
      simp [hid, hf]
  have hcomp : Instruction.fires ns w x ∘ launchLine p = (· == entry) := funext hfires
  rw [schedule_eq_map, List.filter_map, hcomp, List.filter_beq,
    List.count_eq_one_of_mem hp.nodup_names hentry]
  rfl

/-- Nothing is done for functions with other numbers. -/
theorem perform_launch_others {call : UnitName → Executor → World → Option World}
    {fs : List ResourceName} (hlaunch : w.scores "launch" .functionId = some (p.id entry : Int))
    (hfs : ∀ f ∈ fs, p.id entry ≠ p.id f) :
    World.perform p.config call (fs.map (launchLine p)) x w = some w := by
  induction fs with
  | nil => rfl
  | cons f fs ih =>
    obtain ⟨hf, hfs⟩ := List.forall_mem_cons.mp hfs
    have hskip : (launchLine p f).effect p.config call x w = some w := by
      rw [launchLine, Instruction.effect, executorsOf_launch hlaunch, if_neg hf]
      rfl
    rw [List.map_cons, World.perform_cons, hskip]
    exact ih hfs

/-- No command of the datapack sets the number to launch. -/
theorem launch_not_mem_sets (hp : p.functions.WellFormed) (bs : BreakpointMap) :
    ∀ unit ∈ units p bs, ∀ i ∈ unit.2, Score.launch ∉ i.sets := by
  intro unit hunit i hi hset
  rcases sets_units hp bs unit hunit i hi _ hset with hown | ⟨t, ht⟩ | ⟨f, -, hf⟩
  · exact absurd hown (by decide)
  · cases ht
  · exact p.holder_ne_reserved f (by decide) hf

/-- The schedule does what the function with the number to launch does when it is scheduled. -/
theorem run_schedule (hp : p.WellFormed) (bs : BreakpointMap) (hentry : entry ∈ p.names)
    (hlaunch : w.scores "launch" .functionId = some (p.id entry : Int)) (bound : Nat) :
    World.run p.config (units p bs) (bound + 1) .schedule x w =
      World.run p.config (units p bs) bound (.of entry .scheduled) x w := by
  have hlines : Units.lines? (units p bs) .schedule = some (schedule p) :=
    hp.lines?_global bs (by simp [globalUnits])
  obtain ⟨before, after, hnames⟩ := List.append_of_mem hentry
  have hother : ∀ f ∈ before ++ after, p.id entry ≠ p.id f := by
    have hnodup := hp.nodup_names
    rw [hnames, List.nodup_middle, List.nodup_cons] at hnodup
    intro f hf h
    exact hnodup.1 (Pack.id_inj hentry h ▸ hf)
  obtain ⟨hbefore, hafter⟩ := List.forall_mem_append.mp hother
  have hfires : ∀ call : UnitName → Executor → World → Option World,
      (launchLine p entry).effect p.config call x w = call (.of entry .scheduled) x w := by
    intro call
    simp [launchLine, executorsOf_launch hlaunch]
  rw [World.run, hlines, schedule_eq_map, hnames, List.map_append, List.map_cons]
  refine (World.perform_append _ _).trans ?_
  rw [perform_launch_others hlaunch hbefore, Option.bind_some, World.perform_cons, hfires]
  -- The number is still there when the function has ended, so that the commands behind it do
  -- nothing.
  cases hrun : World.run p.config (units p bs) bound (.of entry .scheduled) x w with
  | none => rfl
  | some w' =>
    have hkept := World.scores_run (launch_not_mem_sets hp.functions bs) bound hrun
    exact perform_launch_others (hkept.trans hlaunch) hafter

end Generate

/-! ### All together -/

/-- The functions of a datapack can be told apart by their numbers and by the holders of their
    scores. -/
structure Pack.Unambiguous (p : Pack) : Prop where
  id_mem : ∀ f ∈ p.names, 1 ≤ p.id f ∧ p.id f ≤ p.names.length
  id_onto : ∀ n, 1 ≤ n → n ≤ p.names.length → ∃ f ∈ p.names, p.id f = n
  id_inj : ∀ f ∈ p.names, ∀ g ∈ p.names, p.id f = p.id g → f = g
  id_ordered : ∀ f ∈ p.names, ∀ g ∈ p.names, p.id f < p.id g ↔ f.compare g = .lt
  holder_inj : ∀ f ∈ p.names, ∀ g ∈ p.names, p.holder f = p.holder g → f = g
  holder_fits : ∀ f ∈ p.names, (p.holder f).length ≤ 40 ∧ Text.blank ∉ p.holder f
  holder_free : ∀ f ∈ p.names, ∀ s ∈ Score.reserved, s.holder ≠ .variable (p.holder f)

/-- The schedule of a generated datapack launches the function whose number is asked for. -/
structure GeneratedPack.Schedules (out : GeneratedPack) (p : Pack) (bs : BreakpointMap) : Prop where
  written : out.function? UnitName.schedule.path =
    some (Generate.fileContent p.config (Generate.schedule p))
  /-- one command fires, which enters the function -/
  fires : ∀ entry ∈ p.names, ∀ (w : World) (x : Executor),
    w.scores "launch" .functionId = some (p.id entry : Int) →
    (Generate.schedule p).filter (Instruction.fires p.ns w x) = [Generate.launchLine p entry]
  /-- so that the schedule does what the function does -/
  enters : ∀ entry ∈ p.names, ∀ (w : World) (x : Executor) (bound : Nat),
    w.scores "launch" .functionId = some (p.id entry : Int) →
    World.run p.config (Generate.units p bs) (bound + 1) .schedule x w =
      World.run p.config (Generate.units p bs) bound (.of entry .scheduled) x w

/-- Functions are told apart by their numbers and holders, and the number of a function launches it,
    for every namespace that is accepted and as many functions as numbers of ten digits. -/
theorem functions_unambiguous {c : PackConfig} {functions : Functions} (hc : c.error? = none)
    (hfunctions : functions.WellFormed) (hvalid : ∀ e ∈ functions, e.1.Valid)
    (hcount : functions.length < Nat.pow 10 10) (bs : BreakpointMap) :
    (⟨c, functions⟩ : Pack).Unambiguous ∧
      ∃ out, GeneratedPack.generate c functions bs false = .ok out ∧
        out.Schedules ⟨c, functions⟩ bs := by
  have hp : (⟨c, functions⟩ : Pack).WellFormed := ⟨hfunctions, by simpa [Pack.names] using hvalid⟩
  have hlength : (⟨c, functions⟩ : Pack).names.length < Nat.pow 10 10 := by
    simpa [Pack.names] using hcount
  have hout : GeneratedPack.generate c functions bs false = .ok ⟨c.ns, c.functionDir,
      Generate.objectives functions, Generate.files ⟨c, functions⟩ bs⟩ := by
        simp [GeneratedPack.generate, hc]
  refine ⟨?_, _, hout, ?_⟩
  · exact
      { id_mem := fun f hf => ⟨Nat.succ_pos _, Pack.id_le_length hf⟩
        id_onto := fun _ => Pack.exists_id_eq hp
        id_inj := fun f hf g _ => Pack.id_inj hf
        id_ordered := fun f hf g hg => Pack.id_lt_iff hp hf hg
        holder_inj := fun f hf g hg => Pack.holder_inj hp hc hf hg
        holder_fits := fun f hf => ⟨Pack.length_holder_le hc hlength hf, fun hblank =>
          absurd (Pack.isResourceByte_of_mem_holder hp hc hf hblank) (by decide)⟩
        holder_free := fun f _ s hs => Pack.holder_ne_reserved _ f hs }
  · have hpaths := Generate.nodup_paths hfunctions (fun f hf => (hp.valid f hf).slash_not_mem_ns) bs
    have hschedule : (.schedule, Generate.schedule ⟨c, functions⟩) ∈
        Generate.units ⟨c, functions⟩ bs :=
      List.mem_append_right _ (by simp [Generate.globalUnits])
    exact
      { written := Generate.find?_files hpaths hschedule
        fires := fun entry hentry w x => Generate.filter_fires_schedule hp hentry
        enters := fun entry hentry w x bound hlaunch =>
          Generate.run_schedule hp bs hentry hlaunch bound }

/-- A namespace of the greatest length. -/
def longNamespace : PackConfig := { ns := "abcdefghijklmnopqrstuvwxyz" }

/-- Functions without commands, with names of 40 and of 41 bytes. -/
def longNames : Functions :=
  [(⟨"test", List.replicate 35 0x61⟩, ⟨⟨"test", List.replicate 35 0x61⟩, [], []⟩),
    (⟨"test", List.replicate 36 0x61⟩, ⟨⟨"test", List.replicate 36 0x61⟩, [], []⟩)]

/-- The shorter name holds its scores itself, and the number of the longer one stands for it. -/
theorem longNames_unambiguous :
    longNamespace.error? = none ∧ longNames.WellFormed ∧ (∀ e ∈ longNames, e.1.Valid) ∧
      longNames.length < Nat.pow 10 10 ∧ (⟨longNamespace, longNames⟩ : Pack).Unambiguous ∧
      longNames.map (fun e => (⟨longNamespace, longNames⟩ : Pack).holder e.1) =
        [Text.ofString "test:" ++ List.replicate 35 (0x61 : UInt8),
          Text.ofString "abcdefghijklmnopqrstuvwxyz_fn_2"] := by
  have hc : longNamespace.error? = none := by decide
  have hvalid : ∀ e ∈ longNames, e.1.Valid :=
    List.forall_mem_cons.mpr ⟨rfl, List.forall_mem_singleton.mpr rfl⟩
  have hfunctions : longNames.WellFormed :=
    ⟨by unfold SortedAssoc.Sorted; decide, by decide,
      List.forall_mem_cons.mpr ⟨trivial, List.forall_mem_singleton.mpr trivial⟩⟩
  have hcount : longNames.length < Nat.pow 10 10 := by decide
  exact ⟨hc, hfunctions, hvalid, hcount, (functions_unambiguous hc hfunctions hvalid hcount []).1,
    by decide⟩

end DatapackDebug
