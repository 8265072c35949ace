import DatapackDebug.Proofs.Completes
import DatapackDebug.Proofs.Installation
import DatapackDebug.Proofs.StopReports

namespace DatapackDebug

/-!
# Validated functions

`install` marks the functions of the datapack that is loaded, and a function that was not marked
refuses to run.  The marks belong to the holders of scores, which depend on the number of the
function if its name is long.

* `Pack.holder_inj` — two functions of a datapack have different holders;
* `Pack.covers_iff_prefix` — the functions of one datapack have their numbers and holders in
  another;
* `Generate.completes_install` — `install` marks the holders of its functions, and nothing else;
* `Launch.Deploys.names_eq` — the files of a datapack tell the names of its functions;
* `validated_iff_names_prefix` — when the program goes on, all functions are validated exactly if
  the loaded datapack has the first functions of the one that was installed.
-/

/-! ### Holders of scores -/

namespace ResourceName

variable {f g : ResourceName}

theorem Valid.text_inj (hf : f.Valid) (hg : g.Valid) (h : f.text = g.text) : f = g := by
  have hparse := congrArg parse h
  rw [hf, hg] at hparse
  exact Except.ok.inj hparse

theorem Valid.newline_not_mem_text (hf : f.Valid) : Function.newline ∉ f.text :=
  fun h => absurd ((parse_eq_ok hf).1 _ h) (by decide)

theorem colon_mem_text (f : ResourceName) : 0x3a ∈ f.text := by
  simp [text, show Text.ofString ":" = [0x3a] from by decide]

end ResourceName

/-- The holder of a long name is not the text of another name. -/
theorem PackConfig.colon_not_mem_longHolder {c : PackConfig} (hc : c.error? = none) (n : Nat) :
    0x3a ∉ c.ns ++ "_fn_" ++ Text.ofNat n := by
  intro h
  simp only [List.mem_append] at h
  rcases h with (h | h) | h
  · exact absurd ((ns_of_error?_eq_none hc).2 _ h) (by decide)
  · exact absurd h (by decide)
  · exact absurd (Text.isDigit_of_mem_ofNat h) (by decide)

namespace Pack

variable {p : Pack} {f g : ResourceName}

theorem holder_of_long (h : maxHolderLength < f.text.length) :
    p.holder f = p.ns ++ "_fn_" ++ Text.ofNat (p.id f) := if_pos h

theorem holder_of_short (h : ¬maxHolderLength < f.text.length) : p.holder f = f.text := if_neg h

theorem id_inj (hf : f ∈ p.names) (h : p.id f = p.id g) : f = g :=
  (List.idxOf_inj hf).mp (Nat.succ.inj h)

/-- The holder of scores tells the function. -/
theorem holder_inj (hp : p.WellFormed) (hc : p.config.error? = none) (hf : f ∈ p.names)
    (hg : g ∈ p.names) (h : p.holder f = p.holder g) : f = g := by
  by_cases hlongf : maxHolderLength < f.text.length <;> by_cases hlongg :
      maxHolderLength < g.text.length
  · rw [holder_of_long hlongf, holder_of_long hlongg] at h
    exact id_inj hf (Text.ofNat_injective (List.append_cancel_left h))
  · rw [holder_of_long hlongf, holder_of_short hlongg] at h
    exact absurd (h ▸ g.colon_mem_text) (PackConfig.colon_not_mem_longHolder hc _)
  · rw [holder_of_short hlongf, holder_of_long hlongg] at h
    exact absurd (h ▸ f.colon_mem_text) (PackConfig.colon_not_mem_longHolder hc _)
  · rw [holder_of_short hlongf, holder_of_short hlongg] at h
    exact (hp.valid f hf).text_inj (hp.valid g hg) h

/-! ### Functions with the same numbers and holders -/

/-- Every function of a datapack is in the other one, with the same number and holder. -/
def Covers (p₀ p : Pack) : Prop :=
  ∀ f ∈ p.names, f ∈ p₀.names ∧ p₀.id f = p.id f ∧ p₀.holder f = p.holder f

theorem WellFormed.nodup_names (hp : p.WellFormed) : p.names.Nodup :=
  hp.sorted_names.imp fun {f g} hlt => by
    rintro rfl
    have hself : f.compare f = .eq := Std.ReflCmp.compare_self
    cases hlt.symm.trans hself

/-- Numbers are places in the order of names, so they stay where functions are added behind. -/
theorem covers_iff_prefix {c : PackConfig} {first now : Functions}
    (hnow : (⟨c, now⟩ : Pack).WellFormed) :
    Covers ⟨c, first⟩ ⟨c, now⟩ ↔ now.map (·.1) <+: first.map (·.1) := by
  constructor
  · intro hcovers
    rw [List.prefix_iff_getElem?]
    intro i hi
    obtain ⟨hmem, hid, -⟩ := hcovers _ (List.getElem_mem hi)
    have hplace : (first.map (·.1)).idxOf (now.map (·.1))[i] = i :=
      (Nat.succ.inj hid).trans (hnow.nodup_names.idxOf_getElem i hi)
    have hlt := List.idxOf_lt_length_of_mem hmem
    have hget := List.getElem?_eq_getElem hlt
    rw [List.getElem_idxOf hlt] at hget
    rw [← hget]
    exact congrArg _ hplace.symm
  · rintro ⟨added, hadded⟩ f hf
    have hnames : (⟨c, first⟩ : Pack).names = (⟨c, now⟩ : Pack).names ++ added := hadded.symm
    have hid : (⟨c, first⟩ : Pack).id f = (⟨c, now⟩ : Pack).id f := by
      rw [id, hnames, List.idxOf_append_of_mem hf, id]
    refine ⟨hnames ▸ List.mem_append_left _ hf, hid, ?_⟩
    rw [holder, holder, hid]
    rfl

end Pack

/-! ### What is marked -/

/-- Some holders are marked as validated, and the marks of all others are kept. -/
def World.Marks (holders : List Text) (w w' : World) : Prop :=
  ∀ name, w'.scores name .valid = if holders.contains name then some 1 else w.scores name .valid

theorem World.Marks.refl (w : World) : World.Marks [] w w := fun _ => (if_neg (by simp)).symm

theorem World.Marks.trans {hs₁ hs₂ : List Text} {w w₁ w₂ : World} (h₁ : World.Marks hs₁ w w₁)
    (h₂ : World.Marks hs₂ w₁ w₂) : World.Marks (hs₁ ++ hs₂) w w₂ := by
  intro name
  rw [h₂ name, h₁ name]
  by_cases h : name ∈ hs₂ <;> simp [h]

/-- In a world that had no marks only the holders are marked. -/
theorem World.Marks.eq_one_iff {holders : List Text} {w w' : World} (h : World.Marks holders w w')
    (hw : ∀ name, w.scores name .valid ≠ some 1) (name : Text) :
    w'.scores name .valid = some 1 ↔ name ∈ holders := by
  rw [h name]
  split <;> simp_all

/-- The score of another objective. -/
theorem World.Marks.setVariable {o : Objective} (ho : o ≠ .valid) (name : Text) (n : Int)
    (w : World) : World.Marks [] w (w.setVariable name o n) := by
  intro name'
  simp [World.setVariable, ho.symm]

namespace Completes

variable {c : PackConfig} {us : Units} {x : Executor} {lines₁ lines₂ : List Instruction}
  {hs₁ hs₂ : List Text} {w : World}

theorem append_marks (h₁ : Completes c us lines₁ x w (World.Marks hs₁ w))
    (h₂ : ∀ w, Completes c us lines₂ x w (World.Marks hs₂ w)) :
    Completes c us (lines₁ ++ lines₂) x w (World.Marks (hs₁ ++ hs₂) w) :=
  append (h₁.mono fun w₁ hw₁ => (h₂ w₁).mono fun _ hw₂ => hw₁.trans hw₂)

/-- Each of some parts marks its holders. -/
theorem flatMap_marks {α : Type} {as : List α} {lines : α → List Instruction}
    {holders : α → List Text}
    (h : ∀ a ∈ as, ∀ w, Completes c us (lines a) x w (World.Marks (holders a) w)) (w : World) :
    Completes c us (as.flatMap lines) x w (World.Marks (as.flatMap holders) w) := by
  induction as generalizing w with
  | nil => exact nil (.refl w)
  | cons a as ih =>
    obtain ⟨ha, has⟩ := List.forall_mem_cons.mp h
    exact append_marks (ha w) (ih has)

theorem setVariable_marks {o : Objective} (ho : o ≠ .valid) (name : Text) (n : Int) (w : World) :
    Completes c us [.setScore ⟨.variable name, o⟩ n] x w (World.Marks [] w) :=
  of_effect (fun _ => rfl) (.setVariable ho name n w)

end Completes

namespace Generate

variable {p : Pack} (hp : p.WellFormed) (bs : BreakpointMap) {x : Executor}

include hp

/-- A function is validated: none of its commands is executed, and its holder is marked. -/
theorem completes_validate {f : ResourceName} (hf : f ∈ p.names) (w : World) :
    Completes p.config (units p bs) [.setScore (.valid (p.holder f)) 0,
      .function (.of f .validate)] x w (World.Marks [p.holder f] w) := by
  obtain ⟨⟨f, g⟩, he, rfl⟩ := List.mem_map.mp hf
  obtain rfl : g.name = f := hp.functions.named _ he
  have hg : p.function? g.name = some g :=
    (SortedAssoc.find?_eq_some_iff hp.functions.sorted).mpr he
  have hlines : Units.lines? (units p bs) (.of g.name .validate) = some (validate p g) :=
    hp.lines?_function bs hg (List.mem_append_left _ (by simp))
  refine .cons (.of_effect (fun _ => rfl) (.function hlines (.append (.skip_all ?_ ?_))))
  · intro i hi call
    obtain ⟨l, -, rfl⟩ := List.mem_map.mp hi
    have hskip : Modifier.executorsOf p.config.ns (w.setVariable (p.holder g.name) .valid 0) x
        [.ifScore (.valid (p.holder g.name)) (.exactly 2)] = [] := by
      rw [Modifier.executorsOf_ifScore]
      simp [World.scoreIn, World.score, World.setVariable]
    exact (congrArg (List.foldlM _ _) hskip).trans rfl
  · refine .of_effect (fun _ => rfl) fun name => ?_
    by_cases hname : name = p.holder g.name <;>
      simp [World.setScore, World.setVariable, hname]

/-- The functions are numbered. -/
theorem completes_assignIds (w : World) :
    Completes p.config (units p bs) [.function .assignIds] x w (World.Marks [] w) := by
  have hlines : Units.lines? (units p bs) .assignIds = some (assignIds p) :=
    hp.lines?_global bs (by simp [globalUnits])
  have hids : Completes p.config (units p bs)
      (p.names.flatMap fun f => [.setScore (.functionId (p.holder f)) (p.id f)]) x w
      (World.Marks (p.names.flatMap fun _ => []) w) :=
    Completes.flatMap_marks (fun f _ =>
      Completes.setVariable_marks (by decide) (p.holder f) (p.id f)) w
  rw [List.flatMap_eq_nil_iff.mpr fun _ _ => rfl, ← List.map_eq_flatMap] at hids
  exact .function hlines hids

/-- `install` marks the holders of the functions of its datapack. -/
theorem completes_install (w : World) :
    Completes p.config (units p bs) (install p) x w (World.Marks (p.names.map p.holder) w) := by
  have hobjectives : ∀ w, Completes p.config (units p bs) (ownObjectives.map .addObjective) x w
      (World.Marks [] w) := by
    intro w
    refine .skip_all (fun i hi _ => ?_) (.refl w)
    obtain ⟨o, -, rfl⟩ := List.mem_map.mp hi
    rfl
  have hscores : ∀ w, Completes p.config (units p bs)
      [.setScore .stopped 0, .setScore .anchor 0, .setScore .depth 0, .loadLog,
        .function .assignIds] x w
      (World.Marks [] w) := by
    intro w
    refine .append_marks (.setVariable_marks (by decide) ..) fun w => ?_
    refine .append_marks (.setVariable_marks (by decide) ..) fun w => ?_
    refine .append_marks (.setVariable_marks (by decide) ..) fun w => ?_
    exact .append_marks (.of_effect (fun _ => rfl) (.refl w)) (completes_assignIds hp bs)
  rw [List.map_eq_flatMap]
  exact .append_marks (.append_marks (hobjectives w) hscores)
    (Completes.flatMap_marks fun f hf => completes_validate hp bs hf)

end Generate

/-! ### The names of a datapack -/

namespace Generate

/-- The list of functions is among the files of a datapack. -/
theorem find?_manifest {p : Pack} (hp : p.WellFormed) (bs : BreakpointMap) :
    SortedAssoc.find? Text.compare "functions.txt" (files p bs) = some (manifest p.functions) := by
  have hpaths := nodup_paths hp.functions (fun f hf => (hp.valid f hf).slash_not_mem_ns) bs
  rw [files_eq, SortedAssoc.find?_eq_some_iff (SortedAssoc.sorted_ofList _)]
  exact (SortedAssoc.ofList_perm (nodup_writes hpaths)).mem_iff.mpr
    (List.mem_append_right _ (by simp))

/-- The list of functions tells their names. -/
theorem names_eq_of_manifest_eq {fs gs : Functions} (hfs : ∀ f ∈ fs.map (·.1), f.Valid)
    (hgs : ∀ g ∈ gs.map (·.1), g.Valid) (h : manifest fs = manifest gs) :
    fs.map (·.1) = gs.map (·.1) := by
  induction fs generalizing gs with
  | nil =>
    cases gs with
    | nil => rfl
    | cons e gs => simp [manifest] at h
  | cons d fs ih =>
    cases gs with
    | nil => simp [manifest] at h
    | cons e gs =>
      obtain ⟨hd, hfs⟩ := List.forall_mem_cons.mp hfs
      obtain ⟨he, hgs⟩ := List.forall_mem_cons.mp hgs
      simp only [manifest, List.flatMap_cons, List.append_assoc, List.singleton_append] at h
      obtain ⟨htext, hrest⟩ :=
        Text.append_first_inj hd.newline_not_mem_text he.newline_not_mem_text h
      exact congrArg₂ List.cons (hd.text_inj he htext) (ih hfs hgs hrest)

theorem manifest_prefix {fs gs : Functions} (h : fs.map (·.1) <+: gs.map (·.1)) :
    manifest fs <+: manifest gs := by
  have hflat : ∀ fs : Functions,
      manifest fs = (fs.map (·.1)).flatMap fun name => name.text ++ [Function.newline] := by
    intro fs
    rw [List.flatMap_map]
    rfl
  obtain ⟨added, hadded⟩ := h
  rw [hflat fs, hflat gs, ← hadded, List.flatMap_append]
  exact List.prefix_append ..

end Generate

namespace Launch.Deploys

variable {l : Launch} {fs gs : Functions} {x : Option (Text × List (Text × Text))}

theorem error?_eq_none (h : l.Deploys fs x) : l.config.error? = none := by
  obtain ⟨-, m, pack, hpack, -⟩ := h
  unfold GeneratedPack.generate at hpack
  split at hpack
  · cases hpack
  · assumption

/-- The list of functions that the files hold. -/
theorem manifest_eq (h : l.Deploys fs x) :
    x.bind (fun y => SortedAssoc.find? Text.compare "functions.txt" y.2) =
      some (Generate.manifest fs) := by
  obtain ⟨hfs, m, pack, hpack, rfl⟩ := h
  unfold GeneratedPack.generate at hpack
  split at hpack
  · cases hpack
  · cases hpack
    exact Generate.find?_manifest hfs m

/-- The files of a datapack tell the names of its functions. -/
theorem names_eq (hfs : l.Deploys fs x) (hgs : l.Deploys gs x) : fs.map (·.1) = gs.map (·.1) :=
  Generate.names_eq_of_manifest_eq hfs.1.valid hgs.1.valid
    (Option.some.inj (hfs.manifest_eq.symm.trans hgs.manifest_eq))

end Launch.Deploys

/-! ### Validated functions -/

/-- `install` was called while a datapack was loaded in which every function of the one that is
    loaded now has the same number and holder. -/
def Rollout.Validated (r : Rollout) (l : Launch) : Prop :=
  ∃ x ∈ r.installs, ∃ first now, l.Deploys first x ∧ l.Deploys now r.served ∧
    Pack.Covers ⟨l.config, first⟩ ⟨l.config, now⟩

theorem Session.RolledOut.validated_iff {r : Rollout} {s : Session} {l : Launch}
    {first now : Functions} (h : RolledOut r s l first now) :
    r.Validated l ↔ now.map (·.1) <+: first.map (·.1) := by
  obtain ⟨x, hfirst, hinstalls⟩ := h.installed
  constructor
  · rintro ⟨y, hy, first', now', hfirst', hnow', hcovers⟩
    rw [hinstalls, List.mem_singleton] at hy
    subst hy
    rw [h.served.names_eq hnow', hfirst.names_eq hfirst']
    exact (Pack.covers_iff_prefix hnow'.1).mp hcovers
  · intro hprefix
    exact ⟨x, hinstalls ▸ List.mem_singleton_self x, first, now, hfirst, h.served,
      (Pack.covers_iff_prefix h.served.1).mpr hprefix⟩

open Session SessionM in
/-- Whenever the program goes on, `install` was called once, for the datapack of the launch.  All
    functions of the loaded datapack are validated by that exactly if they are the first functions
    of the installed one.  A world without marks has the mark of a function then exactly if a
    function of the installed datapack had its holder, and if all functions are validated that is
    the function itself. -/
theorem validated_iff_names_prefix {g : Grammar} {log : List (Operation × History)} {op : Operation}
    {s s' : Session} {h₁ h₂ : History} {result : Except SessionError Unit}
    {e : Exchange sessionSignature} (hrun : Run { grammar := g } log s)
    (hnames : Session.NamesIn ResourceName.Valid (log ++ [(op, h₁)]))
    (hop : op.perform.Yields s (h₁ ++ e :: h₂) result s') (he : e.1.GoesOn) :
    let r := Rollout.afterAll {} (log.flatMap (·.2) ++ h₁)
    ∃ l first now, RolledOut r s' l first now ∧
      (r.loaded = true → r.written.isSome = true → now.map (·.1) = s'.functions.map (·.1)) ∧
      (r.Validated l ↔ now.map (·.1) <+: first.map (·.1)) ∧
      (∀ bs x w, (∀ name, w.scores name .valid ≠ some 1) →
        Completes l.config (Generate.units ⟨l.config, first⟩ bs)
          (Generate.install ⟨l.config, first⟩) x w
          fun w' => ∀ f ∈ now.map (·.1), w'.scores (Pack.holder ⟨l.config, now⟩ f) .valid = some 1 ↔
            ∃ f' ∈ first.map (·.1), Pack.holder ⟨l.config, first⟩ f' =
              Pack.holder ⟨l.config, now⟩ f) ∧
      (r.Validated l → ∀ f ∈ now.map (·.1), f ∈ first.map (·.1) ∧ ∀ f' ∈ first.map (·.1),
        (Pack.holder ⟨l.config, first⟩ f' = Pack.holder ⟨l.config, now⟩ f ↔ f' = f)) := by
  intro r
  obtain ⟨l, first, now, hout⟩ := hrun.rolledOut hnames hop he
  obtain ⟨x, hfirst, -⟩ := hout.installed
  refine ⟨l, first, now, hout, fun hloaded hwritten => ?_, hout.validated_iff, ?_, ?_⟩
  · have hserved : r.served = r.written := Rollout.served_eq_written (fun _ => rfl) hloaded
    exact hout.served.names_eq (hserved ▸ hout.written hwritten)
  · intro bs x w hw
    exact (Generate.completes_install hfirst.1 bs w).mono fun w' hmarks f _ =>
      (hmarks.eq_one_iff hw _).trans List.mem_map
  · intro hvalidated f hf
    obtain ⟨hmem, -, hholder⟩ :=
      (Pack.covers_iff_prefix hout.served.1).mpr (hout.validated_iff.mp hvalidated) f hf
    refine ⟨hmem, fun f' hf' => ⟨fun h => ?_, fun h => h ▸ hholder⟩⟩
    exact Pack.holder_inj hfirst.1 hfirst.error?_eq_none hf' hmem (h.trans hholder.symm)

/-! ### A function that was renamed while the program was stopped -/

theorem FileTree.namesIn_of_files {V : ResourceName → Prop} {tree data : FileTree}
    (hdata : tree.find ["data"] = .ok data)
    (hfiles : ∀ file ∈ data.files, ∀ f ∈ FunctionFile.nameOf? file.1, V f) : tree.NamesIn V := by
  intro data' hdata' file hfile f hf
  cases hdata.symm.trans hdata'
  exact hfiles file (List.mem_of_mem_filter (List.mem_mergeSort.mp hfile)) f hf

instance (f : ResourceName) : Decidable f.Valid :=
  inferInstanceAs (Decidable (ResourceName.parse f.text = .ok f))

open SessionM

/-- A datapack whose function has another name. -/
def renamedTree : FileTree :=
  .dir [("data", .dir [("t", .dir [("functions", .dir [("g.mcfunction", .file "say a")])])]),
    ("pack.mcmeta", .file "{}")]

/-- The function is renamed while the program is stopped. -/
def renamedScript : List (Operation × SteadyHost) :=
  let host : SteadyHost := { tree := sampleTree "say a" }
  [(sampleLaunch, host), (.configurationDone, host),
    (.event ⟨"mcfd", "Added tag 'mcfd+t+f+1_breakpoint' to Marker"⟩, host),
    (.sourceModified, { tree := renamedTree })]

def renamedPlay : List (Operation × History) × Session :=
  Session.play { grammar := ⟨#[]⟩ } renamedScript

/-- The program is resumed. -/
def renamedResume : (Except SessionError Unit × Session) × History :=
  (Operation.perform (.resume none)).talk (SteadyHost.reply { tree := renamedTree }) renamedPlay.2

/-- The commands that resume the program. -/
def resumeCommands : List ServerCommand := [⟨"mcfd", "function mcfd:resume_self"⟩]

theorem exchanges_renamedResume :
    renamedResume.2 = renamedResume.2.dropLast ++ [⟨.inject resumeCommands, none⟩] := by
  have hrequest : (renamedResume.2.getLast?.map (·.1) : Option SessionRequest) =
      some (.inject resumeCommands) := by
    decide +kernel
  obtain ⟨⟨q, reply⟩, hlast, hq⟩ := Option.map_eq_some_iff.mp hrequest
  cases hq
  have hreply : reply = none := reply_of_mem_talk (List.mem_of_getLast? hlast)
  rw [← hreply]
  exact (List.dropLast_append_getLast? _ hlast).symm

/-- The report of the stop tells of a valid name, whatever the namespace of the debugger is. -/
theorem namesIn_renamedStop : LogEvent.NamesIn ResourceName.Valid
    ⟨"mcfd", "Added tag 'mcfd+t+f+1_breakpoint' to Marker"⟩ := by
  intro ns tag f p htag hf
  have hread : Report.addedTag? "Added tag 'mcfd+t+f+1_breakpoint' to Marker" =
      some "mcfd+t+f+1_breakpoint" := by
    decide +kernel
  cases htag.symm.trans hread
  have hall : ∀ n ≤ (Text.ofString "mcfd+t+f+1_breakpoint").length,
      ∀ x ∈ Tag.parsePosition? ((Text.ofString "mcfd+t+f+1_breakpoint").take n)
        "mcfd+t+f+1_breakpoint", x.1.Valid := by
    decide +kernel
  -- The namespace is a start of the tag.
  obtain ⟨rest, hrest, -⟩ := Option.bind_eq_some_iff.mp hf
  have htext := Text.eq_append_of_dropStart? hrest
  rw [List.append_assoc] at htext
  have hstart : (Text.ofString "mcfd+t+f+1_breakpoint").take ns.length = ns := by
    rw [htext, List.take_left]
  have hlength : ns.length ≤ (Text.ofString "mcfd+t+f+1_breakpoint").length := by
    rw [htext, List.length_append]
    omega
  exact hall ns.length hlength (f, p) (hstart.symm ▸ hf)

theorem namesIn_renamedScript : ∀ x ∈ renamedScript,
    x.1.NamesIn ResourceName.Valid ∧ x.2.tree.NamesIn ResourceName.Valid := by
  have hsample : (sampleTree "say a").NamesIn ResourceName.Valid :=
    FileTree.namesIn_of_files rfl (by decide +kernel)
  have hrenamed : renamedTree.NamesIn ResourceName.Valid :=
    FileTree.namesIn_of_files rfl (by decide +kernel)
  simp [renamedScript, sampleLaunch, Operation.NamesIn, hsample, hrenamed, namesIn_renamedStop]

open Session in
/-- The program goes on with a function that was never validated. -/
theorem not_validated_renamedResume :
    Run { grammar := ⟨#[]⟩ } renamedPlay.1 renamedPlay.2 ∧
      Session.NamesIn ResourceName.Valid
        (renamedPlay.1 ++ [(.resume none, renamedResume.2.dropLast)]) ∧
      (Operation.perform (.resume none)).Yields renamedPlay.2
        (renamedResume.2.dropLast ++ ⟨.inject resumeCommands, none⟩ :: []) (.ok ())
        renamedResume.1.2 ∧
      (SessionRequest.inject resumeCommands).GoesOn ∧
      ∃ l, renamedResume.1.2.launch = some l ∧
        ¬(Rollout.afterAll {} (renamedPlay.1.flatMap (·.2) ++
          renamedResume.2.dropLast)).Validated l := by
  have hrun : Run { grammar := ⟨#[]⟩ } renamedPlay.1 renamedPlay.2 := run_play ..
  have hresume : (Operation.perform (.resume none)).Yields renamedPlay.2
      (renamedResume.2.dropLast ++ ⟨.inject resumeCommands, none⟩ :: []) (.ok ())
      renamedResume.1.2 := by
    have htalk : (Operation.perform (.resume none)).Yields renamedPlay.2 renamedResume.2
      renamedResume.1.1 renamedResume.1.2 := yields_talk ..
    have hresult : renamedResume.1.1 = .ok () := by decide +kernel
    rwa [exchanges_renamedResume, hresult] at htalk
  have hgo : (SessionRequest.inject resumeCommands).GoesOn :=
    ⟨_, List.mem_cons_self, "mcfd", .inl rfl⟩
  have hnames : Session.NamesIn ResourceName.Valid
      (renamedPlay.1 ++ [(.resume none, renamedResume.2.dropLast)]) := by
    have htalk : SessionM.NamesIn ResourceName.Valid renamedResume.2 := namesIn_talk
      (namesIn_renamedScript (.sourceModified, { tree := renamedTree }) (by simp [renamedScript])).2
    rw [exchanges_renamedResume] at htalk
    exact List.forall_mem_append.mpr ⟨namesIn_play namesIn_renamedScript _,
      List.forall_mem_singleton.mpr ⟨trivial, (namesIn_append.mp htalk).1⟩⟩
  refine ⟨hrun, hnames, hresume, hgo, ?_⟩
  obtain ⟨l, first, now, hout, -, hvalidated, -⟩ :=
    validated_iff_names_prefix hrun hnames hresume hgo
  refine ⟨l, hout.launch, fun h => ?_⟩
  obtain ⟨x, hfirst, hinstalls⟩ := hout.installed
  -- The lists of functions in the two datapacks contradict the order of their names.
  have hlists := Generate.manifest_prefix (hvalidated.mp h)
  have hfirstList := hfirst.manifest_eq
  have hnowList := hout.served.manifest_eq
  have hmanifests : (Rollout.afterAll {} (renamedPlay.1.flatMap (·.2) ++
        renamedResume.2.dropLast)).installs.map
      (·.bind fun y => SortedAssoc.find? Text.compare "functions.txt" y.2) =
        [some (Text.ofString "t:f\n")] ∧
      (Rollout.afterAll {} (renamedPlay.1.flatMap (·.2) ++ renamedResume.2.dropLast)).served.bind
      (fun y => SortedAssoc.find? Text.compare "functions.txt" y.2) =
      some (Text.ofString "t:g\n") := by
    decide +kernel
  rw [hinstalls, List.map_singleton, List.singleton_inj, hfirstList, hnowList] at hmanifests
  rw [Option.some.inj hmanifests.1, Option.some.inj hmanifests.2] at hlists
  exact absurd hlists (by decide)

end DatapackDebug
