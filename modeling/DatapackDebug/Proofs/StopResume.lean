import DatapackDebug.Proofs.CallSimulation

namespace DatapackDebug

/-!
# Stopping and resuming does what the source does

A generated datapack that is started, and taken up again after each stop, executes the commands of
the source and stops as the source does.

* `AtMarker.completes_resume` — a function goes on at the position of the marker;
* `AtMarker.completes_resumeDispatch`, `AtMarker.completes_resumeSelf` — the function of the marker
  goes on, with the entity that was executing at the stop;
* `Stopped.tick`, `Ended.tick` — the log tells the position of a stop and the end;
* `debug_simulates_source` — a debugged program has the events of the source.
-/

open Generate

section

variable {p : Pack} {bs : BreakpointMap} {f : Function} {ss : List Segment} {stack : Stack}
  {fr : CallFrame} {frs frames : List CallFrame} {others : List Entity} {x y : Executor} {n : Nat}
  {t : List Event} {w w' : World} {us : Units} {Q : World → Prop} {tags : List Tag} {q : Position}

/-! ### Markers -/

/-- The tags of a marker whose position the log has told. -/
@[simp] def markerTags (f : ResourceName) (q : Position) : List Tag :=
  [.own, .breakpoint, .function f, .position f q]

section

variable (hw : AtMarker p others tags frames w)

include hw

/-- No two entities have the same number. -/
theorem AtMarker.nodup : (w.entities.map (·.id)).Nodup := by
  obtain ⟨m, es, hentities, -, -, hid, hlayout⟩ := hw.layout
  rw [hentities]
  exact List.nodup_cons.mpr ⟨hid, hlayout.nodup⟩

/-- The scores of names that are not those of frames can change. -/
theorem AtMarker.congr (hentities : w'.entities = w.entities) (hnext : w'.nextId = w.nextId)
    (hdepth : w'.scores "current" .depth = w.scores "current" .depth)
    (hvalid : ∀ name, w'.scores name .valid = w.scores name .valid) :
    AtMarker p others tags frames w' where
  layout := hentities ▸ hw.layout
  fresh := by rw [hentities, hnext]; exact hw.fresh
  depth := hdepth.trans hw.depth
  valid f hf := (hvalid _).trans (hw.valid f hf)

/-- A mark of the debugger that frames do not show is set. -/
theorem AtMarker.setGlobal (name : Text) (i : Int) :
    AtMarker p others tags frames (w.setVariable name .global i) :=
  hw.congr rfl rfl (by simp) fun _ => by simp

/-- The marker is the only entity that is tagged as one. -/
theorem AtMarker.marker (htags : .breakpoint ∈ tags) :
    ∃ m, w.select p.ns y (oneCloud .breakpoint) = [m] ∧ m ∈ w.entities ∧
      ∀ tag : Tag, ∀ e ∈ w.entities, (clouds [.breakpoint, tag]).picks p.ns y e = true ↔
        e = m ∧ ∃ tag' ∈ tags, tag'.text p.ns = tag.text p.ns := by
  obtain ⟨m, es, hentities, hcloud, hm, hid, hlayout⟩ := hw.layout
  have hbreakpoint : Tag.breakpoint.text p.ns ∈ m.tags := (hm _).mpr ⟨_, htags, rfl⟩
  have hes : ∀ e ∈ es, Tag.breakpoint.text p.ns ∉ e.tags :=
    hlayout.not_mem_tags (by decide) (by simp)
  refine ⟨m, ?_, hentities ▸ List.mem_cons_self, fun tag e he => ?_⟩
  · rw [World.select_oneCloud, hentities,
      List.filter_cons_of_pos (Target.picks_clouds.mpr ⟨hcloud, by simpa using hbreakpoint⟩)]
    rfl
  · rw [← hm, Target.picks_clouds]
    rcases List.mem_cons.mp (hentities ▸ he) with rfl | hmem
    · simp [hcloud, hbreakpoint]
    · have : e ≠ m := by
        rintro rfl
        exact hid (List.mem_map_of_mem hmem)
      simp [hes e hmem, this]

/-- A condition on markers with a tag lets go on exactly if the marker has it. -/
theorem AtMarker.executorsOf_ifMarker (htags : .breakpoint ∈ tags) (tag : Tag) {P : Prop}
    [Decidable P] (h : (∃ tag' ∈ tags, tag'.text p.ns = tag.text p.ns) ↔ P) :
    Modifier.executorsOf p.ns w x [.ifEntity (clouds [.breakpoint, tag])] =
      if P then [x] else [] := by
  obtain ⟨m, -, hm, hpicks⟩ := hw.marker (y := x) htags
  by_cases hP : P
  · rw [if_pos hP]
    exact World.executorsOf_ifEntity_pos rfl hm ((hpicks tag m hm).mpr ⟨rfl, h.mpr hP⟩)
  · rw [if_neg hP]
    refine World.executorsOf_ifEntity_neg rfl fun e he => Bool.eq_false_iff.mpr fun hp => hP ?_
    exact h.mp ((hpicks tag e he).mp hp).2

/-- Once the marker is removed the program runs. -/
theorem AtMarker.kill (htags : .breakpoint ∈ tags) (hunselected : Unselected p.ns others)
    (hgoing : w.scores "break" .global = some 0)
    (hanchor : ∀ n, w.scores "anchor" .global = some n → n ≤ 1)
    (hQ : ∀ w', Running p others frames w' → Follows w w' [] → Q w') :
    Completes p.config us [.kill (clouds [.breakpoint])] x w Q := by
  obtain ⟨m, es, hentities, hcloud, hm, hid, hlayout⟩ := hw.layout
  refine .kill hw.nodup rfl ?_
  have hkept : w.entities.filter (fun e => !(clouds [.breakpoint]).picks p.ns x e) = es := by
    have hbreakpoint : Tag.breakpoint.text p.ns ∈ m.tags := (hm _).mpr ⟨_, htags, rfl⟩
    have hpicks : (clouds [.breakpoint]).picks p.ns x m = true :=
      Target.picks_clouds.mpr ⟨hcloud, by simpa using hbreakpoint⟩
    rw [hentities, List.filter_cons_of_neg (by simp [hpicks]), List.filter_eq_self]
    intro e he
    rw [Bool.not_eq_true', Bool.eq_false_iff]
    intro hp
    exact hlayout.not_mem_tags (by decide) (by simp) e he
      ((Target.picks_clouds.mp hp).2 _ List.mem_cons_self)
  rw [Pack.config_ns, hkept]
  exact hQ _ ⟨hlayout, fun e he => hw.fresh e (hentities ▸ List.mem_cons_of_mem _ he),
    hunselected, hgoing, hw.depth, hanchor, hw.valid⟩ (.of_record rfl rfl)

end

/-- Whoever was executing is no longer marked. -/
theorem AtMarker.unselect (hw : AtMarker p (selected p.ns x others) tags frames w)
    (htags : .selectedEntity ∉ tags)
    (hunselected : Unselected p.ns others) :
    AtMarker p others tags frames { w with
      entities := changed ((selectedEntity false).picks p.ns y)
        (Entity.removeTag (Tag.selectedEntity.text p.ns)) w.entities } := by
  obtain ⟨m, es, hentities, hcloud, hm, hid, hlayout⟩ := hw.layout
  have hpicks : (selectedEntity false).picks p.ns y m = false := by
    rw [Bool.eq_false_iff, ne_eq, Target.picks_selectedEntity, hm]
    rintro ⟨tag, htag, htext⟩
    exact htags (Tag.text_fixed_inj (by decide) htext ▸ htag)
  refine ⟨⟨m, changed ((selectedEntity false).picks p.ns y)
    (Entity.removeTag (Tag.selectedEntity.text p.ns)) es, ?_, hcloud, hm, ?_,
    hlayout.unselect hunselected⟩, fun e he => ?_, hw.depth, hw.valid⟩
  · simp [hentities, changed, hpicks]
  · rwa [map_id_changed (by simp)]
  · have hmem : e.id ∈ w.entities.map (·.id) := by
      rw [← map_id_changed (P := (selectedEntity false).picks p.ns y)
        (f := Entity.removeTag (Tag.selectedEntity.text p.ns)) (by simp)]
      exact List.mem_map_of_mem he
    obtain ⟨e', he', heq⟩ := List.mem_map.mp hmem
    exact heq ▸ hw.fresh e' he'

/-! ### Resuming a function -/

/-- Only the position of the marker is found. -/
theorem AtMarker.executorsOf_find {f : ResourceName} (hf : f.Valid)
    (hw : AtMarker p others (markerTags f q) frames w) (q' : Position) :
    Modifier.executorsOf p.ns w x [.ifEntity (clouds [.breakpoint, .position f q'])] =
      if q' = q then [x] else [] := by
  refine hw.executorsOf_ifMarker (by simp) _ ⟨?_, fun hq => ⟨.position f q, by simp, by rw [hq]⟩⟩
  rintro ⟨tag, htag, htext⟩
  simp only [markerTags, List.mem_cons, List.not_mem_nil, or_false] at htag
  rcases htag with rfl | rfl | rfl | rfl
  · cases Tag.text_fixed_inj (by decide) htext.symm
  · cases Tag.text_fixed_inj (by decide) htext.symm
  · have := Tag.compare_of_text_function_eq_position hf hf htext
    simp at this
  · exact (Tag.text_position_inj hf hf htext).2.symm

/-- The number of the position of the marker is found. -/
theorem AtMarker.completes_find {f : ResourceName} (hf : f.Valid)
    (hw : AtMarker p others (markerTags f q) frames w) {before after : List Position}
    (hnodup : (before ++ q :: after).Nodup)
    (hQ : Q (w.setVariable "resume_position" .global (before.length : Nat))) :
    Completes p.config us
      ((before ++ q :: after).mapIdx fun i q' =>
        .execute [.ifEntity (clouds [.breakpoint, .position f q'])] (.setScore .resumePosition i))
      x w Q := by
  rw [List.nodup_middle, List.nodup_cons, List.mem_append, not_or] at hnodup
  obtain ⟨⟨hbefore, hafter⟩, -⟩ := hnodup
  rw [List.mapIdx_append, List.mapIdx_cons]
  refine .append (.skip_all (fun i hi call => ?_) (.cons (.execute ((hw.executorsOf_find hf q).trans
    (if_pos rfl)) (.setVariable (.skip_all (fun i hi call => ?_) ?_)))))
  · obtain ⟨k, hk, rfl⟩ := List.mem_mapIdx.mp hi
    have hne : before[k] ≠ q := fun h => hbefore (h ▸ List.getElem_mem hk)
    simp [hw.executorsOf_find hf, hne]
  · obtain ⟨k, hk, rfl⟩ := List.mem_mapIdx.mp hi
    have hne : after[k] ≠ q := fun h => hafter (h ▸ List.getElem_mem hk)
    simp [(hw.setGlobal "resume_position" _).executorsOf_find hf, hne]
  · simpa using hQ

/-- The function goes on at the position whose number was found. -/
theorem Completes.runPosition {f : ResourceName} {before after : List Position}
    (hposition : w.scores "resume_position" .global = some (before.length : Int))
    (h : Completes p.config us [.function (.of f (.piece q))] x w fun w' =>
      w'.scores "resume_position" .global = some (before.length : Int) ∧ Q w') :
    Completes p.config us
      ((before ++ q :: after).mapIdx fun i q' =>
        .execute [.ifScore .resumePosition (.exactly i)] (.function (.of f (.piece q'))))
      x w Q := by
  have hexecutors : ∀ w : World, w.scores "resume_position" .global = some (before.length : Int) →
      ∀ i : Nat, Modifier.executorsOf p.ns w x [.ifScore .resumePosition (.exactly i)] =
        if before.length = i then [x] else [] := by
    intro w hw i
    rw [Modifier.executorsOf_ifScore, Score.resumePosition, World.scoreIn_variable, hw]
    simp only [ScoreRange.accepts, Option.any_some, beq_iff_eq, Int.natCast_inj,
      Modifier.executorsOf_nil]
  rw [List.mapIdx_append, List.mapIdx_cons]
  refine .append (.skip_all (fun i hi call => ?_) (.cons (.execute (y := x) ?_ (h.mono ?_))))
  · obtain ⟨k, hk, rfl⟩ := List.mem_mapIdx.mp hi
    simp [hexecutors w hposition, Nat.ne_of_gt hk]
  · simp [hexecutors w hposition]
  · rintro w' ⟨hposition', hQ⟩
    refine .skip_all (fun i hi call => ?_) hQ
    obtain ⟨k, hk, rfl⟩ := List.mem_mapIdx.mp hi
    have hnone := (hexecutors w' hposition' (k + 1 + before.length)).trans (if_neg (by omega))
    simp only [Instruction.effect, Pack.config_ns, hnone]
    rfl

/-- The program was taken up again, and has stopped or ended. -/
def Resumed (p : Pack) (bs : BreakpointMap) (others : List Entity) (x : Executor) (n : Nat)
    (t : List Event) (w w' : World) : Prop :=
  ∃ w₀, w₀.record = w.record ∧
    (Paused p bs others x n w₀ w' t ∨ Ended p others w' ∧ Follows w₀ w' t)

/-- A function that the program stopped in: what is left of it from the position of the stop on. -/
structure StoppedIn (p : Pack) (bs : BreakpointMap) (x : Executor) (n : Nat) (t : List Event)
    (f : Function) (q : Position) (fr : CallFrame) (frs : List CallFrame) : Prop where
  exists_rest : ∃ ss stack terminator before, Executing p bs f ss stack fr frs ∧
    f.segments (bs.of f.name) = before ++ .cut q terminator :: ss ∧ terminator.isResumable = true ∧
    Remaining p bs x n ((f, ss) :: stack) t
  suspended : fr.suspended = true

/-- The function that the program stopped in is one of the datapack. -/
theorem StoppedIn.function (h : StoppedIn p bs x n t f q fr frs) : p.function? f.name = some f := by
  obtain ⟨_, _, _, _, hexecuting, -⟩ := h.exists_rest
  exact hexecuting.function

/-- The function goes on at the position of the marker. -/
theorem AtMarker.completes_resume (hp : p.WellFormed) (hsimulates : Simulates p bs others x n)
    (hw : AtMarker p others (markerTags f.name q) (fr :: frs) w)
    (hunselected : Unselected p.ns others)
    (hgoing : w.scores "break" .global = some 0)
    (hanchor : ∀ n, w.scores "anchor" .global = some n → n ≤ 1)
    (h : StoppedIn p bs x n t f q fr frs) :
    Completes p.config (units p bs) [.function (.of f.name .resume)] x w
      (Resumed p bs others x n t w) := by
  obtain ⟨ss, stack, terminator, before, hexecuting, hcut, hresumable, hremaining⟩ := h.exists_rest
  have hmem := Pack.mem_of_function? hexecuting.function
  have hvalid : f.name.Valid := hp.valid _ (List.mem_map_of_mem (f := Prod.fst) hmem)
  have hnumbered : f.Numbered := hp.functions.numbered _ hmem
  have hlines : Units.lines? (units p bs) (.of f.name .resume) =
      some (resume f (split f.lines (bs.of f.name))) :=
    hp.lines?_function bs hexecuting.function (by simp [functionUnits])
  have htarget : q ∈ resumeTargets (split f.lines (bs.of f.name)) :=
    Function.mem_resumeTargets_iff.mpr ⟨terminator, hresumable, by simp [hcut]⟩
  have hnodup := hnumbered.nodup_resumeTargets (bs.of f.name)
  obtain ⟨front, back, htargets⟩ := List.append_of_mem htarget
  rw [htargets] at hnodup
  rw [resume, htargets] at hlines
  -- The number of the position is found and the marker removed; then the position is entered.
  refine .function hlines (.append (.append (.append (.setVariable ?_))))
  refine (hw.setGlobal _ _).completes_find hvalid hnodup ?_
  refine ((hw.setGlobal _ _).setGlobal _ _).kill (by simp) hunselected
    (by simpa +decide using hgoing)
    (fun n hn => hanchor n (by simpa +decide using hn))
    fun w₁ hw₁ hfollows => ?_
  have hposition : w₁.scores "resume_position" .global = some (front.length : Int) := by
    rw [hfollows.resumePosition]
    simp
  refine .runPosition hposition ?_
  have hexecuting' : Executing p bs f (.cut q terminator :: ss) stack fr frs :=
    { hexecuting with within := ⟨before, hcut⟩ }
  refine (hsimulates.next hp hexecuting' hresumable hremaining hw₁).mono fun w' h' => ?_
  have hrecord : w₁.record = w.record := by simpa using hfollows.record
  have hresumed : Paused p bs others x n w₁ w' t ∨ Ended p others w' ∧ Follows w₁ w' t := by
    simpa [Outcome, h.suspended] using h'
  have hkept : w'.scores "resume_position" .global = w₁.scores "resume_position" .global := by
    rcases hresumed with hpaused | ⟨-, hfollows'⟩
    · cases hpaused with
      | intro _ _ _ _ _ _ _ hfollows' => exact hfollows'.resumePosition
    · exact hfollows'.resumePosition
  exact ⟨hkept.trans hposition, w₁, hrecord, hresumed⟩

/-! ### Resuming the program -/

/-- Where the program has stopped or ended nothing is left to be resumed. -/
theorem Resumed.stopped_or_unmarked (h : Resumed p bs others x n t w w') :
    (∀ y ms, Modifier.executorsOf p.ns w' y (unlessStopped :: ms) = []) ∨
      ∀ e ∈ w'.entities, Tag.breakpoint.text p.ns ∉ e.tags := by
  obtain ⟨w₀, -, hpaused | ⟨hended, -⟩⟩ := h
  · cases hpaused with
    | intro _ _ _ _ _ hstopped _ _ => exact .inl fun _ _ => hstopped.executorsOf_unlessStopped
  · obtain ⟨m, -, hrunning⟩ := hended.running
    exact .inr (hrunning.layout.not_mem_tags (by decide) (by simp))

/-- No function is resumed once the program has stopped or ended. -/
theorem Resumed.effect_dispatch (h : Resumed p bs others x n t w w') (g : ResourceName)
    (call : UnitName → Executor → World → Option World) :
    (Instruction.execute [unlessStopped, .ifEntity (clouds [.breakpoint, .function g])]
      (.function (.of g .resume))).effect p.config call y w' = some w' := by
  have hnone : Modifier.executorsOf p.ns w' y
      [unlessStopped, .ifEntity (clouds [.breakpoint, .function g])] = [] := by
    rcases h.stopped_or_unmarked with hstopped | hunmarked
    · exact hstopped ..
    · have hpicks : ∀ e ∈ w'.entities, (clouds [.breakpoint, .function g]).picks p.ns y e = false :=
        fun e he => Bool.eq_false_iff.mpr fun hp =>
          hunmarked e he ((Target.picks_clouds.mp hp).2 _ List.mem_cons_self)
      rw [unlessStopped, Modifier.executorsOf_unlessScore,
        World.executorsOf_ifEntity_neg rfl hpicks, ite_self]
  simp [hnone]

/-- Of the functions up to that of the marker only that of the marker is found. -/
theorem AtMarker.executorsOf_dispatch {f g : ResourceName} (hf : f.Valid) (hg : g.Valid)
    (hle : f.compare g ≠ .lt) (hw : AtMarker p others (markerTags f q) frames w)
    (hgoing : w.scores "break" .global = some 0) :
    Modifier.executorsOf p.ns w x [unlessStopped, .ifEntity (clouds [.breakpoint, .function g])] =
      if g = f then [x] else [] := by
  have hrunning : w.scoreIn p.ns x .stopped (.exactly 1) = false := by
    simp [Score.stopped, hgoing]
  rw [unlessStopped, Modifier.executorsOf_unlessScore, hrunning, if_neg (by simp)]
  refine hw.executorsOf_ifMarker (by simp) _ ⟨?_, fun hgf => ⟨.function f, by simp, by rw [hgf]⟩⟩
  rintro ⟨tag, htag, htext⟩
  simp only [markerTags, List.mem_cons, List.not_mem_nil, or_false] at htag
  rcases htag with rfl | rfl | rfl | rfl
  · cases Tag.text_fixed_inj (by decide) htext.symm
  · cases Tag.text_fixed_inj (by decide) htext.symm
  · exact (Tag.text_function_inj hf hg htext).symm
  · exact absurd (Tag.compare_of_text_function_eq_position hf hg htext.symm) hle

/-- The function of the marker goes on. -/
theorem AtMarker.completes_resumeDispatch (hp : p.WellFormed)
    (hsimulates : Simulates p bs others x n)
    (hw : AtMarker p (selected p.ns x others) (markerTags f.name q) (fr :: frs) w)
    (hunselected : Unselected p.ns others) (hgoing : w.scores "break" .global = some 0)
    (hanchor : ∀ n, w.scores "anchor" .global = some n → n ≤ 1)
    (h : StoppedIn p bs x n t f q fr frs) :
    Completes p.config (units p bs) [.function .resumeDispatch] x w
      (Resumed p bs others x n t w) := by
  have hlines : Units.lines? (units p bs) .resumeDispatch = some (resumeDispatch p) :=
    hp.lines?_global bs (by simp [globalUnits])
  refine .function hlines (.cons (.removeTag hw.nodup rfl ?_))
  have hw₁ := hw.unselect (y := x) (by simp) hunselected
  have hmem : f.name ∈ p.names :=
    List.mem_map_of_mem (f := Prod.fst) (Pack.mem_of_function? h.function)
  obtain ⟨before, after, hnames⟩ := List.append_of_mem hmem
  have hsorted := hp.sorted_names
  have hvalid := hp.valid
  rw [hnames] at hsorted hvalid ⊢
  rw [List.map_append, List.map_cons]
  have hf := hvalid f.name (by simp)
  refine .append (.skip_all (fun i hi call => ?_) (.cons (.execute
    ((hw₁.executorsOf_dispatch hf hf (by simp) hgoing).trans (if_pos rfl))
    ((hw₁.completes_resume hp hsimulates hunselected hgoing hanchor h).mono fun w' h' => ?_))))
  · obtain ⟨g, hg, rfl⟩ := List.mem_map.mp hi
    have hlt := (List.pairwise_append.mp hsorted).2.2 g hg _ List.mem_cons_self
    have hne : g ≠ f.name := by
      rintro rfl
      simp at hlt
    have := hw₁.executorsOf_dispatch (x := x) hf (hvalid g (List.mem_append_left _ hg))
      (by simp [Std.OrientedCmp.gt_of_lt hlt]) hgoing
    simp [this, hne]
  · refine .skip_all (fun i hi call => ?_) h'
    obtain ⟨g, -, rfl⟩ := List.mem_map.mp hi
    exact h'.effect_dispatch g call

/-- The place of the marker. -/
def here : List Modifier := [.at (oneCloud .breakpoint), .rotatedAs (oneCloud .breakpoint)]

/-- The function of the marker is resumed at the place of the marker. -/
def dispatchHere (ms : List Modifier) (a : Argument.Anchor) : Instruction :=
  .execute (ms ++ here ++ [.anchored a]) (.function .resumeDispatch)

/-- Nothing is dispatched once the program has stopped or ended. -/
theorem Resumed.executorsOf_here (h : Resumed p bs others x n t w w') (ms : List Modifier)
    (a : Argument.Anchor) :
    Modifier.executorsOf p.ns w' y (unlessStopped :: ms ++ here ++ [.anchored a]) = [] := by
  rcases h.stopped_or_unmarked with hstopped | hunmarked
  · exact hstopped ..
  · have hnone : ∀ y, w'.select p.ns y (oneCloud .breakpoint) = [] := fun y => by
      have : w'.entities.filter ((clouds [.breakpoint]).picks p.ns y) = [] :=
        List.filter_eq_nil_iff.mpr fun e he hp =>
          hunmarked e he ((Target.picks_clouds.mp hp).2 _ List.mem_cons_self)
      rw [World.select_oneCloud, this]
      rfl
    rw [List.append_assoc, Modifier.executorsOf_append, List.flatMap_eq_nil_iff]
    intro y _
    simp [here, Modifier.executorsOf_cons, Modifier.executors, hnone]

section

variable (hw : AtMarker p (selected p.ns x others) tags frames w) (htags : .selectedEntity ∉ tags)
  (hx : ∀ i, x = some i → i ∈ others.map (·.id)) (hunselected : Unselected p.ns others)

include hw htags hx hunselected

/-- The entity that was executing at a stop is the one that is marked. -/
theorem AtMarker.ids_selected (one : Bool) :
    (w.entities.filter ((selectedEntity one).picks p.ns y)).map (·.id) = x.toList := by
  obtain ⟨m, es, hentities, hcloud, hm, hid, hlayout⟩ := hw.layout
  rw [hentities, List.filter_cons_of_neg]
  · exact hlayout.ids_selected hx hunselected
  · rw [Target.picks_selectedEntity, hm]
    rintro ⟨tag, htag, htext⟩
    exact htags (Tag.text_fixed_inj (by decide) htext ▸ htag)

/-- Who goes on: the entity that was executing at the stop, if there was one. -/
theorem AtMarker.executorsOf_selected :
    Modifier.executorsOf p.ns w y [.as (selectedEntity true)] = x.toList.map some ∧
      Modifier.executorsOf p.ns w y [.unlessEntity (selectedEntity false)] =
        if x.isNone then [y] else [] := by
  have hone : ∀ m : Modifier, Modifier.executorsOf p.ns w y [m] = m.executors p.ns w y :=
    fun m => by
    simp [Modifier.executorsOf_cons]
  simp only [hone]
  constructor
  · have hids := hw.ids_selected (y := y) htags hx hunselected true
    have hselect : w.select p.ns y (selectedEntity true) =
        (w.entities.filter ((selectedEntity true).picks p.ns y)).take 1 := rfl
    rw [Modifier.executors, hselect, ← hids, List.map_map]
    refine congrArg _ (List.take_of_length_le ?_)
    have hlength := congrArg List.length hids
    rw [List.length_map] at hlength
    rw [hlength]
    cases x <;> simp
  · have hids := hw.ids_selected (y := y) htags hx hunselected false
    have hselect : w.select p.ns y (selectedEntity false) =
        w.entities.filter ((selectedEntity false).picks p.ns y) := World.select_eq_filter rfl
    rw [Modifier.executors, hselect]
    cases x with
    | none =>
      rw [Option.toList_none, List.map_eq_nil_iff] at hids
      simp [hids]
    | some i =>
      have : w.entities.filter ((selectedEntity false).picks p.ns y) ≠ [] := fun h => by
        simp [h] at hids
      simp [this]

end

/-- What follows the place of the marker is executed as what precedes it. -/
theorem AtMarker.executorsOf_here (hw : AtMarker p others tags frames w)
    (htags : .breakpoint ∈ tags) (ms : List Modifier) (a : Argument.Anchor) :
    Modifier.executorsOf p.ns w y (ms ++ here ++ [.anchored a]) =
      Modifier.executorsOf p.ns w y ms := by
  have hhere : ∀ y, Modifier.executorsOf p.ns w y
      [.at (oneCloud .breakpoint), .rotatedAs (oneCloud .breakpoint), .anchored a] = [y] :=
        fun y => by
    obtain ⟨m, hm, -⟩ := hw.marker (y := y) htags
    exact DatapackDebug.executorsOf_here hm a
  rw [List.append_assoc, Modifier.executorsOf_append]
  simp only [here, List.cons_append, List.nil_append, hhere]
  exact List.flatMap_singleton' _

/-- The anchor is that of the innermost frame. -/
theorem AtMarker.anchorOfFrame (hw : AtMarker p others tags (fr :: frs) w)
    (htags : .functionCall ∉ tags) (hQ : ∀ a ≤ 1, Q (w.setVariable "anchor" .global a)) :
    Completes p.config us [.execute asFrame (.copyScore .anchor (scoreOf .self .anchor))]
      x w Q := by
  obtain ⟨m, es, hentities, hcloud, hm, hid, hlayout⟩ := hw.layout
  obtain ⟨e, rest, rfl, hshown, -, hrest⟩ := hlayout.top
  have hmarker : Tag.functionCall.text p.ns ∉ m.tags := by
    rw [hm]
    rintro ⟨tag, htag, htext⟩
    exact htags (Tag.text_fixed_inj (by decide) htext ▸ htag)
  have hpicks : (clouds [.functionCall]).picks p.ns x e = true :=
    (hshown.picks_clouds (by decide)).mpr (by simp)
  have hexecutors : Modifier.executorsOf p.ns w x asFrame = _ := World.executorsOf_frame
    (show w.entities = [m] ++ e :: rest from hentities) hw.nodup hw.depth (by simpa using hmarker)
    hshown.depth hrest
  obtain ⟨a, ha, hle⟩ := hshown.anchor
  have hscore : w.score p.ns (some e.id) (scoreOf .self .anchor) = some a := by
    have he : e ∈ w.entities := by simp [hentities]
    simp [World.score, scoreOf, World.select_self hw.nodup he, Entity.score, ha]
  refine .execute (hexecutors.trans (if_pos hpicks)) (.of_effect (fun _ => ?_) (hQ a hle))
  rw [Instruction.effect, Pack.config_ns, hscore]
  rfl

/-- The calls of the dispatcher: for both anchors, as the entity that was executing at the stop, or
    as none if there was none. -/
def dispatches : List Instruction :=
  [dispatchHere [.ifScore .anchor (.exactly 1), .as (selectedEntity true)] .eyes,
    dispatchHere [unlessStopped, .ifScore .anchor (.exactly 1),
      .unlessEntity (selectedEntity false)] .eyes,
    dispatchHere [unlessStopped, .unlessScore .anchor (.exactly 1),
      .as (selectedEntity true)] .feet,
    dispatchHere [unlessStopped, .unlessScore .anchor (.exactly 1),
      .unlessEntity (selectedEntity false)] .feet]

/-- The dispatcher is called once, as whoever was executing at the stop, if calls after that find
    that the program has stopped or ended. -/
theorem AtMarker.completes_dispatches (hx : ∀ i, x = some i → i ∈ others.map (·.id))
    (hw : AtMarker p (selected p.ns x others) (markerTags f.name q) frames w)
    (hunselected : Unselected p.ns others)
    (hgoing : w.scores "break" .global = some 0)
    (hcall : Completes p.config us [.function .resumeDispatch] x w Q)
    (hafter : ∀ w', Q w' → ∀ (ms : List Modifier) a,
      Modifier.executorsOf p.ns w' none (unlessStopped :: ms ++ here ++ [.anchored a]) = []) :
    Completes p.config us dispatches none w Q := by
  have hmarker : Tag.breakpoint ∈ markerTags f.name q := by simp
  have hstopped : w.scoreIn p.ns none .stopped (.exactly 1) = false := by
    simp [Score.stopped, hgoing]
  obtain ⟨has, hunless⟩ :=
    hw.executorsOf_selected (y := none) (by simp) hx hunselected
  -- Of the four calls the one for the anchor and for whoever was executing goes on; those before it
  -- are not made, and neither are those after it.
  have hgo : ∀ ms a, Modifier.executorsOf p.ns w none ms = [x] →
      Completes p.config us [dispatchHere ms a] none w Q :=
    fun ms a hms => .execute ((hw.executorsOf_here hmarker ms a).trans hms) hcall
  have hpass : ∀ ms a Q, Modifier.executorsOf p.ns w none ms = [] → Q w →
      Completes p.config us [dispatchHere ms a] none w Q :=
    fun ms a Q hms => .execute_skip ((hw.executorsOf_here hmarker ms a).trans hms)
  have hdone : ∀ ms a w', Q w' →
      Completes p.config us [dispatchHere (unlessStopped :: ms) a] none w' Q :=
    fun ms a w' h' => .execute_skip (hafter w' h' ms a) h'
  cases heyes : w.scoreIn p.ns none .anchor (.exactly 1) with
  | true =>
    cases x with
    | some i =>
      refine .cons ((hgo _ _ ?_).mono fun w' h' => .cons ((hdone _ _ w' h').mono fun w' h' => .cons
        ((hdone _ _ w' h').mono fun w' h' => hdone _ _ w' h')))
      simp [heyes, has]
    | none =>
      refine .cons (hpass _ _ _ ?_ (.cons ((hgo _ _ ?_).mono fun w' h' => .cons
        ((hdone _ _ w' h').mono fun w' h' => hdone _ _ w' h'))))
      · simp [heyes, has]
      · simp [unlessStopped, hstopped, heyes, hunless]
  | false =>
    refine .cons (hpass _ _ _ ?_ (.cons (hpass _ _ _ ?_ ?_)))
    · simp [heyes]
    · simp [unlessStopped, heyes]
    · cases x with
      | some i =>
        refine .cons ((hgo _ _ ?_).mono fun w' h' => hdone _ _ w' h')
        simp [unlessStopped, hstopped, heyes, has]
      | none =>
        refine .cons (hpass _ _ _ ?_ (hgo _ _ ?_))
        · simp [unlessStopped, hstopped, heyes, has]
        · simp [unlessStopped, hstopped, heyes, hunless]

/-- The program is taken up again, as whoever was executing at the stop. -/
theorem AtMarker.completes_resumeSelf (hp : p.WellFormed) (hsimulates : Simulates p bs others x n)
    (hx : ∀ i, x = some i → i ∈ others.map (·.id))
    (hw : AtMarker p (selected p.ns x others) (markerTags f.name q) (fr :: frs) w)
    (hunselected : Unselected p.ns others)
    (h : StoppedIn p bs x n t f q fr frs) :
    Completes p.config (units p bs) [.function .resumeSelf] none w
      (Resumed p bs others x n t w) := by
  have hlines : Units.lines? (units p bs) .resumeSelf = some resumeSelf :=
    hp.lines?_global bs (by simp [globalUnits])
  refine .function hlines (.cons (.setVariable (.cons (.setVariable (.cons ?_)))))
  refine ((hw.setGlobal _ _).setGlobal _ _).anchorOfFrame (by simp) fun a ha => ?_
  have hw₁ := ((hw.setGlobal "break" 0).setGlobal "anchor" 0).setGlobal "anchor" a
  obtain ⟨w₁, hw₁_eq⟩ : ∃ w₁, w₁ = ((w.setVariable "break" .global 0).setVariable "anchor" .global
    0).setVariable "anchor" .global a := ⟨_, rfl⟩
  have hgoing : w₁.scores "break" .global = some 0 := by
    simp +decide [hw₁_eq]
  have hanchor : w₁.scores "anchor" .global = some a := by simp [hw₁_eq]
  have hrecord : w₁.record = w.record := by simp [hw₁_eq]
  rw [← hw₁_eq] at hw₁ ⊢
  have hcall : Completes p.config (units p bs) [.function .resumeDispatch] x w₁
      (Resumed p bs others x n t w) := by
    refine (hw₁.completes_resumeDispatch hp hsimulates hunselected hgoing ?_ h).mono ?_
    · intro m hm
      rw [hanchor] at hm
      exact Option.some.inj hm ▸ ha
    · rintro w' ⟨w₀, hrecord₀, h'⟩
      exact ⟨w₀, hrecord₀.trans hrecord, h'⟩
  exact hw₁.completes_dispatches hx hunselected hgoing hcall fun w' h' ms a =>
    h'.executorsOf_here ms a

/-! ### The log -/

/-- The block at the position of the log tags the first entity with a tag, and the log tells. -/
theorem World.tick_addTag {c : PackConfig} {tag tag' : Tag} {m : Entity} {es : List Entity}
    (hblock : w.block = some (.addTag (oneCloud tag) tag')) (hentities : w.entities = m :: es)
    (hid : m.id ∉ es.map (·.id)) (hpicks : (clouds [tag]).picks c.ns none m = true) :
    w.tick c = { w with
      block := none
      entities := m.addTag (tag'.text c.ns) :: es
      record := w.record ++ [.report (tag'.text c.ns)] } := by
  have hselect : w.select c.ns none (oneCloud tag) = [m] := by
    rw [World.select_oneCloud, hentities, List.filter_cons_of_pos hpicks]
    rfl
  have hes : ∀ e ∈ es, e.id ≠ m.id := fun e he heq => hid (heq ▸ List.mem_map_of_mem he)
  have hupdate : es.map (fun e => if e.id = m.id then e.addTag (tag'.text c.ns) else e) = es := by
    rw [List.map_congr_left (g := id) fun e he => by simp [hes e he], List.map_id]
  simp [World.tick, hblock, hselect, World.update, World.note, hentities, hupdate]

/-- The log tells the position of a stop, and the marker is tagged with it. -/
theorem Stopped.tick {f : ResourceName} (hw : Stopped p others x f q frames w) :
    AtMarker p (selected p.ns x others) (markerTags f q) frames (w.tick p.config) ∧
      (w.tick p.config).isStopped = true ∧
      (w.tick p.config).record = w.record ++ [stopEvent p.ns f q] := by
  obtain ⟨m, es, hentities, hcloud, hm, hid, hlayout⟩ := hw.layout
  have hpicks : (clouds [.breakpoint]).picks p.ns none m = true :=
    Target.picks_clouds.mpr ⟨hcloud, by simp [hm]⟩
  rw [World.tick_addTag hw.block hentities hid hpicks]
  refine ⟨⟨⟨_, es, rfl, ?_, fun t => ?_, by simpa using hid, hlayout⟩, fun e he => ?_, hw.depth,
    hw.valid⟩, by simp [World.isStopped, hw.stopped], rfl⟩
  · unfold Entity.addTag
    split <;> exact hcloud
  · rw [Entity.mem_tags_addTag, hm]
    simp only [markerTags, List.mem_cons, List.not_mem_nil, or_false, or_and_right, exists_or,
      exists_eq_left, Pack.config_ns]
    grind
  · rcases List.mem_cons.mp he with rfl | he
    · simpa using hw.fresh m (hentities ▸ List.mem_cons_self)
    · exact hw.fresh e (hentities ▸ List.mem_cons_of_mem _ he)

/-- The log tells the end of the program. -/
theorem Ended.tick (hw : Ended p others w) :
    (∃ others', Running p others' [] (w.tick p.config)) ∧
      (w.tick p.config).record = w.record ++ [.report (Tag.exit.text p.ns)] := by
  obtain ⟨m, hpicks, hrunning⟩ := hw.running
  have hentities := hrunning.layout.eq_others
  have hids := hrunning.layout.nodup
  rw [hentities] at hids
  rw [World.tick_addTag hw.block hentities (List.nodup_cons.mp hids).1 hpicks]
  refine ⟨⟨_, .nil (by simpa using hids) fun e he => ?_, fun e he => ?_, fun e he => ?_,
    hrunning.going, hrunning.depth, hrunning.anchor, hrunning.valid⟩, rfl⟩
  · rcases List.mem_cons.mp he with rfl | he
    · intro tag htag hmem
      rcases Entity.mem_tags_addTag.mp hmem with htext | hmem
      · cases Tag.text_fixed_inj (by decide) htext
        revert htag
        decide
      · exact hrunning.layout.idle m List.mem_cons_self tag htag hmem
    · exact hrunning.layout.idle e (List.mem_cons_of_mem _ he)
  · rcases List.mem_cons.mp he with rfl | he
    · simpa using hrunning.fresh m (hentities ▸ List.mem_cons_self)
    · exact hrunning.fresh e (hentities ▸ List.mem_cons_of_mem _ he)
  · rcases List.mem_cons.mp he with rfl | he
    · rw [Entity.mem_tags_addTag, not_or]
      refine ⟨fun htext => ?_, hrunning.unselected m List.mem_cons_self⟩
      cases Tag.text_fixed_inj (by decide) htext
    · exact hrunning.unselected e (List.mem_cons_of_mem _ he)

/-! ### Whole runs -/

/-- A function that completes ends within every bound that is large enough. -/
theorem Completes.exists_run {u : UnitName} (h : Completes p.config us [.function u] x w Q) :
    ∃ w', Q w' ∧ ∃ n, ∀ m ≥ n, World.run p.config us m u x w = some w' := by
  obtain ⟨w', hQ, n, hn⟩ := h
  refine ⟨w', hQ, n, fun m hm => ?_⟩
  simpa [World.perform] using hn m hm

/-- A program that ran until it stopped or ended, and is taken up again after each stop, has the
    events that are left. -/
theorem Resumed.finishes (hp : p.WellFormed) (hsimulates : ∀ n, Simulates p bs others x n)
    (hx : ∀ i, x = some i → i ∈ others.map (·.id)) (h : Resumed p bs others x n t w w') :
    ∃ w'' k, (∀ m ≥ k, World.resumeAll p.config (units p bs) m (w'.tick p.config) = some w'') ∧
      w''.record = w.record ++ t ++ [.report (Tag.exit.text p.ns)] ∧
      ∃ others', Running p others' [] w'' := by
  -- Between two stops the program takes at least one of the steps that are left.
  induction n using Nat.strong_induction_on generalizing t w w' with
  | _ n ih =>
    obtain ⟨w₀, hrecord₀, hpaused | ⟨hended, hfollows⟩⟩ := h
    · cases hpaused with
      | @intro f ss stack fr frs q terminator before t₁ t₂ n' hlt hcut hresumable hexecuting
          hsuspended hstopped hremaining hfollows =>
        obtain ⟨hmarker, hbreak, hrecord⟩ := hstopped.tick
        have hstoppedIn : StoppedIn p bs x n' t₂ f q fr frs :=
          ⟨⟨ss, stack, terminator, before, hexecuting, hcut, hresumable, hremaining⟩, hsuspended⟩
        obtain ⟨w₁, hresumed, k₁, hk₁⟩ := (hmarker.completes_resumeSelf hp (hsimulates n') hx
          hstopped.unselected hstoppedIn).exists_run
        obtain ⟨w₂, k₂, hk₂, hrecord₂, hrunning⟩ := ih n' hlt hresumed
        refine ⟨w₂, max k₁ k₂ + 1, fun m hm => ?_, ?_, hrunning⟩
        · obtain ⟨m, rfl⟩ : ∃ m', m = m' + 1 := ⟨m - 1, by omega⟩
          rw [World.resumeAll, if_pos hbreak, hk₁ m (by omega), Option.bind_some, hk₂ m (by omega)]
        · rw [hrecord₂, hrecord, hfollows.record, hrecord₀]
          simp
    · obtain ⟨hrunning, hrecord⟩ := hended.tick
      refine ⟨w'.tick p.config, 1, fun m hm => ?_, ?_, hrunning⟩
      · obtain ⟨m, rfl⟩ := Nat.exists_eq_add_of_le' hm
        obtain ⟨others', hrunning⟩ := hrunning
        simp [World.resumeAll, World.isStopped, hrunning.going]
      · rw [hrecord, hfollows.record, hrecord₀]

/-- A function that is started in a world where no program runs, and taken up again after each stop,
    executes the commands of the source and stops where the source does, with the same executor and
    in the same order.  At its end, which the log tells, no program runs in the world. -/
theorem debug_simulates_source (hp : p.WellFormed) (hplain : p.PlainCalls)
    (hsteps : bs.StepsByDepth) (hf : p.function? f.name = some f) (hw : Running p w.entities [] w)
    (hx : ∀ i, x = some i → i ∈ w.entities.map (·.id)) (hsource : SourceRun p bs x f 1 f.lines t) :
    ∃ w' bound, (∀ m ≥ bound, World.debug p.config (units p bs) m f.name x w = some w') ∧
      w'.record = w.record ++ t ++ [.report (Tag.exit.text p.ns)] ∧
      Running p w'.entities [] w' := by
  have hsimulates := simulates hp hplain hsteps hx
  obtain ⟨n, hremaining⟩ : ∃ n, Remaining p bs x n [(f, f.segments (bs.of f.name))] t := by
    obtain ⟨n, hremaining⟩ := hsource.remaining rfl (.return .ended)
    exact ⟨n, by simpa [Function.segments] using hremaining⟩
  obtain ⟨w₁, houtcome, k₁, hk₁⟩ := ((hsimulates n).start hp hf .nil hremaining hw).exists_run
  have hresumed : Resumed p bs w.entities x n t w w₁ := ⟨w, rfl, by simpa [Outcome] using houtcome⟩
  obtain ⟨w₂, k₂, hk₂, hrecord, others', hrunning⟩ := hresumed.finishes hp hsimulates hx
  refine ⟨w₂, max k₁ k₂, fun m hm => ?_, hrecord, ?_⟩
  · rw [World.debug, hk₁ m (by omega), Option.bind_some, hk₂ m (by omega)]
  · exact hrunning.layout.eq_others ▸ hrunning

end

/-- A function that is called. -/
def innerFunction : Function where
  name := ⟨"t", "inner"⟩
  path := "inner.mcfunction"
  lines := [⟨1, "say a", .other {} none⟩]

/-- A function that calls it. -/
def outerFunction : Function where
  name := ⟨"t", "outer"⟩
  path := "outer.mcfunction"
  lines := [⟨1, "function t:inner", .call ⟨innerFunction.name, none, 0, {}⟩⟩,
    ⟨2, "# breakpoint", .breakpoint⟩, ⟨3, "say b", .other {} none⟩]

/-- A datapack of two functions, one of which calls the other. -/
def nestedPack : Pack where
  config := {}
  functions := [(innerFunction.name, innerFunction), (outerFunction.name, outerFunction)]

/-- A breakpoint in the function that is called, and one for a step over the call. -/
def nestedBreakpoints : BreakpointMap :=
  [(innerFunction.name, [(⟨1, .breakpoint⟩, ⟨.normal, []⟩)]),
    (outerFunction.name, [(⟨1, .afterFunction⟩, ⟨.step, Session.stepCondition 1⟩)])]

/-- A world with one entity, in which no program runs. -/
def quietWorld : World where
  entities := [⟨0, false, [], none, none⟩]
  nextId := 1
  scores _ o := if o = .valid then some 1 else some 0
  block := none
  record := []

/-- A run with a stop in a call, one after it and one at a line that says so. -/
theorem nestedPack_debug :
    ∃ w' bound, (∀ m ≥ bound, World.debug nestedPack.config (units nestedPack nestedBreakpoints) m
        outerFunction.name (some 0) quietWorld = some w') ∧
      w'.record = [.report "mcfd+t+inner+1_breakpoint", .command (some 0) "say a",
        .report "mcfd+t+outer+1_after_function", .report "mcfd+t+outer+2_breakpoint",
        .command (some 0) "say b", .report "mcfd_exit"] := by
  have hp : nestedPack.WellFormed := by
    refine ⟨⟨?_, ?_, ?_⟩, ?_⟩
    · unfold SortedAssoc.Sorted; decide
    · decide
    · simp [nestedPack, Function.Numbered, NumberedFrom, outerFunction, innerFunction]
    · simpa [nestedPack, Pack.names] using ⟨rfl, rfl⟩
  have hsteps : nestedBreakpoints.StepsByDepth := by
    refine BreakpointMap.stepsByDepth_of_forall_mem ?_
    simp [nestedBreakpoints]
  have hw : Running nestedPack quietWorld.entities [] quietWorld := by
    refine ⟨.nil (by decide) ?_, by decide, ?_, rfl, rfl, ?_, ?_⟩
    · unfold Entity.Idle; decide
    · decide
    · simp [quietWorld]
    · decide
  have hinner : SourceRun nestedPack nestedBreakpoints (some 0) innerFunction 2
      [⟨1, "say a", .other {} none⟩] _ := .command rfl (by simp) .done
  have houter : SourceRun nestedPack nestedBreakpoints (some 0) outerFunction 1
      [⟨1, "function t:inner", .call ⟨innerFunction.name, none, 0, {}⟩⟩,
        ⟨2, "# breakpoint", .breakpoint⟩, ⟨3, "say b", .other {} none⟩] _ :=
    .inside rfl rfl hinner (.breakpoint rfl (.command rfl (by simp) .done))
  obtain ⟨w', bound, hdebug, hrecord, -⟩ := debug_simulates_source hp
    (by unfold Pack.PlainCalls; decide) hsteps rfl hw (by decide) houter
  exact ⟨w', bound, hdebug, hrecord.trans (by decide +kernel)⟩

end DatapackDebug
