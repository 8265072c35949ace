import DatapackDebug.Grammar.Builtin
import DatapackDebug.Proofs.CallLines

namespace DatapackDebug

/-!
# Lines on the schedule

A command on the schedule is edited at its selectors and at the name of its function.  The selectors
stand before the command or after the name, so no two edits meet.

* `separated_targetEdit` — all edits of such a line can be made at once;
* `SourceLine.editedOnSchedule` — the line as it stands in a generated function;
* `edited_schedule` — it schedules the generated function;
* `edits_made_at_once` — edits in general, and those of lines on the schedule.
-/

variable {g : Grammar} {ns text : Text} {functions : Functions} {l : SourceLine} {s : Schedule}

/-- The edit that puts the generated function in place of the scheduled one. -/
def Schedule.targetEdit (ns : Text) (s : Schedule) : Edit where
  offset := s.target
  remove := s.targetLength
  insert := UnitName.text ns (.of s.function .scheduled)

theorem scheduleEdits_of_mem (h : s.function ∈ functions.map (·.1)) :
    scheduleEdits ns functions s = [s.targetEdit ns] := by
  have hsome : (SortedAssoc.find? ResourceName.compare s.function functions).isSome = true :=
    SortedAssoc.isSome_find?_iff.mpr h
  obtain ⟨f, hf⟩ := Option.isSome_iff_exists.mp hsome
  rw [scheduleEdits, hf]
  rfl

theorem scheduleEdits_of_not_mem (h : s.function ∉ functions.map (·.1)) :
    scheduleEdits ns functions s = [] := by
  have hnone : SortedAssoc.find? ResourceName.compare s.function functions = none :=
    Option.not_isSome_iff_eq_none.mp fun hsome => h (SortedAssoc.isSome_find?_iff.mp hsome)
  rw [scheduleEdits, hnone]

/-- The selectors of a line on the schedule are those of its command. -/
theorem exists_parse_of_schedule (h : g.line text = .schedule s) :
    ∃ nodes, g.parse text = .ok nodes ∧ s.mentions = Mentions.ofNodes nodes := by
  obtain ⟨nodes, hparse, hline⟩ := Grammar.exists_parse_of_line (.inr ⟨s, h⟩)
  obtain ⟨_, _, _, _, _, _, -, hmentions, -⟩ := of_ofCommand_eq_schedule (hline.trans h)
  exact ⟨nodes, hparse, hmentions⟩

/-- What hides entities from the selectors of the line. -/
theorem separated_hideEdits_of_schedule (h : g.line text = .schedule s) :
    Edit.Separated text (hideEdits ns text s.mentions.selectors) := by
  obtain ⟨nodes, hparse, hmentions⟩ := exists_parse_of_schedule h
  rw [hmentions]
  exact separated_hideEdits (Grammar.spells_of_parse hparse).pairwise_selectors
    fun o ho => Grammar.head?_of_mem_selectors hparse ho

/-- An edit of a selector is in front of the command, or behind the first byte after the name. -/
theorem offset_of_mem_hideEdits {front rest : Text} {e : Edit}
    (hselectors : ∀ o ∈ s.mentions.selectors, Spells.SelectorIn front 0 o ∨
      s.target + s.targetLength < o)
    (he : e ∈ hideEdits ns (front ++ rest) s.mentions.selectors) :
    e.offset ≤ front.length ∨ s.target + s.targetLength < e.offset := by
  obtain ⟨o, ho, he⟩ := List.mem_filterMap.mp he
  rcases hselectors o ho with hin | hafter
  · exact .inl (offset_le_of_selectorIn hin he)
  · obtain ⟨-, _, -, hoffset⟩ := of_hideEdit?_eq_some he
    omega

/-- No edit of a selector meets the one of the name. -/
theorem separated_targetEdit (h : g.line text = .schedule s) :
    Edit.Separated text (s.targetEdit ns :: hideEdits ns text s.mentions.selectors) := by
  obtain ⟨front, name, rest, htext, htarget, hlength, -, hselectors⟩ := schedule_split h
  have hhidden : Edit.Separated text (hideEdits ns text s.mentions.selectors) :=
    separated_hideEdits_of_schedule h
  have hfront := s.operation.length_front_pos
  rw [List.length_append] at htarget
  have hinside : s.target + s.targetLength ≤ text.length := by
    simp only [htext, List.length_append]
    omega
  refine ⟨List.forall_mem_cons.mpr ⟨hinside, hhidden.inside⟩,
    List.pairwise_cons.mpr ⟨fun e he => ?_, hhidden.apart⟩⟩
  have hremove := (of_mem_hideEdits he).1
  rw [htext, List.append_assoc, List.append_assoc] at he
  have hoffset := offset_of_mem_hideEdits hselectors he
  refine Edit.apart_iff.mpr ?_
  simp only [Edit.Before, Schedule.targetEdit]
  omega

/-- A line on the schedule, and the line as it stands in a generated function. -/
structure Schedule.EditedAs (g : Grammar) (ns : Text) (functions : Functions) (text : Text)
    (s : Schedule) (edited : Text) : Prop where
  /-- the name of the function follows the words of the command -/
  target : ∃ front name rest, text = front ++ s.operation.front ++ name ++ rest ∧
    s.target = (front ++ s.operation.front).length ∧ s.targetLength = name.length
  /-- the selectors are those of the command -/
  selectors : ∃ nodes, g.parse text = .ok nodes ∧ s.mentions = Mentions.ofNodes nodes
  /-- each of them that selects all entities gets its exclusion -/
  exclusions : ∀ e, e ∈ hideEdits ns text s.mentions.selectors ↔
    ∃ o ∈ s.mentions.selectors, Excludes ns text o e
  /-- no two edits meet -/
  separated : Edit.Separated text (s.targetEdit ns :: hideEdits ns text s.mentions.selectors)
  /-- a function of the datapack is replaced by the generated one, and all else stays -/
  own : s.function ∈ functions.map (·.1) →
    edited = Edit.atOnce (s.targetEdit ns :: hideEdits ns text s.mentions.selectors) 0 text
  /-- the name of another function stays too -/
  foreign : s.function ∉ functions.map (·.1) →
    edited = Edit.atOnce (hideEdits ns text s.mentions.selectors) 0 text

/-- The edits of a line on the schedule are made at once. -/
theorem SourceLine.editedOnSchedule (hread : l.line = g.line l.text)
    (hline : l.line = .schedule s) : s.EditedAs g ns functions l.text (l.edited ns functions) := by
  have h : g.line l.text = .schedule s := hread.symm.trans hline
  have hedited : l.edited ns functions =
      Edit.apply l.text (hideEdits ns l.text s.mentions.selectors ++
        scheduleEdits ns functions s) := by
    rw [SourceLine.edited, hline]
  obtain ⟨front, name, rest, htext, htarget, hlength, -⟩ := schedule_split h
  refine ⟨⟨front, name, rest, htext, htarget, hlength⟩, exists_parse_of_schedule h, fun e => ?_,
    separated_targetEdit h, fun hown => ?_, fun hforeign => ?_⟩
  · simp only [hideEdits, List.mem_filterMap, hideEdit?_eq_some_iff]
  · rw [hedited, scheduleEdits_of_mem hown]
    exact Edit.apply_eq_atOnce (separated_targetEdit h) (List.perm_append_singleton _ _)
  · rw [hedited, scheduleEdits_of_not_mem hforeign, List.append_nil]
    exact Edit.apply_eq_atOnce (separated_hideEdits_of_schedule h) (.refl _)

/-- The edit that puts the generated function in place of the scheduled one stands between those of
    the selectors before the command and of those after the name. -/
theorem edited_schedule (hread : l.line = g.line l.text) (hline : l.line = .schedule s)
    (hfunction : s.function ∈ functions.map (·.1)) :
    ∃ front rest, l.edited ns functions =
        front ++ s.operation.front ++ UnitName.text ns (.of s.function .scheduled) ++ rest ∧
      (rest.head? = none ∨ rest.head? = some Text.blank) := by
  have h : g.line l.text = .schedule s := hread.symm.trans hline
  have hline : s.EditedAs g ns functions l.text (l.edited ns functions) :=
    l.editedOnSchedule hread hline
  have hedited := hline.own hfunction
  have hapart := (List.pairwise_cons.mp hline.separated.apart).1
  obtain ⟨front, name, rest, htext, htarget, hlength, hhead, hselectors⟩ := schedule_split h
  have htext : l.text = front ++ (s.operation.front ++ (name ++ rest)) := by rw [htext]; simp
  have hhidden : ∀ e ∈ hideEdits ns l.text s.mentions.selectors, e.remove = 0 ∧
      (e.offset ≤ front.length ∨ s.target + s.targetLength < e.offset) := fun e he =>
    ⟨(of_mem_hideEdits he).1, offset_of_mem_hideEdits hselectors (htext ▸ he)⟩
  generalize hideEdits ns l.text s.mentions.selectors = hidden at hedited hapart hhidden
  have hwords := s.operation.length_front_pos
  rw [List.length_append] at htarget
  -- No edit stands within the words of the command.
  have houtside : ∀ e ∈ s.targetEdit ns :: hidden,
      e.offset + e.remove ≤ 0 + front.length ∨
      0 + front.length + s.operation.front.length ≤ e.offset := by
    refine List.forall_mem_cons.mpr ⟨.inr (by simp [Schedule.targetEdit, htarget]), fun e he => ?_⟩
    have := hhidden e he
    omega
  obtain ⟨front', hfront'⟩ := Edit.exists_atOnce_append (s.targetEdit ns :: hidden) 0 front
  have hname : Edit.atOnce (s.targetEdit ns :: hidden) s.target (name ++ rest) =
      UnitName.text ns (.of s.function .scheduled) ++
        Edit.atOnce hidden (s.target + s.targetLength) rest :=
    Edit.atOnce_span hlength.symm hapart rest
  refine ⟨front' ++ Edit.insertedAt (s.targetEdit ns :: hidden) front.length,
    Edit.atOnce hidden (s.target + s.targetLength) rest, ?_, ?_⟩
  · rw [hedited, htext, hfront', Edit.atOnce_append (List.length_pos_iff.mp hwords) houtside,
      Nat.zero_add, ← htarget, hname]
    simp
  · rw [Edit.head?_atOnce (fun e he => ?_) fun e he => ?_]
    · exact hhead
    all_goals
      have := hhidden e he
      omega

/-- Edits that do not meet are made at once, in whatever order they are listed.  So are those of a
    line on the schedule: its selectors leave out the entities of the debugger, a function of the
    datapack is replaced by the generated one, and every other byte stays. -/
theorem edits_made_at_once :
    (∀ (t : Text) (es : List Edit), Edit.Separated t es → ∀ es' : List Edit, es'.Perm es →
      Edit.apply t es' = Edit.atOnce es 0 t) ∧
    ∀ (g : Grammar) (ns : Text) (functions : Functions) (l : SourceLine) (s : Schedule),
      l.line = g.line l.text → l.line = .schedule s →
      s.EditedAs g ns functions l.text (l.edited ns functions) :=
  ⟨fun _ _ h _ hperm => Edit.apply_eq_atOnce h hperm,
    fun _ _ _ _ _ hread hline => SourceLine.editedOnSchedule hread hline⟩

/-- What a line with two selectors does to the schedule. -/
def delayedCall : Schedule :=
  ⟨.replace ⟨1, .ticks⟩, ⟨"test", "later"⟩, 49, 10, ⟨[11, 24], []⟩⟩

/-- A line with two selectors that schedules a function. -/
def delayedLine : SourceLine :=
  ⟨1, "execute as @e[tag=a] at @e run schedule function test:later 1t", .schedule delayedCall⟩

theorem delayedLine_read : delayedLine.line = Grammar.builtin.line delayedLine.text := by
  decide +kernel

/-- The function of the line, in a datapack with some others. -/
def delayedPack (others : List ResourceName) : Functions :=
  (⟨"test", "main"⟩, ⟨⟨"test", "main"⟩, [], [delayedLine]⟩) :: others.map fun f => (f, ⟨f, [], []⟩)

/-- Three edits in two orders, and a line whose function is in the datapack. -/
theorem delayedLine_edited :
    Edit.apply "abcdef" [⟨1, 2, "X"⟩, ⟨5, 1, "Z"⟩, ⟨3, 0, "Y"⟩] = Text.ofString "aXYdeZ" ∧
    Edit.apply "abcdef" [⟨3, 0, "Y"⟩, ⟨1, 2, "X"⟩, ⟨5, 1, "Z"⟩] = Text.ofString "aXYdeZ" ∧
    delayedLine.edited "mcfd" (delayedPack [delayedCall.function]) = Text.ofString
      ("execute as @e[tag=!mcfd,tag=a] at @e[tag=!mcfd] run schedule function " ++
        "mcfd:test/later/scheduled 1t") := by
  obtain ⟨hedits, hlines⟩ := edits_made_at_once
  have hseparated : Edit.Separated "abcdef" [⟨1, 2, "X"⟩, ⟨5, 1, "Z"⟩, ⟨3, 0, "Y"⟩] :=
    ⟨by decide, by simp [Edit.apart_iff, Edit.Before]⟩
  have hline := hlines Grammar.builtin "mcfd" (delayedPack [delayedCall.function]) delayedLine _
    delayedLine_read rfl
  refine ⟨(hedits _ _ hseparated _ (.refl _)).trans (by decide),
    (hedits _ _ hseparated _ ?_).trans (by decide), ?_⟩
  · decide
  · exact (hline.own (by decide)).trans (by decide +kernel)

/-- The name of a function that is not in the datapack stays. -/
theorem foreign_target_stays :
    delayedLine.line = Grammar.builtin.line delayedLine.text ∧
    delayedLine.line = .schedule delayedCall ∧
    delayedCall.mentions.selectors = [11, 24] ∧
    delayedLine.edited "mcfd" (delayedPack []) = Text.ofString
      "execute as @e[tag=!mcfd,tag=a] at @e[tag=!mcfd] run schedule function test:later 1t" ∧
    delayedLine.edited "mcfd" (delayedPack []) ≠
      Edit.atOnce (delayedCall.targetEdit "mcfd" ::
        hideEdits "mcfd" delayedLine.text delayedCall.mentions.selectors) 0 delayedLine.text := by
  have hline : delayedCall.EditedAs Grammar.builtin "mcfd" (delayedPack []) delayedLine.text
      (delayedLine.edited "mcfd" (delayedPack [])) :=
        SourceLine.editedOnSchedule delayedLine_read rfl
  have hedited := hline.foreign (by decide)
  refine ⟨delayedLine_read, rfl, rfl, hedited.trans (by decide +kernel), ?_⟩
  rw [hedited]
  decide +kernel

end DatapackDebug
