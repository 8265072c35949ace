import DatapackDebug.Function.Line
import DatapackDebug.Proofs.CommandDerivation

namespace DatapackDebug

/-!
# Where the parts of a command stand

The literals and arguments of a command follow one another in its line, with one space between them.

* `Spells` — some nodes spell a text from the first byte to the last;
* `Grammar.spells_of_parse` — the nodes of a command spell its line;
* `Spells.append_inv` — what nodes in front spell, and the rest;
* `Grammar.exists_parse_of_line` — calls and commands on the schedule were parsed;
* `schedule_split` — the parts of a command on the schedule.
-/

variable {pos : Nat} {text : Text} {nodes : List CommandNode} {s : Schedule}

/-- The node stands at a position and takes a text. -/
def CommandNode.StandsAt (pos : Nat) (span : Text) : CommandNode → Prop
  | .literal text offset => offset = pos ∧ text = span
  | .argument _ _ offset length => offset = pos ∧ length = span.length
  | .redirect _ => False

/-- The nodes spell a text that stands at a position, with single spaces between them.  Redirects
    take nothing. -/
inductive Spells : Nat → Text → List CommandNode → Prop where
  | last {pos text node} : node.StandsAt pos text → Spells pos text [node]
  | cons {pos text span rest node nodes} : node.StandsAt pos span →
      text = span ++ Text.blank :: rest →
      Spells (pos + span.length + 1) rest nodes → Spells pos text (node :: nodes)
  | redirect {pos text name nodes} : Spells pos text nodes →
      Spells pos text (.redirect name :: nodes)

namespace Grammar

variable {g : Grammar}

/-- An alternative stands where it was tried, and takes the text in front. -/
theorem Takes.standsAt {parent i : Nat} {span : Text} {part : CommandNode}
    (h : g.Takes pos text i part span.length) (hi : i ∈ g.alternatives parent text)
    (hspan : span <+: text) : part.StandsAt pos span := by
  generalize hlength : span.length = length at h
  cases h with
  | literal hkind =>
    refine ⟨rfl, ?_⟩
    have hname := name_of_mem_alternatives hi hkind
    have hprefix : (g.node i).name <+: text := hname ▸ List.takeWhile_prefix _
    have hshort := List.prefix_of_prefix_length_le hprefix hspan (Nat.le_of_eq hlength.symm)
    exact hshort.eq_of_length hlength.symm
  | argument => exact ⟨rfl, hlength.symm⟩

/-- The nodes of a derivation spell its text. -/
theorem Derives.spells {parent : Nat} {ks : List Nat} (h : g.Derives parent pos text ks nodes) :
    Spells pos text nodes := by
  induction h with
  | last hi htakes =>
    exact .last (htakes.standsAt (List.mem_of_getElem? hi) (List.prefix_refl _))
  | step hi htakes htext honward _ ih =>
    refine .cons (htakes.standsAt (List.mem_of_getElem? hi) ⟨_, htext.symm⟩) htext ?_
    cases honward with
    | children | root => exact ih
    | redirect => exact .redirect ih

/-- The nodes of a command spell its line. -/
theorem spells_of_parse {line : Text} (h : g.parse line = .ok nodes) : Spells 0 line nodes := by
  obtain ⟨ks, hderives, -⟩ :=
    exists_first_of_parseChildren (parse_eq_ok_iff.mp h) (Nat.lt_succ_self _)
  exact hderives.spells

end Grammar

/-! ### Nodes in front of others -/

/-- A selector stands where its node stands. -/
theorem CommandNode.StandsAt.eq_of_mem_selectors {o : Nat} {span : Text} {node : CommandNode}
    (h : node.StandsAt pos span) (ho : o ∈ node.mentions.selectors) : o = pos := by
  unfold CommandNode.mentions at ho
  split at ho <;> simp at ho
  all_goals exact ho.trans h.1

namespace Spells

/-- No selector stands before the text that is spelled. -/
theorem le_of_mem_selectors {o : Nat} (h : Spells pos text nodes) {node : CommandNode}
    (hnode : node ∈ nodes) (ho : o ∈ node.mentions.selectors) : pos ≤ o := by
  induction h with
  | last hstands =>
    obtain rfl := List.mem_singleton.mp hnode
    exact Nat.le_of_eq (hstands.eq_of_mem_selectors ho).symm
  | cons hstands _ _ ih =>
    rcases List.mem_cons.mp hnode with rfl | hnode
    · exact Nat.le_of_eq (hstands.eq_of_mem_selectors ho).symm
    · have := ih hnode
      omega
  | redirect _ ih =>
    rcases List.mem_cons.mp hnode with rfl | hnode
    · simp [CommandNode.mentions] at ho
    · exact ih hnode

/-- A part of the text with a space after it, where a selector stands. -/
def SelectorIn (front : Text) (pos o : Nat) : Prop :=
  ∃ before span after, front = before ++ span ++ Text.blank :: after ∧ o = pos + before.length

theorem SelectorIn.append_left {front : Text} {o : Nat} {span : Text}
    (h : SelectorIn front (pos + span.length + 1) o) :
    SelectorIn (span ++ Text.blank :: front) pos o := by
  obtain ⟨before, part, after, rfl, rfl⟩ := h
  exact ⟨span ++ Text.blank :: before, part, after, by simp, by simp; omega⟩

/-- Nodes in front of others spell a beginning of the text, where all their selectors stand. -/
theorem append_inv {before : List CommandNode} (h : Spells pos text (before ++ nodes))
    (hnodes : nodes ≠ []) :
    ∃ front rest, text = front ++ rest ∧ Spells (pos + front.length) rest nodes ∧
      ∀ node ∈ before, ∀ o ∈ node.mentions.selectors, SelectorIn front pos o := by
  induction before generalizing pos text with
  | nil => exact ⟨[], text, rfl, by simpa using h, by simp⟩
  | cons node before ih =>
    generalize hall : node :: before ++ nodes = all at h
    cases h with
    | last => simp [hnodes] at hall
    | @cons _ _ span rest _ _ hstands htext hrest =>
      cases hall
      obtain ⟨front, rest', rfl, hnodes', hselectors⟩ := ih hrest
      refine ⟨span ++ Text.blank :: front, rest', by simp [htext], ?_, ?_⟩
      · simpa [Nat.add_comm, Nat.add_left_comm, Nat.add_assoc] using hnodes'
      · intro node' hnode' o ho
        rcases List.mem_cons.mp hnode' with rfl | hnode'
        · obtain rfl := hstands.eq_of_mem_selectors ho
          exact ⟨[], span, front, rfl, rfl⟩
        · exact (hselectors node' hnode' o ho).append_left
    | redirect hrest =>
      cases hall
      obtain ⟨front, rest', rfl, hnodes', hselectors⟩ := ih hrest
      refine ⟨front, rest', rfl, hnodes', fun node' hnode' o ho => ?_⟩
      rcases List.mem_cons.mp hnode' with rfl | hnode'
      · simp [CommandNode.mentions] at ho
      · exact hselectors node' hnode' o ho

/-- A literal in front of other nodes stands in front of a space and what they spell. -/
theorem literal_inv {offset : Nat} {word : Text}
    (h : Spells pos text (.literal word offset :: nodes)) (hnodes : nodes ≠ []) :
    ∃ rest, text = word ++ Text.blank :: rest ∧ Spells (pos + word.length + 1) rest nodes := by
  cases h with
  | last => exact absurd rfl hnodes
  | cons hstands htext hrest =>
    obtain ⟨-, rfl⟩ := hstands
    exact ⟨_, htext, hrest⟩

/-- An argument stands in front of a space and what the nodes after it spell, or at the end. -/
theorem argument_inv {offset length : Nat} {name : Text} {value : Argument.Value}
    (h : Spells pos text (.argument name value offset length :: nodes)) :
    ∃ span rest, text = span ++ rest ∧ offset = pos ∧ length = span.length ∧
      (rest.head? = none ∨ rest.head? = some Text.blank) ∧
      ∀ node ∈ nodes, ∀ o ∈ node.mentions.selectors, pos + span.length < o := by
  cases h with
  | last hstands => exact ⟨text, [], by simp, hstands.1, hstands.2, by simp, by simp⟩
  | @cons _ _ span rest _ _ hstands htext hrest =>
    refine ⟨span, Text.blank :: rest, htext, hstands.1, hstands.2, by simp,
      fun node hnode o ho => ?_⟩
    have := hrest.le_of_mem_selectors hnode ho
    omega

end Spells

/-! ### Commands on the schedule -/

/-- The word of a command on the schedule that says what is done. -/
def ScheduleOperation.word : ScheduleOperation → Text
  | .replace _ | .append _ => "function"
  | .clear => "clear"

/-- A command on the schedule up to the name of the function. -/
def ScheduleOperation.front (op : ScheduleOperation) : Text := "schedule " ++ op.word ++ " "

theorem ScheduleOperation.length_front_pos (op : ScheduleOperation) : 0 < op.front.length := by
  have hschedule : 0 < (Text.ofString "schedule ").length := by decide
  simp only [ScheduleOperation.front, List.length_append]
  omega

theorem suffix_of_mem_commandTails {atStart : Bool} {tail : List CommandNode}
    (h : tail ∈ commandTails atStart nodes) : tail <:+ nodes := by
  induction nodes generalizing atStart with
  | nil => simp [commandTails] at h
  | cons node nodes ih =>
    have hrest : tail ∈ commandTails (node.isLiteral "run") nodes → tail <:+ node :: nodes :=
      fun h => (ih h).trans (List.suffix_cons ..)
    cases atStart with
    | false => exact hrest (by simpa [commandTails] using h)
    | true =>
      rcases List.mem_cons.mp (by simpa [commandTails] using h) with rfl | h
      · exact List.suffix_refl _
      · exact hrest h

/-- The nodes of a command on the schedule. -/
theorem of_schedule?_eq_some {mentions : Mentions} {tail : List CommandNode}
    (h : schedule? mentions tail = some s) :
    ∃ first offset offset' name value nodes,
      tail = .literal first offset :: .literal s.operation.word offset' ::
        .argument name value s.target s.targetLength :: nodes ∧
      s.mentions = mentions ∧
      (CommandNode.argument name value s.target s.targetLength).mentions.selectors = [] := by
  unfold schedule? at h
  split at h
  · split at h
    next hword =>
      obtain rfl := eq_of_beq hword
      split at h
      next ref =>
        split at h
        · simp at h
        · obtain ⟨operation, hoperation, rfl⟩ := Option.map_eq_some_iff.mp h
          have hfunction : operation.word = "function" := by
            unfold scheduling? at hoperation
            split at hoperation
            · split at hoperation <;> obtain rfl := Option.some.inj hoperation <;> rfl
            · simp at hoperation
          exact ⟨_, _, _, _, _, _, by rw [hfunction], rfl, rfl⟩
      · simp at h
    next =>
      split at h
      next hword =>
        obtain rfl := eq_of_beq hword
        split at h
        next raw =>
          obtain ⟨function, -, rfl⟩ := Option.map_eq_some_iff.mp h
          exact ⟨_, _, _, _, _, _, rfl, rfl, rfl⟩
        · simp at h
      · simp at h
  · simp at h

/-- The parts of a command that schedules a function or takes it off the schedule. -/
theorem of_ofCommand_eq_schedule (h : Line.ofCommand nodes = .schedule s) :
    ∃ before offset offset' name value after,
      nodes = before ++ .literal "schedule" offset :: .literal s.operation.word offset' ::
        .argument name value s.target s.targetLength :: after ∧
      s.mentions = Mentions.ofNodes nodes ∧
      (CommandNode.argument name value s.target s.targetLength).mentions.selectors = [] := by
  simp only [Line.ofCommand] at h
  split at h
  · simp at h
  · split at h
    next s' hschedule =>
      cases h
      obtain ⟨tail, htail, hschedule⟩ := Option.bind_eq_some_iff.mp hschedule
      obtain ⟨hmem, hhead⟩ := List.mem_filter.mp (List.mem_of_getLast? htail)
      obtain ⟨before, hbefore⟩ := suffix_of_mem_commandTails hmem
      obtain ⟨first, offset, offset', name, value, after, rfl, hmentions, hselectors⟩ :=
        of_schedule?_eq_some hschedule
      have hfirst : first = Text.ofString "schedule" := by
        simpa [CommandNode.isLiteral] using hhead
      exact ⟨before, offset, offset', name, value, after, by rw [← hbefore, hfirst], hmentions,
        hselectors⟩
    · simp at h

/-- Only a command that was parsed calls a function or concerns the schedule. -/
theorem Grammar.exists_parse_of_line {g : Grammar}
    (h : (∃ c, g.line text = .call c) ∨ ∃ s, g.line text = .schedule s) :
    ∃ nodes, g.parse text = .ok nodes ∧ Line.ofCommand nodes = g.line text := by
  unfold Grammar.line at h ⊢
  split at h
  · simp at h
  split at h
  · simp at h
  split at h
  · simp at h
  split at h
  next hempty hbreakpoint hcomment _ nodes hparse =>
    refine ⟨nodes, hparse, ?_⟩
    rw [if_neg hempty, if_neg hbreakpoint, if_neg hcomment]
  next =>
    dsimp only at h
    split at h <;> simp at h

/-- A line on the schedule holds the command with the name of a function, and all its selectors
    stand before the command or after the name. -/
theorem schedule_split {g : Grammar} (h : g.line text = .schedule s) :
    ∃ front name rest, text = front ++ s.operation.front ++ name ++ rest ∧
      s.target = (front ++ s.operation.front).length ∧ s.targetLength = name.length ∧
      (rest.head? = none ∨ rest.head? = some Text.blank) ∧
      ∀ o ∈ s.mentions.selectors, Spells.SelectorIn front 0 o ∨ s.target + s.targetLength < o := by
  obtain ⟨nodes, hparse, hline⟩ := Grammar.exists_parse_of_line (.inr ⟨s, h⟩)
  obtain ⟨before, offset, offset', name, value, after, rfl, hmentions, hselectors⟩ :=
    of_ofCommand_eq_schedule (hline.trans h)
  obtain ⟨front, command, rfl, hcommand, hbefore⟩ :=
    (Grammar.spells_of_parse hparse).append_inv (List.cons_ne_nil _ _)
  obtain ⟨operation, rfl, hoperation⟩ := hcommand.literal_inv (List.cons_ne_nil _ _)
  obtain ⟨argument, rfl, hargument⟩ := hoperation.literal_inv (List.cons_ne_nil _ _)
  obtain ⟨span, rest, rfl, htarget, hlength, hhead, hafter⟩ := hargument.argument_inv
  have hfront : Text.ofString "schedule " = Text.ofString "schedule" ++ [Text.blank] := by decide
  have hblank : Text.ofString " " = [Text.blank] := by decide
  refine ⟨front, span, rest, ?_, ?_, hlength, hhead, ?_⟩
  · simp [ScheduleOperation.front, hfront, hblank]
  · rw [htarget]
    simp [ScheduleOperation.front, hfront, hblank]
    omega
  · intro o ho
    rw [hmentions] at ho
    obtain ⟨node, hnode, ho⟩ := List.mem_flatMap.mp ho
    simp only [List.mem_append, List.mem_cons] at hnode
    rcases hnode with hnode | rfl | rfl | rfl | hnode
    · exact .inl (hbefore node hnode o ho)
    · simp [CommandNode.mentions] at ho
    · simp [CommandNode.mentions] at ho
    · simp [hselectors] at ho
    · exact .inr (by rw [htarget, hlength]; exact hafter node hnode o ho)

end DatapackDebug
