import DatapackDebug.Proofs.ArgumentLocality
import DatapackDebug.Proofs.CommandTiling
import DatapackDebug.Proofs.Edits

namespace DatapackDebug

/-!
# The parts of a call

A line that calls a function ends in the word `function` and a name.  What stands before is nothing,
or the conditions of an `execute` up to the word `run`; all selectors of the line stand there.  The
generated line has the same parts, where the selectors leave out the entities of the debugger and
the name is that of the generated function.

* `of_ofCommand_eq_call` — the nodes of a call;
* `Grammar.exists_reads` — every part of a command is read by a node of the grammar, hence a
  selector starts with `@`;
* `isLastAnchor_lastAnchor?` — the anchor of a call is the last one that the command sets;
* `Edit.apply_eq_inserted` — insertions in the order of the text;
* `call_line_decomposes` — all of this for a line that is classified as a call.
-/

variable {node : CommandNode} {nodes tail : List CommandNode} {t text : Text}

/-! ### The nodes of a call -/

/-- Nodes that a simple command may follow. -/
def LeadIn (before : List CommandNode) : Prop :=
  before = [] ∨ ∃ others offset, before = others ++ [.literal "run" offset]

theorem CommandNode.eq_literal_of_isLiteral {word : Text} (h : node.isLiteral word = true) :
    ∃ offset, node = .literal word offset := by
  cases node with
  | literal text offset => exact ⟨offset, by rw [eq_of_beq h]⟩
  | argument => cases h
  | redirect => cases h

/-- A simple command of a command follows nothing, or the word `run`. -/
theorem exists_leadIn (h : tail ∈ commandTails true nodes) :
    ∃ before, nodes = before ++ tail ∧ LeadIn before := by
  -- At a place where no command starts, a node stands before the tail.
  have hsplit : ∀ (nodes : List CommandNode) (atStart : Bool), tail ∈ commandTails atStart nodes →
      atStart = true ∧ tail = nodes ∨
      ∃ others offset, nodes = others ++ .literal "run" offset :: tail := by
    intro nodes
    induction nodes with
    | nil => simp [commandTails]
    | cons node nodes ih =>
      intro atStart hmem
      have hlater : tail ∈ commandTails (node.isLiteral "run") nodes →
          ∃ others offset, node :: nodes = others ++ .literal "run" offset :: tail := by
        intro hmem
        rcases ih _ hmem with ⟨hrun, rfl⟩ | ⟨others, offset, rfl⟩
        · obtain ⟨offset, rfl⟩ := CommandNode.eq_literal_of_isLiteral hrun
          exact ⟨[], offset, rfl⟩
        · exact ⟨node :: others, offset, rfl⟩
      cases atStart with
      | false => exact .inr (hlater (by simpa [commandTails] using hmem))
      | true =>
        rcases List.mem_cons.mp (by simpa [commandTails] using hmem) with rfl | hmem
        · exact .inl ⟨rfl, rfl⟩
        · exact .inr (hlater hmem)
  rcases hsplit nodes true h with ⟨-, rfl⟩ | ⟨others, offset, rfl⟩
  · exact ⟨[], rfl, .inl rfl⟩
  · exact ⟨others ++ [.literal "run" offset], by simp, .inr ⟨others, offset, rfl⟩⟩

theorem of_calledFunction?_eq_some {function : ResourceName} {column : Nat}
    (h : calledFunction? tail = some (function, column)) :
    ∃ name offset length,
      tail = [.literal "function" column,
        .argument name (.function ⟨false, function⟩) offset length] := by
  unfold calledFunction? at h
  split at h
  next word column' name ref offset length =>
    split at h
    next hword =>
      obtain ⟨tag, function'⟩ := ref
      simp only [Bool.and_eq_true, beq_iff_eq, Bool.not_eq_true'] at hword
      obtain ⟨rfl, rfl⟩ := hword
      cases h
      exact ⟨name, offset, length, rfl⟩
    · cases h
  · cases h

/-- The nodes of a call: what leads to it, the word `function` and the name. -/
theorem of_ofCommand_eq_call {c : FunctionCall} (h : Line.ofCommand nodes = .call c) :
    (∃ before name offset length, LeadIn before ∧
      nodes = before ++ [.literal "function" c.column,
        .argument name (.function ⟨false, c.name⟩) offset length]) ∧
      c.anchor = lastAnchor? [] nodes ∧ c.mentions = Mentions.ofNodes nodes := by
  simp only [Line.ofCommand] at h
  split at h
  next function column hfound =>
    cases h
    obtain ⟨tail, htail, hcalled⟩ := List.exists_of_findSome?_eq_some hfound
    obtain ⟨before, rfl, hbefore⟩ := exists_leadIn htail
    obtain ⟨name, offset, length, rfl⟩ := of_calledFunction?_eq_some hcalled
    exact ⟨⟨before, name, offset, length, hbefore, rfl⟩, rfl, rfl⟩
  next =>
    split at h <;> cases h

/-! ### What the arguments of a call are read from -/

namespace Argument

theorem of_stringScan_eq_ok {type rest : Text} {v : Value} (h : stringScan type t = .ok (v, rest)) :
    ∃ s, v = .raw s ∨ v = .string s := by
  unfold stringScan at h
  split at h
  · obtain ⟨s, mid, -, h⟩ := of_bind_eq_ok h
    cases h
    exact ⟨s, .inl rfl⟩
  split at h
  all_goals
    obtain ⟨s, mid, -, h⟩ := of_bind_eq_ok h
    cases h
    exact ⟨s, .inr rfl⟩

section Values

variable {kind : Kind} {rest : Text} {s : Selector}

/-- Only the names of functions have such values. -/
theorem Kind.eq_function_of_scan {ref : ResourceRef} (h : kind.scan t = .ok (.function ref, rest)) :
    kind = .function := by
  cases kind with
  | function => rfl
  | string type => obtain ⟨s, hs | hs⟩ := of_stringScan_eq_ok h <;> cases hs
  | _ =>
    obtain ⟨a, mid, -, hvalue⟩ := of_bind_eq_ok h
    cases hvalue

theorem head?_of_entity {single playersOnly : Bool}
    (h : entity single playersOnly t = .ok (.selector s, rest)) : t.head? = some 0x40 := by
  have hpeek : peek? t = .ok (t.head?, t) := rfl
  by_contra hhead
  rw [entity, get_bind_eq, bind_eq hpeek, if_neg (by simpa using hhead)] at h
  obtain ⟨text, mid, -, h⟩ := of_bind_eq_ok h
  by_cases hempty : text.isEmpty = true
  · rw [if_pos hempty] at h
    cases h
  · rw [if_neg hempty] at h
    obtain ⟨hvalue, -⟩ := Prod.mk.inj (Except.ok.inj h)
    cases hid : uuid? text <;> rw [hid] at hvalue <;> cases hvalue

theorem head?_of_scoreHolder {single : Bool} (h : scoreHolder single t = .ok (.selector s, rest)) :
    t.head? = some 0x40 := by
  have hpeek : peek? t = .ok (t.head?, t) := rfl
  by_contra hhead
  rw [scoreHolder, get_bind_eq, bind_eq hpeek, if_neg (by simpa using hhead)] at h
  obtain ⟨text, mid, -, h⟩ := of_bind_eq_ok h
  by_cases hempty : text.isEmpty = true
  · rw [if_pos hempty] at h
    cases h
  · rw [if_neg hempty] at h
    obtain ⟨hvalue, -⟩ := Prod.mk.inj (Except.ok.inj h)
    split at hvalue <;> cases hvalue

/-- A selector starts with `@`, whatever the kind of argument that it stands for. -/
theorem Kind.head?_of_scan_selector {v : Value} (h : kind.scan t = .ok (v, rest))
    (hv : v = .entity (.selector s) ∨ v = .scoreHolder (.selector s)) : t.head? = some 0x40 := by
  cases kind with
  | entity single playersOnly =>
    obtain ⟨e, mid, hentity, h⟩ := of_bind_eq_ok h
    cases h
    rcases hv with hv | hv
    · cases hv
      exact head?_of_entity hentity
    · cases hv
  | scoreHolder single =>
    obtain ⟨e, mid, hholder, h⟩ := of_bind_eq_ok h
    cases h
    rcases hv with hv | hv
    · cases hv
    · cases hv
      exact head?_of_scoreHolder hholder
  | string type =>
    rcases hv with rfl | rfl
    all_goals obtain ⟨s, hs | hs⟩ := of_stringScan_eq_ok h <;> cases hs
  | _ =>
    obtain ⟨a, mid, -, hvalue⟩ := of_bind_eq_ok h
    cases hvalue
    rcases hv with hv | hv <;> cases hv

end Values

end Argument

/-- A node that mentions a selector is an argument that was read as one. -/
theorem CommandNode.exists_of_mem_selectors {o : Nat} (h : o ∈ node.mentions.selectors) :
    ∃ name value length s, node = .argument name value o length ∧
      (value = .entity (.selector s) ∨ value = .scoreHolder (.selector s)) := by
  unfold CommandNode.mentions at h
  split at h
  next name s offset length =>
    obtain rfl := List.mem_singleton.mp h
    exact ⟨_, _, _, _, rfl, .inl rfl⟩
  next name s offset length =>
    obtain rfl := List.mem_singleton.mp h
    exact ⟨_, _, _, _, rfl, .inr rfl⟩
  · cases h
  · cases h

namespace Grammar

variable {g : Grammar} {line : Text}

/-- Every literal and every argument of a command is read by a node of the grammar. -/
theorem exists_reads (h : g.parse line = .ok nodes) (hnode : node ∈ nodes)
    (hspan : node.span?.isSome = true) : ∃ i, g.Reads line i node := by
  -- The nodes that take a part of the line are read along a path.
  have hforall : ∀ {path : List Nat} {parts : List CommandNode},
      List.Forall₂ (g.Reads line) path parts →
      ∀ part ∈ parts, ∃ i, g.Reads line i part := by
    intro path parts hall
    induction hall with
    | nil => simp
    | cons hreads _ ih => exact List.forall_mem_cons.mpr ⟨⟨_, hreads⟩, ih⟩
  obtain ⟨ks, hderives, -⟩ :=
    exists_first_of_parseChildren (parse_eq_ok_iff.mp h) (Nat.lt_succ_self _)
  obtain ⟨i, path, -, -, hreads⟩ := hderives.exists_path (.refl line)
  exact hforall hreads node (List.mem_filter.mpr ⟨hnode, hspan⟩)

/-- The selectors of a command start with `@`. -/
theorem head?_of_mem_selectors (h : g.parse line = .ok nodes) {o : Nat}
    (ho : o ∈ (Mentions.ofNodes nodes).selectors) : (line.drop o).head? = some 0x40 := by
  obtain ⟨node, hnode, ho⟩ := List.mem_flatMap.mp ho
  obtain ⟨name, value, length, s, rfl, hvalue⟩ := node.exists_of_mem_selectors ho
  obtain ⟨i, kind, -, -, hparse⟩ := exists_reads h hnode rfl
  exact Argument.Kind.head?_of_scan_selector (Argument.Kind.parse_ok hparse).2 hvalue

end Grammar

/-- The selectors of a command stand in the order of its line. -/
theorem Spells.pairwise_selectors {pos : Nat} (h : Spells pos text nodes) :
    (Mentions.ofNodes nodes).selectors.Pairwise (· < ·) := by
  have hone : ∀ node : CommandNode, node.mentions.selectors.Pairwise (· < ·) := by
    intro node
    unfold CommandNode.mentions
    split <;> simp
  show (nodes.flatMap (·.mentions.selectors)).Pairwise (· < ·)
  induction h with
  | last => simpa using hone _
  | @cons pos text span rest node nodes hstands _ hrest ih =>
    rw [List.flatMap_cons, List.pairwise_append]
    refine ⟨hone node, ih, fun o ho o' ho' => ?_⟩
    obtain ⟨node', hnode', ho'⟩ := List.mem_flatMap.mp ho'
    have hbehind := hrest.le_of_mem_selectors hnode' ho'
    have hhere := hstands.eq_of_mem_selectors ho
    omega
  | redirect _ ih => simpa [CommandNode.mentions] using ih

theorem Spells.SelectorIn.lt {front : Text} {o : Nat} (h : SelectorIn front 0 o) :
    o < front.length := by
  obtain ⟨before, span, after, rfl, rfl⟩ := h
  simp only [List.length_append, List.length_cons]
  omega

/-- What leads to a simple command spells nothing, or a text up to the word `run` and a space. -/
theorem Spells.exists_front {before : List CommandNode} (h : Spells 0 text (before ++ tail))
    (htail : tail ≠ []) (hbefore : LeadIn before) :
    ∃ front rest, text = front ++ rest ∧ (front = [] ∨ Text.ofString "run " <:+ front) ∧
      Spells front.length rest tail ∧
      ∀ node ∈ before, ∀ o ∈ node.mentions.selectors, o < front.length := by
  rcases hbefore with rfl | ⟨others, offset, rfl⟩
  · exact ⟨[], text, rfl, .inl rfl, h, by simp⟩
  · rw [List.append_assoc] at h
    obtain ⟨front, rest, rfl, hrun, hselectors⟩ := h.append_inv (List.cons_ne_nil _ _)
    obtain ⟨rest, rfl, htail⟩ := hrun.literal_inv htail
    have hword : Text.ofString "run " = Text.ofString "run" ++ [Text.blank] := by decide
    refine ⟨front ++ Text.ofString "run ", rest, ?_, .inr (List.suffix_append _ _), ?_,
      fun node hnode o ho => ?_⟩
    · simp [hword]
    · simpa [hword, Nat.add_assoc] using htail
    · rw [List.length_append]
      rcases List.mem_append.mp hnode with hnode | hnode
      · have hlt := (hselectors node hnode o ho).lt
        omega
      · obtain rfl := List.mem_singleton.mp hnode
        cases ho

/-! ### Anchors -/

/-- The text of a literal. -/
def CommandNode.literal? : CommandNode → Option Text
  | .literal text _ => some text
  | _ => none

/-- The node at an index is an anchor, and the nearest literal before it is `anchored`; `last` is
    the literal before all nodes. -/
def SetsAnchor (last : Text) (nodes : List CommandNode) (i : Nat) (a : Argument.Anchor) : Prop :=
  nodes[i]?.bind CommandNode.value? = some (.anchor a) ∧
    ((nodes.take i).filterMap CommandNode.literal?).getLast?.getD last = "anchored"

/-- The anchor at the largest index, if there is any. -/
def IsLastAnchor (last : Text) (nodes : List CommandNode) : Option Argument.Anchor → Prop
  | some a => ∃ i, SetsAnchor last nodes i a ∧ ∀ j b, SetsAnchor last nodes j b → j ≤ i
  | none => ∀ i a, ¬ SetsAnchor last nodes i a

section Anchors

variable {last : Text} {a : Argument.Anchor}

theorem setsAnchor_zero_iff :
    SetsAnchor last (node :: nodes) 0 a ↔ node.value? = some (.anchor a) ∧ last = "anchored" := by
  simp [SetsAnchor]

theorem setsAnchor_succ_iff {i : Nat} :
    SetsAnchor last (node :: nodes) (i + 1) a ↔ SetsAnchor (node.literal?.getD last) nodes i a := by
  cases node <;> simp [SetsAnchor, CommandNode.literal?, List.filterMap_cons, List.getLast?_cons]

/-- An anchor behind the first node is the last one of all. -/
theorem IsLastAnchor.cons_some (h : IsLastAnchor (node.literal?.getD last) nodes (some a)) :
    IsLastAnchor last (node :: nodes) (some a) := by
  obtain ⟨i, hi, hlast⟩ := h
  refine ⟨i + 1, setsAnchor_succ_iff.mpr hi, fun j b hj => ?_⟩
  cases j with
  | zero => omega
  | succ j =>
    have hle := hlast j b (setsAnchor_succ_iff.mp hj)
    omega

/-- A first node that sets no anchor changes nothing. -/
theorem IsLastAnchor.cons {r : Option Argument.Anchor}
    (h : IsLastAnchor (node.literal?.getD last) nodes r)
    (hnode : ∀ a, ¬ SetsAnchor last (node :: nodes) 0 a) : IsLastAnchor last (node :: nodes) r := by
  cases r with
  | some a => exact h.cons_some
  | none =>
    intro i a hi
    cases i with
    | zero => exact hnode a hi
    | succ i => exact h i a (setsAnchor_succ_iff.mp hi)

/-- An anchor at the first node is the last one if no other follows. -/
theorem IsLastAnchor.cons_here (h : IsLastAnchor (node.literal?.getD last) nodes none)
    (hnode : SetsAnchor last (node :: nodes) 0 a) : IsLastAnchor last (node :: nodes) (some a) := by
  refine ⟨0, hnode, fun j b hj => ?_⟩
  cases j with
  | zero => exact Nat.le_refl _
  | succ j => exact absurd (setsAnchor_succ_iff.mp hj) (h j b)

/-- The anchor that is found is the last one that the nodes set. -/
theorem isLastAnchor_lastAnchor? (last : Text) (nodes : List CommandNode) :
    IsLastAnchor last nodes (lastAnchor? last nodes) := by
  fun_induction lastAnchor? last nodes with
  | case1 last => simp [IsLastAnchor, SetsAnchor]
  | case2 last text offset nodes ih =>
    exact IsLastAnchor.cons ih fun a ha => by
      simpa [CommandNode.value?] using (setsAnchor_zero_iff.mp ha).1
  | case3 last name a offset length nodes ih =>
    cases hrest : lastAnchor? last nodes with
    | some b => exact IsLastAnchor.cons_some (hrest ▸ ih)
    | none =>
      rw [hrest] at ih
      by_cases hlast : last = "anchored"
      · rw [if_pos (beq_iff_eq.mpr hlast)]
        exact IsLastAnchor.cons_here ih (setsAnchor_zero_iff.mpr ⟨rfl, hlast⟩)
      · rw [if_neg (beq_iff_eq.not.mpr hlast)]
        exact IsLastAnchor.cons ih fun b hb => hlast (setsAnchor_zero_iff.mp hb).2
  | case4 last node nodes hliteral hanchor ih =>
    -- Neither a literal nor an anchor: the node sets nothing.
    cases node with
    | literal text offset => exact absurd rfl (hliteral text offset)
    | argument name value offset length =>
      refine IsLastAnchor.cons ih fun a ha => ?_
      cases (setsAnchor_zero_iff.mp ha).1
      exact hanchor _ _ _ _ rfl
    | redirect name => exact IsLastAnchor.cons ih fun a ha => by cases (setsAnchor_zero_iff.mp ha).1

end Anchors

/-! ### Insertions -/

namespace Edit

/-- A text that stands at a position, with others inserted from its front to its end. -/
def inserted (pos : Nat) (t : Text) : List Edit → Text
  | [] => t
  | e :: es =>
    t.take (e.offset - pos) ++ (e.insert ++ inserted e.offset (t.drop (e.offset - pos)) es)

theorem atOnce_eq_inserted {es : List Edit} {pos : Nat} (hsorted : es.Pairwise Before)
    (h : ∀ e ∈ es, e.remove = 0 ∧ pos ≤ e.offset ∧ e.offset ≤ pos + t.length) :
    atOnce es pos t = inserted pos t es := by
  induction es generalizing pos t with
  | nil => exact atOnce_nil pos t
  | cons e es ih =>
    obtain ⟨⟨hremove, hlow, hhigh⟩, hes⟩ := List.forall_mem_cons.mp h
    obtain ⟨hfirst, hsorted⟩ := List.pairwise_cons.mp hsorted
    -- The text is split where the first insertion goes; the others go behind it.
    have hlength : pos + (t.take (e.offset - pos)).length = e.offset := by
      rw [List.length_take]
      omega
    have hbehind : ∀ d ∈ e :: es, pos + (t.take (e.offset - pos)).length ≤ d.offset := by
      rw [hlength]
      exact List.forall_mem_cons.mpr ⟨Nat.le_refl _, fun d hd => Nat.le_of_lt (hfirst d hd).1⟩
    have hsplit := atOnce_append_left hbehind (t.drop (e.offset - pos))
    have hinsert := atOnce_span (b := []) hremove.symm
      (fun d hd => apart_iff.mpr (.inl (hfirst d hd))) (t.drop (e.offset - pos))
    rw [hremove, Nat.add_zero, List.nil_append] at hinsert
    rw [List.take_append_drop, hlength, hinsert, ih hsorted fun d hd => ?_] at hsplit
    · exact hsplit
    · have hd := hes d hd
      have hbefore := (hfirst d ‹_›).1
      rw [List.length_drop]
      omega

/-- Insertions at different places are made at once. -/
theorem apply_eq_inserted {es : List Edit} (h : Separated t es) (hsorted : es.Pairwise Before)
    (hremove : ∀ e ∈ es, e.remove = 0) : apply t es = inserted 0 t es := by
  rw [apply_eq_atOnce h (.refl es)]
  refine atOnce_eq_inserted hsorted fun e he => ⟨hremove e he, Nat.zero_le _, ?_⟩
  have := h.inside e he
  omega

end Edit

/-- What hides entities is inserted into the text. -/
theorem of_mem_hideEdits {ns : Text} {selectors : List Nat} {e : Edit}
    (h : e ∈ hideEdits ns t selectors) : e.remove = 0 ∧ e.offset ≤ t.length := by
  obtain ⟨o, -, he⟩ := List.mem_filterMap.mp h
  obtain ⟨hremove, rest, hdrop, hoffset⟩ := of_hideEdit?_eq_some he
  have hlength : t.length - o = 2 + rest.length := by
    rw [← List.length_drop, hdrop, List.length_append]
    rfl
  refine ⟨hremove, ?_⟩
  rcases hoffset with hoffset | ⟨hoffset, hbracket⟩
  · omega
  · obtain ⟨rest, rfl⟩ := List.head?_eq_some_iff.mp hbracket
    rw [List.length_cons] at hlength
    omega

section Selectors

variable {ns : Text} {selectors : List Nat} (hsorted : selectors.Pairwise (· < ·))
  (hstart : ∀ o ∈ selectors, (t.drop o).head? = some 0x40)
include hsorted hstart

/-- What hides entities from one selector is inserted before the next selector. -/
theorem pairwise_hideEdits : (hideEdits ns t selectors).Pairwise Edit.Before := by
  refine List.pairwise_filterMap.mpr (hsorted.imp_of_mem fun {o o'} _ ho' hlt d hd e he => ?_)
  obtain ⟨hremove, rest, hdrop, hd⟩ := of_hideEdit?_eq_some hd
  obtain ⟨-, _, -, he⟩ := of_hideEdit?_eq_some he
  -- The byte behind the first `@` is an `e`, so the next selector does not start there.
  have hne : o' ≠ o + 1 := by
    rintro rfl
    have hhead := hstart _ ho'
    rw [← List.drop_drop, hdrop] at hhead
    cases hhead
  unfold Edit.Before
  omega

theorem separated_hideEdits : Edit.Separated t (hideEdits ns t selectors) where
  inside e he := by
    obtain ⟨hremove, hle⟩ := of_mem_hideEdits he
    omega
  apart := (pairwise_hideEdits hsorted hstart).imp fun h => Edit.apart_iff.mpr (.inl h)

end Selectors

/-! ### Calls -/

/-- The parts of a line that calls a function, with the nodes of its command. -/
structure CallParts (g : Grammar) (text : Text) (c : FunctionCall) (front name : Text)
    (nodes : List CommandNode) : Prop where
  /-- the line is what leads to the call, the word `function` and the name -/
  parts : text = front ++ (Text.ofString "function " ++ name)
  /-- the column is that of the word -/
  column : front.length = c.column
  /-- nothing leads to the call, or a text up to the word `run` -/
  leadIn : front = [] ∨ Text.ofString "run " <:+ front
  /-- the name is read to its end, and is no tag -/
  named : Argument.Kind.function.parse name = .ok (.function ⟨false, c.name⟩, name.length)
  /-- the selectors stand before the word, and start with `@` -/
  selectors : ∀ o ∈ c.mentions.selectors, o < c.column ∧ (text.drop o).head? = some '@'
  /-- the selectors are in the order of the line -/
  ordered : c.mentions.selectors.Pairwise (· < ·)
  /-- the nodes are those of the command -/
  parsed : g.parse text = .ok nodes
  /-- the anchor is the last one that the command sets -/
  anchor : IsLastAnchor [] nodes c.anchor
  /-- the generated line is this one, with entities hidden from the selectors and the name of the
      generated function -/
  generated : ∀ (p : Pack) (f : Function) (line : Nat),
    ((Generate.callInside p f line text c).map (Instruction.text p.config))[3]? =
      some (Edit.inserted 0 front (hideEdits p.ns front c.mentions.selectors) ++
        (Text.ofString "function " ++ UnitName.text p.ns (.of c.name .start)))

/-- What stands before a call, with the insertions that hide entities. -/
theorem editedFront_eq_inserted (ns : Text) {front rest : Text} {c : FunctionCall}
    (hcolumn : front.length = c.column)
    (hselectors : ∀ o ∈ c.mentions.selectors, o < c.column ∧
      ((front ++ rest).drop o).head? = some 0x40)
    (hordered : c.mentions.selectors.Pairwise (· < ·)) :
    editedFront ns (front ++ rest) c =
      Edit.inserted 0 front (hideEdits ns front c.mentions.selectors) := by
  have hfront : (front ++ rest).take c.column = front := List.take_left' hcolumn
  have hall : c.mentions.selectors.filter (· < c.column) = c.mentions.selectors :=
    List.filter_eq_self.mpr fun o ho => decide_eq_true (hselectors o ho).1
  have hstart : ∀ o ∈ c.mentions.selectors, (front.drop o).head? = some 0x40 := by
    intro o ho
    obtain ⟨hlt, hhead⟩ := hselectors o ho
    rw [← hcolumn] at hlt
    rwa [List.drop_append_of_le_length (Nat.le_of_lt hlt),
      List.head?_append_of_ne_nil _ (by simpa using hlt)] at hhead
  rw [editedFront, hfront, hall]
  exact Edit.apply_eq_inserted (separated_hideEdits hordered hstart)
    (pairwise_hideEdits hordered hstart) fun e he => (of_mem_hideEdits he).1

/-- A literal stands where the text that it begins stands. -/
theorem Spells.literal_offset {pos offset : Nat} {word : Text}
    (h : Spells pos text (.literal word offset :: nodes)) : offset = pos := by
  cases h with
  | last hstands => exact hstands.1
  | cons hstands => exact hstands.1

/-- An argument alone takes the whole text. -/
theorem Spells.argument_alone {pos offset length : Nat} {name : Text} {value : Argument.Value}
    (h : Spells pos text [.argument name value offset length]) :
    offset = pos ∧ length = text.length := by
  cases h with
  | last hstands => exact hstands
  | cons hstands htext hrest => cases hrest

/-- A line that is classified as a call has the parts of one, whatever the grammar. -/
theorem call_line_decomposes {g : Grammar} {text : Text} {c : FunctionCall}
    (h : g.line text = .call c) : ∃ front name nodes, CallParts g text c front name nodes := by
  obtain ⟨nodes, hparse, hline⟩ := Grammar.exists_parse_of_line (.inl ⟨c, h⟩)
  obtain ⟨⟨before, argument, offset, length, hbefore, rfl⟩, hanchor, hmentions⟩ :=
    of_ofCommand_eq_call (hline.trans h)
  have hspells := Grammar.spells_of_parse hparse
  have hordered : c.mentions.selectors.Pairwise (· < ·) := hmentions ▸ hspells.pairwise_selectors
  obtain ⟨front, command, htext, hfront, hcommand, hin⟩ :=
    hspells.exists_front (List.cons_ne_nil _ _) hbefore
  have hcolumn : front.length = c.column := hcommand.literal_offset.symm
  obtain ⟨name, rfl, hname⟩ := hcommand.literal_inv (List.cons_ne_nil _ _)
  have hword : Text.ofString "function " = Text.ofString "function" ++ [Text.blank] := by decide
  have hparts : text = front ++ (Text.ofString "function " ++ name) := by
    rw [htext, hword, List.append_assoc, List.singleton_append]
  have hselectors : ∀ o ∈ c.mentions.selectors, o < c.column ∧ (text.drop o).head? = some 0x40 := by
    intro o ho
    rw [hmentions] at ho
    refine ⟨?_, Grammar.head?_of_mem_selectors hparse ho⟩
    obtain ⟨node, hnode, ho⟩ := List.mem_flatMap.mp ho
    rcases List.mem_append.mp hnode with hnode | hnode
    · exact hcolumn ▸ hin node hnode o ho
    · -- The word and the name are no selectors.
      simp only [List.mem_cons, List.not_mem_nil, or_false] at hnode
      rcases hnode with rfl | rfl <;> cases ho
  -- Whatever node of the grammar read the name, its value is that of a function.
  have hnamed : Argument.Kind.function.parse name =
      .ok (.function ⟨false, c.name⟩, name.length) := by
    obtain ⟨hoffset, hlength⟩ := hname.argument_alone
    obtain ⟨i, kind, -, -, hread⟩ :=
      Grammar.exists_reads hparse
        (List.mem_append_right _ (List.mem_cons_of_mem _ List.mem_cons_self)) rfl
    have hdrop : text.drop offset = name := by
      rw [hparts, ← List.append_assoc]
      refine List.drop_left' ?_
      rw [hoffset, hword]
      simp [Nat.add_assoc]
    obtain rfl := Argument.Kind.eq_function_of_scan (Argument.Kind.parse_ok hread).2
    rwa [hdrop, hlength] at hread
  refine ⟨front, name, _, ⟨hparts, hcolumn, hfront, hnamed, hselectors, hordered, hparse, ?_,
    fun p f line => ?_⟩⟩
  · rw [hanchor]
    exact isLastAnchor_lastAnchor? _ _
  · have hedited := editedFront_eq_inserted p.ns hcolumn (hparts ▸ hselectors) hordered
    rw [← hparts] at hedited
    rw [← hedited]
    rfl

/-- A grammar of conditions, which lead back to `execute` or on to the root, and of calls. -/
def conditionGrammar : Grammar :=
  ⟨#[⟨.root, "root", [1, 7], false, none, []⟩, ⟨.literal, "execute", [2, 4, 6], false, none, []⟩,
    ⟨.literal, "as", [3], false, none, []⟩,
    ⟨.argument (.entity false false), "targets", [], false, some 1, "minecraft:entity"⟩,
    ⟨.literal, "anchored", [5], false, none, []⟩,
    ⟨.argument .anchor, "anchor", [], false, some 1, "minecraft:entity_anchor"⟩,
    ⟨.literal, "run", [], false, none, []⟩, ⟨.literal, "function", [8], false, none, []⟩,
    ⟨.argument .function, "name", [], true, none, "minecraft:function"⟩]⟩

/-- Two selectors, and two anchors of which the second counts. -/
theorem conditionGrammar_call :
    let text : Text := "execute as @e[tag=a] anchored feet as @e anchored eyes run function a:b"
    let c : FunctionCall := ⟨⟨"a", "b"⟩, some .eyes, 59, ⟨[11, 38], []⟩⟩
    conditionGrammar.line text = .call c ∧
      ∃ front name nodes, CallParts conditionGrammar text c front name nodes :=
  ⟨rfl, call_line_decomposes rfl⟩

end DatapackDebug
