import DatapackDebug.Proofs.CommandSpans

namespace DatapackDebug

/-!
# The parts of a command tile its line

The literals and arguments of a command stand one after the other in its line with single spaces
between them, from the first byte to the last.  Each of them is read by one node of the grammar, and
the nodes are a path from the root.

* `Text.RestAt` — a text is the rest of a line;
* `Span`, `spansOf` — where the parts of a command stand;
* `Spells.isChain_spans`, `Spells.getLast?_spans`, `Spells.join_spans` — the spans of nodes that
  spell a text;
* `Grammar.Reads` — what a node of the grammar reads in a line;
* `Grammar.Derives.exists_path` — the nodes of the grammar that a derivation goes through;
* `parse_tiles` — all of this for the command that the parser finds.
-/

/-! ### Spans -/

/-- The text is the rest of a line from a position on. -/
def Text.RestAt (line : Text) (pos : Nat) (text : Text) : Prop :=
  ∃ before, before.length = pos ∧ line = before ++ text

/-- A part of a line, from one position up to another. -/
structure Span where
  start : Nat
  stop : Nat
deriving DecidableEq, Repr

/-- The bytes of a line in a span. -/
def Span.text (line : Text) (s : Span) : Text := (line.drop s.start).take (s.stop - s.start)

namespace Text.RestAt

variable {line span rest text : Text} {pos : Nat}

theorem refl (line : Text) : line.RestAt 0 line := ⟨[], rfl, rfl⟩

theorem drop_eq (h : line.RestAt pos text) : line.drop pos = text := by
  obtain ⟨before, rfl, rfl⟩ := h
  exact List.drop_left

/-- What follows a part and the byte after it. -/
theorem next {b : UInt8} (h : line.RestAt pos (span ++ b :: rest)) :
    line.RestAt (pos + span.length + 1) rest := by
  obtain ⟨before, rfl, rfl⟩ := h
  refine ⟨before ++ (span ++ [b]), ?_, by simp⟩
  simp only [List.length_append, List.length_singleton]
  omega

/-- The bytes of a part in front of the rest. -/
theorem span_text (h : line.RestAt pos (span ++ rest)) :
    Span.text line ⟨pos, pos + span.length⟩ = span := by
  show (line.drop pos).take (pos + span.length - pos) = span
  rw [h.drop_eq, Nat.add_sub_cancel_left, List.take_left]

/-- The byte after a part. -/
theorem head?_drop {b : UInt8} (h : line.RestAt pos (span ++ b :: rest)) :
    (line.drop (pos + span.length)).head? = some b := by
  rw [← List.drop_drop, h.drop_eq, List.drop_left]
  rfl

end Text.RestAt

/-- Where a literal or an argument stands.  A redirect stands nowhere. -/
def CommandNode.span? : CommandNode → Option Span
  | .literal text offset => some ⟨offset, offset + text.length⟩
  | .argument _ _ offset length => some ⟨offset, offset + length⟩
  | .redirect _ => none

/-- Where the literals and arguments of a command stand, in order. -/
def spansOf (nodes : List CommandNode) : List Span := nodes.filterMap CommandNode.span?

theorem CommandNode.StandsAt.spansOf_cons {pos : Nat} {span : Text} {node : CommandNode}
    (h : node.StandsAt pos span) (nodes : List CommandNode) :
    spansOf (node :: nodes) = ⟨pos, pos + span.length⟩ :: spansOf nodes := by
  have hspan : node.span? = some ⟨pos, pos + span.length⟩ := by
    cases node with
    | literal text offset => rw [CommandNode.span?, h.1, h.2]
    | argument name value offset length => rw [CommandNode.span?, h.1, h.2]
    | redirect name => exact absurd h id
  exact List.filterMap_cons_some hspan

namespace Spells

variable {line text : Text} {pos : Nat} {nodes : List CommandNode}

variable (h : Spells pos text nodes)

include h

/-- Nodes that spell a text start where the text stands. -/
theorem exists_spans : ∃ stop spans, spansOf nodes = ⟨pos, stop⟩ :: spans := by
  induction h with
  | last hstands => exact ⟨_, _, hstands.spansOf_cons _⟩
  | cons hstands _ _ _ => exact ⟨_, _, hstands.spansOf_cons _⟩
  | redirect _ ih => exact ih

/-- Between two nodes there is one byte, a space. -/
theorem isChain_spans (hline : line.RestAt pos text) :
    (spansOf nodes).IsChain fun s t =>
      t.start = s.stop + 1 ∧ (line.drop s.stop).head? = some Text.blank := by
  induction h with
  | last hstands =>
    rw [hstands.spansOf_cons]
    exact .singleton _
  | cons hstands htext hrest ih =>
    rw [htext] at hline
    obtain ⟨stop, spans, hspans⟩ := hrest.exists_spans
    have hchain := ih hline.next
    rw [hstands.spansOf_cons, hspans]
    rw [hspans] at hchain
    exact List.isChain_cons_cons.mpr ⟨⟨rfl, hline.head?_drop⟩, hchain⟩
  | redirect _ ih => exact ih hline

/-- The last node ends where the text ends. -/
theorem getLast?_spans : (spansOf nodes).getLast?.map (·.stop) = some (pos + text.length) := by
  induction h with
  | last hstands =>
    rw [hstands.spansOf_cons]
    rfl
  | cons hstands htext hrest ih =>
    obtain ⟨stop, spans, hspans⟩ := hrest.exists_spans
    rw [hstands.spansOf_cons, hspans, List.getLast?_cons_cons, ← hspans, ih, htext,
      List.length_append, List.length_cons]
    congr 1
    omega
  | redirect _ ih => exact ih

/-- The bytes of the spans with single spaces between them are the text. -/
theorem join_spans (hline : line.RestAt pos text) :
    Text.join " " ((spansOf nodes).map (Span.text line)) = text := by
  induction h with
  | @last pos text node hstands =>
    have hspan : Span.text line ⟨pos, pos + text.length⟩ = text :=
      Text.RestAt.span_text ((List.append_nil text).symm ▸ hline)
    rw [hstands.spansOf_cons, List.map_cons, hspan]
    exact List.append_nil text
  | @cons pos text span rest node nodes hstands htext hrest ih =>
    rw [htext] at hline ⊢
    obtain ⟨stop, spans, hspans⟩ := hrest.exists_spans
    have hjoin := ih hline.next
    -- the spans after this one are not empty, so a space stands in front of them
    rw [hspans, List.map_cons] at hjoin
    rw [hstands.spansOf_cons, hspans, List.map_cons, List.map_cons, hline.span_text]
    show span ++ (Text.ofString " " ++ Text.join " " (Span.text line ⟨_, stop⟩ :: _)) = _
    rw [hjoin]
    rfl
  | redirect _ ih => exact ih hline

end Spells

/-! ### Nodes of the grammar -/

namespace Grammar

variable {g : Grammar} {parent : Nat} {text : Text}

/-- A part of a command is what a node of the grammar reads in the line, at the place where the part
    stands: a literal is its name, and an argument what its kind of argument makes of the rest of
    the line. -/
def Reads (g : Grammar) (line : Text) (i : Nat) : CommandNode → Prop
  | .literal text offset =>
    (g.node i).kind = .literal ∧ (g.node i).name = text ∧
      Span.text line ⟨offset, offset + text.length⟩ = text
  | .argument name value offset length =>
    ∃ kind, (g.node i).kind = .argument kind ∧ (g.node i).name = name ∧
      kind.parse (line.drop offset) = .ok (value, length)
  | .redirect _ => False

/-- A line may go on with a node after another one. -/
def Leads (g : Grammar) (i j : Nat) : Prop :=
  ∃ added target, g.Onward i added target ∧ j ∈ g.children target

/-- What may be tried after a node are children of it. -/
theorem mem_children_of_mem_alternatives {i : Nat} (h : i ∈ g.alternatives parent text) :
    i ∈ g.children parent := by
  simp only [alternatives] at h
  split at h
  · exact List.mem_of_mem_filter h
  · exact List.mem_of_mem_filter (List.mem_of_mem_take h)

/-- An alternative reads its part where it was tried. -/
theorem Takes.reads {pos i length : Nat} {line : Text} {part : CommandNode}
    (h : g.Takes pos text i part length) (hi : i ∈ g.alternatives parent text)
    (hline : line.RestAt pos text) : g.Reads line i part := by
  cases h with
  | literal hkind =>
    obtain ⟨rest, rfl⟩ : (g.node i).name <+: text :=
      name_of_mem_alternatives hi hkind ▸ List.takeWhile_prefix _
    exact ⟨hkind, rfl, hline.span_text⟩
  | argument hkind hparse =>
    refine ⟨_, hkind, rfl, ?_⟩
    rw [hline.drop_eq]
    exact hparse

/-- A part that an alternative takes is no redirect. -/
theorem Takes.isSome_span? {pos i length : Nat} {part : CommandNode}
    (h : g.Takes pos text i part length) : part.span?.isSome = true := by
  cases h <;> rfl

/-- The nodes that a derivation goes through: each follows the one before it, and each reads its
    part of the line. -/
theorem Derives.exists_path {pos : Nat} {line : Text} {ks : List Nat} {nodes : List CommandNode}
    (h : g.Derives parent pos text ks nodes) (hline : line.RestAt pos text) :
    ∃ i path, i ∈ g.children parent ∧ (i :: path).IsChain g.Leads ∧
      List.Forall₂ (g.Reads line) (i :: path) (nodes.filter fun node => node.span?.isSome) := by
  induction h with
  | @last parent pos text k i part hi htakes hexecutable =>
    have hmem := List.mem_of_getElem? hi
    refine ⟨i, [], mem_children_of_mem_alternatives hmem, .singleton _, ?_⟩
    rw [List.filter_cons, if_pos htakes.isSome_span?]
    exact .cons (htakes.reads hmem hline) .nil
  | @step parent pos text k i part span rest added target ks nodes hi htakes htext honward
      hrest ih =>
    have hmem := List.mem_of_getElem? hi
    have hadded : added.filter (fun node => node.span?.isSome) = [] := by cases honward <;> rfl
    obtain ⟨j, path, hj, hchain, hreads⟩ := ih (htext ▸ hline).next
    refine ⟨i, j :: path, mem_children_of_mem_alternatives hmem,
      List.isChain_cons_cons.mpr ⟨⟨added, target, honward, hj⟩, hchain⟩, ?_⟩
    rw [List.cons_append, List.filter_cons, if_pos htakes.isSome_span?, List.filter_append, hadded,
      List.nil_append]
    exact .cons (htakes.reads hmem hline) hreads

/-- The literals and arguments among some nodes tile a line. -/
structure Tiles (g : Grammar) (line : Text) (nodes : List CommandNode) : Prop where
  /-- there is a first part, and it starts with the line -/
  first : (spansOf nodes).head?.map (·.start) = some 0
  /-- the next part starts one byte after the end of a part, and that byte is a space -/
  adjacent : (spansOf nodes).IsChain fun s t =>
    t.start = s.stop + 1 ∧ (line.drop s.stop).head? = some Text.blank
  /-- the last part ends with the line -/
  last : (spansOf nodes).getLast?.map (·.stop) = some line.length
  /-- the parts are read by the nodes of a path from the root, in order -/
  read : ∃ i path, i ∈ g.children root ∧ (i :: path).IsChain g.Leads ∧
    List.Forall₂ (g.Reads line) (i :: path) (nodes.filter fun node => node.span?.isSome)
  /-- with single spaces between them the parts are the line -/
  joined : Text.join " " ((spansOf nodes).map (Span.text line)) = line

end Grammar

/-- The literals and arguments of a command tile its line, whatever the grammar. -/
theorem parse_tiles {g : Grammar} {line : Text} {nodes : List CommandNode}
    (h : g.parse line = .ok nodes) : g.Tiles line nodes := by
  have hspells := Grammar.spells_of_parse h
  obtain ⟨ks, hderives, -⟩ :=
    Grammar.exists_first_of_parseChildren (Grammar.parse_eq_ok_iff.mp h) (Nat.lt_succ_self _)
  obtain ⟨stop, spans, hspans⟩ := hspells.exists_spans
  constructor
  case first => rw [hspans, List.head?_cons, Option.map_some]
  case adjacent => exact hspells.isChain_spans (.refl line)
  case last => rw [hspells.getLast?_spans, Nat.zero_add]
  case read => exact hderives.exists_path (.refl line)
  case joined => exact hspells.join_spans (.refl line)

/-- A grammar in which an argument leads back to the root by a redirect, and a literal without
    one. -/
def loopingGrammar : Grammar :=
  ⟨#[⟨.root, "root", [1, 2, 4], false, none, []⟩, ⟨.literal, "run", [], false, none, []⟩,
    ⟨.literal, "as", [3], false, none, []⟩,
    ⟨.argument .word, "who", [], false, some 0, "brigadier:string"⟩,
    ⟨.literal, "say", [5], false, none, []⟩,
    ⟨.argument .message, "message", [], true, none, "minecraft:message"⟩]⟩

/-- The last argument holds spaces, one of them at its start. -/
theorem loopingGrammar_tiles :
    let nodes : List CommandNode :=
      [.literal "as" 0, .argument "who" (.string "me") 3 2, .redirect "root", .literal "run" 6,
        .literal "say" 10, .argument "message" (.raw " a b") 14 4]
    loopingGrammar.parse "as me run say  a b" = .ok nodes ∧
    loopingGrammar.Tiles "as me run say  a b" nodes :=
  ⟨rfl, parse_tiles rfl⟩

end DatapackDebug
