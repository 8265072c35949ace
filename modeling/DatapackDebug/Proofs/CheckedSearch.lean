import DatapackDebug.Proofs.DeepestFault
import DatapackDebug.Proofs.GrammarDocument
import DatapackDebug.Proofs.LoopBounds

namespace DatapackDebug

/-!
# The search for a command stays in range

The parser passes on the rest of the line, so it cannot read outside.  A search that keeps positions
in the line instead, cuts the line at them and looks nodes up by their numbers could: here every
look-up and every cut is checked, and a search that is out of range, or that goes on for too long,
has no result.

* `Text.slice?` — the part of a line between two positions that lie in it;
* `Grammar.searchChildren` — the checked search, and the parts it is made of;
* `Grammar.Closed.searchChildren_eq` — in a closed grammar it always has a result, that of the
  parser;
* `parse_in_range` — no line leads out of range, and the error is the deepest one.
-/

variable {line : Text} {i pos : Nat}

/-- The part of a line from one position up to another, if they lie in the line in this order. -/
def Text.slice? (line : Text) (start stop : Nat) : Option Text :=
  if start ≤ stop ∧ stop ≤ line.length then some ((line.take stop).drop start) else none

/-- The byte at a position that lies before the end of the line. -/
def Text.byte? (line : Text) (pos : Nat) : Option UInt8 :=
  (line.slice? pos line.length).bind List.head?

/-- The node of a number, if there is one. -/
def Grammar.node? (g : Grammar) (i : Nat) : Option Node := g.nodes[i]?

/-- The nodes of several numbers with these, if there are all of them. -/
def Grammar.nodes? (g : Grammar) (is : List Nat) : Option (List (Nat × Node)) :=
  is.mapM fun i => (g.node? i).map (i, ·)

theorem Text.slice?_rest (h : pos ≤ line.length) :
    line.slice? pos line.length = some (line.drop pos) := by
  rw [slice?, if_pos ⟨h, le_rfl⟩, List.take_length]

/-! ### The checked search -/

/-- What a search comes to: nothing if it goes out of range, else a value or an error. -/
abbrev Searched := ExceptT CommandError Option

namespace Searched

/-- The search fails at a position; the error shows the text before it. -/
def failAt {α : Type} (line : Text) (cause : CommandCause) (index : Nat) : Searched α := do
  let near ← line.slice? (index - CommandError.nearLength) index
  throw ⟨⟨cause, index⟩, near⟩

/-- The error that lies further to the right, or the first. -/
def further (first : Option CommandError) (second : CommandError) : CommandError :=
  match first with
  | none => second
  | some first => if second.index > first.index then second else first

/-- The first success among nodes, or the error that lies furthest to the right; `empty` if there
    are no nodes. -/
def firstOf {α : Type} (attempt : Nat → Searched α) (empty : Searched α) :
    Option CommandError → List Nat → Searched α
  | best, [] => best.elim empty throw
  | best, i :: is => tryCatch (attempt i) fun e => firstOf attempt empty (some (further best e)) is

end Searched

namespace Grammar

/-- What node `i` takes at a position: the part of the command and its length. -/
def searchPart (g : Grammar) (line : Text) (i pos : Nat) : Searched (CommandNode × Nat) := do
  let node ← g.node? i
  match node.kind with
  | .root => .failAt line .unknownOrIncomplete pos
  | .literal => return (.literal node.name pos, node.name.length)
  | .argument kind =>
    match kind.parse (← line.slice? pos line.length) with
    | .ok (value, length) => return (.argument node.name value pos length, length)
    | .error e => .failAt line (.argument e.cause) (pos + e.offset)

/-- Where a line goes on after node `i`, and the parts of the command that this adds. -/
def searchOnward (g : Grammar) (i : Nat) : Option (Option (List CommandNode × Nat)) := do
  let node ← g.node? i
  if !node.children.isEmpty then return some ([], i)
  else match node.redirect with
    | some target => return some ([.redirect (← g.node? target).name], target)
    | none => return if node.executable then none else some ([], root)

/-- The command that goes on with node `i`; `next` searches the children of a node. -/
def searchNode (g : Grammar) (line : Text) (next : Nat → Nat → Searched (List CommandNode))
    (i pos : Nat) :
    Searched (List CommandNode) := do
  let (part, length) ← g.searchPart line i pos
  let stop := pos + length
  let node ← g.node? i
  if stop = line.length then
    if node.executable then return [part] else .failAt line .unknownOrIncomplete stop
  else if (← line.byte? stop) != Text.blank then .failAt line .trailingData stop
  else match ← g.searchOnward i with
    | none => .failAt line .incorrectArgument stop
    | some (added, target) => return part :: added ++ (← next target (stop + 1))

/-- The number of the first literal among nodes that is exactly the given word. -/
def literalAmong? (word : Text) (nodes : List (Nat × Node)) : Option Nat :=
  (nodes.find? fun n => n.2.kind == .literal && n.2.name == word).map (·.1)

/-- The numbers of the arguments among nodes. -/
def argumentsAmong (nodes : List (Nat × Node)) : List Nat :=
  (nodes.filter fun n => n.2.kind matches .argument _).map (·.1)

/-- The command that goes on at a position with a child of a node.  A search through more levels
    than allowed has no result. -/
def searchChildren (g : Grammar) (line : Text) : Nat → Nat → Nat → Searched (List CommandNode)
  | 0, _, _ => (none : Option _)
  | n + 1, parent, pos => do
    let node ← g.node? parent
    let children ← g.nodes? node.children
    let rest ← line.slice? pos line.length
    match literalAmong? (rest.takeWhile (· != Text.blank)) children with
    | some i => g.searchNode line (searchChildren g line n) i pos
    | none =>
      let cause := if parent == root then .unknownOrIncomplete else .incorrectArgument
      .firstOf (fun i => g.searchNode line (searchChildren g line n) i pos)
        (.failAt line cause pos) none (argumentsAmong children)

end Grammar

/-! ### Look-ups in range -/

/-- A look-up that is in range is its value. -/
theorem Searched.lift_bind {α β : Type} {look : Option α} {a : α} (h : look = some a)
    (f : α → Searched β) : (liftM look >>= f : Searched β) = f a := by
  subst h
  rfl

theorem Searched.failAt_eq {α : Type} {index : Nat} (cause : CommandCause)
    (h : index ≤ line.length) :
    (failAt line cause index : Searched α) = some (.error (.ofFault line ⟨cause, index⟩)) := by
  have hnear : line.slice? (index - CommandError.nearLength) index =
      some ((line.take index).drop (index - CommandError.nearLength)) := if_pos ⟨Nat.sub_le .., h⟩
  unfold failAt
  rw [lift_bind hnear]
  rfl

theorem Text.byte?_eq {rest : Text} {b : UInt8} (h : line.drop pos = b :: rest) :
    line.byte? pos = some b := by
  have hpos : pos < line.length := by
    by_contra hle
    rw [List.drop_of_length_le (Nat.le_of_not_lt hle)] at h
    cases h
  rw [byte?, slice?_rest hpos.le, h]
  rfl

namespace Grammar

variable {g : Grammar}

theorem node?_eq (h : i < g.nodes.size) : g.node? i = some (g.node i) := node_of_lt h

theorem nodes?_eq {is : List Nat} (h : ∀ i ∈ is, i < g.nodes.size) :
    g.nodes? is = some (is.map fun i => (i, g.node i)) := by
  induction is with
  | nil => rfl
  | cons i is ih =>
    have hi : g.node? i = some (g.node i) := node?_eq (h i List.mem_cons_self)
    have his := ih fun j hj => h j (List.mem_cons_of_mem i hj)
    unfold nodes? at his ⊢
    rw [List.mapM_cons, his, hi]
    rfl

/-! ### Children and redirections -/

theorem literalAmong?_eq (parent : Nat) (word : Text) :
    literalAmong? word ((g.children parent).map fun i => (i, g.node i)) =
      g.literalChild? parent word := by
  rw [literalAmong?, List.find?_map, Option.map_map]
  exact Option.map_id_apply

theorem argumentsAmong_eq (parent : Nat) :
    argumentsAmong ((g.children parent).map fun i => (i, g.node i)) =
      (g.children parent).filter g.isArgument := by
  rw [argumentsAmong, List.filter_map, List.map_map]
  exact List.map_id ..

theorem Closed.searchOnward_eq (hg : g.Closed) (hi : i < g.nodes.size) :
    g.searchOnward i = some (g.onward? i) := by
  unfold searchOnward onward?
  rw [node?_eq hi]
  dsimp only [bind, Option.bind]
  split
  · rfl
  · cases hredirect : (g.node i).redirect with
    | none => rfl
    | some target =>
      dsimp only
      rw [node?_eq (hg.redirect i target hredirect)]
      rfl

/-- A line goes on with a node. -/
theorem Closed.lt_of_onward (hg : g.Closed) {target : Nat} {added : List CommandNode}
    (hi : i < g.nodes.size) (h : g.Onward i added target) : target < g.nodes.size := by
  cases h with
  | children => exact hi
  | redirect _ hredirect => exact hg.redirect i target hredirect
  | root => exact hg.root

/-! ### The search and the parser -/

/-- A result of the parser, with an error that shows the text before it. -/
def shown {α : Type} (line : Text) (result : Except CommandFault α) : Searched α :=
  some (result.mapError (.ofFault line))

theorem shown_bind {α β : Type} {result : Except CommandFault α} {f : α → Searched β}
    {f' : α → Except CommandFault β} (h : ∀ a, result = .ok a → f a = shown line (f' a)) :
    shown line result >>= f = shown line (result >>= f') := by
  cases result with
  | error fault => rfl
  | ok a => exact h a rfl

theorem further_eq (line : Text) (best : Option CommandFault) (fault : CommandFault) :
    Searched.further (best.map (.ofFault line)) (.ofFault line fault) =
      .ofFault line (deeper best fault) := by
  cases best with
  | none => rfl
  | some first =>
    show (if fault.index > first.index then _ else _) =
      CommandError.ofFault line (if _ then _ else _)
    split <;> rfl

/-- Attempts that agree have the same first success and the same deepest error. -/
theorem searchFirst_eq {attempt : Nat → Searched (List CommandNode)} {attempt' : Nat → Parsed}
    {empty : CommandFault} {is : List Nat} (best : Option CommandFault)
    (h : ∀ i ∈ is, attempt i = shown line (attempt' i)) :
    Searched.firstOf attempt (shown line (.error empty)) (best.map (.ofFault line)) is =
      shown line (firstOf attempt' empty best is) := by
  induction is generalizing best with
  | nil => cases best <;> rfl
  | cons i is ih =>
    have hi := h i List.mem_cons_self
    have his := fun best => ih best fun j hj => h j (List.mem_cons_of_mem i hj)
    rw [firstOf, Searched.firstOf, hi]
    cases attempt' i with
    | ok nodes => rfl
    | error fault =>
      have hfirst := his (some (deeper best fault))
      rw [Option.map_some, ← further_eq] at hfirst
      exact hfirst

/-- A node takes the same part as for the parser. -/
theorem searchPart_eq (hi : i < g.nodes.size) (hpos : pos ≤ line.length) :
    g.searchPart line i pos = shown line (g.takeNode i pos (line.drop pos)) := by
  unfold searchPart takeNode
  rw [Searched.lift_bind (node?_eq hi)]
  dsimp only
  cases (g.node i).kind with
  | root => exact Searched.failAt_eq _ hpos
  | literal => rfl
  | argument kind =>
    dsimp only
    rw [Searched.lift_bind (Text.slice?_rest hpos)]
    cases hparse : kind.parse (line.drop pos) with
    | ok r => rfl
    | error e =>
      have hoffset := (Argument.Kind.parse_error hparse).1
      rw [List.length_drop] at hoffset
      exact Searched.failAt_eq _ (by omega)

/-- Where the searches of the children agree, so do those of an alternative. -/
theorem Closed.searchNode_eq (hg : g.Closed) {next : Nat → Nat → Searched (List CommandNode)}
    {next' : Nat → Nat → Text → Parsed} {parent : Nat} (hi : i < g.nodes.size)
    (hpos : pos ≤ line.length) (halternative : i ∈ g.alternatives parent (line.drop pos))
    (hnext : ∀ target stop, target < g.nodes.size → pos < stop → stop ≤ line.length →
      next target stop = shown line (next' target stop (line.drop stop))) :
    g.searchNode line next i pos = shown line (g.parseNode next' i pos (line.drop pos)) := by
  unfold searchNode parseNode
  rw [searchPart_eq hi hpos]
  refine shown_bind fun r htake => ?_
  obtain ⟨part, length⟩ := r
  have hstop : pos + length ≤ line.length := by
    have hle := (takes_iff.mpr htake).length_le halternative
    rw [List.length_drop] at hle
    omega
  dsimp only
  rw [Searched.lift_bind (node?_eq hi), List.drop_drop]
  cases hrest : line.drop (pos + length) with
  | nil =>
    have hend : pos + length = line.length := Nat.le_antisymm hstop (List.drop_eq_nil_iff.mp hrest)
    rw [if_pos hend]
    dsimp only
    split
    · rfl
    · exact Searched.failAt_eq _ hstop
  | cons b rest =>
    have hlt : pos + length < line.length := by
      by_contra hle
      rw [List.drop_of_length_le (Nat.le_of_not_lt hle)] at hrest
      cases hrest
    rw [if_neg hlt.ne, Searched.lift_bind (Text.byte?_eq hrest)]
    dsimp only
    split
    · exact Searched.failAt_eq _ hstop
    · rw [Searched.lift_bind (hg.searchOnward_eq hi)]
      cases honward : g.onward? i with
      | none => exact Searched.failAt_eq _ hstop
      | some onward =>
        obtain ⟨added, target⟩ := onward
        have htarget := hg.lt_of_onward hi (onward_iff.mpr honward)
        have htail : line.drop (pos + length + 1) = rest := by
          rw [← List.drop_drop, hrest, List.drop_one, List.tail_cons]
        have hsearch := hnext target (pos + length + 1) htarget (by omega) hlt
        rw [htail] at hsearch
        dsimp only
        rw [hsearch]
        exact shown_bind fun nodes _ => rfl

/-- In a closed grammar the search never goes out of range, and it ends within any bound that
    exceeds the length of the rest.  It finds what the parser finds. -/
theorem Closed.searchChildren_eq (hg : g.Closed) {n m parent : Nat}
    (hparent : parent < g.nodes.size) (hpos : pos ≤ line.length) (hn : line.length - pos < n)
    (hm : line.length - pos < m) :
    g.searchChildren line n parent pos =
      shown line (g.parseChildren m parent pos (line.drop pos)) := by
  induction n generalizing m parent pos with
  | zero => omega
  | succ n ih =>
    cases m with
    | zero => omega
    | succ m =>
      have hchildren : ∀ i ∈ g.children parent, i < g.nodes.size := hg.children parent
      -- A level takes a space, so the bounds still suffice for the next one.
      have hnext : ∀ target stop, target < g.nodes.size → pos < stop → stop ≤ line.length →
          g.searchChildren line n target stop =
            shown line (g.parseChildren m target stop (line.drop stop)) := by
        intro target stop htarget hlt hstop
        exact ih htarget hstop (by omega) (by omega)
      have hnode : ∀ i ∈ g.alternatives parent (line.drop pos), i ∈ g.children parent →
          g.searchNode line (g.searchChildren line n) i pos =
            shown line (g.parseNode (g.parseChildren m) i pos (line.drop pos)) :=
        fun i halternative hi => hg.searchNode_eq (hchildren i hi) hpos halternative hnext
      rw [alternatives_eq] at hnode
      have hlook : g.nodes? (g.node parent).children =
          some ((g.children parent).map fun i => (i, g.node i)) :=
        nodes?_eq hchildren
      unfold searchChildren parseChildren
      rw [Searched.lift_bind (node?_eq hparent), Searched.lift_bind hlook,
        Searched.lift_bind (Text.slice?_rest hpos), literalAmong?_eq, argumentsAmong_eq]
      cases hliteral : g.literalChild? parent ((line.drop pos).takeWhile (· != Text.blank)) with
      | some i =>
        rw [hliteral] at hnode
        exact hnode i List.mem_cons_self (List.mem_of_find?_eq_some hliteral)
      | none =>
        rw [hliteral] at hnode
        dsimp only
        rw [Searched.failAt_eq _ hpos]
        exact searchFirst_eq none fun i hi => hnode i hi (List.mem_of_mem_filter hi)

end Grammar

/-- No line leads out of range, whatever grammar a document declares.  The search with checked
    look-ups and cuts always ends, with the result of the parser.  An error lies in the line and
    shows up to ten bytes before it; its fault is the deepest of all failed attempts, and of several
    such that of the first attempt.  Every kind of argument takes a front of its input, or fails at
    a place in it, and its loops end within their bounds. -/
theorem parse_in_range {document : Text} {g : Grammar} (hg : Grammar.ofJson document = .ok g)
    (line : Text) :
    (∀ n, line.length < n → g.searchChildren line n Grammar.root 0 = some (g.parse line)) ∧
    (∀ e, g.parse line = .error e →
      e.index ≤ line.length ∧ line.slice? (e.index - 10) e.index = some e.near ∧
      ∃ ks, ∀ ks' fault, g.Deepest Grammar.root 0 line ks' fault ↔ ks' = ks ∧
        fault = e.toCommandFault) ∧
    (∀ id properties input,
      (∀ value length, (Argument.Kind.ofId id properties).parse input = .ok (value, length) →
        length ≤ input.length ∧
        (Argument.Kind.ofId id properties).scan input = .ok (value, input.drop length)) ∧
      ∀ e, (Argument.Kind.ofId id properties).parse input = .error e →
        e.offset ≤ input.length ∧
          (Argument.Kind.ofId id properties).scan input = .error ⟨e.cause, input.drop e.offset⟩) ∧
    BoundsSuffice := by
  have hclosed := Grammar.closed_ofJson hg
  refine ⟨fun n hn => ?_, fun e he => ?_,
    fun id properties input => ⟨fun _ _ => Argument.Kind.parse_ok, fun _ =>
    Argument.Kind.parse_error⟩, boundsSuffice⟩
  · exact hclosed.searchChildren_eq hclosed.root (Nat.zero_le _) hn (Nat.lt_succ_self _)
  · cases hparse : g.parseChildren (line.length + 1) Grammar.root 0 line with
    | ok nodes =>
      rw [Grammar.parse, hparse] at he
      cases he
    | error fault =>
      rw [Grammar.parse, hparse] at he
      obtain rfl := Except.error.inj he
      obtain ⟨ks, hdeepest⟩ := Grammar.exists_deepest_of_parseChildren hparse (Nat.lt_succ_self _)
      have hindex : fault.index ≤ line.length := by
        have hle := hdeepest.fails.index_le
        omega
      refine ⟨hindex, if_pos ⟨Nat.sub_le .., hindex⟩, ks, fun ks' fault' => ⟨hdeepest.unique, ?_⟩⟩
      rintro ⟨rfl, rfl⟩
      exact hdeepest

/-- An empty literal leads back to the root; two arguments stand beside it. -/
def cyclicDocument : Text :=
  "\x7b\"type\":\"root\",\"children\":\x7b" ++
    "\"\":\x7b\"type\":\"literal\",\"redirect\":[]\x7d," ++
    "\"x\":\x7b\"type\":\"argument\",\"parser\":\"brigadier:integer\"\x7d," ++
    "\"y\":\x7b\"type\":\"argument\",\"parser\":\"brigadier:bool\"\x7d\x7d\x7d"

def cyclicGrammar : Grammar :=
  ⟨#[⟨.root, [], [1, 2, 3], false, none, []⟩, ⟨.literal, [], [], false, some 0, []⟩,
    ⟨.argument (.integer ⟨-2147483648, 2147483647⟩), "x", [], false, none, "brigadier:integer"⟩,
    ⟨.argument .bool, "y", [], false, none, "brigadier:bool"⟩]⟩

set_option maxRecDepth 10000 in
theorem ofJson_cyclicDocument : Grammar.ofJson cyclicDocument = .ok cyclicGrammar := by rfl

/-- Both arguments refuse the letter after the spaces; the error is that of the first. -/
theorem cyclicGrammar_in_range :
    let e : CommandError := ⟨⟨.argument (.missing (.number .integer)), 2⟩, "  "⟩
    Grammar.ofJson cyclicDocument = .ok cyclicGrammar ∧ cyclicGrammar.parse "  q" = .error e ∧
      cyclicGrammar.searchChildren "  q" 4 Grammar.root 0 = some (.error e) ∧
      ∃ ks, ∀ ks' fault, cyclicGrammar.Deepest Grammar.root 0 "  q" ks' fault ↔ ks' = ks ∧
        fault = e.toCommandFault := by
  intro e
  have hparse : cyclicGrammar.parse "  q" = .error e := rfl
  obtain ⟨hsearch, herror, -⟩ := parse_in_range ofJson_cyclicDocument "  q"
  exact ⟨ofJson_cyclicDocument, hparse, hparse ▸ hsearch 4 (by decide), (herror e hparse).2.2⟩

end DatapackDebug
