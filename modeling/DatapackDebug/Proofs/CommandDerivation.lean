import DatapackDebug.Command
import Mathlib.Data.List.Lex

namespace DatapackDebug

/-!
# Derivations of commands

A line is a command of a grammar if it can be derived: at each level one of the alternatives is
chosen, which takes its part off the line, and either the line ends there or a space and the next
level follow. Derivations are ordered by their choices, level by level.

* `Grammar.alternatives` — what may be tried: a literal that is the next word goes before all
  arguments;
* `Grammar.Takes`, `Grammar.Onward` — the part that a node takes, and where the line goes on after
  it;
* `Grammar.Derives` — a derivation by its choices and the nodes of the command;
* `Grammar.toOption_parseChildren` — a level leads to what its first successful alternative leads
  to;
* `parse_eq_first_derivation` — the parser finds the first derivation, and fails if there is none.
-/

namespace Grammar

variable (g : Grammar) {length : Nat}

/-! ### What is derived -/

/-- The children that may go on at a text: the first literal that is the text up to the next space,
    or, if there is no such literal, every argument in the order of declaration. -/
def alternatives (parent : Nat) (text : Text) : List Nat :=
  let word := text.takeWhile (· != Text.blank)
  let literals := (g.children parent).filter fun c =>
    (g.node c).kind == .literal && (g.node c).name == word
  if literals = [] then (g.children parent).filter g.isArgument else literals.take 1

/-- The part that a node takes off a text at a position, with its length. -/
inductive Takes (pos : Nat) (text : Text) (i : Nat) : CommandNode → Nat → Prop where
  | literal : (g.node i).kind = .literal →
      Takes pos text i (.literal (g.node i).name pos) (g.node i).name.length
  | argument {kind value length} : (g.node i).kind = .argument kind →
      kind.parse text = .ok (value, length) →
      Takes pos text i (.argument (g.node i).name value pos length) length

/-- Where a line goes on after a node: with its children, else with those of its redirect, which is
    marked, else with the root, unless a command can end at the node. -/
inductive Onward (i : Nat) : List CommandNode → Nat → Prop where
  | children : (g.node i).children ≠ [] → Onward i [] i
  | redirect {target} : (g.node i).children = [] → (g.node i).redirect = some target →
      Onward i [.redirect (g.node target).name] target
  | root : (g.node i).children = [] → (g.node i).redirect = none → (g.node i).executable = false →
      Onward i [] root

/-- A derivation of a text at a position from the children of a node: the numbers of the
    alternatives that are chosen, and the nodes of the command. -/
inductive Derives : Nat → Nat → Text → List Nat → List CommandNode → Prop where
  | last {parent pos text k i part} : (g.alternatives parent text)[k]? = some i →
      g.Takes pos text i part text.length → (g.node i).executable = true →
      Derives parent pos text [k] [part]
  | step {parent pos text k i part span rest added target ks nodes} :
      (g.alternatives parent text)[k]? = some i → g.Takes pos text i part span.length →
      text = span ++ Text.blank :: rest → g.Onward i added target →
      Derives target (pos + span.length + 1) rest ks nodes →
      Derives parent pos text (k :: ks) (part :: added ++ nodes)

/-! ### Parts of a command -/

variable {g} {i parent pos : Nat} {text : Text} {part : CommandNode}
  {added nodes : List CommandNode} {next : Nat → Nat → Text → Parsed} {ks : List Nat}

theorem takes_iff :
    g.Takes pos text i part length ↔ g.takeNode i pos text = .ok (part, length) := by
  constructor
  · intro h
    cases h with
    | literal hkind => simp [takeNode, hkind]
    | argument hkind hparse => simp [takeNode, hkind, hparse]
  · intro h
    cases hkind : (g.node i).kind with
    | root => simp [takeNode, hkind] at h
    | literal =>
      simp only [takeNode, hkind] at h
      cases h
      exact .literal hkind
    | argument kind =>
      simp only [takeNode, hkind] at h
      split at h
      next hparse =>
        cases h
        exact .argument hkind hparse
      · simp at h

theorem onward_iff {target : Nat} :
    g.Onward i added target ↔ g.onward? i = some (added, target) := by
  constructor
  · intro h
    cases h with
    | children hchildren => simp [onward?, hchildren]
    | redirect hchildren hredirect => simp [onward?, hchildren, hredirect]
    | root hchildren hredirect hexecutable => simp [onward?, hchildren, hredirect, hexecutable]
  · intro h
    simp only [onward?] at h
    split at h
    next hchildren =>
      cases h
      exact .children (by simpa using hchildren)
    next hchildren =>
      have hchildren : (g.node i).children = [] := by simpa using hchildren
      split at h
      next target' hredirect =>
        cases h
        exact .redirect hchildren hredirect
      next hredirect =>
        split at h
        · simp at h
        next hexecutable =>
          cases h
          exact .root hchildren hredirect (by simpa using hexecutable)

/-- A node takes one part only. -/
theorem Takes.unique {length' : Nat} {part' : CommandNode} (h : g.Takes pos text i part length)
    (h' : g.Takes pos text i part' length') : part = part' ∧ length = length' := by
  rw [takes_iff] at h h'
  exact Prod.mk.inj (Except.ok.inj (h.symm.trans h'))

/-- A line goes on in one way only. -/
theorem Onward.unique {target target' : Nat} {added' : List CommandNode}
    (h : g.Onward i added target) (h' : g.Onward i added' target') :
    added = added' ∧ target = target' := by
  rw [onward_iff] at h h'
  exact Prod.mk.inj (Option.some.inj (h.symm.trans h'))

/-- A literal alternative is the next word. -/
theorem name_of_mem_alternatives (hi : i ∈ g.alternatives parent text)
    (hkind : (g.node i).kind = .literal) : (g.node i).name = text.takeWhile (· != Text.blank) := by
  simp only [alternatives] at hi
  split at hi
  · simp [isArgument, hkind] at hi
  · simpa [hkind] using (List.mem_filter.mp (List.mem_of_mem_take hi)).2

/-- An alternative takes no more than there is. -/
theorem Takes.length_le (h : g.Takes pos text i part length) (hi : i ∈ g.alternatives parent text) :
    length ≤ text.length := by
  cases h with
  | literal hkind =>
    rw [name_of_mem_alternatives hi hkind]
    exact (List.takeWhile_prefix _).length_le
  | argument hkind hparse =>
    unfold Argument.Kind.parse at hparse
    split at hparse
    · cases hparse
      exact Nat.sub_le ..
    · simp at hparse

/-! ### One level -/

/-- A node that takes the whole text leads to a command if a command can end there. -/
theorem parseNode_of_takes_all (h : g.Takes pos text i part text.length) :
    g.parseNode next i pos text = .ok nodes ↔ (g.node i).executable = true ∧ nodes = [part] := by
  have htake := takes_iff.mp h
  cases hexecutable : (g.node i).executable <;>
    simp [parseNode, htake, hexecutable, bind, Except.bind, pure, Except.pure, eq_comm]

/-- A node that takes the text up to a space leads to a command if the next level does. -/
theorem parseNode_of_takes_span {span rest : Text}
    (h : g.Takes pos (span ++ Text.blank :: rest) i part span.length) :
    g.parseNode next i pos (span ++ Text.blank :: rest) = .ok nodes ↔
      ∃ added target tail, g.Onward i added target ∧
        next target (pos + span.length + 1) rest = .ok tail ∧ nodes = part :: added ++ tail := by
  have htake := takes_iff.mp h
  cases honward : g.onward? i with
  | none => simp [parseNode, htake, honward, onward_iff, bind, Except.bind]
  | some onward =>
    obtain ⟨added, target⟩ := onward
    cases hnext : next target (pos + span.length + 1) rest with
    | error fault => simp [parseNode, htake, honward, onward_iff, hnext, bind, Except.bind]
    | ok tail =>
      simp [parseNode, htake, honward, onward_iff, hnext, bind, Except.bind, pure, Except.pure,
        eq_comm]

/-- An alternative that leads to a command takes the whole text or stops before a space. -/
theorem takes_of_parseNode (hi : i ∈ g.alternatives parent text)
    (h : g.parseNode next i pos text = .ok nodes) :
    ∃ part, g.Takes pos text i part text.length ∨
      ∃ span rest, text = span ++ Text.blank :: rest ∧ g.Takes pos text i part span.length := by
  cases htake : g.takeNode i pos text with
  | error fault => simp [parseNode, htake, bind, Except.bind] at h
  | ok taken =>
    obtain ⟨part, length⟩ := taken
    have htakes : g.Takes pos text i part length := takes_iff.mpr htake
    have hle := htakes.length_le hi
    refine ⟨part, ?_⟩
    cases hdrop : text.drop length with
    | nil =>
      have hall : length = text.length := Nat.le_antisymm hle (List.drop_eq_nil_iff.mp hdrop)
      exact .inl (hall ▸ htakes)
    | cons b rest =>
      have hblank : b = Text.blank := by
        by_contra hne
        simp [parseNode, htake, hdrop, hne, bind, Except.bind] at h
      have hlength : (text.take length).length = length := List.length_take_of_le hle
      refine .inr ⟨text.take length, rest, ?_, by rwa [hlength]⟩
      rw [← hblank, ← hdrop, List.take_append_drop]

/-- The first success among nodes, if there is one. -/
theorem toOption_firstOf (attempt : Nat → Parsed) (none? : CommandFault)
    (best : Option CommandFault) (is : List Nat) :
    (firstOf attempt none? best is).toOption = is.findSome? fun i => (attempt i).toOption := by
  induction is generalizing best with
  | nil => rfl
  | cons i is ih =>
    rw [firstOf, List.findSome?_cons]
    cases attempt i with
    | ok nodes => rfl
    | error fault => exact ih _

theorem alternatives_eq (parent : Nat) (text : Text) :
    g.alternatives parent text =
      match g.literalChild? parent (text.takeWhile (· != Text.blank)) with
      | some i => [i]
      | none => (g.children parent).filter g.isArgument := by
  simp only [alternatives, literalChild?, ← List.head?_filter]
  split
  next hnone => simp [hnone]
  next hsome =>
    obtain ⟨i, is, his⟩ := List.exists_cons_of_ne_nil hsome
    simp [his]

/-- A level leads to what its first alternative leads to that leads to a command. -/
theorem toOption_parseChildren (n parent pos : Nat) (text : Text) :
    (g.parseChildren (n + 1) parent pos text).toOption =
      (g.alternatives parent text).findSome? fun i =>
        (g.parseNode (g.parseChildren n) i pos text).toOption := by
  rw [parseChildren, alternatives_eq]
  cases g.literalChild? parent (text.takeWhile (· != Text.blank)) with
  | some i =>
    rw [List.findSome?_singleton]
  | none => exact toOption_firstOf ..

/-! ### The first derivation -/

/-- Where the level below finds a command for each derivation, so does an alternative. -/
theorem Derives.exists_parseNode {n k : Nat} (h : g.Derives parent pos text (k :: ks) nodes)
    (hnext : ∀ target pos rest ks nodes, rest.length < text.length →
      g.Derives target pos rest ks nodes →
      ∃ nodes', g.parseChildren n target pos rest = .ok nodes') :
    ∃ i nodes', (g.alternatives parent text)[k]? = some i ∧
      g.parseNode (g.parseChildren n) i pos text = .ok nodes' := by
  cases h with
  | last hi htakes hexecutable =>
    exact ⟨_, _, hi, (parseNode_of_takes_all htakes).mpr ⟨hexecutable, rfl⟩⟩
  | step hi htakes htext honward hrest =>
    obtain ⟨tail, htail⟩ := hnext _ _ _ _ _ (by simp [htext]; omega) hrest
    subst htext
    exact ⟨_, _, hi, (parseNode_of_takes_span htakes).mpr ⟨_, _, tail, honward, htail, rfl⟩⟩

/-- Every derivation chooses something. -/
theorem Derives.exists_choice (h : g.Derives parent pos text ks nodes) :
    ∃ k ks', ks = k :: ks' := by
  cases h <;> exact ⟨_, _, rfl⟩

/-- With enough fuel, the parser finds a command if there is a derivation. -/
theorem Derives.exists_parseChildren {n : Nat} (h : g.Derives parent pos text ks nodes)
    (hn : text.length < n) : ∃ nodes', g.parseChildren n parent pos text = .ok nodes' := by
  induction n generalizing parent pos text ks nodes with
  | zero => simp at hn
  | succ n ih =>
    obtain ⟨k, ks, rfl⟩ := h.exists_choice
    obtain ⟨i, nodes', hi, hnode⟩ := h.exists_parseNode fun _ _ _ _ _ hlt hrest =>
      ih hrest (by omega)
    have hsome : (g.parseChildren (n + 1) parent pos text).toOption.isSome = true := by
      rw [toOption_parseChildren, List.isSome_findSome?, List.any_eq_true]
      exact ⟨i, List.mem_of_getElem? hi, by rw [hnode]; rfl⟩
    cases hparse : g.parseChildren (n + 1) parent pos text with
    | ok nodes' => exact ⟨nodes', rfl⟩
    | error fault => simp [hparse, Except.toOption] at hsome

section

variable {k : Nat}

/-- An alternative that takes the whole text ends its derivation. -/
theorem Derives.of_takes_all (h : g.Derives parent pos text (k :: ks) nodes)
    (hi : (g.alternatives parent text)[k]? = some i)
    (htakes : g.Takes pos text i part text.length) : ks = [] ∧ nodes = [part] := by
  cases h with
  | last hi' htakes' =>
    cases hi.symm.trans hi'
    exact ⟨rfl, by rw [(htakes.unique htakes').1]⟩
  | step hi' htakes' htext =>
    cases hi.symm.trans hi'
    have hlength := (htakes.unique htakes').2
    simp [htext] at hlength

/-- An alternative that takes the text up to a space is followed by a derivation of the rest. -/
theorem Derives.of_takes_span {span rest : Text} {target : Nat}
    (h : g.Derives parent pos text (k :: ks) nodes) (hi : (g.alternatives parent text)[k]? = some i)
    (htakes : g.Takes pos text i part span.length) (htext : text = span ++ Text.blank :: rest)
    (honward : g.Onward i added target) :
    ∃ tail, g.Derives target (pos + span.length + 1) rest ks tail ∧
      nodes = part :: added ++ tail := by
  cases h with
  | last hi' htakes' =>
    cases hi.symm.trans hi'
    have hlength := (htakes.unique htakes').2
    simp [htext] at hlength
  | step hi' htakes' htext' honward' hrest =>
    cases hi.symm.trans hi'
    obtain ⟨rfl, hlength⟩ := htakes.unique htakes'
    obtain ⟨rfl, hrests⟩ := List.append_inj (htext.symm.trans htext') hlength
    cases hrests
    obtain ⟨rfl, rfl⟩ := honward.unique honward'
    exact ⟨_, hrest, rfl⟩

end

/-- The choices of a derivation determine its nodes. -/
theorem Derives.unique {nodes' : List CommandNode} (h : g.Derives parent pos text ks nodes)
    (h' : g.Derives parent pos text ks nodes') : nodes = nodes' := by
  induction h generalizing nodes' with
  | last hi htakes => exact (h'.of_takes_all hi htakes).2.symm
  | step hi htakes htext honward _ ih =>
    obtain ⟨tail, htail, rfl⟩ := h'.of_takes_span hi htakes htext honward
    rw [ih htail]

/-- The command that the parser finds is that of the first derivation. -/
theorem exists_first_of_parseChildren {n : Nat} (h : g.parseChildren n parent pos text = .ok nodes)
    (hn : text.length < n) :
    ∃ ks, g.Derives parent pos text ks nodes ∧
      ∀ ks' nodes', g.Derives parent pos text ks' nodes' → ks ≤ ks' := by
  induction n generalizing parent pos text nodes with
  | zero => simp at hn
  | succ n ih =>
    have hfound := toOption_parseChildren (g := g) n parent pos text
    rw [h, show (Except.ok nodes : Parsed).toOption = some nodes from rfl, eq_comm,
      List.findSome?_eq_some_iff] at hfound
    obtain ⟨before, i, after, halternatives, hnode, hbefore⟩ := hfound
    have hnode : g.parseNode (g.parseChildren n) i pos text = .ok nodes := by
      cases hresult : g.parseNode (g.parseChildren n) i pos text with
      | ok nodes' => simpa [hresult, Except.toOption] using hnode
      | error fault => simp [hresult, Except.toOption] at hnode
    have hi : (g.alternatives parent text)[before.length]? = some i := by simp [halternatives]
    -- No derivation starts with an alternative that was tried before.
    have hleast : ∀ k ks' nodes', g.Derives parent pos text (k :: ks') nodes' →
        before.length ≤ k := by
      intro k ks' nodes' h'
      obtain ⟨j, nodes'', hj, hresult⟩ := h'.exists_parseNode (n := n) fun _ _ _ _ _ hlt hrest =>
        hrest.exists_parseChildren (by omega)
      by_contra hlt
      rw [halternatives, List.getElem?_append_left (by omega)] at hj
      simpa [hresult, Except.toOption] using hbefore j (List.mem_of_getElem? hj)
    -- It is enough to compare derivations that start with the same alternative.
    have hfirst : ∀ ks,
        (∀ ks' nodes', g.Derives parent pos text (before.length :: ks') nodes' → ks ≤ ks') →
        ∀ ks' nodes', g.Derives parent pos text ks' nodes' → before.length :: ks ≤ ks' := by
      intro ks hsame ks' nodes' h'
      obtain ⟨k, ks', rfl⟩ := h'.exists_choice
      rcases Nat.lt_or_eq_of_le (hleast k ks' nodes' h') with hlt | rfl
      · exact le_of_lt (List.Lex.rel hlt)
      · exact List.cons_le_cons _ (hsame ks' nodes' h')
    have hnil : ∀ ks' : List Nat, [] ≤ ks' := by
      intro ks'
      cases ks' with
      | nil => exact le_rfl
      | cons k ks' => exact le_of_lt List.Lex.nil
    obtain ⟨part, htakes | ⟨span, rest, rfl, htakes⟩⟩ :=
      takes_of_parseNode (List.mem_of_getElem? hi) hnode
    · obtain ⟨hexecutable, rfl⟩ := (parseNode_of_takes_all htakes).mp hnode
      exact ⟨_, .last hi htakes hexecutable, hfirst [] fun ks' _ _ => hnil ks'⟩
    · obtain ⟨added, target, tail, honward, hnext, rfl⟩ := (parseNode_of_takes_span htakes).mp hnode
      obtain ⟨ks, hrest, hrestFirst⟩ := ih hnext (by simp at hn; omega)
      refine ⟨_, .step hi htakes rfl honward hrest, hfirst ks fun ks' nodes' h' => ?_⟩
      obtain ⟨tail', htail', -⟩ := h'.of_takes_span hi htakes rfl honward
      exact hrestFirst ks' tail' htail'

theorem parse_eq_ok_iff {line : Text} :
    g.parse line = .ok nodes ↔ g.parseChildren (line.length + 1) root 0 line = .ok nodes := by
  unfold parse
  cases g.parseChildren (line.length + 1) root 0 line <;> simp [Except.mapError]

end Grammar

/-- The parser accepts exactly the lines that have a derivation from the root, and fails on all
    others, with an error in place of nodes.  It returns the nodes of the first derivation, where
    derivations are ordered by the alternative that is chosen at the first level, then at the
    second, and so on. -/
theorem parse_eq_first_derivation (g : Grammar) (line : Text) :
    ((∃ nodes, g.parse line = .ok nodes) ↔ ∃ ks nodes, g.Derives Grammar.root 0 line ks nodes) ∧
    ((∃ e, g.parse line = .error e) ↔ ∀ ks nodes, ¬ g.Derives Grammar.root 0 line ks nodes) ∧
    ∀ nodes, g.parse line = .ok nodes ↔
      ∃ ks, g.Derives Grammar.root 0 line ks nodes ∧
        ∀ ks' nodes', g.Derives Grammar.root 0 line ks' nodes' → ks ≤ ks' := by
  have hfirst : ∀ {nodes}, g.parse line = .ok nodes → ∃ ks, g.Derives Grammar.root 0 line ks nodes ∧
      ∀ ks' nodes', g.Derives Grammar.root 0 line ks' nodes' → ks ≤ ks' := fun h =>
    Grammar.exists_first_of_parseChildren (Grammar.parse_eq_ok_iff.mp h) (Nat.lt_succ_self _)
  have hfound : ∀ {ks nodes}, g.Derives Grammar.root 0 line ks nodes →
      ∃ nodes', g.parse line = .ok nodes' := fun h => by
    obtain ⟨nodes', hnodes'⟩ := h.exists_parseChildren (Nat.lt_succ_self _)
    exact ⟨nodes', Grammar.parse_eq_ok_iff.mpr hnodes'⟩
  refine ⟨⟨?_, ?_⟩, ⟨?_, ?_⟩, fun nodes => ⟨hfirst, ?_⟩⟩
  · rintro ⟨nodes, h⟩
    obtain ⟨ks, hderives, -⟩ := hfirst h
    exact ⟨ks, nodes, hderives⟩
  · rintro ⟨ks, nodes, hderives⟩
    exact hfound hderives
  · rintro ⟨e, he⟩ ks nodes hderives
    obtain ⟨nodes', h⟩ := hfound hderives
    simp [he] at h
  · intro hnone
    cases h : g.parse line with
    | error e => exact ⟨e, rfl⟩
    | ok nodes =>
      obtain ⟨ks, hderives, -⟩ := hfirst h
      exact absurd hderives (hnone ks nodes)
  · rintro ⟨ks, hderives, hleast⟩
    obtain ⟨nodes', h⟩ := hfound hderives
    obtain ⟨ks', hderives', hleast'⟩ := hfirst h
    obtain rfl : ks = ks' :=
      le_antisymm (hleast ks' nodes' hderives') (hleast' ks nodes hderives)
    rwa [hderives.unique hderives']

/-- A literal that leads back to the root may stand any number of times. -/
example :
    let root : Node := ⟨.root, "root", [1, 2], false, none, []⟩
    let again : Node := ⟨.literal, "again", [], false, some 0, []⟩
    let stop : Node := ⟨.literal, "stop", [], true, none, []⟩
    Grammar.parse ⟨#[root, again, stop]⟩ "again again stop" =
      .ok [.literal "again" 0, .redirect "root", .literal "again" 6, .redirect "root",
        .literal "stop" 12] := by rfl

end DatapackDebug
