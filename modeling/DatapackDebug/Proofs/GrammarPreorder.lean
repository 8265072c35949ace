import DatapackDebug.Proofs.GrammarDocument
import Mathlib.Data.List.Nodup
import Mathlib.Data.List.Range

namespace DatapackDebug

/-!
# Grammars are in the order of their documents

The nodes of a grammar are numbered in the order of their declaration, every node but the root is
the child of one node, and redirects lead where the declared paths do.

* `CommandTree.map_indices` — the children of a node have the numbers at which their subtrees stand;
* `CommandTree.perm_children` — every node but the root is a child exactly once;
* `Grammar.PathTo` — a path of names, step by step;
* `loaded_grammar_preorder` — all of this for a grammar that is read from a document.
-/

namespace CommandTree

/-! ### Numbers of children -/

/-- Trees that stand one after the other have the numbers at which they stand. -/
theorem map_indices {all rest : List CommandTree} {first : Nat} {ts : List CommandTree}
    (h : all.drop first = subtreesOf ts ++ rest) :
    (indices first ts).map (all[·]?) = ts.map some := by
  induction ts generalizing first with
  | nil => rw [indices, List.map_nil, List.map_nil]
  | cons t ts ih =>
    rw [subtreesOf, List.append_assoc] at h
    have hfirst : all[first]? = some t := by
      obtain ⟨below, hbelow⟩ := t.subtrees_eq_cons
      rw [← Nat.add_zero first, ← List.getElem?_drop, h, hbelow]
      rfl
    have hnext : all.drop (first + t.size) = subtreesOf ts ++ rest := by
      rw [← List.drop_drop, h, ← length_subtrees, List.drop_left]
    rw [indices, List.map_cons, List.map_cons, hfirst, ih hnext]

theorem le_of_mem_indices {first c : Nat} {ts : List CommandTree} (h : c ∈ indices first ts) :
    first ≤ c := by
  induction ts generalizing first with
  | nil => simp [indices] at h
  | cons t ts ih =>
    rw [indices, List.mem_cons] at h
    rcases h with rfl | h
    · exact Nat.le_refl _
    · have hle := ih h
      omega

theorem pairwise_indices (first : Nat) (ts : List CommandTree) :
    (indices first ts).Pairwise (· < ·) := by
  induction ts generalizing first with
  | nil => rw [indices]; exact .nil
  | cons t ts ih =>
    rw [indices]
    refine .cons (fun c hc => ?_) (ih _)
    have hpos := t.size_pos
    have hle := le_of_mem_indices hc
    omega

mutual

/-- All children of the nodes of a tree together are its nodes but the root. -/
theorem perm_children (i : Nat) :
    ∀ t : CommandTree, ((t.number i).flatMap (·.1.children)).Perm (List.range' (i + 1) (t.size - 1))
  | .node head children => by
    rw [number, List.flatMap_cons, size, Nat.add_sub_cancel]
    exact perm_children_of (i + 1) children

/-- The first nodes of trees and all children in them are the nodes of the trees. -/
theorem perm_children_of (first : Nat) :
    ∀ ts : List CommandTree, (indices first ts ++ (numbers first ts).flatMap (·.1.children)).Perm
      (List.range' first (sizes ts))
  | [] => by rw [indices, numbers, sizes]; exact .nil
  | t :: ts => by
    have htree := perm_children first t
    have htrees := perm_children_of (first + t.size) ts
    have hsize : t.size = (t.size - 1) + 1 := by
      have hpos := t.size_pos
      omega
    have hrange : List.range' first (t.size + sizes ts) =
        first :: (List.range' (first + 1) (t.size - 1) ++
          List.range' (first + t.size) (sizes ts)) := by
      rw [← List.range'_append_1, hsize, List.range'_succ, List.cons_append, ← hsize]
    rw [indices, numbers, sizes, List.flatMap_append, hrange, List.cons_append]
    -- The children in the first tree go before the other first nodes; then both sides are in the
    -- same parts.
    refine .cons first ((List.perm_append_comm_assoc _ _ _).trans ?_)
    exact htree.append htrees

end

end CommandTree

/-! ### Paths -/

namespace Grammar

/-- A child of a name that comes before all other children of that name. -/
def FirstChild (g : Grammar) (i : Nat) (name : Text) (c : Nat) : Prop :=
  ∃ before after, g.children i = before ++ c :: after ∧ (g.node c).name = name ∧
    ∀ b ∈ before, (g.node b).name ≠ name

/-- From a node, a path of names leads to another one: at each step to the first child of the
    name. -/
inductive PathTo (g : Grammar) : Nat → List Text → Nat → Prop where
  | here {i : Nat} : PathTo g i [] i
  | step {i c j : Nat} {name : Text} {path : List Text} : g.FirstChild i name c →
      PathTo g c path j → PathTo g i (name :: path) j

variable {g : Grammar}

theorem child?_eq_some_iff {i c : Nat} {name : Text} :
    g.child? i name = some c ↔ g.FirstChild i name c := by
  rw [child?, List.find?_eq_some_iff_append]
  constructor
  · rintro ⟨hname, before, after, hchildren, hbefore⟩
    exact ⟨before, after, hchildren, eq_of_beq hname, fun b hb => by simpa using hbefore b hb⟩
  · rintro ⟨before, after, hchildren, hname, hbefore⟩
    exact ⟨beq_iff_eq.mpr hname, before, after, hchildren, fun b hb => by simpa using hbefore b hb⟩

theorem findFrom?_eq_some_iff {i j : Nat} {path : List Text} :
    g.findFrom? i path = some j ↔ g.PathTo i path j := by
  induction path generalizing i with
  | nil =>
    constructor
    · intro h
      cases h
      exact .here
    · intro h
      cases h
      rfl
  | cons name path ih =>
    rw [findFrom?, Option.bind_eq_some_iff]
    constructor
    · rintro ⟨c, hc, hpath⟩
      exact .step (child?_eq_some_iff.mp hc) (ih.mp hpath)
    · intro h
      cases h with
      | step hc hpath => exact ⟨_, child?_eq_some_iff.mpr hc, ih.mpr hpath⟩

section OfTree

variable {t : CommandTree} (h : ofTree t = .ok g)
include h

theorem lt_of_mem_children {p c : Nat} (hc : c ∈ g.children p) : p < c := by
  rcases children_ofTree h p with ⟨head, children, -, hchildren⟩ | ⟨-, hnone⟩
  · rw [hchildren] at hc
    exact CommandTree.le_of_mem_indices hc
  · rw [hnone] at hc
    exact absurd hc List.not_mem_nil

theorem pairwise_children (p : Nat) : (g.children p).Pairwise (· < ·) := by
  rcases children_ofTree h p with ⟨head, children, -, hchildren⟩ | ⟨-, hnone⟩
  · rw [hchildren]
    exact CommandTree.pairwise_indices _ _
  · rw [hnone]
    exact .nil

/-- All children together are the nodes but the root. -/
theorem perm_flatMap_children :
    ((List.range g.nodes.size).flatMap g.children).Perm (List.range' 1 (g.nodes.size - 1)) := by
  have hall : (List.range g.nodes.size).map g.children = (t.number 0).map (·.1.children) := by
    refine List.ext_getElem? fun i => ?_
    rw [List.getElem?_map, List.getElem?_map]
    cases hi : t.subtrees[i]? with
    | some s =>
      have hlt : i < g.nodes.size := size_ofTree h ▸ (List.getElem?_eq_some_iff.mp hi).1
      obtain ⟨head, children⟩ := s
      rw [List.getElem?_range hlt, CommandTree.getElem?_number hi, Option.map_some,
        Grammar.children, (node_ofTree h hi).1]
      rfl
    | none =>
      have hle := List.getElem?_eq_none_iff.mp hi
      rw [List.getElem?_eq_none (by rwa [List.length_range, size_ofTree h]),
        List.getElem?_eq_none (by rwa [CommandTree.length_number, ← CommandTree.length_subtrees])]
      rfl
  rw [List.flatMap_def, hall, ← List.flatMap_def, size_ofTree h, CommandTree.length_subtrees]
  exact CommandTree.perm_children 0 t

/-- Every node but the root is a child of exactly one node. -/
theorem exists_parent {i : Nat} (hpos : 0 < i) (hi : i < g.nodes.size) :
    ∃ p, (g.children p).count i = 1 ∧ ∀ q, i ∈ g.children q → q = p := by
  -- The list of all children has no number twice, so those of two nodes are disjoint.
  have hperm := perm_flatMap_children h
  have hmem : i ∈ (List.range g.nodes.size).flatMap g.children := by
    rw [hperm.mem_iff, List.mem_range'_1]
    omega
  obtain ⟨p, hp, hchild⟩ := List.mem_flatMap.mp hmem
  obtain ⟨-, hdisjoint⟩ := List.nodup_flatMap.mp (hperm.nodup_iff.mpr List.nodup_range')
  have hnodup : (g.children p).Nodup := (pairwise_children h p).imp Nat.ne_of_lt
  refine ⟨p, List.count_eq_one_of_mem hnodup hchild, fun q hq => ?_⟩
  have hlt : q < g.nodes.size := (lt_of_mem_children h hq).trans hi
  by_contra hne
  have hsymm : Std.Symm (Function.onFun List.Disjoint g.children) :=
    ⟨fun _ _ hab c hb ha => hab ha hb⟩
  exact hdisjoint.forall (List.mem_range.mpr hlt) hp hne hq hchild

end OfTree

/-- The nodes of a grammar are those of a declared tree in the order of their declaration, with the
    nodes that its redirects lead to. -/
structure Preorder (g : Grammar) (t : CommandTree) : Prop where
  /-- there is a number for every declared node -/
  size : g.nodes.size = t.subtrees.length
  /-- the first node is the root -/
  root : (g.node root).kind = .root
  /-- a child comes after its parent, and is in the grammar -/
  child : ∀ p, ∀ c ∈ g.children p, p < c ∧ c < g.nodes.size
  /-- siblings are in order -/
  siblings : ∀ p, (g.children p).Pairwise (· < ·)
  /-- every node but the root is a child exactly once, of exactly one node -/
  parent : ∀ i, 0 < i → i < g.nodes.size → ∃ p, (g.children p).count i = 1 ∧
    ∀ q, i ∈ g.children q → q = p
  /-- a node is the declared one of its number, and its children are the declared children in their
      order -/
  declared : ∀ i head children, t.subtrees[i]? = some (.node head children) →
    (g.node i).kind = head.kind ∧ (g.node i).name = head.name ∧
    (g.node i).executable = head.executable ∧
      (g.node i).argumentId = head.argumentId ∧
      (g.children i).map (t.subtrees[·]?) = children.map some
  /-- an argument is read as its id and properties say -/
  argument : ∀ i head children, t.subtrees[i]? = some (.node head children) →
    head.type = .argument → (g.node i).kind = .argument (.ofId head.argumentId head.properties)
  /-- a node has no redirect if it declares none, else that to the node of the declared path -/
  redirect : ∀ i head children, t.subtrees[i]? = some (.node head children) →
    (head.redirect = none → (g.node i).redirect = none) ∧
      ∀ path, head.redirect = some path →
        ∃ target, g.find? path = some target ∧ (g.node i).redirect = some target ∧
          target < g.nodes.size
  /-- a path is found exactly if there is a first child of its name at every step -/
  find : ∀ path j, g.find? path = some j ↔ g.PathTo Grammar.root path j

/-- The grammar of a tree has its nodes in order. -/
theorem preorder_ofTree {t : CommandTree} (h : ofTree t = .ok g) : g.Preorder t := by
  obtain ⟨hroot, -⟩ := of_ofTree_eq_ok h
  constructor
  case size => exact size_ofTree h
  case root =>
    -- The kind is checked before redirects are resolved, which do not change it.
    obtain ⟨below, hbelow⟩ := t.subtrees_eq_cons
    have hfirst : t.subtrees[Grammar.root]? = some t := by rw [hbelow]; rfl
    obtain ⟨head, children⟩ := t
    rw [CommandTree.node_arena hfirst] at hroot
    rw [(node_ofTree h hfirst).1]
    exact hroot
  case child => exact fun p c hc => ⟨lt_of_mem_children h hc, lt_size_of_mem_children h hc⟩
  case siblings => exact pairwise_children h
  case parent => exact fun i hpos hi => exists_parent h hpos hi
  case declared =>
    -- All of the subtree stands where its root does, so the children stand at their numbers behind
    -- it.
    intro i head children hi
    obtain ⟨rest, hbelow⟩ := CommandTree.exists_drop_succ_subtrees hi
    have hnode := (node_ofTree h hi).1
    refine ⟨by rw [hnode], by rw [hnode], by rw [hnode], by rw [hnode], ?_⟩
    rw [Grammar.children, hnode]
    exact CommandTree.map_indices hbelow
  case argument =>
    intro i head children hi htype
    rw [(node_ofTree h hi).1]
    show head.kind = _
    rw [NodeHead.kind, htype]
  case redirect =>
    intro i head children hi
    obtain ⟨hnode, hfound⟩ := node_ofTree h hi
    refine ⟨fun hnone => by rw [hnode, hnone]; rfl, fun path hpath => ?_⟩
    obtain ⟨target, htarget⟩ := Option.isSome_iff_exists.mp (hfound path hpath)
    refine ⟨target, htarget, ?_, lt_size_of_find? h htarget⟩
    rw [hnode, hpath]
    exact htarget
  case find => exact fun path j => findFrom?_eq_some_iff

end Grammar

/-- A grammar that is read from a document has the nodes that the document declares, in the order of
    their declaration: the document holds a JSON value, and the grammar the numbered nodes of the
    tree that this value declares. -/
theorem loaded_grammar_preorder {document : Text} {g : Grammar}
    (h : Grammar.ofJson document = .ok g) :
    ∃ depth v rest t, Json.readValue depth document = .ok (v, rest) ∧ Declares [] v t ∧
      g.Preorder t := by
  obtain ⟨depth, v, rest, t, hread, hdeclares, htree⟩ := Grammar.exists_of_ofJson h
  exact ⟨depth, v, rest, t, hread, hdeclares, Grammar.preorder_ofTree htree⟩

/-- A document whose root declares its children in two parts, one of them before its type. -/
def splitDocument : Text :=
  Text.ofString "\x7b\"children\":\x7b\"a\":\x7b\"type\":\"literal\",\"children\":\x7b\"x\":" ++
    (Text.ofString "\x7b\"type\":\"argument\",\"parser\":\"brigadier:bool\"," ++
      Text.ofString "\"executable\":true\x7d\x7d\x7d\x7d,\"type\":\"root\",\"children\":\x7b" ++
      Text.ofString "\"b\":\x7b\"type\":\"literal\",\"redirect\":[\"a\"]\x7d\x7d\x7d")

/-- The children in the first part come before those in the second, with all that is below them. -/
theorem splitDocument_preorder :
    ∃ g, Grammar.ofJson splitDocument = .ok g ∧
      (g.children 0, g.children 1, (g.node 3).redirect) = ([1, 3], [2], some 1) ∧
      ∃ depth v rest t, Json.readValue depth splitDocument = .ok (v, rest) ∧ Declares [] v t ∧
        g.Preorder t := by
  have hnumbers : (Grammar.ofJson splitDocument).toOption.map
      (fun g => (g.children 0, g.children 1, (g.node 3).redirect)) =
        some ([1, 3], [2], some 1) := by
    decide +kernel
  cases hload : Grammar.ofJson splitDocument with
  | error e =>
    rw [hload] at hnumbers
    cases hnumbers
  | ok g =>
    rw [hload] at hnumbers
    exact ⟨g, rfl, Option.some.inj hnumbers, loaded_grammar_preorder hload⟩

end DatapackDebug
