import DatapackDebug.Grammar.Loader
import DatapackDebug.Proofs.DocumentRange
import Mathlib.Data.List.Forall2

namespace DatapackDebug

/-!
# Grammars are numbered trees

The nodes of a grammar are those of the declared tree, numbered in the order of their declaration: a
node comes before its children, and all of a child before the next one.

* `CommandTree.subtrees` — the nodes of a tree with what they declare, in that order;
* `CommandTree.number_eq_mapIdx` — the numbered nodes are those of the subtrees;
* `CommandTree.arena`, `Grammar.of_ofTree_eq_ok` — the nodes before their redirects are resolved,
  and the steps from there to a grammar;
* `Grammar.node_ofTree` — the node of a declaration;
* `Grammar.Closed`, `Grammar.closed_ofTree` — every number in a grammar is that of a node.
-/

namespace CommandTree

/-! ### Numbering -/

mutual

/-- A tree has as many numbered nodes as it has nodes. -/
theorem length_number (i : Nat) : ∀ t : CommandTree, (t.number i).length = t.size
  | .node head children => by
    rw [number, size, List.length_cons, length_numbers (i + 1) children]

theorem length_numbers (first : Nat) : ∀ ts : List CommandTree, (numbers first ts).length = sizes ts
  | [] => by rw [numbers, sizes, List.length_nil]
  | t :: ts => by
    rw [numbers, sizes, List.length_append, length_number first t,
      length_numbers (first + t.size) ts]

end

theorem size_pos (t : CommandTree) : 0 < t.size := by
  cases t with
  | node head children => rw [size]; exact Nat.succ_pos _

/-- Trees that are numbered one after the other have numbers below the end. -/
theorem lt_of_mem_indices {first c : Nat} {ts : List CommandTree} (h : c ∈ indices first ts) :
    c < first + sizes ts := by
  induction ts generalizing first with
  | nil => simp [indices] at h
  | cons t ts ih =>
    have hpos := t.size_pos
    rw [indices, List.mem_cons] at h
    rw [sizes]
    rcases h with rfl | h
    · omega
    · have hlt := ih h
      omega

/-! ### The declared nodes in order -/

mutual

/-- A tree and all trees below it, in the order of their declaration. -/
def subtrees : CommandTree → List CommandTree
  | .node head children => .node head children :: subtreesOf children

/-- The subtrees of trees one after the other. -/
def subtreesOf : List CommandTree → List CommandTree
  | [] => []
  | t :: ts => t.subtrees ++ subtreesOf ts

end

mutual

theorem length_subtrees : ∀ t : CommandTree, t.subtrees.length = t.size
  | .node head children => by
    rw [subtrees, size, List.length_cons, length_subtreesOf children]

theorem length_subtreesOf : ∀ ts : List CommandTree, (subtreesOf ts).length = sizes ts
  | [] => by rw [subtreesOf, sizes, List.length_nil]
  | t :: ts => by
    rw [subtreesOf, sizes, List.length_append, length_subtrees t, length_subtreesOf ts]

end

theorem subtrees_eq_cons (t : CommandTree) : ∃ below, t.subtrees = t :: below := by
  cases t with
  | node head children => exact ⟨_, by rw [subtrees]⟩

/-- The node of a tree that has the number `i`. -/
def openAt (i : Nat) : CommandTree → OpenNode
  | .node head children => head.open (indices (i + 1) children)

mutual

/-- The numbered nodes are those of the subtrees, in order. -/
theorem number_eq_mapIdx (i : Nat) : ∀ t : CommandTree, t.number i = t.subtrees.mapIdx fun k s =>
    s.openAt (i + k)
  | .node head children => by
    rw [number, subtrees, List.mapIdx_cons, numbers_eq_mapIdx (i + 1) children]
    simp only [openAt, Nat.add_zero, Nat.add_assoc, Nat.add_comm 1]

theorem numbers_eq_mapIdx (first : Nat) :
    ∀ ts : List CommandTree, numbers first ts = (subtreesOf ts).mapIdx fun k s =>
      s.openAt (first + k)
  | [] => by rw [numbers, subtreesOf, List.mapIdx_nil]
  | t :: ts => by
    rw [numbers, subtreesOf, List.mapIdx_append, number_eq_mapIdx first t,
      numbers_eq_mapIdx (first + t.size) ts, length_subtrees]
    simp only [Nat.add_assoc, Nat.add_comm t.size]

end

mutual

/-- Where a subtree stands, all of it stands. -/
theorem exists_drop_subtrees {k : Nat} {s : CommandTree} :
    ∀ t : CommandTree, t.subtrees[k]? = some s → ∃ rest, t.subtrees.drop k = s.subtrees ++ rest
  | .node head children, h => by
    cases k with
    | zero =>
      rw [subtrees, List.getElem?_cons_zero] at h
      cases h
      exact ⟨[], by simp⟩
    | succ k =>
      rw [subtrees, List.getElem?_cons_succ] at h
      obtain ⟨rest, hrest⟩ := exists_drop_subtreesOf children h
      exact ⟨rest, by rw [subtrees, List.drop_succ_cons, hrest]⟩

theorem exists_drop_subtreesOf {k : Nat} {s : CommandTree} :
    ∀ ts : List CommandTree, (subtreesOf ts)[k]? = some s →
      ∃ rest, (subtreesOf ts).drop k = s.subtrees ++ rest
  | [], h => by
    rw [subtreesOf] at h
    cases h
  | t :: ts, h => by
    rw [subtreesOf] at h ⊢
    -- The subtree is one of the first tree or of the others.
    by_cases hk : k < t.subtrees.length
    · rw [List.getElem?_append_left hk] at h
      obtain ⟨rest, hrest⟩ := exists_drop_subtrees t h
      refine ⟨rest ++ subtreesOf ts, ?_⟩
      rw [List.drop_append_of_le_length (Nat.le_of_lt hk), hrest, List.append_assoc]
    · have hle : t.subtrees.length ≤ k := Nat.le_of_not_lt hk
      rw [List.getElem?_append_right hle] at h
      obtain ⟨rest, hrest⟩ := exists_drop_subtreesOf ts h
      refine ⟨rest, ?_⟩
      rw [List.drop_append, List.drop_eq_nil_of_le hle, List.nil_append, hrest]

end

/-- The grammar of a tree before its redirects are resolved. -/
def arena (t : CommandTree) : Grammar := ⟨((t.number 0).map (·.1)).toArray⟩

variable {t : CommandTree} {i : Nat}

theorem getElem?_number {s : CommandTree} (h : t.subtrees[i]? = some s) :
    (t.number 0)[i]? = some (s.openAt i) := by
  rw [number_eq_mapIdx, List.getElem?_mapIdx, h, Option.map_some, Nat.zero_add]

theorem size_arena (t : CommandTree) : t.arena.nodes.size = t.subtrees.length := by
  rw [arena, List.size_toArray, List.length_map, length_number, length_subtrees]

theorem node_arena {s : CommandTree} (h : t.subtrees[i]? = some s) :
    t.arena.node i = (s.openAt i).1 := by
  rw [Grammar.node, Array.getD_eq_getD_getElem?, arena, List.getElem?_toArray, List.getElem?_map,
    getElem?_number h]
  rfl

/-- The children of a subtree stand behind it. -/
theorem exists_drop_succ_subtrees {head : NodeHead} {children : List CommandTree}
    (h : t.subtrees[i]? = some (.node head children)) :
    ∃ rest, t.subtrees.drop (i + 1) = subtreesOf children ++ rest := by
  obtain ⟨rest, hrest⟩ := exists_drop_subtrees t h
  refine ⟨rest, ?_⟩
  rw [← List.drop_drop, hrest, subtrees]
  rfl

end CommandTree

/-! ### Look-up and redirects -/

namespace Grammar

variable {g : Grammar}

/-- A number without a node stands for one without children and redirect. -/
theorem node_of_lt {i : Nat} (h : i < g.nodes.size) : g.nodes[i]? = some (g.node i) := by
  rw [node, Array.getD_eq_getD_getElem?, Array.getElem?_eq_getElem h]
  rfl

theorem node_of_le {i : Nat} (h : g.nodes.size ≤ i) : g.node i = .void := by
  rw [node, Array.getD_eq_getD_getElem?, Array.getElem?_eq_none h]
  rfl

/-- Paths depend on the names and the children of nodes only. -/
theorem findFrom?_congr {g' : Grammar} (hname : ∀ i, (g.node i).name = (g'.node i).name)
    (hchildren : ∀ i, g.children i = g'.children i) (i : Nat) (path : List Text) :
    g.findFrom? i path = g'.findFrom? i path := by
  induction path generalizing i with
  | nil => rfl
  | cons name path ih =>
    have hchild : g.child? i name = g'.child? i name := by
      rw [child?, child?, hchildren]
      simp only [hname]
    rw [findFrom?, findFrom?, hchild]
    simp only [ih]

/-- What resolving makes of a node. -/
theorem of_resolve_eq_ok {h : NodeHead} {children : List Nat} {n : Node}
    (hn : g.resolve (h.open children) = .ok n) :
    n = ⟨h.kind, h.name, children, h.executable, h.redirect.bind g.find?, h.argumentId⟩ ∧
      ∀ path, h.redirect = some path → (g.find? path).isSome = true := by
  rw [NodeHead.open] at hn
  cases hpath : h.redirect with
  | none =>
    rw [hpath] at hn
    cases hn
    exact ⟨rfl, by simp⟩
  | some path =>
    rw [hpath, resolve] at hn
    cases hfind : g.find? path with
    | none =>
      rw [hfind] at hn
      cases hn
    | some target =>
      rw [hfind] at hn
      cases hn
      refine ⟨by rw [Option.bind_some, hfind], fun path' hpath' => ?_⟩
      cases hpath'
      rw [hfind]
      rfl

section MapM

variable {α β ε : Type} {f : α → Except ε β} {xs : List α} {ys : List β}

/-- What a function that may fail makes of the elements of a list, one by one. -/
theorem forall₂_of_mapM_eq_ok (h : xs.mapM f = .ok ys) :
    List.Forall₂ (fun x y => f x = .ok y) xs ys := by
  induction xs generalizing ys with
  | nil =>
    cases h
    exact .nil
  | cons x xs ih =>
    rw [List.mapM_cons] at h
    obtain ⟨y, hy, h⟩ := exists_of_bind_eq_ok h
    obtain ⟨ys, hys, h⟩ := exists_of_bind_eq_ok h
    cases h
    exact .cons hy (ih hys)

theorem length_of_mapM_eq_ok (h : xs.mapM f = .ok ys) : ys.length = xs.length :=
  (forall₂_of_mapM_eq_ok h).length_eq.symm

theorem getElem?_of_mapM_eq_ok (h : xs.mapM f = .ok ys) {i : Nat} {x : α} (hx : xs[i]? = some x) :
    ∃ y, ys[i]? = some y ∧ f x = .ok y := by
  obtain ⟨hi, rfl⟩ := List.getElem?_eq_some_iff.mp hx
  have hi' : i < ys.length := length_of_mapM_eq_ok h ▸ hi
  exact ⟨ys[i], List.getElem?_eq_getElem hi', (forall₂_of_mapM_eq_ok h).get hi hi'⟩

end MapM

/-- The steps of making a grammar of a tree. -/
theorem of_ofTree_eq_ok {t : CommandTree} (h : ofTree t = .ok g) :
    (t.arena.node root).kind = .root ∧ (t.number 0).mapM t.arena.resolve = .ok g.nodes.toList := by
  by_cases hcheck : ((t.arena.node root).kind != .root) = true
  · have herror : ofTree t = .error (.expectedRoot (t.arena.node root).name) := if_pos hcheck
    cases h.symm.trans herror
  · have hsteps : ofTree t =
        (do return ⟨(← (t.number 0).mapM t.arena.resolve).toArray⟩) := if_neg hcheck
    obtain ⟨nodes, hnodes, h⟩ := exists_of_bind_eq_ok (hsteps.symm.trans h)
    cases h
    exact ⟨by simpa using hcheck, hnodes⟩

section OfTree

variable {t : CommandTree} (h : ofTree t = .ok g) {children : List CommandTree}
include h

theorem size_ofTree : g.nodes.size = t.subtrees.length := by
  obtain ⟨-, hresolve⟩ := of_ofTree_eq_ok h
  rw [← Array.length_toList, length_of_mapM_eq_ok hresolve, CommandTree.length_number,
    CommandTree.length_subtrees]

/-- The node of a declaration, where paths are those before any redirect was resolved. -/
theorem node_ofTree_arena {i : Nat} {head : NodeHead}
    (hi : t.subtrees[i]? = some (.node head children)) :
    g.node i = ⟨head.kind, head.name, CommandTree.indices (i + 1) children, head.executable,
        head.redirect.bind t.arena.find?, head.argumentId⟩ ∧
      ∀ path, head.redirect = some path → (t.arena.find? path).isSome = true := by
  obtain ⟨-, hresolve⟩ := of_ofTree_eq_ok h
  obtain ⟨n, hn, hresolved⟩ := getElem?_of_mapM_eq_ok hresolve (CommandTree.getElem?_number hi)
  have hnode : g.node i = n := by
    rw [node, Array.getD_eq_getD_getElem?, ← Array.getElem?_toList, hn]
    rfl
  rw [hnode]
  exact of_resolve_eq_ok hresolved

/-- Redirects do not change where paths lead. -/
theorem find?_ofTree (path : List Text) : g.find? path = t.arena.find? path := by
  have hsame : ∀ i, (g.node i).name = (t.arena.node i).name ∧
      g.children i = t.arena.children i := by
    intro i
    cases hi : t.subtrees[i]? with
    | some s =>
      obtain ⟨head, children⟩ := s
      rw [Grammar.children, Grammar.children, (node_ofTree_arena h hi).1, CommandTree.node_arena hi]
      exact ⟨rfl, rfl⟩
    | none =>
      -- Both have the same node for a number that is too large.
      have hle := List.getElem?_eq_none_iff.mp hi
      rw [children, children, node_of_le (size_ofTree h ▸ hle), node_of_le (t.size_arena ▸ hle)]
      exact ⟨rfl, rfl⟩
  exact findFrom?_congr (fun i => (hsame i).1) (fun i => (hsame i).2) root path

/-- The node of a declaration. -/
theorem node_ofTree {i : Nat} {head : NodeHead} (hi : t.subtrees[i]? = some (.node head children)) :
    g.node i = ⟨head.kind, head.name, CommandTree.indices (i + 1) children, head.executable,
        head.redirect.bind g.find?, head.argumentId⟩ ∧
      ∀ path, head.redirect = some path → (g.find? path).isSome = true := by
  have hfind : g.find? = t.arena.find? := funext (find?_ofTree h)
  rw [hfind]
  exact node_ofTree_arena h hi

theorem children_ofTree (i : Nat) :
    (∃ head children, t.subtrees[i]? = some (.node head children) ∧
        g.children i = CommandTree.indices (i + 1) children) ∨
      t.subtrees.length ≤ i ∧ g.children i = [] := by
  cases hi : t.subtrees[i]? with
  | some s =>
    obtain ⟨head, children⟩ := s
    refine .inl ⟨head, children, rfl, ?_⟩
    rw [Grammar.children, (node_ofTree h hi).1]
  | none =>
    have hle := List.getElem?_eq_none_iff.mp hi
    refine .inr ⟨hle, ?_⟩
    rw [Grammar.children, node_of_le (size_ofTree h ▸ hle)]
    rfl

/-- Children are nodes. -/
theorem lt_size_of_mem_children {p c : Nat} (hc : c ∈ g.children p) : c < g.nodes.size := by
  rcases children_ofTree h p with ⟨head, children, hp, hchildren⟩ | ⟨-, hnone⟩
  · obtain ⟨rest, hrest⟩ := CommandTree.exists_drop_succ_subtrees hp
    have hlength := congrArg List.length hrest
    rw [List.length_drop, List.length_append, CommandTree.length_subtreesOf] at hlength
    have hlt := CommandTree.lt_of_mem_indices (hchildren ▸ hc)
    have hp := (List.getElem?_eq_some_iff.mp hp).1
    rw [size_ofTree h]
    omega
  · rw [hnone] at hc
    exact absurd hc List.not_mem_nil

theorem root_lt_size : root < g.nodes.size := by
  rw [size_ofTree h, CommandTree.length_subtrees]
  exact t.size_pos

/-- A path leads to a node. -/
theorem lt_size_of_find? {path : List Text} {target : Nat} (hfind : g.find? path = some target) :
    target < g.nodes.size := by
  have hfrom : ∀ path i, i < g.nodes.size → g.findFrom? i path = some target →
      target < g.nodes.size := by
    intro path
    induction path with
    | nil =>
      intro i hi hfind
      cases hfind
      exact hi
    | cons name path ih =>
      intro i _ hfind
      obtain ⟨c, hc, hrest⟩ := Option.bind_eq_some_iff.mp hfind
      exact ih c (lt_size_of_mem_children h (List.mem_of_find?_eq_some hc)) hrest
  exact hfrom path root (root_lt_size h) hfind

end OfTree

/-- Every number in a grammar is that of a node. -/
structure Closed (g : Grammar) : Prop where
  root : Grammar.root < g.nodes.size
  children : ∀ i, ∀ c ∈ (g.node i).children, c < g.nodes.size
  redirect : ∀ i target, (g.node i).redirect = some target → target < g.nodes.size

/-- Every grammar of a tree is closed. -/
theorem closed_ofTree {t : CommandTree} (h : ofTree t = .ok g) : g.Closed := by
  refine ⟨root_lt_size h, fun i c => lt_size_of_mem_children h, fun i target htarget => ?_⟩
  cases hi : t.subtrees[i]? with
  | some s =>
    obtain ⟨head, children⟩ := s
    rw [(node_ofTree h hi).1] at htarget
    obtain ⟨path, -, hfind⟩ := Option.bind_eq_some_iff.mp htarget
    exact lt_size_of_find? h hfind
  | none =>
    rw [node_of_le (size_ofTree h ▸ List.getElem?_eq_none_iff.mp hi)] at htarget
    cases htarget

end Grammar

end DatapackDebug
