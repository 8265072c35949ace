import DatapackDebug.Argument.Kind

namespace DatapackDebug

/-!
# Command grammars

A grammar is a tree of literals and arguments.  A node may end a command, and a node without
children may send the rest of the line on to the children of another node.

* `CommandTree` — the tree as it is declared, with redirects as paths;
* `Grammar` — the same as numbered nodes: a node comes before its children, and children come in
  their order of declaration;
* `Grammar.find?` — the node at a path of names;
* `Grammar.ofTree` — from the one to the other.
-/

/-- The three types of nodes. -/
inductive NodeType where
  | root | literal | argument
deriving DecidableEq, Repr

/-- What a tree declares of one node, its children aside. -/
structure NodeHead where
  name : Text
  type : NodeType
  /-- the id of the kind of argument -/
  argumentId : Text := []
  properties : Argument.Properties := []
  /-- may a command end here? -/
  executable : Bool := false
  /-- the path of the node whose children go on -/
  redirect : Option (List Text) := none
deriving Repr

/-- A declared tree of nodes. -/
inductive CommandTree where
  | node (head : NodeHead) (children : List CommandTree)
deriving Repr

/-- What a node of a grammar matches. -/
inductive NodeKind where
  | root
  | literal
  | argument (kind : Argument.Kind)
deriving DecidableEq, Repr

/-- A node of a grammar; children and redirect are numbers of nodes. -/
structure Node where
  kind : NodeKind
  name : Text
  children : List Nat
  executable : Bool
  redirect : Option Nat
  argumentId : Text
deriving DecidableEq, Repr

/-- A node that matches nothing. -/
def Node.void : Node := ⟨.root, [], [], false, none, []⟩

instance : Inhabited Node := ⟨Node.void⟩

/-- Numbered nodes, of which node zero is the root. -/
structure Grammar where
  nodes : Array Node
deriving Repr, Inhabited

namespace Grammar

/-- The number of the root. -/
def root : Nat := 0

/-- The node of a number. -/
def node (g : Grammar) (i : Nat) : Node := g.nodes.getD i .void

/-- The children of a node. -/
def children (g : Grammar) (i : Nat) : List Nat := (g.node i).children

/-- The first child of a name. -/
def child? (g : Grammar) (i : Nat) (name : Text) : Option Nat :=
  (g.children i).find? fun c => (g.node c).name == name

/-- The node that a path of names leads to from a node. -/
def findFrom? (g : Grammar) (i : Nat) : List Text → Option Nat
  | [] => some i
  | name :: path => (g.child? i name).bind fun c => g.findFrom? c path

/-- The node that a path of names leads to from the root. -/
def find? (g : Grammar) (path : List Text) : Option Nat := g.findFrom? root path

end Grammar

/-! ### Numbering -/

mutual

/-- The number of nodes of a tree. -/
def CommandTree.size : CommandTree → Nat
  | .node _ children => CommandTree.sizes children + 1

/-- The number of nodes of several trees. -/
def CommandTree.sizes : List CommandTree → Nat
  | [] => 0
  | t :: ts => t.size + CommandTree.sizes ts

end

/-- The numbers of trees that are numbered one after the other from `first` on. -/
def CommandTree.indices (first : Nat) : List CommandTree → List Nat
  | [] => []
  | t :: ts => first :: CommandTree.indices (first + t.size) ts

/-- What a declared node matches. -/
def NodeHead.kind (h : NodeHead) : NodeKind :=
  match h.type with
  | .root => .root
  | .literal => .literal
  | .argument => .argument (.ofId h.argumentId h.properties)

/-- A node whose redirect is still a path. -/
abbrev OpenNode := Node × Option (List Text)

/-- The node of a declaration with numbered children. -/
def NodeHead.open (h : NodeHead) (children : List Nat) : OpenNode :=
  (⟨h.kind, h.name, children, h.executable, none, h.argumentId⟩, h.redirect)

mutual

/-- The nodes of a tree whose root has the number `i`. -/
def CommandTree.number (i : Nat) : CommandTree → List OpenNode
  | .node head children =>
    head.open (CommandTree.indices (i + 1) children) :: CommandTree.numbers (i + 1) children

/-- The nodes of trees that are numbered one after the other from `first` on. -/
def CommandTree.numbers (first : Nat) : List CommandTree → List OpenNode
  | [] => []
  | t :: ts => t.number first ++ CommandTree.numbers (first + t.size) ts

end

/-! ### Errors -/

/-- Why a document is not a grammar. -/
inductive GrammarError where
  /-- it is not JSON -/
  | malformed (why : Text)
  /-- a field has a value of the wrong type -/
  | mistyped (why : Text)
  /-- something else stands where an object should begin -/
  | expectedObject (found : Text)
  | unknownType (name type : Text)
  | expectedRoot (name : Text)
  | unresolvedRedirect (path : List Text) (name : Text)
  /-- a field of the named node is at fault -/
  | inNode (name : Text) (error : GrammarError)
deriving DecidableEq, Repr

/-- The wording of the error. -/
def GrammarError.message : GrammarError → Text
  | .malformed why | .mistyped why => why
  | .expectedObject found => "expected \x7b, found " ++ found
  | .unknownType name type => "node " ++ name ++ ": unknown type " ++ Text.quoted type
  | .expectedRoot name => "expected root node, found " ++ name
  | .unresolvedRedirect path name =>
    "unresolved redirect " ++ Text.join " " path ++ " of node " ++ name
  | .inNode name error => "node " ++ name ++ ": " ++ error.message

/-- The error without the nodes around it. -/
def GrammarError.innermost : GrammarError → GrammarError
  | .inNode _ error => error.innermost
  | error => error

/-! ### From nodes to grammars -/

/-- The node with its redirect resolved. -/
def Grammar.resolve (g : Grammar) : OpenNode → Except GrammarError Node
  | (node, none) => .ok node
  | (node, some path) =>
    match g.find? path with
    | some target => .ok { node with redirect := some target }
    | none => .error (.unresolvedRedirect path node.name)

/-- The grammar of numbered nodes.  The first of them must be a root, and every redirect must lead
    to a node. -/
def Grammar.ofNodes (opened : List OpenNode) : Except GrammarError Grammar := do
  let unresolved : Grammar := ⟨(opened.map (·.1)).toArray⟩
  let root := unresolved.node Grammar.root
  if root.kind != .root then .error (.expectedRoot root.name)
  return ⟨(← opened.mapM unresolved.resolve).toArray⟩

/-- The grammar that a tree declares. -/
def Grammar.ofTree (t : CommandTree) : Except GrammarError Grammar := Grammar.ofNodes (t.number 0)

end DatapackDebug
