import DatapackDebug.Grammar.Basic

namespace DatapackDebug

/-!
# Commands

A command is a path through a grammar: literals and arguments with single spaces between them.

* A literal child that is the text up to the next space is the only one tried.  Otherwise the
  argument children are tried in order, and the first that leads to the end of the line wins.
* If none does, the fault that lies furthest to the right is reported, of several the first.
* A node without children goes on with its redirect, or, if it cannot end a command, with the
  root.

`Grammar.parse` is the parser; `CommandNode` says what it found and `CommandError` what went wrong.
-/

/-- A part of a command. -/
inductive CommandNode where
  | literal (text : Text) (offset : Nat)
  | argument (name : Text) (value : Argument.Value) (offset length : Nat)
  /-- the command goes on with what follows the named node -/
  | redirect (name : Text)
deriving Repr

/-- Why a line is not a command. -/
inductive CommandCause where
  | unknownOrIncomplete
  | incorrectArgument
  | trailingData
  | argument (cause : Argument.Cause)
deriving DecidableEq, Repr

/-- The wording of a cause. -/
def CommandCause.message : CommandCause → Text
  | .unknownOrIncomplete => "Unknown or incomplete command"
  | .incorrectArgument => "Incorrect argument for command"
  | .trailingData => "Expected whitespace to end one argument, but found trailing data"
  | .argument cause => cause.message

/-- A cause and the position in the line where it was noticed. -/
structure CommandFault where
  cause : CommandCause
  index : Nat
deriving DecidableEq, Repr

/-- A fault with the text just before it. -/
structure CommandError extends CommandFault where
  near : Text
deriving DecidableEq, Repr

namespace CommandError

/-- How many bytes before a fault are shown. -/
def nearLength : Nat := 10

/-- The error of a fault in a line. -/
def ofFault (line : Text) (fault : CommandFault) : CommandError :=
  { fault with near := (line.take fault.index).drop (fault.index - nearLength) }

/-- The wording of the cause alone. -/
def message (e : CommandError) : Text := e.cause.message

/-- The whole wording, with position and text before it. -/
def text (e : CommandError) : Text :=
  e.message ++ " at position " ++ Text.ofNat e.index ++ ": " ++ e.near ++ "<--[HERE]"

end CommandError

namespace Grammar

/-- Nodes of a command, or the fault that was found furthest to the right. -/
abbrev Parsed := Except CommandFault (List CommandNode)

/-- What node `i` takes off the front of `rest`, which stands at `pos`: the part of the command and
    its length. -/
def takeNode (g : Grammar) (i pos : Nat) (rest : Text) : Except CommandFault (CommandNode × Nat) :=
  let node := g.node i
  match node.kind with
  | .root => .error ⟨.unknownOrIncomplete, pos⟩
  | .literal => .ok (.literal node.name pos, node.name.length)
  | .argument kind =>
    match kind.parse rest with
    | .ok (value, length) => .ok (.argument node.name value pos length, length)
    | .error e => .error ⟨.argument e.cause, pos + e.offset⟩

/-- Where a line goes on after node `i`: the parts of the command that this adds, and the node whose
    children come next. -/
def onward? (g : Grammar) (i : Nat) : Option (List CommandNode × Nat) :=
  let node := g.node i
  if !node.children.isEmpty then some ([], i)
  else match node.redirect with
    | some target => some ([.redirect (g.node target).name], target)
    | none => if node.executable then none else some ([], root)

/-- The command that goes on with node `i`; `next` parses the children of a node. -/
def parseNode (g : Grammar) (next : Nat → Nat → Text → Parsed) (i pos : Nat) (rest : Text) :
    Parsed := do
  let (part, length) ← g.takeNode i pos rest
  let stop := pos + length
  match rest.drop length with
  | [] =>
    if (g.node i).executable then return [part] else .error ⟨.unknownOrIncomplete, stop⟩
  | b :: rest =>
    if b != Text.blank then .error ⟨.trailingData, stop⟩
    else match g.onward? i with
      | none => .error ⟨.incorrectArgument, stop⟩
      | some (added, target) => return part :: added ++ (← next target (stop + 1) rest)

/-- The one of two faults that lies further to the right, or the first. -/
def deeper (first : Option CommandFault) (second : CommandFault) : CommandFault :=
  match first with
  | none => second
  | some first => if second.index > first.index then second else first

/-- The first success among nodes, or the deepest fault. -/
def firstOf (attempt : Nat → Parsed) (none? : CommandFault) :
    Option CommandFault → List Nat → Parsed
  | best, [] => .error (best.getD none?)
  | best, i :: is =>
    match attempt i with
    | .ok parts => .ok parts
    | .error fault => firstOf attempt none? (some (deeper best fault)) is

/-- The literal child of a node that is exactly the given word. -/
def literalChild? (g : Grammar) (parent : Nat) (word : Text) : Option Nat :=
  (g.children parent).find? fun c => (g.node c).kind == .literal && (g.node c).name == word

/-- Is the node an argument? -/
def isArgument (g : Grammar) (i : Nat) : Bool := (g.node i).kind matches .argument _

/-- What is wrong where no child of a node can be tried. -/
def noChild (parent pos : Nat) : CommandFault :=
  ⟨if parent == root then .unknownOrIncomplete else .incorrectArgument, pos⟩

/-- The command that goes on with a child of `parent` at `rest`, which stands at `pos`.  Between
    two levels of children a space is taken, so the fuel `rest.length + 1` is enough. -/
def parseChildren (g : Grammar) : Nat → Nat → Nat → Text → Parsed
  | 0, parent, pos, _ => .error (noChild parent pos)
  | n + 1, parent, pos, rest =>
    match g.literalChild? parent (rest.takeWhile (· != Text.blank)) with
    | some i => g.parseNode (parseChildren g n) i pos rest
    | none =>
      firstOf (fun i => g.parseNode (parseChildren g n) i pos rest) (noChild parent pos) none
        ((g.children parent).filter g.isArgument)

/-- The command of a line. -/
def parse (g : Grammar) (line : Text) : Except CommandError (List CommandNode) :=
  (g.parseChildren (line.length + 1) root 0 line).mapError (.ofFault line)

end Grammar

end DatapackDebug
