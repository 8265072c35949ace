import DatapackDebug.Command

namespace DatapackDebug

/-!
# Lines of functions

What the debugger needs to know of a line: whether it calls or schedules another function, where its
selectors are, and which objectives it names.

* `Line.ofCommand` — the classification of a command that was understood;
* `Grammar.line` — the classification of any line; a command that the grammar does not know at all
  passes unchecked, unless it is a macro.
-/

/-- What a command refers to. -/
structure Mentions where
  /-- the positions of selectors in the line -/
  selectors : List Nat := []
  /-- the names of objectives in the order of the line -/
  objectives : List Text := []
deriving DecidableEq, Repr

/-- A call of a function at the end of a command. -/
structure FunctionCall where
  name : ResourceName
  /-- the last anchor that the command sets -/
  anchor : Option Argument.Anchor
  /-- the position of the word `function` -/
  column : Nat
  mentions : Mentions
deriving DecidableEq, Repr

/-- What is done to the schedule. -/
inductive ScheduleOperation where
  | replace (time : Argument.Time)
  | append (time : Argument.Time)
  | clear
deriving DecidableEq, Repr

/-- A command that schedules a function or takes it off the schedule. -/
structure Schedule where
  operation : ScheduleOperation
  function : ResourceName
  /-- the position of the name of the function -/
  target : Nat
  targetLength : Nat
  mentions : Mentions
deriving DecidableEq, Repr

/-- A line of a function. -/
inductive Line where
  | empty
  | comment
  | breakpoint
  | call (call : FunctionCall)
  | schedule (schedule : Schedule)
  | other (mentions : Mentions) (error : Option CommandError)
deriving DecidableEq, Repr

/-- The comment that is a breakpoint. -/
def Line.breakpointText : Text := "# breakpoint"

namespace CommandNode

/-- The value of an argument. -/
def value? : CommandNode → Option Argument.Value
  | .argument _ value _ _ => some value
  | _ => none

/-- Is the part the given literal? -/
def isLiteral (word : Text) : CommandNode → Bool
  | .literal text _ => text == word
  | _ => false

/-- What the part refers to. -/
def mentions : CommandNode → Mentions
  | .argument _ (.entity (.selector s)) offset _ => ⟨[offset], s.objectives⟩
  | .argument _ (.scoreHolder (.selector s)) offset _ => ⟨[offset], s.objectives⟩
  | .argument _ (.objective name) _ _ => ⟨[], [name]⟩
  | _ => {}

end CommandNode

namespace Mentions

/-- What all parts of a command refer to. -/
def ofNodes (nodes : List CommandNode) : Mentions :=
  ⟨nodes.flatMap (·.mentions.selectors), nodes.flatMap (·.mentions.objectives)⟩

end Mentions

/-- The last anchor of a command; only an anchor after the literal `anchored` counts, and `last` is
    the literal before the nodes. -/
def lastAnchor? (last : Text) : List CommandNode → Option Argument.Anchor
  | [] => none
  | .literal text _ :: nodes => lastAnchor? text nodes
  | .argument _ (.anchor a) _ _ :: nodes =>
    (lastAnchor? last nodes).or (if last == "anchored" then some a else none)
  | _ :: nodes => lastAnchor? last nodes

/-- The parts of a command from the start of each simple command in it on: the whole, and what
    follows each literal `run`. -/
def commandTails (atStart : Bool) : List CommandNode → List (List CommandNode)
  | [] => []
  | node :: nodes =>
    let tails := commandTails (node.isLiteral "run") nodes
    if atStart then (node :: nodes) :: tails else tails

/-- A simple command that calls one function, without arguments. -/
def calledFunction? : List CommandNode → Option (ResourceName × Nat)
  | [.literal word column, .argument _ (.function ref) _ _] =>
    if word == "function" && !ref.tag then some (ref.name, column) else none
  | _ => none

/-- What a command says after `schedule function` and the name. -/
def scheduling? : List CommandNode → Option ScheduleOperation
  | .argument _ (.time t) _ _ :: nodes =>
    if (nodes.head?.any (·.isLiteral "append")) then some (.append t) else some (.replace t)
  | _ => none

/-- A simple command on the schedule of one function. -/
def schedule? (mentions : Mentions) : List CommandNode → Option Schedule
  | .literal _ _ :: .literal word _ :: .argument _ value target targetLength :: nodes =>
    if word == "function" then
      match value with
      | .function ref =>
        if ref.tag then none
        else (scheduling? nodes).map fun operation =>
          { operation, function := ref.name, target, targetLength, mentions }
      | _ => none
    else if word == "clear" then
      match value with
      | .raw name =>
        (ResourceName.parse name).toOption.map fun function =>
          { operation := .clear, function, target, targetLength, mentions }
      | _ => none
    else none
  | _ => none

/-- The line of a command. -/
def Line.ofCommand (nodes : List CommandNode) : Line :=
  let mentions := Mentions.ofNodes nodes
  let tails := commandTails true nodes
  match tails.findSome? calledFunction? with
  | some (name, column) => .call { name, anchor := lastAnchor? [] nodes, column, mentions }
  | none =>
    let scheduling := tails.filter fun tail => tail.head?.any (·.isLiteral "schedule")
    match scheduling.getLast?.bind (schedule? mentions) with
    | some s => .schedule s
    | none => .other mentions none

/-- The line of a text without blanks around it. -/
def Grammar.line (g : Grammar) (text : Text) : Line :=
  if text.isEmpty then .empty
  else if text == Line.breakpointText then .breakpoint
  else if text.head? == some '#' then .comment
  else match g.parse text with
    | .ok nodes => .ofCommand nodes
    | .error e =>
      let name := text.takeWhile (· != Text.blank)
      if (g.find? [name]).isNone && name.head? != some '$' then .other {} none
      else .other {} (some e)

end DatapackDebug
