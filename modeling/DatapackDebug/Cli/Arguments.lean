import DatapackDebug.Cli.Command
import DatapackDebug.Number.Integer

namespace DatapackDebug.Cli

/-!
# Arguments of the command line

* `Invocation.parse` — the command that is meant, its flags and its other arguments.
-/

/-- Why a command line is refused. -/
inductive UsageError where
  | unknownCommand (name : Text)
  /-- a command that takes no arguments has one -/
  | unexpectedArgument (command : Subcommand) (argument : Text)
  | badFlag (argument : Text)
  | unknownFlag (name : Text)
  | unknownLetter (letter : UInt8) (letters : Text)
  | noValue (name : Text)
  | noLetterValue (letter : UInt8) (letters : Text)
  | badInteger (flag : Flag) (value : Text) (fault : Integer.Fault)
  | badSwitch (flag : Flag) (value : Text)
  | argumentCount (count : Nat)
  | noOutput
deriving DecidableEq, Repr

/-! ### Suggestions -/

/-- One row of the table of distances between the starts of two texts. -/
def distanceRow (b : UInt8) (left : Nat) : Nat → Text → List Nat → List Nat
  | diagonal, c :: t, up :: ups =>
    let here := min (min (left + 1) (up + 1)) (diagonal + if b == c then 0 else 1)
    here :: distanceRow b here up t ups
  | _, _, _ => []

/-- How many bytes have to be changed, added or removed to make one text of another. -/
def distance (s t : Text) : Nat :=
  let rows := s.foldl (fun (row : List Nat) b =>
    match row with
    | first :: rest => (first + 1) :: distanceRow b (first + 1) first t rest
    | [] => []) (List.range (t.length + 1))
  rows.getLast?.getD 0

/-- The commands that may have been meant; the one that shows help is not among them. -/
def suggestions (name : Text) : List Text :=
  let lower := name.map Text.toLower
  let names := (Subcommand.root.children.filter (· != .help)).map (·.name)
  names.filter fun c => distance lower c ≤ 2 || Text.startsWith c lower

/-- The hint at the commands that may have been meant. -/
def suggestionHint (name : Text) : Text :=
  match suggestions name with
  | [] => []
  | similar =>
    "\n\nDid you mean this?\n" ++ similar.flatMap fun (c : Text) => (0x09 :: c ++ [0x0a] : Text)

/-- How a message shows the letter of a flag.  A byte that is no ASCII character stands for the
    first byte of the character of its value. -/
def shownLetter (b : UInt8) : Text :=
  Text.quotedChar ((Utf8.encode b.toNat).head?.getD b).toNat

/-- How a message shows a flag whose value is at fault. -/
def Flag.forms (f : Flag) : Text :=
  match f.letter with
  | some b => "-" ++ [b] ++ ", --" ++ f.name
  | none => "--" ++ f.name

/-- The start of a message on a value that is not of the kind of its flag; `reader` names what reads
    such values. -/
def badValue (reader : Text) (f : Flag) (value : Text) : Text :=
  "invalid argument " ++ Text.quoted value ++ " for " ++ Text.quoted f.forms ++
    " flag: strconv." ++ reader ++ ": parsing " ++ Text.quoted value ++ ": "

/-- The wording of the error. -/
def UsageError.message : UsageError → Text
  | .unknownCommand name =>
    "unknown command " ++ Text.quoted name ++ " for " ++ Text.quoted program ++ suggestionHint name
  | .unexpectedArgument command argument =>
    "unknown command " ++ Text.quoted argument ++ " for " ++ Text.quoted command.path
  | .badFlag argument => "bad flag syntax: " ++ argument
  | .unknownFlag name => "unknown flag: --" ++ name
  | .unknownLetter letter letters =>
    "unknown shorthand flag: " ++ shownLetter letter ++ " in -" ++ letters
  | .noValue name => "flag needs an argument: --" ++ name
  | .noLetterValue letter letters =>
    "flag needs an argument: " ++ shownLetter letter ++ " in -" ++ letters
  | .badInteger flag value fault => badValue "ParseInt" flag value ++ fault.message
  | .badSwitch flag value => badValue "ParseBool" flag value ++ Integer.Fault.malformed.message
  | .argumentCount count => "accepts 1 arg(s), received " ++ Text.ofNat count
  | .noOutput => "required flag(s) \"output\" not set"

/-! ### Finding the command -/

/-- Is the argument a flag whose value is the next argument, as far as the global flags tell? -/
def takesNext (argument : Text) : Bool :=
  Text.startsWith argument "-" && !argument.contains 0x3d &&
    (Text.startsWith argument "--" || argument.length == 2)

/-- The first argument that is neither a flag nor the value of one. -/
def firstWord? : List Text → Option Text
  | [] => none
  | a :: rest =>
    if a == "--" then none
    else if takesNext a then
      match rest with
      | _ :: next :: more => firstWord? (next :: more)
      | _ => none
    else if a.isEmpty || Text.startsWith a "-" then firstWord? rest
    else some a

/-- The arguments without the first that is a given word and not the value of a flag. -/
def dropWord (word : Text) : List Text → List Text
  | [] => []
  | a :: rest =>
    if a == "--" then a :: rest
    else if takesNext a then
      match rest with
      | value :: more => a :: value :: dropWord word more
      | [] => [a]
    else if a == word then rest
    else a :: dropWord word rest

/-- The command after a command that the arguments name, and the arguments for it. -/
def descend? (c : Subcommand) (args : List Text) : Option (Subcommand × List Text) := do
  let word ← firstWord? args
  return (← c.child? word, dropWord word args)

/-- The command that is meant, which at most two words name, and the arguments for it. -/
def findCommand (args : List Text) : Except UsageError (Subcommand × List Text) :=
  match descend? .root args, firstWord? args with
  | some (c, rest), _ => .ok ((descend? c rest).getD (c, rest))
  | none, none => .ok (.root, args)
  | none, some word => .error (.unknownCommand word)

/-! ### Flags -/

/-- A command with its flags and arguments. -/
structure Invocation where
  command : Subcommand
  config : Text := []
  logFile : Text := []
  logLevel : Text := []
  port : Option Int := none
  output : Option Text := none
  breakpoints : List Text := []
  ns : Text := []
  help : Bool := false
  arguments : List Text := []
deriving DecidableEq, Repr

/-- The texts that stand for truth values. -/
def truth? (t : Text) : Option Bool :=
  let yes : List Text := ["1", "t", "T", "true", "TRUE", "True"]
  let no : List Text := ["0", "f", "F", "false", "FALSE", "False"]
  if yes.contains t then some true else if no.contains t then some false else none

namespace Invocation

/-- The command line with a flag set. -/
def setFlag (i : Invocation) (f : Flag) (value : Text) : Except UsageError Invocation :=
  match f.kind with
  | .integer =>
    match Integer.ofText value with
    | .ok n => .ok { i with port := some n }
    | .error fault => .error (.badInteger f value fault)
  | .switch =>
    match truth? value with
    | some b => .ok (if f.name == "help" then { i with help := b } else i)
    | none => .error (.badSwitch f value)
  | .texts => .ok { i with breakpoints := i.breakpoints ++ [value] }
  | .text =>
    .ok (if f.name == "config" then { i with config := value }
      else if f.name == "log-file" then { i with logFile := value }
      else if f.name == "log-level" then { i with logLevel := value }
      else if f.name == "output" then { i with output := some value }
      else { i with ns := value })

/-- A flag with its name written out; the outcome has the arguments that are left. -/
def longFlag (i : Invocation) (argument : Text) (rest : List Text) :
    Except UsageError (Invocation × List Text) := do
  let body := argument.drop 2
  if body.head? == some 0x2d || body.head? == some 0x3d then .error (.badFlag argument)
  let (name, value) := match Text.cut? '=' body with
    | some (name, value) => (name, some value)
    | none => (body, none)
  match i.command.flags.find? (·.name == name) with
  | none => .error (.unknownFlag name)
  | some f =>
    match value, f.kind, rest with
    | some value, _, rest => return (← i.setFlag f value, rest)
    | none, .switch, rest => return (← i.setFlag f "true", rest)
    | none, _, value :: rest => return (← i.setFlag f value, rest)
    | none, _, [] => .error (.noValue name)

/-- Flags of one letter each, of which the last can have a value.  Letters that start with `test.`
    are flags of a test environment, which are ignored. -/
def letterFlags (i : Invocation) (rest : List Text) :
    Text → Except UsageError (Invocation × List Text)
  | [] => .ok (i, rest)
  | b :: letters =>
    if Text.startsWith (b :: letters) "test." then .ok (i, rest)
    else match i.command.flags.find? (·.letter == some b) with
    | none => .error (.unknownLetter b (b :: letters))
    | some f =>
      match letters with
      | 0x3d :: c :: value => do return (← i.setFlag f (c :: value), rest)
      | _ =>
        if f.kind == .switch then do letterFlags (← i.setFlag f "true") rest letters
        else if !letters.isEmpty then do return (← i.setFlag f letters, rest)
        else match rest with
          | value :: rest => do return (← i.setFlag f value, rest)
          | [] => .error (.noLetterValue b [b])

/-- Read flags and arguments. -/
def read (i : Invocation) : Nat → List Text → Except UsageError Invocation
  | _, [] => .ok i
  | 0, _ => .ok i
  | fuel + 1, a :: rest =>
    if a == "--" then .ok { i with arguments := i.arguments ++ rest }
    else if a.length < 2 || a.head? != some 0x2d then
      read { i with arguments := i.arguments ++ [a] } fuel rest
    else do
      let (i, rest) ← if Text.startsWith a "--" then i.longFlag a rest
        else i.letterFlags rest (a.drop 1)
      read i fuel rest

end Invocation

end DatapackDebug.Cli
