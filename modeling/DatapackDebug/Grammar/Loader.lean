import DatapackDebug.Grammar.Basic

namespace DatapackDebug

/-!
# Reading grammars

A grammar is read from a JSON document field by field, so that the first fault in the order of the
document is the one reported.  A node takes its place in the arena where its declaration begins, and
so before its children, which are numbered while they are read; the place is filled at the end of
the declaration.  Fields may come in any order and may be repeated; fields of other names are
skipped; what follows the root object is ignored.
-/

namespace GrammarLoader

/-- A document that is not JSON, where `ended` says that it ends too early. -/
def malformed (ended : Text) (e : Json.SyntaxError) : GrammarError := .malformed (e.message ended)

/-- A document that ends where a value should begin. -/
def endOfInput : GrammarError := .malformed "EOF"

/-- A document that ends within a value. -/
def endOfValue : Text := "unexpected EOF"

/-- A document that ends within an object, behind a field. -/
def endOfObject : Text := "unexpected end of JSON input"

/-- A value of a field at the front of a text.  A bracket in its place does not close the object. -/
def readValue (t : Text) : Except GrammarError (Json × Text) :=
  (Json.read t).mapError fun
    | .unexpected (.char 0x5d) .value => malformed endOfValue .mismatchedClose
    | e => malformed endOfValue e

/-- A character that cannot stand where it does. -/
def unexpectedAt (context : Json.ErrorContext) (t : Text) : GrammarError :=
  malformed endOfValue (.at context t)

/-- A value that does not fit what a field holds. -/
def mistyped (kind type : Text) : GrammarError :=
  .mistyped ("json: cannot unmarshal " ++ kind ++ " into Go value of type " ++ type)

/-- How a message shows a number; the largest stands for those beyond it. -/
def shownNumber (numeral : Text) : Text :=
  let largest : Binary :=
    ⟨Text.startsWith numeral "-", Nat.pow 2 53 - 1, FloatFormat.double.maxExponent⟩
  ((Binary.ofText? .double numeral).getD largest).general

/-- How a message shows a value that is neither an array nor an object. -/
def shown : Json → Text
  | .null => "<nil>"
  | .bool b => if b then "true" else "false"
  | .number numeral => shownNumber numeral
  | .string t => t
  | .array _ => "["
  | .object _ => "\x7b"

/-- What follows the opening brace that must be next.  `inField` tells whether the object is the
    value of a field. -/
def openObject (inField : Bool) (t : Text) : Except GrammarError Text :=
  match Json.skipSpace t with
  | [] => .error endOfInput
  | b :: rest =>
    if b == '\x7b' then .ok rest
    else if b == '[' then .error (.expectedObject "[")
    else if b == ']' then .error (malformed endOfValue .mismatchedClose)
    else if b == '\x7d' then
      .error (malformed endOfValue (if inField then .noFieldValue else .mismatchedClose))
    else do
      let (v, _) ← readValue (b :: rest)
      .error (.expectedObject (shown v))

/-- What follows the colon before a nested object. -/
def objectColon (t : Text) : Except GrammarError Text :=
  match Json.skipSpace t with
  | [] => .error endOfInput
  | b :: rest => if b == ':' then .ok rest else .error (unexpectedAt .afterKey (b :: rest))

/-- The value of a field, with the colon before it. -/
def fieldValue (t : Text) : Except GrammarError (Json × Text) :=
  match Json.skipSpace t with
  | 0x3a :: rest => readValue rest
  | t => .error (unexpectedAt .afterKey t)

/-- The name of a field that starts at the next token.  Where another token is complete, it is at
    fault as a name. -/
def fieldName (t : Text) : Except GrammarError (Text × Text) :=
  match t with
  | 0x22 :: rest => (Json.readString rest).mapError (malformed endOfValue)
  | 0x7b :: _ | 0x5b :: _ => .error (malformed endOfValue .badName)
  | t => do
    let _ ← readValue t
    .error (malformed endOfValue .badName)

/-- The field that starts at the next token or, at the closing brace of the object, none; with what
    follows. -/
def fieldAt (t : Text) : Except GrammarError (Option Text × Text) :=
  match t with
  | [] => .error (.malformed endOfObject)
  | 0x7d :: rest => .ok (none, rest)
  | t => (fieldName t).map fun (name, t) => (some name, t)

/-- The next field of an object.  A comma must separate fields, and stands nowhere else. -/
def nextField (first : Bool) (t : Text) : Except GrammarError (Option Text × Text) :=
  match Json.skipSpace t with
  | [] => .error (.malformed endOfObject)
  | b :: rest =>
    if b == ',' || b == ':' then
      let next := Json.skipSpace rest
      if first || next.head? == some 0x7d || next.head? == some 0x5d then
        .error (unexpectedAt .value (b :: rest))
      else if b == ':' then .error (unexpectedAt .afterField (b :: rest))
      else fieldAt next
    else if first || b == '\x7d' || b == ']' then fieldAt (b :: rest)
    else .error (unexpectedAt .afterField (b :: rest))

/-- What was read of a node so far. -/
structure Draft where
  type : Text := []
  executable : Bool := false
  argumentId : Text := []
  properties : Argument.Properties := []
  redirect : Option (List Text) := none
  children : List Nat := []

/-- A string; `null` leaves the old one. -/
def stringField (old : Text) : Json → Except GrammarError Text
  | .string t => .ok t
  | .null => .ok old
  | v => .error (mistyped v.kindName "string")

/-- A truth value; `null` leaves the old one. -/
def boolField (old : Bool) : Json → Except GrammarError Bool
  | .bool b => .ok b
  | .null => .ok old
  | v => .error (mistyped v.kindName "bool")

/-- A path; `null` is the empty path, or an empty name within one. -/
def pathField : Json → Except GrammarError (List Text)
  | .array items => items.mapM (stringField [])
  | .null => .ok []
  | v => .error (mistyped v.kindName "[]string")

/-- Properties are added to those read before; `null` removes them. -/
def propertiesField (old : Argument.Properties) : Json → Except GrammarError Argument.Properties
  | .object fields => .ok (old ++ fields)
  | .null => .ok []
  | v => .error (mistyped v.kindName "argument.Properties")

/-- The draft with a field other than the children set. -/
def Draft.set (d : Draft) (field : Text) (v : Json) : Except GrammarError Draft :=
  if field == "type" then return { d with type := ← stringField d.type v }
  else if field == "executable" then return { d with executable := ← boolField d.executable v }
  else if field == "parser" then return { d with argumentId := ← stringField d.argumentId v }
  else if field == "properties" then
    return { d with properties := ← propertiesField d.properties v }
  else if field == "redirect" then return { d with redirect := some (← pathField v) }
  else return d

/-- The type of a name. -/
def nodeType? (type : Text) : Option NodeType :=
  if type == "root" then some .root
  else if type == "literal" then some .literal
  else if type == "argument" then some .argument
  else none

/-- The node of a complete draft. -/
def Draft.node (name : Text) (d : Draft) : Except GrammarError OpenNode :=
  match nodeType? d.type with
  | none => .error (.unknownType name d.type)
  | some type =>
    let head : NodeHead :=
      { name, type, argumentId := d.argumentId, properties := d.properties,
        executable := d.executable, redirect := d.redirect }
    .ok (head.open d.children)

/-- The nodes whose declarations have begun, by their numbers. -/
abbrev Arena := Array OpenNode

/-- The place of a node whose fields are still to be read. -/
def placeholder (name : Text) : OpenNode := ({ Node.void with name }, none)

/-- A field behind its name, where `children` reads the fields of an object as children. -/
def field (children : Arena → Text → Except GrammarError (List Nat × Arena × Text)) (draft : Draft)
    (name : Text) (arena : Arena) (t : Text) : Except GrammarError (Draft × Arena × Text) :=
  if name == "children" then do
    let t ← openObject true (← objectColon t)
    let (numbers, arena, t) ← children arena t
    return ({ draft with children := draft.children ++ numbers }, arena, t)
  else do
    let (v, t) ← fieldValue t
    return (← draft.set name v, arena, t)

mutual

/-- Read the node of a name, which begins with its opening brace, and tell its number. -/
def node : Nat → Bool → Text → Arena → Text → Except GrammarError (Nat × Arena × Text)
  | 0, _, _, _, _ => .error endOfInput
  | n + 1, inField, name, arena, t => do
    let t ← openObject inField t
    let index := arena.size
    let (draft, arena, t) ← fields n name {} true (arena.push (placeholder name)) t
    return (index, arena.set! index (← draft.node name), t)

/-- The fields of a node up to its closing brace. -/
def fields : Nat → Text → Draft → Bool → Arena → Text →
    Except GrammarError (Draft × Arena × Text)
  | 0, _, _, _, _, _ => .error endOfInput
  | n + 1, name, draft, first, arena, t => do
    match ← nextField first t with
    | (none, t) => return (draft, arena, t)
    | (some key, t) =>
      match field (childNodes n true) draft key arena t with
      | .error e => .error (.inNode name e)
      | .ok (draft, arena, t) => fields n name draft false arena t

/-- The children of a node up to the closing brace, by their numbers. -/
def childNodes : Nat → Bool → Arena → Text → Except GrammarError (List Nat × Arena × Text)
  | 0, _, _, _ => .error endOfInput
  | n + 1, first, arena, t => do
    match ← nextField first t with
    | (none, t) => return ([], arena, t)
    | (some name, t) =>
      let (child, arena, t) ← node n true name arena (← objectColon t)
      let (children, arena, t) ← childNodes n false arena t
      return (child :: children, arena, t)

end

end GrammarLoader

/-- The grammar that a document declares.  Every step of the loader takes a byte, so the length of
    the document bounds their number. -/
def Grammar.ofJson (document : Text) : Except GrammarError Grammar := do
  let (_, arena, _) ← GrammarLoader.node (3 * document.length + 3) false [] #[] document
  Grammar.ofNodes arena.toList

end DatapackDebug
