import DatapackDebug.Datapack
import DatapackDebug.Generate.Name

namespace DatapackDebug

/-!
# Edits of source lines

Commands of the source must not see the entities of the debugger, and must schedule the generated
functions in place of their own.

* `Edit.apply` — all edits of a text at once, the last position first;
* `hideEdits` — selectors of all entities leave out those of the debugger;
* `SourceLine.edited` — a line as it stands in a generated function.
-/

/-- At an offset some bytes are replaced by a text. -/
structure Edit where
  offset : Nat
  remove : Nat := 0
  insert : Text
deriving DecidableEq, Repr

namespace Edit

/-- The text after one edit; an edit that reaches beyond the end changes nothing. -/
def applyOne (t : Text) (e : Edit) : Text :=
  if e.offset + e.remove > t.length then t
  else t.take e.offset ++ e.insert ++ t.drop (e.offset + e.remove)

/-- The text after all edits.  The last position comes first, so that no edit moves another; edits
    at the same position are made in their order. -/
def apply (t : Text) (edits : List Edit) : Text :=
  (edits.mergeSort fun d e => decide (d.offset ≥ e.offset)).foldl applyOne t

end Edit

/-- The condition that leaves out the entities of the debugger. -/
def exclusion (ns : Text) : Text := "tag=!" ++ ns

/-- The edit of the selector at an offset, if it selects all entities. -/
def hideEdit? (ns : Text) (t : Text) (offset : Nat) : Option Edit :=
  if offset > t.length then none
  else (Text.dropStart? "@e" (t.drop offset)).map fun rest =>
    if Text.startsWith rest "[]" then { offset := offset + 3, insert := exclusion ns }
    else if Text.startsWith rest "[" then { offset := offset + 3, insert := exclusion ns ++ "," }
    else { offset := offset + 2, insert := "[" ++ exclusion ns ++ "]" }

/-- The edits that hide the entities of the debugger from the selectors at some offsets. -/
def hideEdits (ns : Text) (t : Text) (selectors : List Nat) : List Edit :=
  selectors.filterMap (hideEdit? ns t)

/-- The edit that schedules the generated function in place of a function of the datapack. -/
def scheduleEdits (ns : Text) (functions : Functions) (s : Schedule) : List Edit :=
  match SortedAssoc.find? ResourceName.compare s.function functions with
  | none => []
  | some _ =>
    [{ offset := s.target, remove := s.targetLength,
       insert := UnitName.text ns (.of s.function .scheduled) }]

/-- The line as it stands in a generated function. -/
def SourceLine.edited (ns : Text) (functions : Functions) (l : SourceLine) : Text :=
  match l.line with
  | .other m _ => Edit.apply l.text (hideEdits ns l.text m.selectors)
  | .call c => Edit.apply l.text (hideEdits ns l.text c.mentions.selectors)
  | .schedule s =>
    Edit.apply l.text (hideEdits ns l.text s.mentions.selectors ++ scheduleEdits ns functions s)
  | _ => l.text

/-- What stands before the word `function` of a call, as it stands in a generated function. -/
def editedFront (ns : Text) (t : Text) (call : FunctionCall) : Text :=
  let front := t.take call.column
  Edit.apply front (hideEdits ns front (call.mentions.selectors.filter (· < call.column)))

/-- Is the line executed? -/
def Line.isCommand : Line → Bool
  | .call _ | .schedule _ | .other _ _ => true
  | _ => false

end DatapackDebug
