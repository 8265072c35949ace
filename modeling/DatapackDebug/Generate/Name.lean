import DatapackDebug.Generate.Config
import DatapackDebug.Partition.Position
import DatapackDebug.Resource

namespace DatapackDebug

/-!
# Names in generated datapacks

* `UnitName` — the functions of a generated datapack;
* `Tag` — the tags of entities that the debugger uses;
* `Tag.parsePosition?` — the function and position that a tag in the log tells;
* `scoreHolder` — who holds the scores of a function.
-/

/-- The parts that a function is generated into. -/
inductive UnitPart where
  | start
  | scheduled
  | validate
  | return
  | returnSelf
  | resume
  /-- the piece that starts at a position -/
  | piece (start : Position)
deriving DecidableEq, Repr

/-- The name of a part. -/
def UnitPart.text : UnitPart → Text
  | .start => "start"
  | .scheduled => "scheduled"
  | .validate => "validate"
  | .return => "return"
  | .returnSelf => "return_self"
  | .resume => "resume"
  | .piece p => p.text

/-- The functions of a generated datapack: the parts of each function, and those that are there
    once. -/
inductive UnitName where
  | of (function : ResourceName) (part : UnitPart)
  | install
  | uninstall
  | assignIds
  | schedule
  | logScores
  | suspend
  | resumeSelf
  | resumeDispatch
  | onExit
deriving DecidableEq, Repr

/-- The path of a part of a function, given by the name of the part. -/
def unitPath (f : ResourceName) (part : Text) : Text := f.ns ++ "/" ++ f.path ++ "/" ++ part

namespace UnitName

/-- The path of the function in the namespace of the debugger. -/
def path : UnitName → Text
  | .of f part => unitPath f part.text
  | .install => "install"
  | .uninstall => "uninstall"
  | .assignIds => "id/assign"
  | .schedule => "schedule"
  | .logScores => "log_scores"
  | .suspend => "suspend"
  | .resumeSelf => "resume_self"
  | .resumeDispatch => "resume_dispatch"
  | .onExit => "on_exit"

/-- The full name of the function. -/
def text (ns : Text) (u : UnitName) : Text := ns ++ ":" ++ u.path

end UnitName

/-- A tag of the debugger. -/
inductive Tag where
  /-- on everything that the debugger summons -/
  | own
  /-- on the frame of a call -/
  | functionCall
  | new
  /-- on frames that were there at a stop -/
  | suspended
  /-- on the marker of a stop -/
  | breakpoint
  /-- on the frame that a return goes to -/
  | returnTarget
  /-- on the entity that was executing at a stop -/
  | selectedEntity
  | exitMarker
  /-- is added where the debugged program ends -/
  | exit
  /-- on frames and markers of a function -/
  | function (f : ResourceName)
  /-- a position in a function -/
  | position (f : ResourceName) (p : Position)
deriving DecidableEq, Repr

namespace Tag

/-- The text of a tag. -/
def text (ns : Text) : Tag → Text
  | .own => ns
  | .functionCall => ns ++ "_function_call"
  | .new => ns ++ "_new"
  | .suspended => ns ++ "_suspended"
  | .breakpoint => ns ++ "_breakpoint"
  | .returnTarget => ns ++ "_return_target"
  | .selectedEntity => ns ++ "_selected_entity"
  | .exitMarker => ns ++ "_exit_marker"
  | .exit => ns ++ "_exit"
  | .function f => ns ++ "+" ++ f.mangled
  | .position f p => ns ++ "+" ++ f.mangled ++ "+" ++ p.text

/-- The function and position of a tag; `+` stands in neither. -/
def parsePosition? (ns : Text) (tag : Text) : Option (ResourceName × Position) := do
  let rest ← Text.dropStart? (ns ++ "+") tag
  match Text.splitOn '+' rest with
  | functionNs :: part :: parts =>
    let path := (part :: parts).dropLast
    if path.isEmpty then none
    else
      let position ← (Position.parse ((part :: parts).getLast?.getD [])).toOption
      some (⟨functionNs, Text.join "/" path⟩, position)
  | _ => none

end Tag

/-- The holder of the scores of a function: its name, or if that is too long its number. -/
def scoreHolder (ns : Text) (f : ResourceName) (id : Int) : Text :=
  if f.text.length > maxHolderLength then ns ++ "_fn_" ++ Text.ofInt id else f.text

end DatapackDebug
