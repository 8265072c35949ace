import DatapackDebug.File.Tree
import DatapackDebug.Function.Basic

namespace DatapackDebug

/-!
# Datapacks

A datapack is a directory with a `pack.mcmeta` and functions below `data`.

* `FunctionFile.name?` — the function that a path below `data` stands for;
* `Datapack.load` — the functions of a datapack, in the order of their names.
-/

namespace FunctionFile

/-- The end of the name of a file with a function. -/
def extension : Text := ".mcfunction"

/-- The directories of a namespace that hold functions. -/
def directories : List Text := ["functions", "function"]

/-- The function of the file that the names lead to from `data`. -/
def nameOf? : List Text → Option ResourceName
  | ns :: directory :: name :: names =>
    if directories.contains directory then
      let path := Text.join "/" (name :: names)
      some ⟨ns, (Text.dropEnd? extension path).getD path⟩
    else none
  | _ => none

/-- The function of a file, where `dataDir` is the directory `data`. -/
def name? (dataDir path : Text) : Option ResourceName :=
  (Path.relative? dataDir path).bind fun p => nameOf? (Path.names p)

end FunctionFile

/-- The functions of a datapack in the order of their names. -/
abbrev Functions := List (ResourceName × Function)

/-- Why a datapack cannot be loaded. -/
inductive DatapackError where
  | noPackMeta (dir : Text)
  | unreadable (error : FileError)
  | cancelled
deriving DecidableEq, Repr

/-- The wording of the error. -/
def DatapackError.message : DatapackError → Text
  | .noPackMeta dir => "Invalid datapack: " ++ dir ++ " has no pack.mcmeta"
  | .unreadable e => "Invalid datapack: " ++ e.message
  | .cancelled => "context canceled"

namespace Datapack

/-- The directory of a datapack that holds its functions. -/
def dataDir (dir : Text) : Text := Path.join [dir, "data"]

/-- The files with functions below `data`, by their paths there, in the order of these. -/
def functionFiles (data : FileTree) : List (List Text × Text) :=
  let files := data.files.filter fun (names, _) =>
    (names.getLast?.any (Text.endsWith · FunctionFile.extension))
  files.mergeSort fun a b => Text.le (Text.join "/" a.1) (Text.join "/" b.1)

/-- The functions of files below `data`.  Of files for the same function the last counts. -/
def functionsOf (g : Grammar) (dir : Text) (files : List (List Text × Text)) : Functions :=
  SortedAssoc.ofList ResourceName.compare <| files.filterMap fun (names, content) =>
    (FunctionFile.nameOf? names).map fun name =>
      (name, Function.ofFile g name (Text.join "/" (dataDir dir :: names)) content)

/-- The functions of a datapack in the directory `dir`, which holds `tree`.  A load that is
    cancelled fails once there is a function to read. -/
def load (g : Grammar) (dir : Text) (tree : Except FileFailure FileTree) (cancelled : Bool) :
    Except DatapackError Functions :=
  match tree.bind (·.find ["pack.mcmeta"]) with
  | .error _ => .error (.noPackMeta dir)
  | .ok _ =>
    match tree.bind (·.find ["data"]) with
    | .error failure => .error (.unreadable ⟨"lstat", dataDir dir, failure⟩)
    | .ok data =>
      let files := functionFiles data
      if cancelled && files.any (fun f => (FunctionFile.nameOf? f.1).isSome) then .error .cancelled
      else .ok (functionsOf g dir files)

end Datapack

end DatapackDebug
