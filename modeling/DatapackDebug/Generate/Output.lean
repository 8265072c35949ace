import DatapackDebug.Generate.GlobalUnits
import DatapackDebug.Json.Writer

namespace DatapackDebug

/-!
# Generated datapacks

* `Generate.units` — all functions of a generated datapack;
* `GeneratedPack.generate` — its files by their paths;
* `GeneratedPack.function?` — the file of a function.
-/

/-- The breakpoints of functions, in the order of their names. -/
abbrev BreakpointMap := List (ResourceName × Breakpoints)

/-- The breakpoints of a function. -/
def BreakpointMap.of (m : BreakpointMap) (f : ResourceName) : Breakpoints :=
  (SortedAssoc.find? ResourceName.compare f m).getD []

/-- A generated datapack; the files are in the order of their paths. -/
structure GeneratedPack where
  ns : Text
  functionDir : Text
  /-- the objectives that the source names, in order -/
  objectives : List Text
  files : List (Text × Text)
deriving DecidableEq, Repr

/-- Why no datapack is generated. -/
inductive GenerateError where
  | config (e : PackConfigError)
  | cancelled
deriving DecidableEq, Repr

namespace Generate

/-- The objectives that a line names. -/
def lineObjectives : Line → List Text
  | .call c => c.mentions.objectives
  | .schedule s => s.mentions.objectives
  | .other m _ => m.objectives
  | _ => []

/-- The objectives that the functions name, each once. -/
def objectives (functions : Functions) : List Text :=
  Text.sortDedup (functions.flatMap fun (_, f) => f.lines.flatMap (lineObjectives ·.line))

/-- All units of a datapack. -/
def units (p : Pack) (bs : BreakpointMap) : List (UnitName × List Instruction) :=
  (p.functions.flatMap fun (name, f) => functionUnits p f (bs.of name)) ++
    globalUnits p (objectives p.functions)

/-- The content of a function file: its commands, one a line. -/
def fileContent (c : PackConfig) (lines : List Instruction) : Text :=
  Text.join "\n" (lines.map (·.text c)) ++ "\n"

/-- The path of a function file. -/
def filePath (ns functionDir : Text) (unit : Text) : Text :=
  "data/" ++ ns ++ "/" ++ functionDir ++ "/" ++ unit ++ FunctionFile.extension

/-- The description of the datapack. -/
def packMeta (c : PackConfig) : Text :=
  Json.renderIndented
    (.object [("pack", .object [("pack_format", .number (Text.ofInt c.packFormat)),
      ("description", .string c.description)])]) ++ "\n"

/-- The list of the functions of the source. -/
def manifest (functions : Functions) : Text :=
  functions.flatMap fun (name, _) => name.text ++ [Function.newline]

/-- All files of a datapack by their paths. -/
def files (p : Pack) (bs : BreakpointMap) : List (Text × Text) :=
  let path (u : UnitName) : Text := filePath p.ns p.config.functionDir u.path
  SortedAssoc.ofList Text.compare <|
    (units p bs).map (fun (u, lines) => (path u, fileContent p.config lines)) ++
      [(("pack.mcmeta" : Text), packMeta p.config), ("functions.txt", manifest p.functions)]

end Generate

namespace GeneratedPack

/-- The datapack that debugs some functions with some breakpoints.  The settings are checked first;
    when the generation is cancelled it fails if there is a function. -/
def generate (c : PackConfig) (functions : Functions) (bs : BreakpointMap) (cancelled : Bool) :
    Except GenerateError GeneratedPack :=
  match c.error? with
  | some e => .error (.config e)
  | none =>
    if cancelled && !functions.isEmpty then .error .cancelled
    else .ok
      { ns := c.ns, functionDir := c.functionDir, objectives := Generate.objectives functions,
        files := Generate.files ⟨c, functions⟩ bs }

/-- The content of the function of a path in the namespace of the datapack. -/
def function? (g : GeneratedPack) (unit : Text) : Option Text :=
  SortedAssoc.find? Text.compare (Generate.filePath g.ns g.functionDir unit) g.files

end GeneratedPack

end DatapackDebug
