import DatapackDebug.Config.Duration
import DatapackDebug.File.Store
import DatapackDebug.Generate.Config
import DatapackDebug.Grammar.Builtin
import DatapackDebug.Grammar.Loader
import DatapackDebug.Text.Case
import DatapackDebug.Toml.Draft

namespace DatapackDebug

/-!
# Configuration

The configuration file has the sections `log`, `generator`, `server` and `runtime`.  What it does
not set has a default; keys that are unknown are ignored.

* `Config` — all settings;
* `Config.parse` — the settings of a file;
* `Config.ofFile` — the settings of the file that is named, or of the default one;
* `Config.grammarOf` — the grammar that the settings name.
-/

/-- Where and how much is logged. -/
structure LogConfig where
  file : Text := "/tmp/mcfunction-debugger.log"
  level : Text := "info"
deriving DecidableEq, Repr

/-- How a server is reached if a launch does not tell. -/
structure RuntimeConfig where
  command : List Text := []
  dir : Text := []
  logFile : Text := []
  console : Text := []
  injectPosition : BlockPos := ⟨1, -64, 0⟩
  /-- in nanoseconds -/
  startTimeout : Int := 5 * 60 * 1000000000
deriving DecidableEq, Repr

/-- All settings. -/
structure Config where
  log : LogConfig := {}
  pack : PackConfig := {}
  /-- the file of the grammar; if it is empty, the built-in one is meant -/
  grammarFile : Text := []
  /-- the port of the debug adapter; 0 stands for standard input and output -/
  port : Int := 0
  runtime : RuntimeConfig := {}
deriving DecidableEq, Repr

/-- Why there is no configuration. -/
inductive ConfigError where
  | unreadable (path : Text) (e : FileError)
  | malformed (path : Text) (e : Toml.Error)
  | refused (path : Text) (e : PackConfigError)
deriving DecidableEq, Repr

/-- The wording of the error. -/
def ConfigError.message : ConfigError → Text
  | .unreadable path e => "load config " ++ path ++ ": " ++ e.message
  | .malformed path e => "load config " ++ path ++ ": " ++ e.message
  | .refused path e => "load config " ++ path ++ ": " ++ e.message

namespace Config

/-! ### Values of settings -/

/-- A reader of a setting. -/
abbrev Setting (α : Type) := Toml → Option α

/-- A text. -/
def text : Setting Text
  | .string t => some t
  | _ => none

/-- An integer. -/
def integer : Setting Int
  | .integer n => some n
  | _ => none

/-- A list of texts. -/
def texts : Setting (List Text)
  | .array items => items.mapM text
  | _ => none

/-- Three integers. -/
def blockPos : Setting BlockPos
  | .array [x, y, z] => do some ⟨← integer x, ← integer y, ← integer z⟩
  | _ => none

/-- A duration; a number is read like its text. -/
def duration : Setting Int
  | .string t => (Duration.parse t).toOption
  | .integer n => (Duration.parse (Text.ofInt n)).toOption
  | _ => none

/-! ### Sections -/

/-- A setting of a section: its name, and how it changes what the section holds. -/
abbrev Field (σ : Type) := Text × (σ → Toml → Option σ)

/-- A field that is read and then put in its place. -/
def field {σ α : Type} (name : Text) (read : Setting α) (put : σ → α → σ) : Field σ :=
  (name, fun s v => (read v).map (put s))

/-- The field that a name means. -/
def fieldOf? {σ : Type} (fields : List (Field σ)) (name : Text) : Option (Field σ) :=
  (fields.find? fun f => f.1 == name).or (fields.find? fun f => Text.sameName f.1 name)

/-- Apply the entries of a table. -/
def applyEntries {σ : Type} (fields : List (Field σ)) (s : σ) : Toml.Entries → Except Toml.Error σ
  | [] => .ok s
  | (name, v) :: es =>
    match fieldOf? fields name with
    | none => applyEntries fields s es
    | some (_, apply) =>
      match apply s v with
      | some s => applyEntries fields s es
      | none => .error (.mistyped [name])

/-- A section that is a table of fields. -/
def fieldsOfTable {σ : Type} (fields : List (Field σ)) (s : σ) : Toml → Option σ
  | .table es => (applyEntries fields s es).toOption
  | _ => none

/-- The fields of `log`. -/
def logFields : List (Field Config) :=
  [field "file" text fun c v => { c with log.file := v },
    field "level" text fun c v => { c with log.level := v }]

/-- The fields of `generator`. -/
def generatorFields : List (Field Config) :=
  [field "namespace" text fun c v => { c with pack.ns := v },
    field "pack_format" integer fun c v => { c with pack.packFormat := v },
    field "description" text fun c v => { c with pack.description := v },
    field "log_position" blockPos fun c v => { c with pack.logPosition := v },
    field "grammar" text fun c v => { c with grammarFile := v }]

/-- The fields of `server`. -/
def serverFields : List (Field Config) := [field "port" integer fun c v => { c with port := v }]

/-- The fields of `runtime`. -/
def runtimeFields : List (Field Config) :=
  [field "command" texts fun c v => { c with runtime.command := v },
    field "dir" text fun c v => { c with runtime.dir := v },
    field "log_file" text fun c v => { c with runtime.logFile := v },
    field "console" text fun c v => { c with runtime.console := v },
    field "inject_position" blockPos fun c v => { c with runtime.injectPosition := v },
    field "start_timeout" duration fun c v => { c with runtime.startTimeout := v }]

/-- The sections. -/
def sections : List (Field Config) :=
  [("log", fieldsOfTable logFields), ("generator", fieldsOfTable generatorFields),
    ("server", fieldsOfTable serverFields), ("runtime", fieldsOfTable runtimeFields)]

/-! ### Files -/

/-- The settings of a file, of which `path` is the name in messages. -/
def parse (path source : Text) : Except ConfigError Config :=
  match (Toml.parse source).bind (applyEntries sections {}) with
  | .error e => .error (.malformed path e)
  | .ok c =>
    match c.pack.error? with
    | some e => .error (.refused path e)
    | none => .ok c

/-- The file that is read if none is named. -/
def defaultFile : Text := "mcfd.toml"

/-- The path of the file; if none is named, the default one is meant. -/
def fileName (named : Text) : Text := if named.isEmpty then defaultFile else named

/-- The settings of the file at a path, whose content is given.  The default file may be missing. -/
def ofFile (isDefault : Bool) (path : Text) (content : Except FileError Text) :
    Except ConfigError Config :=
  match content with
  | .error e =>
    if isDefault && e.failure == .missing then .ok {} else .error (.unreadable path e)
  | .ok source => parse path source

/-- Why there is no grammar. -/
inductive GrammarFileError where
  | unreadable (e : FileError)
  | malformed (path : Text) (e : GrammarError)
  /-- the file could be opened but not read -/
  | notAFile (path : Text) (e : FileError)

/-- The wording of the error. -/
def GrammarFileError.message : GrammarFileError → Text
  | .unreadable e => e.message
  | .malformed path e => "load grammar " ++ path ++ ": " ++ e.message
  | .notAFile path e => "load grammar " ++ path ++ ": " ++ e.message

/-- The grammar of the file at a path, whose content is given. -/
def grammarOf (path : Text) (content : Except FileError Text) : Except GrammarFileError Grammar :=
  match content with
  | .error e => .error (if e.failure == .isDirectory then .notAFile path e else .unreadable e)
  | .ok source => (Grammar.ofJson source).mapError (.malformed path)

end Config

end DatapackDebug
