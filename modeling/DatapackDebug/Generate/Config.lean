import DatapackDebug.Number.Word
import DatapackDebug.Text.Quoted

namespace DatapackDebug

/-!
# Settings of generated datapacks

The namespace of a generated datapack is also the beginning of all its tags and objectives.  It must
be short enough that `<namespace>_fn_<number>` can hold a score.
-/

/-- The greatest length of the name of a score holder. -/
def maxHolderLength : Nat := 40

/-- The greatest length of a namespace: `_fn_` and ten digits must fit behind it. -/
def maxNamespaceLength : Nat := maxHolderLength - 4 - 10

/-- The coordinates of a block. -/
structure BlockPos where
  x : Int
  y : Int
  z : Int
deriving DecidableEq, Repr

/-- The coordinates as commands write them. -/
def BlockPos.text (p : BlockPos) : Text :=
  Text.join " " [Text.ofInt p.x, Text.ofInt p.y, Text.ofInt p.z]

/-- The block a number of blocks above; heights are 64-bit words. -/
def BlockPos.above (p : BlockPos) (n : Nat) : BlockPos :=
  { p with y := wrap64 (p.y + n) }

/-- The settings of a generated datapack. -/
structure PackConfig where
  ns : Text := "mcfd"
  packFormat : Int := 15
  description : Text := "mcfunction-debugger"
  /-- where the command blocks stand that write to the log -/
  logPosition : BlockPos := ⟨0, -64, 0⟩
deriving DecidableEq, Repr

/-- Why settings are refused. -/
inductive PackConfigError where
  | emptyNamespace
  | longNamespace (ns : Text)
  | invalidNamespace (ns : Text)
deriving DecidableEq, Repr

/-- The wording of the error. -/
def PackConfigError.message : PackConfigError → Text
  | .emptyNamespace => "namespace must not be empty"
  | .longNamespace ns =>
    "namespace " ++ Text.quoted ns ++ " is longer than " ++ Text.ofNat maxNamespaceLength ++
      " characters"
  | .invalidNamespace ns => "invalid namespace " ++ Text.quoted ns

namespace PackConfig

/-- The bytes of a namespace. -/
def isNamespaceByte (b : UInt8) : Bool :=
  Text.isLower b || Text.isDigit b || b == '_' || b == '-' || b == '.'

/-- The first objection to the settings. -/
def error? (c : PackConfig) : Option PackConfigError :=
  if c.ns.isEmpty then some .emptyNamespace
  else if c.ns.length > maxNamespaceLength then some (.longNamespace c.ns)
  else if !c.ns.all isNamespaceByte then some (.invalidNamespace c.ns)
  else none

/-- The name of the directory of functions, which newer formats spell differently. -/
def functionDir (c : PackConfig) : Text :=
  if c.packFormat ≥ 45 then "function" else "functions"

end PackConfig

end DatapackDebug
