import DatapackDebug.Session.BreakpointSet

namespace DatapackDebug

/-!
# Breakpoints on the command line

* `BreakpointFlag.parse` — a breakpoint written as `namespace:path:line`;
* `BreakpointFlag.parseAll` — several of them as a set.
-/

namespace BreakpointFlag

/-- Why a breakpoint is refused. -/
inductive Error where
  | malformed (flag : Text)
  | invalidName (flag : Text) (why : Text)
deriving DecidableEq, Repr

/-- The wording of the error. -/
def Error.message : Error → Text
  | .malformed flag => "invalid breakpoint " ++ Text.quoted flag
  | .invalidName flag why => "invalid breakpoint " ++ Text.quoted flag ++ ": " ++ why

/-- The function and the line of a breakpoint. -/
def parse (flag : Text) : Except Error (ResourceName × Nat) :=
  match Text.cutLast? ':' flag with
  | none => .error (.malformed flag)
  | some (name, line) =>
    match Text.toIntOfBits? 64 line with
    | some (.ofNat (n + 1)) =>
      match ResourceName.parse name with
      | .ok name => .ok (name, n + 1)
      | .error e => .error (.invalidName flag e.message)
    | _ => .error (.malformed flag)

/-- The set of some breakpoints. -/
def parseAll (flags : List Text) : Except Error BreakpointMap := do
  let places ← flags.mapM parse
  return places.foldl (fun m (name, line) => m.add name ⟨line, .breakpoint⟩ ⟨.normal, []⟩) []

end BreakpointFlag

end DatapackDebug
