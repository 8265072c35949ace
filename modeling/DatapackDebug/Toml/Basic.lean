import DatapackDebug.Text.Basic

namespace DatapackDebug

/-!
# TOML documents

* `Toml` — values;
* `Toml.Expr`, `Toml.Statement` — what is written in a document, before keys are brought together;
* `Toml.Error` — why a text is not a document.
-/

/-- A TOML value.  Of a time and of a number with a fraction only the text is kept. -/
inductive Toml where
  | string (t : Text)
  | integer (n : Int)
  | float (t : Text)
  | bool (b : Bool)
  | datetime (t : Text)
  | array (items : List Toml)
  /-- tables that were defined one by one under the same name -/
  | tables (items : List Toml)
  | table (entries : List (Text × Toml))
deriving Repr, Inhabited

namespace Toml

/-- The names of a key, from the outermost table on. -/
abbrev Key := List Text

/-- The entries of a table. -/
abbrev Entries := List (Text × Toml)

/-- What a value is written as. -/
inductive Expr where
  | scalar (v : Toml)
  | array (items : List Expr)
  | inline (pairs : List (Key × Expr))
deriving Inhabited

/-- A line of a document that defines something. -/
inductive Statement where
  | table (key : Key)
  | tableItem (key : Key)
  | assign (key : Key) (value : Expr)
deriving Inhabited

/-- Why a text is not a document, or not the one that is wanted. -/
inductive Error where
  /-- bytes that are no characters, or control characters -/
  | encoding
  /-- the text does not go on as a document can -/
  | malformed (rest : Text)
  | redefined (key : Key)
  | mistyped (key : Key)
deriving DecidableEq, Repr

/-- The wording of the error. -/
def Error.message : Error → Text
  | .encoding => "toml: invalid character"
  | .malformed rest => "toml: unexpected " ++ (if rest.isEmpty then "end" else "input")
  | .redefined key => "toml: key " ++ Text.join "." key ++ " has already been defined"
  | .mistyped key => "toml: incompatible type of key " ++ Text.join "." key

end Toml

end DatapackDebug
