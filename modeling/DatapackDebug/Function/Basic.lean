import DatapackDebug.Function.Line

namespace DatapackDebug

/-!
# Functions

A function is a file of commands, one a line.

* `Function.ofSource` — a function from its text; blanks around a line do not count;
* `Function.ofFile` — a function from the content of its file;
* `Function.calls` — the lines that call another function.
-/

/-- A line of a function with its number, which starts at one. -/
structure SourceLine where
  number : Nat
  text : Text
  line : Line
deriving DecidableEq, Repr

/-- A function and the file it comes from. -/
structure Function where
  name : ResourceName
  path : Text
  lines : List SourceLine
deriving DecidableEq, Repr

/-- A line that calls a function. -/
structure CallSite where
  line : Nat
  call : FunctionCall
deriving DecidableEq, Repr

namespace Function

/-- The end of a line. -/
def newline : UInt8 := 0x0a

/-- The lines of a text, without the one line break at its end. -/
def linesOf (source : Text) : List Text :=
  let source := Text.replaceAll "\r\n" "\n" source
  let source := (Text.dropEnd? "\n" source).getD source
  if source.isEmpty then [] else Text.splitOn newline source

/-- The function of a source text. -/
def ofSource (g : Grammar) (name : ResourceName) (path : Text) (source : Text) : Function where
  name := name
  path := path
  lines := (linesOf source).mapIdx fun i line =>
    let text := Text.trim line
    { number := i + 1, text, line := g.line text }

/-- A file line by line, each ended by one line break. -/
def fileText (content : Text) : Text :=
  let lines := Text.splitOn newline content
  let lines := if lines.getLast? == some [] then lines.dropLast else lines
  lines.flatMap fun line => (Text.dropEnd? "\r" line).getD line ++ [newline]

/-- The function in a file. -/
def ofFile (g : Grammar) (name : ResourceName) (path : Text) (content : Text) : Function :=
  ofSource g name path (fileText content)

/-- The calls of a function in the order of its lines. -/
def calls (f : Function) : List CallSite :=
  f.lines.filterMap fun l =>
    match l.line with
    | .call call => some ⟨l.number, call⟩
    | _ => none

end Function

end DatapackDebug
