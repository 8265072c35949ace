import DatapackDebug.Text.Basic

namespace DatapackDebug

/-!
# Paths of files

Paths are texts with `/` between the names.  All functions here are lexical: they do not look at any
file.

* `Path.clean` — the shortest path that means the same;
* `Path.join` — one path below another;
* `Path.relative?` — the way from one path to another;
* `Path.base`, `Path.parent` — the last name, and what precedes it.
-/

namespace Path

/-- Does the path start at the root? -/
def isAbsolute (p : Text) : Bool := p.head? == some '/'

/-- The names of a path. -/
def names (p : Text) : List Text := Text.splitOn '/' p

/-- The names without empty ones, `.`, and names that `..` takes back; `kept` are those before, the
    last first. -/
def reduce (absolute : Bool) (kept : List Text) : List Text → List Text
  | [] => kept.reverse
  | name :: rest =>
    if name.isEmpty || name == "." then reduce absolute kept rest
    else if name == ".." then
      match kept with
      | [] => reduce absolute (if absolute then [] else [name]) rest
      | last :: before =>
        reduce absolute (if last == ".." then name :: kept else before) rest
    else reduce absolute (name :: kept) rest

/-- The names that are left of a path after `..` and `.` are taken out. -/
def parts (p : Text) : List Text := reduce (isAbsolute p) [] (names p)

/-- The shortest path that means the same; the empty path is `.`. -/
def clean (p : Text) : Text :=
  if isAbsolute p then "/" ++ Text.join "/" (parts p)
  else if (parts p).isEmpty then "."
  else Text.join "/" (parts p)

/-- The paths one below the other, without empty ones. -/
def join (ps : List Text) : Text :=
  match ps.filter (!·.isEmpty) with
  | [] => []
  | ps => clean (Text.join "/" ps)

/-- The two lists without what both begin with. -/
def dropCommon : List Text → List Text → List Text × List Text
  | a :: as, b :: bs => if a == b then dropCommon as bs else (a :: as, b :: bs)
  | as, bs => (as, bs)

/-- The path from `base` to `target`.  There is none between an absolute and a relative path, nor
    out of a directory whose name is not known. -/
def relative? (base target : Text) : Option Text :=
  if clean base == clean target then some "."
  else if isAbsolute base != isAbsolute target then none
  else
    let target : List Text := if clean target == "." then ["."] else parts target
    match dropCommon (parts base) target with
    | (up, down) =>
      if up.head? == some ".." && !down.isEmpty then none
      else some (Text.join "/" (up.map (fun _ => Text.ofString "..") ++ down))

/-- Is the last name of the path `.`? -/
def endsInDot (p : Text) : Bool := p == "." || Text.endsWith p "/."

/-- The path without slashes at its end. -/
def dropSlashes (p : Text) : Text := (p.reverse.dropWhile (· == 0x2f)).reverse

/-- The last name of a path. -/
def base (p : Text) : Text :=
  if p.isEmpty then "."
  else if (dropSlashes p).isEmpty then "/"
  else (names (dropSlashes p)).getLast?.getD []

/-- What precedes the last name of a path. -/
def parent (p : Text) : Text :=
  clean (if isAbsolute p then "/" ++ before else before)
where
  before : Text := Text.join "/" (names p).dropLast

end Path

end DatapackDebug
