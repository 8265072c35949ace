import DatapackDebug.File.Tree

namespace DatapackDebug

/-!
# File stores

A file store is a tree of files, addressed by paths; a relative path starts at the working
directory.  A path is followed name by name: whatever comes before a name, be it `.` or `..`, must
be a directory, and a slash at the end asks for one.

* `FileStore.resolve` — the place that a path leads to;
* `FileStore.read` — the content of a file;
* `FileStore.openFile`, `FileStore.writeFile` — write a file, with the directories that lead to it;
* `FileStore.removeAll` — remove a file or a directory with all that it holds;
* `FileStore.replaceDir` — remove a directory and write files into it.

An operation on several files stops at the first failure and keeps what it has done before.
-/

/-- A tree of files and a working directory. -/
structure FileStore where
  tree : FileTree := .empty
  workingDir : Text := "/"
deriving Inhabited

namespace FileStore

/-- The names that lead to a path without `.` and `..` in it. -/
def names (s : FileStore) (path : Text) : List Text :=
  Path.parts (if Path.isAbsolute path then path else Path.join [s.workingDir, path])

/-- The place that a name leads to from another place, which must be a directory.  Nothing needs to
    be there. -/
def step (s : FileStore) (place : List Text) (name : Text) : Except FileFailure (List Text) :=
  match s.tree.find place with
  | .error failure => .error failure
  | .ok (.file _) => .error .notDirectory
  | .ok (.dir _) =>
    if name.isEmpty || name == "." then .ok place
    else if name == ".." then .ok place.dropLast
    else match FileFailure.ofName? name with
      | some failure => .error failure
      | none => .ok (place ++ [name])

/-- How many bytes a path can have. -/
def maxPathLength : Nat := 4095

/-- The place that names lead to from where a path starts. -/
def follow (s : FileStore) (path : Text) (names : List Text) : Except FileFailure (List Text) :=
  if path.isEmpty then .error .missing
  else if path.contains 0 then .error .invalid
  else if maxPathLength < path.length then .error .nameTooLong
  else names.foldlM s.step (if Path.isAbsolute path then [] else Path.parts s.workingDir)

/-- The place that a path leads to. -/
def resolve (s : FileStore) (path : Text) : Except FileFailure (List Text) :=
  s.follow path (Path.names path)

/-- What stands at a path. -/
def find (s : FileStore) (path : Text) : Except FileFailure FileTree :=
  (s.resolve path).bind s.tree.find

/-- The content of a file. -/
def read (s : FileStore) (path : Text) : Except FileError Text :=
  match s.find path with
  | .ok (.file content) => .ok content
  | .ok (.dir _) => .error ⟨"read", path, .isDirectory⟩
  | .error failure => .error ⟨"open", path, failure⟩

/-- The files below a path, with the names that lead from there to them. -/
def filesBelow (s : FileStore) (path : Text) : List (List Text × Text) :=
  match s.find path with
  | .ok t => t.files
  | .error _ => []

/-- A path as its directory and its last name. -/
def splitLast (path : Text) : Text × Text :=
  let path := Path.dropSlashes path
  match Text.cutLast? '/' path with
  | none => (".", path)
  | some ([], name) => ("/", name)
  | some (dir, name) => (dir, name)

/-- Remove an entry of a directory by its name.  The directory itself and the one that holds it are
    emptied, but cannot be removed this way. -/
def removeEntry (s : FileStore) (dir : List Text) (name : Text) : FileStore × Option FileFailure :=
  if name == "." then ({ s with tree := s.tree.clear dir }, some .invalid)
  else if name == ".." then ({ s with tree := s.tree.clear dir.dropLast }, some .notEmpty)
  else match FileFailure.ofName? name with
    | some failure => (s, some failure)
    | none => ({ s with tree := s.tree.erase dir name }, none)

/-- Remove the last name of a path from its directory.  A directory that is missing has nothing to
    remove. -/
def removeFromDir (s : FileStore) (path : Text) : FileStore × Option FileError :=
  let (dir, name) := splitLast path
  let failed (failure : FileFailure) : FileError := ⟨"unlinkat", dir ++ "/" ++ name, failure⟩
  match s.resolve dir, s.find dir with
  | .ok place, .ok (.dir _) =>
    let (s, failure) := s.removeEntry place name
    (s, failure.map failed)
  | .ok _, .ok (.file _) => (s, some (failed .notDirectory))
  | _, .error .missing => (s, none)
  | .error failure, _ | _, .error failure => (s, some ⟨"open", dir, failure⟩)

/-- Remove what stands at a path, which may be nothing. -/
def removeAll (s : FileStore) (path : Text) : FileStore × Option FileError :=
  if path.isEmpty then (s, none)
  else if Path.endsInDot path then (s, some ⟨"RemoveAll", path, .invalid⟩)
  else match s.find path with
    | .error .missing => (s, none)
    | _ => s.removeFromDir path

/-- The start of a path that a number of names lead to. -/
def pathStart (s : FileStore) (path : Text) (count : Nat) : Text :=
  if Path.isAbsolute path then "/" ++ Text.join "/" ((s.names path).take count)
  else Text.join "/" ((Path.parts path).take (count - (Path.parts s.workingDir).length))

/-- Make a directory and those that lead to it. -/
def makeDirs (s : FileStore) (path : Text) : Except FileError FileStore :=
  match s.tree.makeDirs (s.names path) with
  | .ok tree => .ok { s with tree }
  | .error (count, failure) => .error ⟨"mkdir", s.pathStart path count, failure⟩

/-- The place of a file that is to be opened for writing, which is made if it is missing.  A path
    that ends in a slash, `.` or `..` is that of a directory. -/
def creationPlace (s : FileStore) (path : Text) : Except FileFailure (List Text) := do
  let names := Path.names (Path.dropSlashes path)
  let place ← s.follow path names.dropLast
  let last := names.getLast?.getD []
  let place ← s.step place last
  if Text.endsWith path "/" || last == "." || last == ".." then .error .isDirectory
  else match s.tree.find place with
    | .ok (.dir _) => .error .isDirectory
    | _ => .ok place

/-- Open a file for writing, with the directories that lead to it.  What `change` makes of its
    content is written; a file that is missing is taken to be empty. -/
def openFile (s : FileStore) (path : Text) (change : Text → Text) : FileStore × Option FileError :=
  match s.makeDirs (Path.parent path) with
  | .error e => (s, some e)
  | .ok s =>
    let written : Except FileFailure FileTree := do
      let place ← s.creationPlace path
      s.tree.write (change ((s.tree.read? place).getD [])) place
    match written with
    | .ok tree => ({ s with tree }, none)
    | .error failure => (s, some ⟨"open", path, failure⟩)

/-- Write a file, with the directories that lead to it. -/
def writeFile (s : FileStore) (path content : Text) : FileStore × Option FileError :=
  s.openFile path fun _ => content

/-- Write files into a directory up to the first failure. -/
def writeFiles (s : FileStore) (dir : Text) : List (Text × Text) → FileStore × Option FileError
  | [] => (s, none)
  | (path, content) :: files =>
    match s.writeFile (Path.join [dir, path]) content with
    | (s, some e) => (s, some e)
    | (s, none) => writeFiles s dir files

/-- Replace a directory by one that holds some files. -/
def replaceDir (s : FileStore) (dir : Text) (files : List (Text × Text)) :
    FileStore × Option FileError :=
  match s.removeAll dir with
  | (s, some e) => (s, some e)
  | (s, none) => s.writeFiles dir files

end FileStore

end DatapackDebug
