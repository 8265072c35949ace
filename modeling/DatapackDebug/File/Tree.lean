import DatapackDebug.File.Path
import DatapackDebug.SortedAssoc

namespace DatapackDebug

/-!
# Trees of files

The part of a file system that the debugger reads and writes, as a value.

* `FileTree.find` — what stands at a path, or why nothing does;
* `FileTree.files` — all files below a directory, in the order of their names;
* `FileTree.write`, `FileTree.makeDirs`, `FileTree.erase`, `FileTree.clear` — the changes that the
  debugger makes.
-/

/-- A file, or a directory with its entries in the order of their names. -/
inductive FileTree where
  | file (content : Text)
  | dir (entries : List (Text × FileTree))
deriving Repr

/-- Why a call of the operating system fails. -/
inductive FileFailure where
  | missing
  | notDirectory
  | isDirectory
  | notEmpty
  | nameTooLong
  | invalid
deriving DecidableEq, Repr

/-- The wording of a failure. -/
def FileFailure.message : FileFailure → Text
  | .missing => "no such file or directory"
  | .notDirectory => "not a directory"
  | .isDirectory => "is a directory"
  | .notEmpty => "directory not empty"
  | .nameTooLong => "file name too long"
  | .invalid => "invalid argument"

/-- A failed call with its path. -/
structure FileError where
  call : Text
  path : Text
  failure : FileFailure
deriving DecidableEq, Repr

/-- The wording of the error. -/
def FileError.message (e : FileError) : Text :=
  e.call ++ " " ++ e.path ++ ": " ++ e.failure.message

/-- What speaks against a name of a file or a directory: it holds a zero byte, or has more than 255
    bytes. -/
def FileFailure.ofName? (name : Text) : Option FileFailure :=
  if name.contains 0 then some .invalid else if 255 < name.length then some .nameTooLong else none

namespace FileTree

/-- An empty directory. -/
def empty : FileTree := .dir []

instance : Inhabited FileTree := ⟨empty⟩

/-- Is it a directory? -/
def isDir : FileTree → Bool
  | .file _ => false
  | .dir _ => true

/-- What stands at a path of names. -/
def find : FileTree → List Text → Except FileFailure FileTree
  | t, [] => .ok t
  | .file _, _ :: _ => .error .notDirectory
  | .dir entries, name :: names =>
    match SortedAssoc.find? Text.compare name entries with
    | none => .error .missing
    | some t => t.find names

/-- The content of the file at a path of names. -/
def read? (t : FileTree) (names : List Text) : Option Text :=
  match t.find names with
  | .ok (.file content) => some content
  | _ => none

mutual

/-- All files of a tree, with the names that lead to them. -/
def files : FileTree → List (List Text × Text)
  | .file content => [([], content)]
  | .dir entries => entryFiles entries

/-- All files of the entries of a directory. -/
def entryFiles : List (Text × FileTree) → List (List Text × Text)
  | [] => []
  | (name, t) :: rest =>
    t.files.map (fun (names, content) => (name :: names, content)) ++ entryFiles rest

end

/-- The entries of a directory with one changed by `f`, which gets nothing if there is none. -/
def alter (entries : List (Text × FileTree)) (name : Text)
    (f : Option FileTree → Except FileFailure FileTree) : Except FileFailure FileTree := do
  let t ← f (SortedAssoc.find? Text.compare name entries)
  return .dir (SortedAssoc.insert Text.compare name t entries)

/-- The directory at a path of names, made with its parents where it is missing.  The failure comes
    with the number of names that lead to where it arises. -/
def makeDirs : FileTree → List Text → Except (Nat × FileFailure) FileTree
  | .file _, _ => .error (0, .notDirectory)
  | .dir entries, [] => .ok (.dir entries)
  | .dir entries, name :: names =>
    match FileFailure.ofName? name with
    | some failure => .error (1, failure)
    | none => do
      let old := (SortedAssoc.find? Text.compare name entries).getD .empty
      let t ← (makeDirs old names).mapError fun (count, failure) => (count + 1, failure)
      return .dir (SortedAssoc.insert Text.compare name t entries)

/-- The tree with the file at a path of names written; its directory must be there. -/
def write (content : Text) : FileTree → List Text → Except FileFailure FileTree
  | .file _, [] => .ok (.file content)
  | .dir _, [] => .error .isDirectory
  | .file _, _ :: _ => .error .notDirectory
  | .dir entries, [name] =>
    alter entries name fun
      | some (.dir _) => .error .isDirectory
      | _ => .ok (.file content)
  | .dir entries, name :: names =>
    alter entries name fun
      | none => .error .missing
      | some t => write content t names

/-- The tree with what stands at a path of names changed by `f`. -/
def modify (f : FileTree → FileTree) : FileTree → List Text → FileTree
  | t, [] => f t
  | .file content, _ :: _ => .file content
  | .dir entries, name :: names =>
    match SortedAssoc.find? Text.compare name entries with
    | none => .dir entries
    | some t => .dir (SortedAssoc.insert Text.compare name (modify f t names) entries)

/-- The tree without an entry of the directory at a path of names. -/
def erase (t : FileTree) (names : List Text) (name : Text) : FileTree :=
  t.modify (fun
    | .file content => .file content
    | .dir entries => .dir (SortedAssoc.erase Text.compare name entries)) names

/-- The tree with all entries of the directory at a path of names removed. -/
def clear (t : FileTree) (names : List Text) : FileTree := t.modify (fun _ => .empty) names

/-- The tree with a file and the directories that lead to it.  A path that ends in `/` is that of a
    directory.  What cannot be made is left out. -/
def addFile (t : FileTree) (path content : Text) : FileTree :=
  let names := (Path.names path).filter (!·.isEmpty)
  let isDir := Text.endsWith path "/"
  let t := ((t.makeDirs (if isDir then names else names.dropLast)).toOption).getD t
  if isDir then t else ((t.write content names).toOption).getD t

/-- The tree of files at paths. -/
def ofFiles (files : List (Text × Text)) : FileTree :=
  files.foldl (fun t (path, content) => t.addFile path content) .empty

end FileTree

end DatapackDebug
