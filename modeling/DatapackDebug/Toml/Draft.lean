import DatapackDebug.Toml.Reader

namespace DatapackDebug.Toml

/-!
# Bringing keys together

The statements of a document define tables bit by bit.  A table that was made only because a key
leads through it can still be defined; a key that was defined cannot be defined again, except that
an array can be replaced.

* `Draft` — the tables so far, and how keys came about;
* `Draft.define` — give a key its value;
* `parse` — the table that a document stands for.
-/

/-- A document as far as it was read.  `implicit` are the tables that were made on the way to
    others, and `arrays` the keys whose last value was an array. -/
structure Draft where
  root : Entries := []
  implicit : List Key := []
  arrays : List Key := []

/-- The value of a name. -/
def find? (name : Text) (es : Entries) : Option Toml := es.lookup name

/-- The entries with a name set. -/
def setEntry (name : Text) (v : Toml) (es : Entries) : Entries :=
  if es.any (·.1 == name) then es.map fun (k, old) => if k == name then (k, v) else (k, old)
  else es ++ [(name, v)]

/-- Change the table that a key leads to.  A name of several tables means the last of them. -/
def changeAt (f : Entries → Except Error Entries) (whole : Key) :
    Key → Entries → Except Error Entries
  | [], es => f es
  | k :: ks, es =>
    match find? k es with
    | some (.table t) => do return setEntry k (.table (← changeAt f whole ks t)) es
    | some (.tables ts) =>
      match ts.getLast? with
      | some (.table t) => do
        return setEntry k (.tables (ts.dropLast ++ [.table (← changeAt f whole ks t)])) es
      | _ => .error (.redefined whole)
    | _ => .error (.redefined whole)

/-- The table that a key leads to. -/
def tableAt? : Key → Entries → Option Entries
  | [], es => some es
  | k :: ks, es =>
    match find? k es with
    | some (.table t) => tableAt? ks t
    | some (.tables ts) =>
      match ts.getLast? with
      | some (.table t) => tableAt? ks t
      | _ => none
    | _ => none

namespace Draft

/-- Note that a table was made on the way to others. -/
def markImplicit (d : Draft) (key : Key) : Draft := { d with implicit := key :: d.implicit }

/-- Forget that a table was made on the way to others. -/
def unmarkImplicit (d : Draft) (key : Key) : Draft :=
  { d with implicit := d.implicit.filter (· != key) }

/-- Note whether the last value of a key was an array. -/
def markArray (d : Draft) (context : Key) (name : Text) (isArray : Bool) : Draft :=
  let key := if name.isEmpty then context else context ++ [name]
  let key := if key.isEmpty then [[]] else key
  let others := d.arrays.filter (· != key)
  { d with arrays := if isArray then key :: others else others }

/-- Give a name in a table its value. -/
def setValue (d : Draft) (context : Key) (name : Text) (v : Toml) : Except Error Draft :=
  let key := context ++ [name]
  match tableAt? context d.root with
  | none => .error (.redefined key)
  | some es =>
    let put (d : Draft) : Except Error Draft := do
      return { d with root := ← changeAt (fun es => .ok (setEntry name v es)) key context d.root }
    if (find? name es).isNone then put d
    else if d.arrays.contains key then put (d.unmarkImplicit key)
    else if d.implicit.contains key then .ok (d.unmarkImplicit key)
    else .error (.redefined key)

/-- Make the tables that lead to a key, where they are missing. -/
def makeParents (d : Draft) (context : Key) : Key → Except Error Draft
  | [] => .ok d
  | name :: names => do
    let key := context ++ [name]
    let d ← match (tableAt? context d.root).map (find? name) with
      | some none => do
        let d := d.markImplicit key
        pure { d with
          root := ← changeAt (fun es => .ok (setEntry name (.table []) es)) key context d.root }
      | some (some (.table _)) | some (some (.tables _)) => pure d
      | _ => .error (.redefined key)
    makeParents d key names

/-- Define a table. -/
def addTable (d : Draft) (key : Key) : Except Error Draft := do
  let d ← d.makeParents [] key.dropLast
  d.setValue key.dropLast (key.getLast?.getD []) (.table [])

/-- Define one more table of those that have the same name. -/
def addTableItem (d : Draft) (key : Key) : Except Error Draft := do
  let d ← d.makeParents [] key.dropLast
  let name := key.getLast?.getD []
  let add (es : Entries) : Except Error Entries :=
    match find? name es with
    | none => .ok (setEntry name (.tables [.table []]) es)
    | some (.tables ts) => .ok (setEntry name (.tables (ts ++ [.table []])) es)
    | some _ => .error (.redefined key)
  return { d with root := ← changeAt add key key.dropLast d.root }

/-- Make the tables of a key with points, which start at a table that is open already. -/
def openTables (d : Draft) (context : Key) : Key → Except Error Draft
  | [] => .ok d
  | name :: names => do
    let key := context ++ [name]
    let d ← (d.markImplicit key).addTable key
    openTables d key names

/-- Entries with a value below a path of names, each of which is free or the name of a table. -/
def insertBelow (name : Text) (v : Toml) : Key → Entries → Except Error Entries
  | [], es => .ok (setEntry name v es)
  | k :: ks, es => do
    let below ← match find? k es with
      | none => pure []
      | some (.table t) => pure t
      | some _ => .error (.redefined [k])
    return setEntry k (.table (← insertBelow name v ks below)) es

mutual

/-- The value of what is assigned to a name.  The tables in it are defined as they are read. -/
def evaluate (context : Key) (name : Text) (inArray : Bool) (d : Draft) :
    Expr → Except Error (Toml × Draft)
  | .scalar v => .ok (v, d)
  | .array items => do
    let (items, d) ← evaluateItems context name (d.markArray context name true) items
    return (.array items, d)
  | .inline pairs => do
    let key := context ++ [name]
    let d := d.markImplicit key
    let d ← if inArray then d.addTableItem key else d.addTable key
    let (es, d) ← evaluatePairs key [] d pairs
    return (.table es, d)

/-- The values of the items of an array. -/
def evaluateItems (context : Key) (name : Text) (d : Draft) :
    List Expr → Except Error (List Toml × Draft)
  | [] => .ok ([], d)
  | e :: es => do
    let (v, d) ← evaluate context name true d e
    let (vs, d) ← evaluateItems context name d es
    return (v :: vs, d)

/-- The entries of an inline table. -/
def evaluatePairs (context : Key) (entries : Entries) (d : Draft) :
    List (Key × Expr) → Except Error (Entries × Draft)
  | [] => .ok (entries, d)
  | (key, e) :: pairs => do
    let name := key.getLast?.getD []
    let d ← d.openTables context key.dropLast
    let inner := context ++ key.dropLast
    let (v, d) ← evaluate inner name false d e
    let d ← d.setValue inner name v
    let d := d.markArray inner name (v matches .array _)
    evaluatePairs context (← insertBelow name v key.dropLast entries) d pairs

end

/-- Give a key in a table its value. -/
def define (d : Draft) (context key : Key) (e : Expr) : Except Error Draft := do
  let name := key.getLast?.getD []
  let d ← d.openTables context key.dropLast
  let inner := context ++ key.dropLast
  let (v, d) ← evaluate inner name false d e
  let d ← d.setValue inner name v
  return d.markArray inner name (v matches .array _)

/-- The document and the present table after a statement. -/
def apply (state : Draft × Key) : Statement → Except Error (Draft × Key)
  | .table key => do
    let d ← state.1.addTable key
    return (d.markArray key [] false, key)
  | .tableItem key => do
    let d ← state.1.addTableItem key
    return (d.markArray key [] false, key)
  | .assign key e => do return (← state.1.define state.2 key e, state.2)

end Draft

/-- The table that a document stands for. -/
def parse (t : Text) : Except Error Entries := do
  let (d, _) ← (← statements t).foldlM Draft.apply ({}, [])
  return d.root

end DatapackDebug.Toml
