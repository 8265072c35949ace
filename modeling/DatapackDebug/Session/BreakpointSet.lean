import DatapackDebug.Generate.Output

namespace DatapackDebug

/-!
# Sets of breakpoints

A set of breakpoints is a `BreakpointMap`: functions in the order of their names, and for each its
breakpoints in the order of their positions.

* `BreakpointMap.set`, `BreakpointMap.add` — change the breakpoints of a function;
* `BreakpointMap.clone` — copies a set;
* `BreakpointMap.has` — is there a breakpoint that has an effect?
* `BreakpointMap.key` — a text that tells which datapack the set makes.
-/

namespace Breakpoints

/-- The breakpoints that have an effect. -/
def effective (bs : Breakpoints) : Breakpoints := bs.filter fun (_, b) => b.type != .invalid

/-- The positions of the breakpoints, in order. -/
def positions (bs : Breakpoints) : List Position := bs.map (·.1)

/-- Were breakpoints moved and nothing else?  Breakpoints without an effect do not count. -/
def onlyMoved (old new : Breakpoints) : Bool :=
  let old := old.effective.positions
  let new := new.effective.positions
  !old.isEmpty && old.length == new.length && old.any fun p => !new.contains p

/-- The old and the new place of each breakpoint that was moved. -/
def moves (old new : Breakpoints) : List (Position × Position) :=
  (old.effective.positions.zip new.effective.positions).filter fun (p, q) => p != q

end Breakpoints

namespace BreakpointMap

/-- The breakpoints of a function, if there are any. -/
def get? (m : BreakpointMap) (f : ResourceName) : Option Breakpoints :=
  SortedAssoc.find? ResourceName.compare f m

/-- The set with other breakpoints of a function. -/
def set (m : BreakpointMap) (f : ResourceName) (bs : Breakpoints) : BreakpointMap :=
  if bs.isEmpty then SortedAssoc.erase ResourceName.compare f m
  else SortedAssoc.insert ResourceName.compare f bs m

/-- The set with one breakpoint more. -/
def add (m : BreakpointMap) (f : ResourceName) (p : Position) (b : Breakpoint) : BreakpointMap :=
  SortedAssoc.insert ResourceName.compare f ((m.of f).set p b) m

/-- A copy of the set, made function by function. -/
def clone (m : BreakpointMap) : BreakpointMap := m.foldl (fun copy e => copy.set e.1 e.2) []

/-- Is there a breakpoint that has an effect? -/
def has (m : BreakpointMap) (f : ResourceName) (p : Position) : Bool :=
  match (m.of f).at? p with
  | some b => b.type != .invalid
  | none => false

/-- The text of one breakpoint. -/
def keyEntry (f : ResourceName) (p : Position) (b : Breakpoint) : Text :=
  let condition : Text := if b.condition.isEmpty then [] else "/" ++ b.condition
  f.text ++ "@" ++ p.text ++ "=" ++ b.type.text ++ condition ++ ";"

/-- A text that names all breakpoints that have an effect. -/
def key (m : BreakpointMap) : Text :=
  m.flatMap fun (f, bs) => bs.effective.flatMap fun (p, b) => keyEntry f p b

end BreakpointMap

end DatapackDebug
