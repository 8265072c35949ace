import DatapackDebug.Function.Basic
import DatapackDebug.Partition.Position

namespace DatapackDebug

/-!
# Partitions of functions

Breakpoints and calls cut a function into pieces that are executed without interruption.

* `Breakpoint` — where and how a function may be left;
* `cuts` — the cuts of one line;
* `split` — the pieces of a function: they follow one another, the first starts at the entry and the
  last ends with the return;
* `resumeTargets` — the positions at which execution can be taken up again.
-/

/-- The types of breakpoints. -/
inductive BreakpointType where
  /-- set by the user -/
  | normal
  /-- set by the user at a line where it has no effect -/
  | invalid
  /-- keeps the position of a stop as a cut, without stopping there -/
  | continue
  /-- stops if a condition holds -/
  | step
deriving DecidableEq, Repr

/-- The name of a type of breakpoint. -/
def BreakpointType.text : BreakpointType → Text
  | .normal => "normal"
  | .invalid => "invalid"
  | .continue => "continue"
  | .step => "step"

/-- The type of a name. -/
def BreakpointType.ofText? (t : Text) : Option BreakpointType :=
  [BreakpointType.normal, .invalid, .continue, .step].find? fun b => b.text == t

/-- A breakpoint; the condition counts for steps only. -/
structure Breakpoint where
  type : BreakpointType
  condition : Text := []
deriving DecidableEq, Repr

/-- The breakpoints of a function, in the order of their positions. -/
abbrev Breakpoints := List (Position × Breakpoint)

namespace Breakpoints

/-- The breakpoint at a position. -/
def at? (bs : Breakpoints) (p : Position) : Option Breakpoint :=
  SortedAssoc.find? Position.compare p bs

/-- The breakpoints with one set. -/
def set (bs : Breakpoints) (p : Position) (b : Breakpoint) : Breakpoints :=
  SortedAssoc.insert Position.compare p b bs

end Breakpoints

/-- How a piece of a function ends.  At a breakpoint that was set, it is told at which place of the
    line that is. -/
inductive Terminator where
  /-- a breakpoint that is a line of the function -/
  | static
  /-- a breakpoint of the user -/
  | breakpoint (place : Place)
  /-- stop if the condition holds, else go on -/
  | step (place : Place) (condition : Text)
  /-- go on -/
  | continue (place : Place)
  /-- the line calls a function -/
  | call (line : Nat) (text : Text) (call : FunctionCall)
  /-- the function ends -/
  | return
deriving DecidableEq, Repr

/-- Can execution be taken up again after the piece? -/
def Terminator.isResumable : Terminator → Bool
  | .static | .breakpoint _ | .step .. | .continue _ => true
  | .call .. | .return => false

/-- A piece of a function, from `start` up to `stop`; the line that ends it is not among its
    lines. -/
structure Partition where
  start : Position
  stop : Position
  lines : List SourceLine
  terminator : Terminator
deriving DecidableEq, Repr

/-- A position where a function is cut, and how the piece before it ends. -/
abbrev Cut := Position × Terminator

/-- How a piece ends at a breakpoint at a place of a line; an invalid one ends none. -/
def Breakpoint.terminator? (b : Breakpoint) (place : Place) : Option Terminator :=
  match b.type with
  | .normal => some (.breakpoint place)
  | .invalid => none
  | .continue => some (.continue place)
  | .step => some (.step place b.condition)

/-- How breakpoints end the piece before a position, if they do. -/
def Breakpoints.terminatorAt? (bs : Breakpoints) (p : Position) : Option Terminator :=
  (bs.at? p).bind (·.terminator? p.place)

/-- The cut that breakpoints make at a position. -/
def breakpointCut (bs : Breakpoints) (p : Position) : List Cut :=
  ((bs.terminatorAt? p).map fun t => (p, t)).toList

/-- The cuts of a line in order, and whether the line belongs to the piece after the last one.  A
    breakpoint in the source takes the place of one that is set at the same position. -/
def cuts (bs : Breakpoints) (l : SourceLine) : List Cut × Bool :=
  let before : Position := ⟨l.number, .breakpoint⟩
  match l.line with
  | .breakpoint => ([(before, .static)], false)
  | .call call =>
    let after : Position := ⟨l.number, .afterFunction⟩
    (breakpointCut bs before ++ [(⟨l.number, .function⟩, .call l.number l.text call)] ++
      breakpointCut bs after, false)
  | _ => (breakpointCut bs before, true)

/-- The pieces that cuts end, the first of which starts at `start` with the lines `pending`, and the
    start and lines of the piece after them. -/
def cutPieces (start : Position) (pending : List SourceLine) :
    List Cut → List Partition × Position × List SourceLine
  | [] => ([], start, pending)
  | (stop, terminator) :: rest =>
    let (pieces, next) := cutPieces stop [] rest
    (⟨start, stop, pending, terminator⟩ :: pieces, next)

/-- The pieces of the rest of a function, the first of which starts at `start` with the lines
    `pending`; the function ends in line `last`. -/
def splitFrom (bs : Breakpoints) (last : Nat) (start : Position) (pending : List SourceLine) :
    List SourceLine → List Partition
  | [] => [⟨start, ⟨last, .return⟩, pending, .return⟩]
  | l :: ls =>
    let (lineCuts, kept) := cuts bs l
    let (pieces, start, pending) := cutPieces start pending lineCuts
    pieces ++ splitFrom bs last start (if kept then pending ++ [l] else pending) ls

/-- The pieces of a function. -/
def split (lines : List SourceLine) (bs : Breakpoints) : List Partition :=
  splitFrom bs (max 1 lines.length) ⟨1, .entry⟩ [] lines

/-- The positions at which execution can be taken up again, in order. -/
def resumeTargets (partitions : List Partition) : List Position :=
  ((partitions.filter (·.terminator.isResumable)).map (·.stop)).mergeSort Position.le

end DatapackDebug
