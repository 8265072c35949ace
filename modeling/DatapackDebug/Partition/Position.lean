import DatapackDebug.Text.Quoted

namespace DatapackDebug

/-!
# Positions in functions

The execution of a function can be left and entered at a place of a line.

* `Position.text`, `Position.parse` — the form `3_breakpoint`;
* `Position.compare` — the order of execution.
-/

/-- The places of a line in the order of execution. -/
inductive Place where
  /-- the start of the function -/
  | entry
  /-- before the line is executed -/
  | breakpoint
  /-- where a call returns to -/
  | function
  /-- after a call has returned -/
  | afterFunction
  /-- the end of the function -/
  | return
deriving DecidableEq, Repr

namespace Place

/-- All places in order. -/
def all : List Place := [.entry, .breakpoint, .function, .afterFunction, .return]

/-- The name of a place. -/
def text : Place → Text
  | .entry => "entry"
  | .breakpoint => "breakpoint"
  | .function => "function"
  | .afterFunction => "after_function"
  | .return => "return"

/-- The number of a place in the order of execution. -/
def rank : Place → Nat
  | .entry => 0
  | .breakpoint => 1
  | .function => 2
  | .afterFunction => 3
  | .return => 4

/-- The place of a name. -/
def ofText? (t : Text) : Option Place := all.find? fun p => p.text == t

end Place

/-- A place of a line.  Lines are counted from one on.  A line below zero, which a client may ask
    for, is no `Nat` and has no position; `RequestedBreakpoint.addTo` leaves it out. -/
structure Position where
  line : Nat
  place : Place
deriving DecidableEq, Repr

/-- Why a text is not a position. -/
inductive PositionError where
  | malformed (text : Text)
  | unknownPlace (name : Text)
deriving DecidableEq, Repr

/-- The wording of the error. -/
def PositionError.message : PositionError → Text
  | .malformed t => "invalid position " ++ Text.quoted t
  | .unknownPlace t => "unknown position in line " ++ Text.quoted t

namespace Position

/-- The position as file names and tags write it. -/
def text (p : Position) : Text := Text.ofNat p.line ++ "_" ++ p.place.text

/-- The position that a text is. -/
def parse (t : Text) : Except PositionError Position :=
  match Text.cut? '_' t with
  | none => .error (.malformed t)
  | some (line, place) =>
    match Text.toIntOfBits? 64 line with
    | some (.ofNat n) =>
      match Place.ofText? place with
      | some p => .ok ⟨n, p⟩
      | none => .error (.unknownPlace place)
    | _ => .error (.malformed t)

/-- The order of execution. -/
def compare (p q : Position) : Ordering :=
  (Ord.compare p.line q.line).then (Ord.compare p.place.rank q.place.rank)

/-- Is `p` before `q`? -/
def lt (p q : Position) : Bool := p.compare q == .lt

/-- Is `p` before `q` or equal to it? -/
def le (p q : Position) : Bool := p.compare q != .gt

end Position

end DatapackDebug
