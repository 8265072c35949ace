import DatapackDebug.Argument.Scan
import DatapackDebug.Number.Literal

namespace DatapackDebug.Argument

/-!
# Numbers, truth values, angles, ranges, coordinates and times

A number is the longest run of digits, points and minus signs; what the run means is decided
afterwards, so `1-2` is one malformed number.

* `integer`, `decimal` — numbers within bounds;
* `boolean`, `angle`, `range`, `coordinates`, `time` — values made of them.
-/

/-- The bytes of a number, of which there must be more than a minus sign. -/
def numberText (name : NumberName) : Scan Text := do
  let text ← spanOf isNumberByte
  if text.isEmpty || text == "-" then fail (.missing (.number name))
  return text

/-! ### Integers -/

/-- An inclusive interval of integers. -/
structure IntBounds where
  least : Int
  greatest : Int
deriving DecidableEq, Repr

/-- All integers of a signed word. -/
def IntBounds.ofBits (bits : Nat) : IntBounds := ⟨-Int.pow 2 (bits - 1), Int.pow 2 (bits - 1) - 1⟩

/-- An integer of a signed word of the given width, within bounds. -/
def integer (name : NumberName) (bits : Nat) (bounds : IntBounds) : Scan Int := do
  let start ← get
  let text ← numberText name
  match Text.toIntOfBits? bits text with
  | none => failAt start (.malformedNumber name text)
  | some v =>
    if v < bounds.least then failAt start (.integerOutOfRange name .least bounds.least v)
    else if bounds.greatest < v then
      failAt start (.integerOutOfRange name .greatest bounds.greatest v)
    else return v

/-- An integer of a signed 32-bit word. -/
def integer32 : Scan Int := integer .integer 32 (.ofBits 32)

/-! ### Decimals -/

/-- An interval of numbers that may be open at either end. -/
structure DecimalBounds where
  least : Option Binary := none
  greatest : Option Binary := none
deriving DecidableEq, Repr

/-- A number of a floating point format, within bounds. -/
def decimal (name : NumberName) (f : FloatFormat) (bounds : DecimalBounds) : Scan Binary := do
  let start ← get
  let text ← numberText name
  match Binary.ofText? f text with
  | none => failAt start (.malformedNumber name text)
  | some v =>
    let shown := v.toDouble
    match bounds.least.filter shown.lt, bounds.greatest.filter (·.lt shown) with
    | some limit, _ => failAt start (.decimalOutOfRange name .least limit shown)
    | none, some limit => failAt start (.decimalOutOfRange name .greatest limit shown)
    | none, none => return v

/-- A double without bounds. -/
def double : Scan Binary := decimal .double .double {}

/-- A single without bounds. -/
def single : Scan Binary := decimal .float .single {}

/-! ### Truth values -/

/-- The word `true` or `false`. -/
def boolean : Scan Bool := do
  let start ← get
  let text ← word
  if text.isEmpty then failAt start (.missing .bool)
  else if text == "true" then return true
  else if text == "false" then return false
  else failAt start (.malformedBool text)

/-! ### Angles -/

/-- A yaw, relative if `~` stands in front. -/
structure Angle where
  relative : Bool
  value : Binary
deriving DecidableEq, Repr

/-- An angle; behind `~` the number may be missing. -/
def angle : Scan Angle := do
  match ← peek? with
  | none => fail .incompleteAngle
  | some b =>
    if b == Text.blank then fail .incompleteAngle
    let relative ← accept '~'
    if relative && !(← peek?).any isNumberByte then return ⟨true, .zero⟩
    return ⟨relative, (← single).toDouble⟩

/-! ### Ranges -/

/-- A range of numbers, open where a bound is missing. -/
structure Range where
  least : Option Binary
  greatest : Option Binary
deriving DecidableEq, Repr

/-- A range as a command writes it: `5`, `1..`, `..2` or `1..2`. -/
def Range.text (r : Range) : Text :=
  let lower := (r.least.map Binary.positional).getD []
  match r.least, r.greatest with
  | some a, some b => if a.eq b then lower else lower ++ ".." ++ b.positional
  | _, _ => lower ++ ".." ++ (r.greatest.map Binary.positional).getD []

/-- The bytes of a bound, which ends at `..`. -/
def boundText : Text → Text × Text
  | [] => ([], [])
  | b :: t =>
    if isNumberByte b && !(b == '.' && t.head? == some 0x2e) then
      let (bound, rest) := boundText t
      (b :: bound, rest)
    else ([], b :: t)

/-- A bound of a range of integers or decimals, if there is one. -/
def rangeBound (decimals : Bool) : Scan (Option Binary) := do
  let start ← get
  let text ← (fun t => .ok (boundText t) : Scan Text)
  if text.isEmpty then return none
  if text == "-" then fail (.missing .range)
  if decimals then
    match Binary.ofText? .double text with
    | some v => return some v
    | none => failAt start (.malformedNumber .float text)
  else
    match Text.toIntOfBits? 32 text with
    | some v => return some (.ofIntDouble v)
    | none => failAt start (.malformedNumber .integer text)

/-- Take `..` if it is next. -/
def acceptDots : Scan Bool := fun t =>
  match Text.dropStart? ".." t with
  | some rest => .ok (true, rest)
  | none => .ok (false, t)

/-- A range with at least one bound. -/
def range (decimals : Bool) : Scan Range := do
  let start ← get
  let least ← rangeBound decimals
  let greatest ← if ← acceptDots then rangeBound decimals else pure least
  match least, greatest with
  | none, none => failAt start (.missing .range)
  | some a, some b => if b.lt a then failAt start .invertedRange else return ⟨least, greatest⟩
  | _, _ => return ⟨least, greatest⟩

/-! ### Coordinates -/

/-- How a coordinate is to be understood. -/
inductive CoordinateKind where
  /-- in the world -/
  | absolute
  /-- from where the command runs, written `~` -/
  | relative
  /-- along the direction of sight, written `^` -/
  | local
deriving DecidableEq, Repr

/-- The name of a kind. -/
def CoordinateKind.text : CoordinateKind → Text
  | .absolute => "absolute"
  | .relative => "relative"
  | .local => "local"

/-- One coordinate. -/
structure Coordinate where
  kind : CoordinateKind
  value : Binary
deriving DecidableEq, Repr

/-- The mark of a kind of coordinate. -/
def CoordinateKind.mark : CoordinateKind → Text
  | .absolute => []
  | .relative => "~"
  | .local => "^"

/-- A coordinate as a command writes it; a zero offset is left out. -/
def Coordinate.text (c : Coordinate) : Text :=
  if c.kind != .absolute && c.value.isZero then c.kind.mark else c.kind.mark ++ c.value.general

/-- Which coordinates an argument takes. -/
structure CoordinatesShape where
  count : Nat
  /-- must absolute coordinates be integers? -/
  integral : Bool := false
  /-- are they the angles of a rotation? -/
  rotation : Bool := false
deriving DecidableEq, Repr

/-- One coordinate. -/
def coordinate (shape : CoordinatesShape) : Scan Coordinate := do
  let start ← get
  let kind : CoordinateKind ← do
    if ← accept '~' then pure .relative
    else if (← peek?) == some 0x5e then
      if shape.rotation then fail .localRotation
      let _ ← accept '^'
      pure .local
    else pure .absolute
  if !(← peek?).any isNumberByte then
    if kind == .absolute then failAt start .missingCoordinate
    return ⟨kind, .zero⟩
  if shape.integral && kind == .absolute then
    return ⟨kind, .ofIntDouble (← integer32)⟩
  return ⟨kind, ← double⟩

/-- Is a space next, with something other than a space or the end behind it? -/
def singleBlank : Text → Bool
  | b :: c :: _ => b == Text.blank && c != Text.blank
  | _ => false

/-- The coordinates after the first. -/
def moreCoordinates (shape : CoordinatesShape) : Nat → Scan (List Coordinate)
  | 0 => return []
  | n + 1 => do
    if !singleBlank (← get) then fail (.incompleteCoordinates shape.count)
    let _ ← accept Text.blank
    let first ← coordinate shape
    return first :: (← moreCoordinates shape n)

/-- Coordinates with single spaces between them, either all local or none. -/
def coordinates (shape : CoordinatesShape) : Scan (List Coordinate) := do
  let start ← get
  match ← peek? with
  | none => fail (.missing .coordinates)
  | some b =>
    if b == Text.blank then fail (.missing .coordinates)
    let first ← coordinate shape
    let cs := first :: (← moreCoordinates shape (shape.count - 1))
    let locals := cs.countP (·.kind == .local)
    if locals != 0 && locals != cs.length then failAt start .mixedCoordinates
    return cs

/-! ### Times -/

/-- The units of a time. -/
inductive TimeUnit where
  | days | seconds | ticks
deriving DecidableEq, Repr

/-- The letter of a unit. -/
def TimeUnit.letter : TimeUnit → UInt8
  | .days => 'd'
  | .seconds => 's'
  | .ticks => 't'

/-- The number of ticks in a unit. -/
def TimeUnit.length : TimeUnit → Nat
  | .days => 24000
  | .seconds => 20
  | .ticks => 1

/-- A time in ticks, with the unit that it was given in. -/
structure Time where
  ticks : Int
  unit : TimeUnit
deriving DecidableEq, Repr

/-- The unit behind a number; without one the number counts ticks. -/
def timeUnit : Scan TimeUnit := do
  if ← accept 'd' then return .days
  if ← accept 's' then return .seconds
  let _ ← accept 't'
  return .ticks

/-- A time of at least `least` ticks, rounded to whole ticks. -/
def time (least : Int) : Scan Time := do
  let start ← get
  let v ← single
  let unit ← timeUnit
  let ticks := Binary.toWord (v.roundTimes unit.length)
  if ticks < least then failAt start (.tooFewTicks least ticks)
  return ⟨ticks, unit⟩

end DatapackDebug.Argument
