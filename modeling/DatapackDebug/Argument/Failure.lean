import DatapackDebug.Number.Shortest
import DatapackDebug.Text.Utf8

namespace DatapackDebug.Argument

/-!
# Why an argument cannot be read

Every way in which reading an argument fails is a cause; `Cause.kind` sorts the causes into five
kinds and `Cause.message` holds all their wording.  A failure is a cause together with the text that
was left where it was noticed, so the position of a failure is the length of the input minus the
length of what was left.
-/

/-- The five kinds of failure. -/
inductive FailureKind where
  /-- a value is needed and nothing is there -/
  | empty
  /-- something is there and it is malformed -/
  | invalid
  /-- a required byte is missing -/
  | expected
  /-- a bracket or quote is not closed -/
  | unclosed
  /-- a number is out of range -/
  | outOfRange
deriving DecidableEq, Repr

/-- The name of a kind. -/
def FailureKind.text : FailureKind → Text
  | .empty => "empty"
  | .invalid => "invalid"
  | .expected => "expected"
  | .unclosed => "unclosed"
  | .outOfRange => "out_of_range"

/-- The numbers that messages tell apart. -/
inductive NumberName where
  | integer | long | double | float
deriving DecidableEq, Repr

/-- What a value that is missing altogether should have been. -/
inductive Subject where
  | number (name : NumberName)
  | value | bool | string | word | objective | operation | swizzle | anchor | range | coordinates
  | resource | component | entity | scoreHolder | uuid | nbtPath
deriving DecidableEq, Repr

/-- One end of the interval that a number must lie in. -/
inductive Bound where
  | least | greatest
deriving DecidableEq, Repr

/-- Why an argument cannot be read. -/
inductive Cause where
  /-- nothing is there -/
  | missing (what : Subject)
  | incompleteAngle
  /-- the bytes of a number are no number of that name, or one too large for it -/
  | malformedNumber (name : NumberName) (text : Text)
  | malformedBool (text : Text)
  | unknownOperation (text : Text)
  | malformedSwizzle
  | unknownAnchor (text : Text)
  | integerOutOfRange (name : NumberName) (bound : Bound) (limit found : Int)
  | decimalOutOfRange (name : NumberName) (bound : Bound) (limit found : Binary)
  | tooFewTicks (limit found : Int)
  | invertedRange
  | incompleteCoordinates (count : Nat)
  | missingCoordinate
  | mixedCoordinates
  | localRotation
  | malformedResource (text : Text)
  | unquoted
  | badEscape (byte : UInt8)
  | unclosedQuote
  | unclosedBracket (byte : UInt8)
  /-- a component that is neither JSON nor a tag; `why` is the message of the tag -/
  | malformedComponent (why : Text)
  | missingByte (byte : UInt8)
  | missingKey
  | missingTag
  | unclosedMap
  | unclosedCompound
  | unclosedList
  | nonNumericElement
  | missingPathNode
  | malformedPathNode
  | unclosedIndex
  | missingSelector
  | unknownSelector (byte : UInt8)
  | missingOption
  | missingOptionValue (key : Text)
  | unclosedOptions
  | unfinishedOptions
  | unknownSort (text : Text)
  | severalPlayers
  | severalEntities
  | nonPlayers
  | malformedUuid
  | tagForBlock
  | tagForItem
  | missingProperty
  | missingPropertyValue (key : Text)
  | unclosedProperties
  | unfinishedProperties
deriving DecidableEq, Repr

/-- The lower case name of a number. -/
def NumberName.text : NumberName → Text
  | .integer => "integer"
  | .long => "long"
  | .double => "double"
  | .float => "float"

/-- The name of a number at the start of a sentence. -/
def NumberName.capital : NumberName → Text
  | .integer => "Integer"
  | .long => "Long"
  | .double => "Double"
  | .float => "Float"

/-- What messages call the subject. -/
def Subject.text : Subject → Text
  | .number name => name.text
  | .value => "value"
  | .bool => "bool"
  | .string => "string"
  | .word => "word"
  | .objective => "objective"
  | .operation => "operation"
  | .swizzle => "swizzle"
  | .anchor => "entity anchor"
  | .range => "value or range of values"
  | .coordinates => "coordinates"
  | .resource => "resource location"
  | .component => "component"
  | .entity => "entity"
  | .scoreHolder => "score holder"
  | .uuid => "UUID"
  | .nbtPath => "nbt path"

/-- Which side of the limit a number must not be on. -/
def Bound.text : Bound → Text
  | .least => "less"
  | .greatest => "more"

/-- The kind of a cause. -/
def Cause.kind : Cause → FailureKind
  | .missing _ | .incompleteAngle => .empty
  | .integerOutOfRange .. | .decimalOutOfRange .. | .tooFewTicks .. => .outOfRange
  | .unclosedQuote | .unclosedBracket _ | .unclosedMap | .unclosedCompound | .unclosedList
  | .unclosedIndex | .unclosedOptions | .unclosedProperties => .unclosed
  | .incompleteCoordinates _ | .missingCoordinate | .unquoted | .missingByte _ | .missingKey
  | .missingTag | .missingPathNode | .missingSelector | .missingOption | .missingOptionValue _
  | .unfinishedOptions | .missingProperty | .missingPropertyValue _ | .unfinishedProperties =>
    .expected
  | _ => .invalid

/-- The wording of a cause. -/
def Cause.message : Cause → Text
  | .missing what => "Expected " ++ what.text
  | .incompleteAngle => "Incomplete (expected 1 angle)"
  | .malformedNumber name text => "Invalid " ++ name.text ++ " '" ++ text ++ "'"
  | .malformedBool text => "Invalid bool, expected true or false but found '" ++ text ++ "'"
  | .unknownOperation text => "Invalid operation '" ++ text ++ "'"
  | .malformedSwizzle => "Invalid swizzle, expected combination of 'x', 'y' and 'z'"
  | .unknownAnchor text => "Invalid entity anchor position " ++ text
  | .integerOutOfRange name bound limit found =>
    name.capital ++ " must not be " ++ bound.text ++ " than " ++ Text.ofInt limit ++ ", found " ++
      Text.ofInt found
  | .decimalOutOfRange name bound limit found =>
    name.capital ++ " must not be " ++ bound.text ++ " than " ++ limit.general ++ ", found " ++
      found.general
  | .tooFewTicks limit found =>
    "Tick count must not be less than " ++ Text.ofInt limit ++ ", found " ++ Text.ofInt found
  | .invertedRange => "Min cannot be bigger than max"
  | .incompleteCoordinates count =>
    "Incomplete (expected " ++ Text.ofNat count ++ " coordinates)"
  | .missingCoordinate => "Expected coordinate"
  | .mixedCoordinates =>
    "Cannot mix world & local coordinates (everything must either use ^ or not)"
  | .localRotation => "Cannot use local coordinates for rotation"
  | .malformedResource text => "Invalid resource location '" ++ text ++ "'"
  | .unquoted => "Expected quote to start a string"
  | .badEscape byte =>
    "Invalid escape sequence '" ++ Utf8.ofByte byte ++ "' in quoted string"
  | .unclosedQuote => "Unclosed quoted string"
  | .unclosedBracket byte => "Unclosed '" ++ Utf8.ofByte byte ++ "'"
  | .malformedComponent why => "Invalid chat component: " ++ why
  | .missingByte byte => "Expected '" ++ Utf8.ofByte byte ++ "'"
  | .missingKey => "Expected key"
  | .missingTag => "Expected value"
  | .unclosedMap => "Expected '\x7d'"
  | .unclosedCompound => "Unclosed compound tag"
  | .unclosedList => "Unclosed list"
  | .nonNumericElement => "Invalid array element, expected number"
  | .missingPathNode => "Expected nbt path element"
  | .malformedPathNode => "Invalid nbt path element"
  | .unclosedIndex => "Unclosed index"
  | .missingSelector => "Expected selector"
  | .unknownSelector byte => "Unknown selector type '@" ++ Utf8.ofByte byte ++ "'"
  | .missingOption => "Expected option"
  | .missingOptionValue key => "Expected value for option '" ++ key ++ "'"
  | .unclosedOptions | .unfinishedOptions => "Expected end of options"
  | .unknownSort text => "Invalid or unknown sort type '" ++ text ++ "'"
  | .severalPlayers =>
    "Only one player is allowed, but the provided selector allows more than one"
  | .severalEntities =>
    "Only one entity is allowed, but the provided selector allows more than one"
  | .nonPlayers =>
    "Only players may be affected by this command, but the provided selector includes entities"
  | .malformedUuid => "Invalid UUID"
  | .tagForBlock => "Tags aren't allowed here, only actual blocks"
  | .tagForItem => "Tags aren't allowed here, only actual items"
  | .missingProperty => "Expected property"
  | .missingPropertyValue key => "Expected value for property '" ++ key ++ "'"
  | .unclosedProperties | .unfinishedProperties =>
    "Expected closing ] for block state properties"

/-- A cause, and the text that was left where it was noticed. -/
structure Failure where
  cause : Cause
  rest : Text
deriving DecidableEq, Repr

end DatapackDebug.Argument
