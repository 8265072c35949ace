import DatapackDebug.Json.Reader
import DatapackDebug.Text.Case

namespace DatapackDebug

/-!
# Shapes of JSON values

A shape says what a value may be.  A value is fitted into a shape: fields that the shape does not
know are dropped, and the others get the names that the shape gives them.

* `Json.Shape` — what a value may be;
* `Json.Slot` — a value as its shape has it;
* `Json.Mismatch` — the first value that does not fit, and its message;
* `Json.fit` — fits a value.

Names of fields are compared without regard to case.  Of fields of the same name the last counts,
but what it does not say is taken from those before: `null` leaves what was there, objects add to
it, and an array replaces the items before it one by one.  Items that a shorter array does not reach
are put aside, and come back where a later array has `null` in their place.
-/

namespace Json

/-- What a value may be. -/
inductive Shape where
  | text
  | bool
  /-- a 64-bit word, written without point and exponent -/
  | integer
  | any
  /-- anything, where also `null` is kept -/
  | raw
  /-- an object with fields of any name and of one shape -/
  | entries (value : Shape)
  | list (item : Shape)
  | record (name : Text) (fields : List (Text × Shape))
  /-- a value that `null` removes -/
  | optional (shape : Shape)
deriving Inhabited

/-- What messages call a shape. -/
def Shape.typeName : Shape → Text
  | .text => "string"
  | .bool => "bool"
  | .integer => "int"
  | .any | .raw => "interface \x7b\x7d"
  | .entries value => "map[string]" ++ value.typeName
  | .list item => "[]" ++ item.typeName
  | .record name _ => name
  | .optional shape => shape.typeName

/-- The shape of a value that is not removed. -/
def Shape.content : Shape → Shape
  | .optional shape => shape.content
  | shape => shape

/-- A value as its shape has it. -/
inductive Slot where
  /-- nothing was given -/
  | empty
  | value (v : Json)
  /-- items, and those that earlier and longer arrays had behind them -/
  | list (items spare : List Slot)
  | record (fields : List (Text × Slot))
deriving Inhabited

/-- Where a value stands in a document: its record, and the names and numbers that lead there. -/
structure Place where
  record : Text
  path : List Text
deriving DecidableEq, Repr

/-- A value that does not fit. -/
structure Mismatch where
  /-- what the value is -/
  found : Text
  /-- where the value stands, if it is part of a record -/
  place : Option Place
  expected : Text
deriving DecidableEq, Repr

/-- The wording of a mismatch. -/
def Mismatch.message (m : Mismatch) : Text :=
  let place : Text := match m.place with
    | none => "Go value"
    | some ⟨record, [field]⟩ => "Go struct field " ++ record ++ "." ++ field
    | some ⟨record, path⟩ => record ++ "." ++ Text.join "." path
  "json: cannot unmarshal " ++ m.found ++ " into " ++ place ++ " of type " ++ m.expected

/-- The field that a name means. -/
def lookupField? (fields : List (Text × Shape)) (name : Text) : Option (Text × Shape) :=
  (fields.find? fun f => f.1 == name).or
    (fields.find? fun f => Text.sameName f.1 name)

/-- The last part of a name with points. -/
def shortName (t : Text) : Text := ((Text.cutLast? '.' t).map (·.2)).getD t

/-- The place of a field of a record. -/
def Place.field (place : Option Place) (record name : Text) : Place :=
  match place with
  | none => ⟨shortName record, [name]⟩
  | some ⟨root, path⟩ => ⟨root, path ++ [name]⟩

/-- The place of an item. -/
def Place.item (place : Option Place) (index : Nat) : Option Place :=
  place.map fun ⟨root, path⟩ => ⟨root, path ++ [Text.ofNat index]⟩

/-- A value in a shape, and the first mismatch. -/
structure Fitted where
  slot : Slot
  mismatch : Option Mismatch := none

/-- The fields of a record with one set. -/
def setField (name : Text) (slot : Slot) (fields : List (Text × Slot)) : List (Text × Slot) :=
  fields.filter (fun f => f.1 != name) ++ [(name, slot)]

/-- The fields of a record. -/
def Slot.fields : Slot → List (Text × Slot)
  | .record fields => fields
  | _ => []

/-- The items of a list with those that are put aside. -/
def Slot.allItems : Slot → List Slot
  | .list items spare => items ++ spare
  | _ => []

/-- The slot of a field, empty if there is none. -/
def Slot.field (name : Text) (s : Slot) : Slot := (s.fields.lookup name).getD .empty

mutual

/-- Fit a value into a shape, where `old` was before. -/
def fitAt (place : Option Place) (shape : Shape) (old : Slot) : Json → Fitted
  | .null =>
    match shape with
    | .raw => ⟨.value .null, none⟩
    | .list _ | .any | .entries _ | .optional _ => ⟨.empty, none⟩
    | .text | .bool | .integer | .record _ _ => ⟨old, none⟩
  | .bool b =>
    match shape.content with
    | .bool | .any | .raw => ⟨.value (.bool b), none⟩
    | shape => ⟨old, some ⟨"bool", place, shape.typeName⟩⟩
  | .number numeral =>
    match shape.content with
    | .any | .raw => ⟨.value (.number numeral), none⟩
    | .integer =>
      if (Text.toIntOfBits? 64 numeral).isSome then ⟨.value (.number numeral), none⟩
      else ⟨old, some ⟨"number " ++ numeral, place, Shape.integer.typeName⟩⟩
    | shape => ⟨old, some ⟨"number", place, shape.typeName⟩⟩
  | .string t =>
    match shape.content with
    | .text | .any | .raw => ⟨.value (.string t), none⟩
    | shape => ⟨old, some ⟨"string", place, shape.typeName⟩⟩
  | .array items =>
    match shape.content with
    | .any | .raw => ⟨.value (.array items), none⟩
    | .list item =>
      let (slots, spare, mismatch) := fitItems place item 0 old.allItems items
      ⟨.list slots (if items.isEmpty then [] else spare), mismatch⟩
    | shape => ⟨old, some ⟨"array", place, shape.typeName⟩⟩
  | .object fields =>
    match shape.content with
    | .any | .raw => ⟨.value (.object fields), none⟩
    | .entries value => ⟨.value (.object fields), fitEntries place value fields⟩
    | .record name shapes =>
      let (slots, mismatch) := fitFields place name shapes old.fields fields
      ⟨.record slots, mismatch⟩
    | shape => ⟨old, some ⟨"object", place, shape.typeName⟩⟩

/-- Fit the items of an array onto those that are there already; what is left of those is put
    aside. -/
def fitItems (place : Option Place) (shape : Shape) (index : Nat) (old : List Slot) :
    List Json → List Slot × List Slot × Option Mismatch
  | [] => ([], old, none)
  | v :: vs =>
    let first := fitAt (Place.item place index) shape (old.head?.getD .empty) v
    let (rest, spare, mismatch) := fitItems place shape (index + 1) old.tail vs
    (first.slot :: rest, spare, first.mismatch.or mismatch)

/-- The first field whose value does not fit. -/
def fitEntries (place : Option Place) (shape : Shape) : List (Text × Json) → Option Mismatch
  | [] => none
  | (key, v) :: fs =>
    let first := fitAt (some (Place.field place [] key)) shape .empty v
    first.mismatch.or (fitEntries place shape fs)

/-- Fit the fields of an object onto those that are there already. -/
def fitFields (place : Option Place) (name : Text) (shapes : List (Text × Shape))
    (old : List (Text × Slot)) : List (Text × Json) → List (Text × Slot) × Option Mismatch
  | [] => (old, none)
  | (key, v) :: fs =>
    match lookupField? shapes key with
    | none => fitFields place name shapes old fs
    | some (field, shape) =>
      let first := fitAt (some (Place.field place name key)) shape
        ((old.lookup field).getD .empty) v
      let (slots, mismatch) := fitFields place name shapes (setField field first.slot old) fs
      (slots, first.mismatch.or mismatch)

end

/-- Fit a value into a shape. -/
def fit (shape : Shape) (v : Json) : Fitted := fitAt none shape .empty v

/-! ### Fitted values -/

namespace Slot

/-- The text of a slot, empty if there is none. -/
def toText : Slot → Text
  | .value (.string t) => t
  | _ => []

/-- The truth value of a slot, false if there is none. -/
def toBool : Slot → Bool
  | .value (.bool b) => b
  | _ => false

/-- The integer of a slot, zero if there is none. -/
def toInt : Slot → Int
  | .value (.number numeral) => (Text.toInt? numeral).getD 0
  | _ => 0

/-- The items of a slot, none if there is none. -/
def items : Slot → List Slot
  | .list items _ => items
  | _ => []

/-- The value of a slot of any shape, if there is one. -/
def value? : Slot → Option Json
  | .value v => some v
  | _ => none

/-- The text of a field. -/
def textField (name : Text) (s : Slot) : Text := (s.field name).toText

/-- The truth value of a field. -/
def boolField (name : Text) (s : Slot) : Bool := (s.field name).toBool

/-- The integer of a field. -/
def intField (name : Text) (s : Slot) : Int := (s.field name).toInt

/-- The items of a field. -/
def itemsField (name : Text) (s : Slot) : List Slot := (s.field name).items

end Slot

end Json

end DatapackDebug
