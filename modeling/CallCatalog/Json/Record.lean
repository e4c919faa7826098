import CallCatalog.Json.Read

/-!
Reading records. A record is written as an object with its fields in any order, or as an array with
its fields in the order in which they are declared.
-/

namespace CallCatalog.Json

/-- A field of a record of type `σ`. What its reader gives is put into a record that is being built
up. Without the field, an optional one keeps the value that the record starts with. -/
structure RecordField (σ : Type) where
  name : String
  isRequired : Bool := false
  read : (depth : Nat) → Reader (σ → σ)

structure RecordShape (σ : Type) where
  name : String
  start : σ
  fields : List (RecordField σ)
  /-- Whether fields that are not declared are passed over. -/
  isOpen : Bool := false

namespace RecordField

def of {σ α : Type} (name : String) (reader : (depth : Nat) → Reader α) (store : α → σ → σ)
    (isRequired : Bool := false) : RecordField σ where
  name
  isRequired
  read depth := store <$> reader depth

end RecordField

namespace RecordShape

variable {σ : Type} (shape : RecordShape σ)

def describe : String := "struct " ++ shape.name

def describeLength : String :=
  if shape.fields.length = 1 then s!"struct {shape.name} with 1 element"
  else s!"struct {shape.name} with {shape.fields.length} elements"

/-- Reads the members of an object into `record`, where `seen` are the names so far. -/
def members (depth : Nat) :
    (clock : Symbols) → (first : Bool) → (seen : List String) → (record : σ) → Reader σ
  | [], _, _, _ => Reader.failNext .endInObject
  | _ :: clock, first, seen, record => do
    match ← Reader.anotherName first with
    | none =>
      match shape.fields.find? fun f => f.isRequired && !seen.contains f.name with
      | some f => Reader.misfitInside (.missingField f.name)
      | none => pure record
    | some name =>
      match shape.fields.find? fun f => f.name == name with
      | none =>
        if shape.isOpen then
          Reader.colon
          Reader.skipValue
          members depth clock false seen record
        else Reader.misfitInside (.unknownField name (shape.fields.map RecordField.name))
      | some f =>
        if seen.contains name then Reader.misfitInside (.duplicateField name)
        else
          Reader.colon
          let store ← f.read depth
          members depth clock false (name :: seen) (store record)

/-- Reads the items of an array into `record`, where `index` is the number of the first of the
fields that are left. -/
def items (depth : Nat) :
    List (RecordField σ) → (first : Bool) → (index : Nat) → (record : σ) → Reader σ
  | [], _, _, record => pure record
  | f :: fields, first, index, record => do
    if ← Reader.anotherItem first then
      let store ← f.read depth
      items depth fields false (index + 1) (store record)
    else if f.isRequired then Reader.misfitInside (.invalidLength index shape.describeLength)
    else items depth fields first (index + 1) record

def read (depth : Nat) : Reader σ := do
  match ← Reader.firstOfValue with
  | some '[' =>
    Reader.openBracket depth
    let record ← Reader.placed Reader.pastArrayEnd
      (shape.items (depth - 1) shape.fields true 0 shape.start)
    Reader.closeArray
    pure record
  | some '\x7b' =>
    Reader.openBracket depth
    let record ← Reader.placed Reader.pastObjectEnd do
      shape.members (depth - 1) (← get) true [] shape.start
    Reader.closeObject
    pure record
  | _ => Reader.unexpected shape.describe

end RecordShape

end CallCatalog.Json
