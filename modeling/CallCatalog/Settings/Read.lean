import CallCatalog.Json.Fault
import CallCatalog.Settings.Basic
import CallCatalog.Text.Decimal
import CallCatalog.Toml.Parse

namespace CallCatalog

open Json (Found ShapeFault)

inductive SettingsFault where
  | malformed
  | misshapen (fault : ShapeFault)
  /-- The entry for one of several words is neither a text nor a table. -/
  | notAChoice
  /-- The table for one of several words does not have exactly one key. -/
  | choiceCount (count : Nat)
  /-- The only key of the table for one of several words has an array or a table for a value, and
  it is not empty. -/
  | choiceFilled
  /-- The only key of the table for one of several words stands for tables under a repeated
  header. -/
  | choiceRepeated
  /-- The only key of the table for one of several words has a value of a type without parts. -/
  | choiceScalar (type : String)
  deriving DecidableEq

def SettingsFault.message : SettingsFault → String
  | malformed => "invalid TOML"
  | misshapen fault => fault.message
  | notAChoice => "wanted string or table"
  | choiceCount 0 => "wanted exactly 1 element, found 0 elements"
  | choiceCount _ => "wanted exactly 1 element, more than 1 element"
  | choiceFilled => "expected empty table"
  | choiceRepeated => "expected empty array"
  | choiceScalar type => s!"expected table, found {type}"

namespace Toml

def found : Toml → Found
  | string s => .string s
  | integer n => .integer n
  | float x => .float (FloatText.positional x)
  | boolean b => .bool b
  | datetime => .object
  | array _ => .array
  | tables _ => .array
  | table _ => .object

def mismatch {α : Type} (expected : String) (v : Toml) : Except SettingsFault α :=
  .error (.misshapen (.invalidType v.found expected))

/-- The value as a natural number. In messages such numbers are called `expected`. -/
def asNat (expected : String) : Toml → Except SettingsFault Nat
  | integer (.ofNat n) => .ok n
  | integer n => .error (.misshapen (.invalidValue (.integer n) expected))
  | v => v.mismatch expected

def asString : Toml → Except SettingsFault String
  | string s => .ok s
  | v => v.mismatch "a string"

def asBool : Toml → Except SettingsFault Bool
  | boolean b => .ok b
  | v => v.mismatch "a boolean"

def asNothing : Toml → Except SettingsFault Unit
  | array items => if items.isEmpty then .ok () else .error .choiceFilled
  | tables items => if items.isEmpty then .ok () else .error .choiceRepeated
  | table entries => if entries.isEmpty then .ok () else .error .choiceFilled
  | string _ => .error (.choiceScalar "string")
  | integer _ => .error (.choiceScalar "integer")
  | float _ => .error (.choiceScalar "float")
  | boolean _ => .error (.choiceScalar "boolean")
  | datetime => .error (.choiceScalar "datetime")

/-- One of several words: as a text, or as the only key of a table with an empty value. -/
def asChoice {α : Type} (options : List (String × α)) (v : Toml) : Except SettingsFault α := do
  let pick (name : String) : Except SettingsFault α :=
    match options.lookup name with
    | some a => .ok a
    | none => .error (.misshapen (.unknownVariant name (options.map Prod.fst)))
  match v with
  | string name => pick name
  | table [(name, content)] =>
    let a ← pick name
    content.asNothing
    return a
  | table entries => throw (.choiceCount entries.length)
  | _ => throw .notAChoice

/-- An entry of a table that stands for a record of type `σ`, and how it is put into the record. -/
structure RecordField (σ : Type) where
  name : String
  read : Toml → Except SettingsFault (σ → σ)

def RecordField.of {σ α : Type} (name : String) (as : Toml → Except SettingsFault α)
    (store : α → σ → σ) : RecordField σ where
  name
  read v := store <$> as v

def asFields {σ : Type} (fields : List (RecordField σ)) (start : σ) (items : List Toml) :
    Except SettingsFault σ :=
  (fields.zip items).foldlM (fun record (f, v) => do return (← f.read v) record) start

/-- The value as a record: a table with some of the fields, or an array of the first fields in
order. -/
def asRecord {σ : Type} (name : String) (fields : List (RecordField σ)) (start : σ) :
    Toml → Except SettingsFault σ
  | table entries => entries.foldlM (fun record (key, v) =>
      match fields.find? fun f => f.name == key with
      | some f => do return (← f.read v) record
      | none => .error (.misshapen (.unknownField key (fields.map RecordField.name)))) start
  | array items => asFields fields start items
  | tables items => asFields fields start (items.map table)
  | datetime =>
    -- A date is handed over as a table with this key.
    .error (.misshapen (.unknownField "$__toml_private_datetime" (fields.map RecordField.name)))
  | v => v.mismatch ("struct " ++ name)

end Toml

def ResolverSettings.ofToml : Toml → Except SettingsFault ResolverSettings :=
  Toml.asRecord "ResolverConfig" [
    .of "seed" (Toml.asNat "u64") fun seed s => { s with seed },
    .of "selection" (Toml.asChoice Selection.words) fun selection s => { s with selection },
    .of "max_tuples" (Toml.asNat "usize") fun maxTuples s => { s with maxTuples }] {}

def LoggingSettings.ofToml : Toml → Except SettingsFault LoggingSettings :=
  Toml.asRecord "LoggingConfig" [
    .of "level" Toml.asString fun level s => { s with level },
    .of "json" Toml.asBool fun json s => { s with json },
    .of "stderr" Toml.asBool fun stderr s => { s with stderr }] {}

def Settings.ofToml : Toml → Except SettingsFault Settings :=
  Toml.asRecord "ModelConfig" [
    .of "resolver" ResolverSettings.ofToml fun resolver s => { s with resolver },
    .of "logging" LoggingSettings.ofToml fun logging s => { s with logging }] {}

def Settings.parse (text : String) : Except SettingsFault Settings :=
  match Toml.parse? text with
  | some entries => Settings.ofToml (.table entries)
  | none => .error .malformed

end CallCatalog
