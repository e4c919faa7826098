import CallCatalog.Settings.Basic

namespace CallCatalog.Settings

def definitionRef (name : String) : Json :=
  .array [.object [("$ref", .string ("#/definitions/" ++ name))]]

def referenceProperty (default : Json) (definition : String) : Json := .object [
  ("default", default),
  ("allOf", definitionRef definition)]

def property (description : String) (default : Json) (type : String) : List (String × Json) := [
  ("description", .string description),
  ("default", default),
  ("type", .string type)]

def naturalProperty (description : String) (default : Nat) (format : String) : Json :=
  .object (property description (.nat default) "integer" ++ [
    ("format", .string format),
    ("minimum", .number (.float 0.0))])

def closedObject (properties : List (String × Json)) : Json := .object [
  ("type", .string "object"),
  ("properties", .object properties),
  ("additionalProperties", .bool false)]

def word (description word : String) : Json := .object [
  ("description", .string description),
  ("type", .string "string"),
  ("enum", .strings [word])]

def loggingSchema (defaults : LoggingSettings) : Json := closedObject [
  ("json", .object (property "Emit logs as JSON lines." (.bool defaults.json) "boolean")),
  ("level", .object (property
    "A level (`info`, `debug`, ...) or a full `EnvFilter` directive string."
    (.string defaults.level) "string")),
  ("stderr", .object (property "Write logs to stderr. When disabled, logging is silent."
    (.bool defaults.stderr) "boolean"))]

def resolverSchema (defaults : ResolverSettings) : Json := closedObject [
  ("max_tuples", naturalProperty
    ("Maximum number of partial type tuples kept while instantiating one class.\n\n" ++
      "`0` disables the limit.")
    defaults.maxTuples "uint"),
  ("seed", naturalProperty "Seed for the random choice between valid instantiations."
    defaults.seed "uint64"),
  ("selection", referenceProperty (.string defaults.selection.word) "Selection")]

def selectionSchema : Json := .object [
  ("oneOf", .array [
    word "Uniformly random among all valid instantiations." Selection.random.word,
    word "The first valid instantiation, regardless of the seed." Selection.first.word])]

def sortMembers : Json → Json
  | .object members => .object (members.mergeSort fun a b => a.1 ≤ b.1)
  | j => j

def schema : Json :=
  let defaults : Settings := {}
  .object [
    ("$schema", .string "http://json-schema.org/draft-07/schema#"),
    ("title", .string "ModelConfig"),
    ("type", .string "object"),
    ("properties", .object [
      ("logging", referenceProperty (sortMembers defaults.logging.toJson) "LoggingConfig"),
      ("resolver", referenceProperty (sortMembers defaults.resolver.toJson) "ResolverConfig")]),
    ("additionalProperties", .bool false),
    ("definitions", .object [
      ("LoggingConfig", loggingSchema defaults.logging),
      ("ResolverConfig", resolverSchema defaults.resolver),
      ("Selection", selectionSchema)])]

end CallCatalog.Settings
