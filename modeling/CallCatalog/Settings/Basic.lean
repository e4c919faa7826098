import CallCatalog.Instantiation.Resolver
import CallCatalog.Json.Value

namespace CallCatalog

/-- How instantiations are chosen. A limit of zero tuples stands for no limit. -/
structure ResolverSettings where
  seed : Nat := 0
  selection : Selection := .random
  maxTuples : Nat := defaultMaxTuples
  deriving DecidableEq

/-- What is logged and how: a level or a list of directives, whether as JSON, and whether at all. -/
structure LoggingSettings where
  level : String := "info"
  json : Bool := false
  stderr : Bool := true
  deriving DecidableEq

structure Settings where
  resolver : ResolverSettings := {}
  logging : LoggingSettings := {}
  deriving DecidableEq

namespace Selection

def words : List (String × Selection) := [("random", random), ("first", first)]

def word : Selection → String
  | random => "random"
  | first => "first"

end Selection

namespace ResolverSettings

def options (s : ResolverSettings) : ResolverOptions where
  selection := s.selection
  maxTuples := if s.maxTuples = 0 then none else some s.maxTuples

def resolver (s : ResolverSettings) : Resolver where
  options := s.options
  randomness := { seed := UInt64.ofNat s.seed }

def toJson (s : ResolverSettings) : Json := .object [
  ("seed", .nat s.seed),
  ("selection", .string s.selection.word),
  ("max_tuples", .nat s.maxTuples)]

end ResolverSettings

def LoggingSettings.toJson (s : LoggingSettings) : Json := .object [
  ("level", .string s.level),
  ("json", .bool s.json),
  ("stderr", .bool s.stderr)]

def Settings.toJson (s : Settings) : Json := .object [
  ("resolver", s.resolver.toJson),
  ("logging", s.logging.toJson)]

end CallCatalog
