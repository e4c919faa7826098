import CallCatalog.Catalog.Collect
import CallCatalog.Catalog.Report
import CallCatalog.CommandLine.Arguments
import CallCatalog.Json.Symbols
import CallCatalog.Settings.Read
import CallCatalog.Settings.Schema
import CallCatalog.Types.Platform

namespace CallCatalog.CommandLine

/-- What a run leaves behind: the exit code and what it has written. -/
structure Outcome where
  exitCode : Nat := 0
  stdout : String := ""
  stderr : String := ""
  deriving DecidableEq

def Outcome.failure (reason : String) : Outcome where
  exitCode := 2
  stderr := reason ++ "\n"

def usage : String :=
  "Usage: opmodel build [--config <CONFIG>] [--seed <SEED>] [--json] <INPUT>\n" ++
    "       opmodel config-schema\n"

def versionLine : String := "opmodel 0.1.0\n"

def settingsOf (path text : String) : Except String Settings :=
  match Settings.parse text with
  | .ok settings => .ok settings
  | .error fault =>
    .error s!"failed to load config {path}: failed to parse toml config: {fault.message}"

/-- The report on the catalog of a model description. It is `none` if the catalog is never built. -/
def reportOf? (settings : Settings) (path text : String) : ExceptT String Option Report := do
  let symbols := Json.symbolsOfString text
  let model ← match ModelDecl.parse symbols with
    | .ok model => pure model
    | .error fault =>
      let message := fault.message symbols
      throw s!"failed to parse {path}: invalid model input: {message}: {message}"
  let (extracted, builder, store) := CatalogBuilder.extract {} Platform.store model
  if let .error e := extracted then throw e.message
  match ← builder.build? store settings.resolver.resolver with
  | (.ok catalog, _) => return catalog.report store
  | (.error e, _) => throw e.message

/-- The settings file is read before the model description. `textOf` gives the text of a file, or
the reason why there is none. -/
def build? {m : Type → Type} [Monad m] (textOf : String → m (Except String String))
    (a : BuildArguments) : m (Option (Except String Report)) := do
  let settings ← match a.config with
    | none => pure (.ok {})
    | some path => do
      match ← textOf path with
      | .ok text => pure (settingsOf path text)
      | .error reason =>
        let cause := s!"failed to read config file {path}: {reason}"
        pure (.error s!"failed to load config {path}: {cause}: {reason}")
  match settings with
  | .error reason => return some (.error reason)
  | .ok settings =>
    let resolver := { settings.resolver with seed := a.seed.getD settings.resolver.seed }
    match ← textOf a.input with
    | .error reason => return some (.error s!"failed to read {a.input}: {reason}")
    | .ok text => return (reportOf? { settings with resolver } a.input text).run

/-- What a run with these arguments leaves behind, if it ends. -/
def run? {m : Type → Type} [Monad m] (textOf : String → m (Except String String))
    (arguments : List String) : m (Option Outcome) := do
  match Command.ofArguments? arguments with
  | none => return some { exitCode := 2, stderr := usage }
  | some .help => return some { stdout := usage }
  | some .version => return some { stdout := versionLine }
  | some .schema => return some { stdout := Settings.schema.pretty ++ "\n" }
  | some (.build a) =>
    match ← build? textOf a with
    | none => return none
    | some (.error reason) => return some (.failure reason)
    | some (.ok report) =>
      return some { stdout := if a.json then report.toJson.pretty ++ "\n" else report.text }

end CallCatalog.CommandLine
