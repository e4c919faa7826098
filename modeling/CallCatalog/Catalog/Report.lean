import CallCatalog.Catalog.Build
import CallCatalog.Declaration.Read

namespace CallCatalog

/-- A class under test that was passed over, in words. -/
structure SkippedReport where
  className : String
  code : String
  reason : String
  deriving DecidableEq

structure Report where
  classes : List String
  operations : List String
  inputTypes : List String
  exercised : List String := []
  skipped : List SkippedReport
  deriving DecidableEq

def Skipped.report (s : Skipped) : SkippedReport := ⟨s.className, s.reason.code, s.reason.message⟩

def Catalog.report (c : Catalog) (s : Store) : Report where
  classes := c.classes.toList.map s.formatClass
  operations := c.operations.toList.map (Operation.signature s)
  inputTypes := c.inputTypes.toList.map s.format
  exercised := c.exercised.toList.filterMap s.className?
  skipped := c.skipped.map Skipped.report

namespace SkippedReport

def toJson (s : SkippedReport) : Json := .object [
  ("class", .string s.className),
  ("code", .string s.code),
  ("reason", .string s.reason)]

def shape : Json.RecordShape SkippedReport where
  name := "SkippedReport"
  start := ⟨"", "", ""⟩
  fields := [
    nameField "class" fun className s => { s with className },
    nameField "code" fun code s => { s with code },
    nameField "reason" fun reason s => { s with reason }]
  isOpen := true

def line (s : SkippedReport) : String := s.className ++ " [" ++ s.code ++ "]: " ++ s.reason

end SkippedReport

namespace Report

/-- A report as a document. Without exercised classes there is no field for them. -/
def toJson (r : Report) : Json := .object (
  [("classes", .strings r.classes),
    ("operations", .strings r.operations),
    ("input_types", .strings r.inputTypes)] ++
  (if r.exercised.isEmpty then [] else [("exercised", .strings r.exercised)]) ++
  [("skipped", .list SkippedReport.toJson r.skipped)])

def requiredList {σ α : Type} (name : String) (item : (depth : Nat) → Json.Reader α)
    (store : List α → σ → σ) : Json.RecordField σ :=
  .of name (fun depth => Json.Reader.list item depth) store true

def shape : Json.RecordShape Report where
  name := "ModelReport"
  start := ⟨[], [], [], [], []⟩
  fields := [
    requiredList "classes" (fun _ => Json.Reader.string) fun classes r => { r with classes },
    requiredList "operations" (fun _ => Json.Reader.string) fun operations r =>
      { r with operations },
    requiredList "input_types" (fun _ => Json.Reader.string) fun inputTypes r =>
      { r with inputTypes },
    listField "exercised" (fun _ => Json.Reader.string) fun exercised r => { r with exercised },
    requiredList "skipped" SkippedReport.shape.read fun skipped r => { r with skipped }]
  isOpen := true

def parse (text : Json.Symbols) : Except Json.Fault Report :=
  (shape.read Json.Reader.maxDepth).run text

/-- A heading with the number of entries, and a line for each of them. -/
def block (heading : String) (entries : List String) : String :=
  s!"{heading} ({entries.length}):\n" ++
    String.join (entries.map fun entry => "  " ++ entry ++ "\n")

/-- The report as lines of text. What has been exercised or passed over is left out if there is
nothing of the kind. -/
def text (r : Report) : String :=
  block "classes" r.classes ++ block "operations" r.operations ++
    (if r.exercised.isEmpty then "" else block "exercised" r.exercised) ++
    (if r.skipped.isEmpty then "" else block "skipped" (r.skipped.map SkippedReport.line))

end Report

end CallCatalog
