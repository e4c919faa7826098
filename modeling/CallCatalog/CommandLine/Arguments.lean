import CallCatalog.Text.Numeral

/-!
The arguments of the command line. They are read from left to right, and the first one that makes no
sense, or that asks for help or for the version, decides.
-/

namespace CallCatalog.CommandLine

structure BuildArguments where
  input : String
  config : Option String := none
  seed : Option Nat := none
  json : Bool := false
  deriving DecidableEq

inductive Command where
  | build (arguments : BuildArguments)
  | schema
  | version
  | help
  deriving DecidableEq

/-- The arguments for building as far as they have been read. -/
structure PartialArguments where
  input : Option String := none
  config : Option String := none
  seed : Option Nat := none
  json : Bool := false

def isOption (text : String) : Bool := text.startsWith "-" && text ≠ "-"

/-- Whether a text asks how the program is called. Further letters after `-h` do not matter. -/
def isHelp (text : String) : Bool := text = "--help" || text.startsWith "-h"

/-- Whether a text asks for the version. Further letters after `-V` do not matter. -/
def isVersion (text : String) : Bool := text = "--version" || text.startsWith "-V"

namespace PartialArguments

def takeInput (a : PartialArguments) (text : String) : Option PartialArguments :=
  if a.input.isSome || text.isEmpty then none else some { a with input := some text }

def takeConfig (a : PartialArguments) (text : String) : Option PartialArguments :=
  if a.config.isSome || text.isEmpty then none else some { a with config := some text }

def takeSeed (a : PartialArguments) (text : String) : Option PartialArguments :=
  if a.seed.isSome then none else (Numeral.read? text).map fun n => { a with seed := some n }

def takeValue? (a : PartialArguments) (name value : String) : Option PartialArguments :=
  if name = "--config" then a.takeConfig value
  else if name = "--seed" then a.takeSeed value
  else none

def complete? (a : PartialArguments) : Option BuildArguments :=
  a.input.map fun input => { input, config := a.config, seed := a.seed, json := a.json }

/-- Reads the arguments for building. Options come in any order before, between and after others;
each is given at most once, with its value after it or after `=`. After `--` there are no more
options. -/
def read (a : PartialArguments) : List String → Option Command
  | [] => a.complete?.map .build
  | "--" :: texts => do return .build (← (← texts.foldlM takeInput a).complete?)
  | "--json" :: texts => if a.json then none else read { a with json := true } texts
  | "--config" :: value :: texts =>
    if isOption value then none else do read (← a.takeConfig value) texts
  | "--seed" :: value :: texts =>
    if isOption value then none else do read (← a.takeSeed value) texts
  | text :: texts =>
    if isHelp text then some .help
    else if isOption text then
      match text.splitOn "=" with
      | name :: first :: more => do
        read (← a.takeValue? name ("=".intercalate (first :: more))) texts
      | _ => none
    else do read (← a.takeInput text) texts

end PartialArguments

namespace Command

def readSchema : List String → Option Command
  | [] => some schema
  | ["--"] => some schema
  | text :: _ => if isHelp text then some help else none

def readHelp : List String → Option Command
  | [] => some help
  | [name] => if ["build", "config-schema", "help"].contains name then some help else none
  | _ => none

def ofArguments? : List String → Option Command
  | [] => none
  | "build" :: texts => PartialArguments.read {} texts
  | "config-schema" :: texts => readSchema texts
  | "help" :: texts => readHelp texts
  | text :: _ => if isHelp text then some help else if isVersion text then some version else none

end Command

end CallCatalog.CommandLine
