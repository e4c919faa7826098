import CallCatalog.Settings.Basic
import CallCatalog.Text.Alphanumeric
import CallCatalog.Text.Blank
import CallCatalog.Text.Numeral

namespace CallCatalog

/-- How much is logged, from nothing to everything. -/
inductive LogLevel where
  | off
  | error
  | warn
  | info
  | debug
  | trace
  deriving DecidableEq

namespace LogLevel

def all : List LogLevel := [off, error, warn, info, debug, trace]

def word : LogLevel → String
  | off => "off"
  | error => "error"
  | warn => "warn"
  | info => "info"
  | debug => "debug"
  | trace => "trace"

/-- The level that a text stands for: its number, or its word in upper or lower case. -/
def ofText? (s : String) : Option LogLevel :=
  ((Numeral.read? s).bind fun n => all[n]?) <|> all.find? fun level => level.word == s.toLower

end LogLevel

/-- The level for one target, or the level for all targets without one of their own. -/
structure LogDirective where
  target : Option String
  level : LogLevel
  deriving DecidableEq

namespace LogDirective

def isInitial (c : Char) : Bool := c = '-' || c = ':' || c = '_' || Alphanumeric.isAlphanumeric c

/-- The directive of a text without `=`: a level, or a target for which everything is logged. -/
def ofWord (word : String) : LogDirective :=
  match LogLevel.ofText? word with
  | some level => ⟨none, level⟩
  | none => ⟨some word, .trace⟩

/-- The directive of a target and a level with `=` between them. Without a level, everything is
logged. -/
def ofTarget? (target level : String) : Option LogDirective :=
  if target.toList.head?.any Blank.isBlank then none
  else if level.isEmpty then some ⟨some target, .trace⟩
  else (LogLevel.ofText? level).map fun level => ⟨some target, level⟩

/-- The directive that a text stands for: a level, a target, or a target and a level. Blanks before
a word make it a target. There are no directives for spans, which would have a `[`. -/
def parse? (text : String) : Option LogDirective :=
  if !(Blank.trimStart text.toList).head?.any isInitial || text.toList.contains '[' then none
  else match text.splitOn "=" with
    | [word] => some (ofWord word)
    | [target, level] => ofTarget? target level
    | _ => none

def text (d : LogDirective) : String :=
  match d.target with
  | some target => target ++ "=" ++ d.level.word
  | none => d.level.word

/-- Whether a directive is written before another one: longer targets first, of two equally long
targets the greater one first, and the level for all other targets last. -/
def comesBefore (d e : LogDirective) : Bool :=
  match d.target, e.target with
  | some s, some t =>
    t.utf8ByteSize < s.utf8ByteSize || (t.utf8ByteSize = s.utf8ByteSize && t < s)
  | some _, none => true
  | none, _ => false

end LogDirective

/-- A log filter: no two directives for one target, in the order in which they are written. -/
structure LogFilter where
  directives : List LogDirective
  deriving DecidableEq

namespace LogFilter

def add (f : LogFilter) (d : LogDirective) : LogFilter :=
  let others := f.directives.filter fun e => e.target ≠ d.target
  ⟨others.takeWhile (·.comesBefore d) ++ d :: others.dropWhile (·.comesBefore d)⟩

def ofList (ds : List LogDirective) : LogFilter := ds.foldl add ⟨[]⟩

/-- The filter that a text stands for: directives with commas between them. One that is not well
formed spoils the whole text. -/
def parse? (text : String) : Option LogFilter :=
  (((text.splitOn ",").filter fun s => !s.isEmpty).mapM LogDirective.parse?).map ofList

def text (f : LogFilter) : String := ",".intercalate (f.directives.map LogDirective.text)

end LogFilter

namespace LoggingSettings

def directives (s : LoggingSettings) : String :=
  let level := String.ofList (Blank.trim s.level.toList)
  if level.isEmpty then "info" else level

def overrides (environment : Option String) : Option String :=
  match environment.map fun text => String.ofList (Blank.trim text.toList) with
  | some "" => none
  | text => text

def candidates (s : LoggingSettings) (environment : Option String) : List String :=
  match overrides environment with
  | some text => [s.directives ++ "," ++ text, text, s.directives]
  | none => [s.directives]

/-- The filter in effect: the configured directives together with those of the environment if both
are well formed, those of the environment alone, or the configured ones alone. -/
def filter (s : LoggingSettings) (environment : Option String) : LogFilter :=
  ((s.candidates environment).findSome? LogFilter.parse?).getD ⟨[⟨none, .info⟩]⟩

end LoggingSettings

end CallCatalog
