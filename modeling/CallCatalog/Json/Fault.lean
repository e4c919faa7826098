import CallCatalog.Text.Quoted

namespace CallCatalog.Json

/-- A document as symbols: characters, and `none` for a byte that belongs to no character. -/
abbrev Symbols := List (Option Char)

def symbolBytes : Option Char → Nat
  | some c => c.utf8Size
  | none => 1

def byteCount (text : Symbols) : Nat := text.foldl (fun n x => n + symbolBytes x) 0

/-- What is wrong with a text that is no JSON document. -/
inductive SyntaxFault where
  | endInArray
  | endInObject
  | endInString
  | endInValue
  | expectedColon
  | expectedCommaOrBracket
  | expectedCommaOrBrace
  | expectedWord
  | expectedValue
  | invalidEscape
  | invalidNumber
  | numberOutOfRange
  | invalidCodePoint
  | controlCharacter
  | keyNotString
  | loneSurrogate
  | trailingComma
  | trailingCharacters
  | unfinishedSurrogatePair
  | tooDeep
  deriving DecidableEq

namespace SyntaxFault

def isEnd : SyntaxFault → Bool
  | endInArray => true
  | endInObject => true
  | endInString => true
  | endInValue => true
  | _ => false

def message : SyntaxFault → String
  | endInArray => "EOF while parsing a list"
  | endInObject => "EOF while parsing an object"
  | endInString => "EOF while parsing a string"
  | endInValue => "EOF while parsing a value"
  | expectedColon => "expected `:`"
  | expectedCommaOrBracket => "expected `,` or `]`"
  | expectedCommaOrBrace => "expected `,` or `\x7d`"
  | expectedWord => "expected ident"
  | expectedValue => "expected value"
  | invalidEscape => "invalid escape"
  | invalidNumber => "invalid number"
  | numberOutOfRange => "number out of range"
  | invalidCodePoint => "invalid unicode code point"
  | controlCharacter => "control character (\\u0000-\\u001F) found while parsing a string"
  | keyNotString => "key must be a string"
  | loneSurrogate => "lone leading surrogate in hex escape"
  | trailingComma => "trailing comma"
  | trailingCharacters => "trailing characters"
  | unfinishedSurrogatePair => "unexpected end of hex escape"
  | tooDeep => "recursion limit exceeded"

end SyntaxFault

/-- A value that was found where another one is expected. -/
inductive Found where
  | null
  | bool (b : Bool)
  | integer (n : Int)
  | float (text : String)
  | string (s : String)
  | array
  | object
  deriving DecidableEq

def Found.describe : Found → String
  | null => "null"
  | bool b => s!"boolean `{b}`"
  | integer n => s!"integer `{n}`"
  | float text => s!"floating point `{text}`"
  | string s => "string " ++ Quoted.quote s
  | array => "sequence"
  | object => "map"

/-- What is wrong with a document that does not have the shape of the type wanted. -/
inductive ShapeFault where
  | missingField (name : String)
  | duplicateField (name : String)
  | unknownField (name : String) (known : List String)
  | unknownVariant (name : String) (known : List String)
  | invalidType (found : Found) (expected : String)
  | invalidValue (found : Found) (expected : String)
  | invalidLength (length : Nat) (expected : String)
  | noAlternative (type : String)
  deriving DecidableEq

def alternatives : List String → String
  | [a] => s!"expected `{a}`"
  | [a, b] => s!"expected `{a}` or `{b}`"
  | names => "expected one of " ++ ", ".intercalate (names.map fun n => s!"`{n}`")

def ShapeFault.message : ShapeFault → String
  | missingField name => s!"missing field `{name}`"
  | duplicateField name => s!"duplicate field `{name}`"
  | unknownField name [] => s!"unknown field `{name}`, there are no fields"
  | unknownField name known => s!"unknown field `{name}`, " ++ alternatives known
  | unknownVariant name [] => s!"unknown variant `{name}`, there are no variants"
  | unknownVariant name known => s!"unknown variant `{name}`, " ++ alternatives known
  | invalidType found expected => "invalid type: " ++ found.describe ++ ", expected " ++ expected
  | invalidValue found expected => "invalid value: " ++ found.describe ++ ", expected " ++ expected
  | invalidLength length expected => s!"invalid length {length}, expected {expected}"
  | noAlternative type => s!"data did not match any variant of untagged enum {type}"

inductive Cause where
  | malformed (fault : SyntaxFault)
  | misshapen (fault : ShapeFault)
  deriving DecidableEq

def Cause.message : Cause → String
  | malformed fault => fault.message
  | misshapen fault => fault.message

inductive Place where
  | before (unread : Nat)
  /-- Somewhere inside the innermost array or object of known shape, with this rest of the text. -/
  | inside (rest : Symbols)
  deriving DecidableEq

structure Fault where
  cause : Cause
  place : Place
  deriving DecidableEq

def Fault.unread (f : Fault) : Nat :=
  match f.place with
  | .before n => n
  | .inside rest => byteCount rest

/-- A line and a byte column. Lines count from 1, and the column is the number of bytes of the line
that come before. -/
structure Position where
  line : Nat
  column : Nat
  deriving DecidableEq

def Position.after : (text : Symbols) → (bytes : Nat) → (start : Position) → Position
  | [], _, p => p
  | x :: xs, bytes, p =>
    if bytes = 0 then p
    else if x = some '\n' then after xs (bytes - 1) ⟨p.line + 1, 0⟩
    else if bytes < symbolBytes x then ⟨p.line, p.column + bytes⟩
    else after xs (bytes - symbolBytes x) ⟨p.line, p.column + symbolBytes x⟩

def Fault.position (f : Fault) (text : Symbols) : Position :=
  .after text (byteCount text - f.unread) ⟨1, 0⟩

def Fault.message (f : Fault) (text : Symbols) : String :=
  let p := f.position text
  f.cause.message ++ s!" at line {p.line} column {p.column}"

end CallCatalog.Json
