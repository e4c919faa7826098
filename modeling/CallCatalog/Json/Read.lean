import CallCatalog.Json.Scan
import CallCatalog.Text.Decimal

/-!
Readers for JSON values: any value as it stands, values of a known kind, and values that are passed
over. What may be nested is limited; every reader that can open a bracket is told how many more may
be open.
-/

namespace CallCatalog.Json

namespace Reader

def maxDepth : Nat := 127

/-- Reads what follows the first character `c` of a value that is neither an array nor an object. -/
def scalar (c : Char) : Reader Json := do
  match c with
  | 'n' =>
    drop
    word ['u', 'l', 'l']
    pure .null
  | 't' =>
    drop
    word ['r', 'u', 'e']
    pure (.bool true)
  | 'f' =>
    drop
    word ['a', 'l', 's', 'e']
    pure (.bool false)
  | '"' =>
    drop
    .string <$> quoted
  | '-' =>
    drop
    .number <$> number false
  | c => if c.isDigit then .number <$> number true else failNext .expectedValue

/-- Reads the items of an array up to its closing bracket, with the items so far in `acc`, the last
one first. -/
def itemsRest {α : Type} (item : Reader α) :
    (clock : Symbols) → (first : Bool) → (acc : List α) → Reader (List α)
  | [], _, _ => failNext .endInArray
  | _ :: clock, first, acc => do
    if ← anotherItem first then
      let a ← item
      itemsRest item clock false (a :: acc)
    else pure acc.reverse

def items {α : Type} (item : Reader α) : Reader (List α) := do itemsRest item (← get) true []

/-- Reads the members of an object up to its closing brace, with `acc` the members so far in
reverse. -/
def membersRest {α : Type} (value : Reader α) :
    (clock : Symbols) → (first : Bool) → (acc : List (String × α)) → Reader (List (String × α))
  | [], _, _ => failNext .endInObject
  | _ :: clock, first, acc => do
    match ← anotherName first with
    | none => pure acc.reverse
    | some name =>
      colon
      let a ← value
      membersRest value clock false ((name, a) :: acc)

def members {α : Type} (value : Reader α) : Reader (List (String × α)) := do
  membersRest value (← get) true []

/-- Reads any value. What an array or an object contains is read by `inner`; without it, no bracket
may be opened. -/
def valueWith (inner : Option (Reader Json)) : Reader Json := do
  match ← next with
  | none => failNext .endInValue
  | some (some '[') =>
    match inner with
    | none => failNext .tooDeep
    | some item =>
      drop
      let items ← items item
      closeArray
      pure (.array items)
  | some (some '\x7b') =>
    match inner with
    | none => failNext .tooDeep
    | some member =>
      drop
      let members ← members member
      closeObject
      pure (.object members)
  | some (some c) => scalar c
  | some none => failNext .expectedValue

def value : (depth : Nat) → Reader Json
  | 0 => valueWith none
  | depth + 1 => valueWith (some (value depth))

inductive Bracket where
  | array
  | object
  deriving DecidableEq

/-- Passes over a text whose opening quote has been read. Escapes have to be well formed, but need
not stand for a character. -/
def skipQuoted : (clock : Symbols) → Reader Unit
  | [] => fail .endInString
  | _ :: clock => do
    match ← peek with
    | none => fail .endInString
    | some x =>
      if isControl x then failNext .controlCharacter
      else
        drop
        if x = some '"' then pure ()
        else if x = some '\\' then
          match ← peek with
          | none => fail .endInString
          | some y =>
            if y = some 'u' then
              drop
              let _ ← codeUnit
              skipQuoted clock
            else if (y.bind simpleEscape?).isSome then
              drop
              skipQuoted clock
            else failNext .invalidEscape
        else skipQuoted clock

def skipDigits : Reader Unit := do
  if (← dropDigits) = 0 then
    match ← peek with
    | some _ => failNext .invalidNumber
    | none => failNext .endInValue

def skipNumber : Reader Unit := do
  match ← peekDigit with
  | none => failNext .invalidNumber
  | some 0 =>
    drop
    if (← peekDigit).isSome then failNext .invalidNumber
  | some _ =>
    let _ ← dropDigits
  if ← peekIs ['.'] then
    drop
    skipDigits
  if ← peekIs ['e', 'E'] then
    drop
    if ← peekIs ['+', '-'] then drop
    skipDigits

/-- Passes over a value that is neither an array nor an object and begins with `c`. -/
def skipScalar (c : Char) : Reader Unit := do
  if c = '"' then
    drop
    skipQuoted (← get)
  else if c = '-' then
    drop
    skipNumber
  else if c.isDigit then skipNumber
  else
    let _ ← scalar c

def skipName : Reader Unit := do
  match ← next with
  | none => failNext .endInObject
  | some x =>
    if x = some '"' then
      drop
      skipQuoted (← get)
      colon
    else failNext .keyNotString

/-- Passes over what is left of the arrays and objects that are open, innermost first. `ready` tells
whether a value comes next, and not a comma or a closing bracket. -/
def skipOpen : (clock : Symbols) → (ready : Bool) → (opened : List Bracket) → Reader Unit
  | _, false, [] => pure ()
  | [], _, _ => failNext .endInValue
  | _ :: clock, true, opened => do
    match ← next with
    | none => failNext .endInValue
    | some (some '[') =>
      drop
      match ← next with
      | none => failNext .endInArray
      | some (some ']') =>
        drop
        skipOpen clock false opened
      | some _ => skipOpen clock true (.array :: opened)
    | some (some '\x7b') =>
      drop
      match ← next with
      | none => failNext .endInObject
      | some (some '\x7d') =>
        drop
        skipOpen clock false opened
      | some _ =>
        skipName
        skipOpen clock true (.object :: opened)
    | some (some c) =>
      skipScalar c
      skipOpen clock false opened
    | some none => failNext .expectedValue
  | _ :: clock, false, .array :: opened => do
    match ← next with
    | none => failNext .endInArray
    | some (some ']') =>
      drop
      skipOpen clock false opened
    | some (some ',') =>
      drop
      skipOpen clock true (.array :: opened)
    | some _ => failNext .expectedCommaOrBracket
  | _ :: clock, false, .object :: opened => do
    match ← next with
    | none => failNext .endInObject
    | some (some '\x7d') =>
      drop
      skipOpen clock false opened
    | some (some ',') =>
      drop
      skipName
      skipOpen clock true (.object :: opened)
    | some _ => failNext .expectedCommaOrBrace

def skipValue : Reader Unit := do
  -- Every step reads something, and the last one may find the end of the text.
  skipOpen (none :: (← get)) true []

def unexpected {α : Type} (expected : String) : Reader α := do
  match ← peek with
  | some (some '[') => misfit (.invalidType .array expected)
  | some (some '\x7b') => misfit (.invalidType .object expected)
  | some (some c) =>
    match ← scalar c with
    | .null => misfit (.invalidType .null expected)
    | .bool b => misfit (.invalidType (.bool b) expected)
    | .string s => misfit (.invalidType (.string s) expected)
    | .number (.natural n) => misfit (.invalidType (.integer n) expected)
    | .number (.negative n) => misfit (.invalidType (.integer (Int.negSucc n)) expected)
    | .number (.float x) => misfit (.invalidType (.float (FloatText.compact x)) expected)
    | _ => failNext .expectedValue
  | _ => failNext .expectedValue

def firstOfValue : Reader (Option Char) := do
  match ← next with
  | none => failNext .endInValue
  | some x => pure x

def string : Reader String := do
  if (← firstOfValue) = some '"' then
    drop
    quoted
  else unexpected "a string"

def boolean : Reader Bool := do
  let x ← firstOfValue
  if x = some 't' then
    drop
    word ['r', 'u', 'e']
    pure true
  else if x = some 'f' then
    drop
    word ['a', 'l', 's', 'e']
    pure false
  else unexpected "a boolean"

def unit : Reader Unit := do
  if (← firstOfValue) = some 'n' then
    drop
    word ['u', 'l', 'l']
  else unexpected "unit"

def optional {α : Type} (inner : Reader α) : Reader (Option α) := do
  match ← next with
  | some (some 'n') =>
    drop
    word ['u', 'l', 'l']
    pure none
  | _ => some <$> inner

/-- Runs a reader, and gives a fault that has no place yet the place that `passOver` leads to from
where the fault was noticed. -/
def placed {α : Type} (passOver : Symbols → Symbols) (r : Reader α) : Reader α := fun rest =>
  match r rest with
  | .error ⟨cause, .inside rest⟩ => .error ⟨cause, .before (byteCount (passOver rest))⟩
  | result => result

def pastArrayEnd (rest : Symbols) : Symbols :=
  match rest.dropWhile isBlank with
  | some ']' :: rest => rest
  | some ',' :: rest => rest.dropWhile isBlank
  | rest => rest

def pastObjectEnd (rest : Symbols) : Symbols :=
  match rest.dropWhile isBlank with
  | some '\x7d' :: rest => rest
  | rest => rest

def openBracket (depth : Nat) : Reader Unit :=
  if depth = 0 then failNext .tooDeep else drop

def list {α : Type} (item : (depth : Nat) → Reader α) (depth : Nat) : Reader (List α) := do
  if (← firstOfValue) = some '[' then
    openBracket depth
    let as ← placed pastArrayEnd (items (item (depth - 1)))
    closeArray
    pure as
  else unexpected "a sequence"

/-- Reads the name of the first member of an object whose opening brace has been read. There has to
be one. -/
def firstName : Reader String := do
  match ← next with
  | none => failNext .endInObject
  | some x =>
    if x = some '"' then
      drop
      quoted
    else if x = some '\x7d' then failNext .expectedValue
    else failNext .keyNotString

/-- Reads one of several words: as a text in quotes, or as the name of the only member of an object,
which then has to be `null`. -/
def choice {α : Type} (options : List (String × α)) (depth : Nat) : Reader α := do
  let pick (name : String) : Reader α :=
    match options.lookup name with
    | some a => pure a
    | none => misfit (.unknownVariant name (options.map Prod.fst))
  match ← firstOfValue with
  | some '"' =>
    drop
    pick (← quoted)
  | some '\x7b' =>
    openBracket depth
    let a ← pick (← firstName)
    colon
    unit
    match ← next with
    | some (some '\x7d') =>
      drop
      pure a
    | some _ => fail .expectedValue
    | none => fail .endInObject
  | _ => failNext .expectedValue

end Reader

def Reader.run {α : Type} (r : Reader α) (text : Symbols) : Except Fault α := do
  let (a, rest) ← r text
  let _ ← Reader.finish rest
  return a

end CallCatalog.Json
