import CallCatalog.Json.Fault
import CallCatalog.Json.Value

/-!
The smallest pieces of a JSON text: blanks, punctuation, words, texts in quotes and numbers.

A reader takes the symbols that are left and gives a value with the symbols left after it, or a
fault. Loops run on a clock, which is the text that is left when they begin: no step of a loop
leaves the text as long as it was, so the clock does not run out before the text.
-/

namespace CallCatalog.Json

abbrev Reader (α : Type) := StateT Symbols (Except Fault) α

namespace Reader

def fail {α : Type} (f : SyntaxFault) : Reader α := fun rest =>
  .error ⟨.malformed f, .before (byteCount rest)⟩

def failNext {α : Type} (f : SyntaxFault) : Reader α := fun rest =>
  .error ⟨.malformed f, .before (byteCount rest - 1)⟩

def misfit {α : Type} (f : ShapeFault) : Reader α := fun rest =>
  .error ⟨.misshapen f, .before (byteCount rest)⟩

/-- A fault in the shape of a value, which the array or object around it will give a place. -/
def misfitInside {α : Type} (f : ShapeFault) : Reader α := fun rest =>
  .error ⟨.misshapen f, .inside rest⟩

def isBlank (x : Option Char) : Bool :=
  x = some ' ' || x = some '\n' || x = some '\t' || x = some '\r'

def blanks : Reader Unit := fun rest => .ok ((), rest.dropWhile isBlank)

def peek : Reader (Option (Option Char)) := fun rest => .ok (rest.head?, rest)

def drop : Reader Unit := fun rest => .ok ((), rest.tail)

def next : Reader (Option (Option Char)) := do
  blanks
  peek

def word : List Char → Reader Unit
  | [] => pure ()
  | c :: cs => do
    match ← peek with
    | none => fail .endInValue
    | some x =>
      if x = some c then
        drop
        word cs
      else failNext .expectedWord

def hexValue? (c : Char) : Option Nat :=
  if '0' ≤ c ∧ c ≤ '9' then some (c.toNat - 48)
  else if 'a' ≤ c ∧ c ≤ 'f' then some (c.toNat - 87)
  else if 'A' ≤ c ∧ c ≤ 'F' then some (c.toNat - 55)
  else none

/-- Reads the four digits of a code unit. They are looked at only if four bytes are left. -/
def codeUnit : Reader Nat := fun rest =>
  if byteCount (rest.take 4) < 4 then .error ⟨.malformed .endInString, .before 0⟩
  else match rest with
    | some a :: some b :: some c :: some d :: rest' =>
      match hexValue? a, hexValue? b, hexValue? c, hexValue? d with
      | some a, some b, some c, some d => .ok (((a * 16 + b) * 16 + c) * 16 + d, rest')
      | _, _, _, _ => .error ⟨.malformed .invalidEscape, .before (byteCount rest - 4)⟩
    | _ => .error ⟨.malformed .invalidEscape, .before (byteCount rest - 4)⟩

def isTrailing (n : Nat) : Bool := 0xDC00 ≤ n && n ≤ 0xDFFF

def isLeading (n : Nat) : Bool := 0xD800 ≤ n && n ≤ 0xDBFF

def pairMark (c : Char) : Reader Unit := do
  match ← peek with
  | none => fail .endInString
  | some x => if x = some c then drop else failNext .unfinishedSurrogatePair

def unicodeEscape : Reader Char := do
  let n ← codeUnit
  if isTrailing n then fail .loneSurrogate
  else if isLeading n then
    pairMark '\\'
    pairMark 'u'
    let m ← codeUnit
    if isTrailing m then pure (Char.ofNat ((n - 0xD800) * 0x400 + (m - 0xDC00) + 0x10000))
    else fail .loneSurrogate
  else pure (Char.ofNat n)

def simpleEscape? (c : Char) : Option Char :=
  match c with
  | '"' => some '"'
  | '\\' => some '\\'
  | '/' => some '/'
  | 'b' => some '\x08'
  | 'f' => some '\x0c'
  | 'n' => some '\n'
  | 'r' => some '\r'
  | 't' => some '\t'
  | _ => none

def escape : Reader Char := do
  match ← peek with
  | none => fail .endInString
  | some x =>
    if x = some 'u' then
      drop
      unicodeEscape
    else match x.bind simpleEscape? with
      | some c =>
        drop
        pure c
      | none => failNext .invalidEscape

def isControl (x : Option Char) : Bool := x.any fun c => c.toNat < 32

/-- Reads up to the closing quote, with `acc` the characters so far in reverse and `broken` telling
whether there were bytes among them that belong to no character. -/
def quotedRest : (clock : Symbols) → (acc : List Char) → (broken : Bool) → Reader String
  | [], _, _ => fail .endInString
  | _ :: clock, acc, broken => do
    match ← peek with
    | none => fail .endInString
    | some x =>
      if isControl x then failNext .controlCharacter
      else
        drop
        if x = some '"' then
          if broken then fail .invalidCodePoint else pure (String.ofList acc.reverse)
        else if x = some '\\' then
          let c ← escape
          quotedRest clock (c :: acc) broken
        else match x with
          | some c => quotedRest clock (c :: acc) broken
          | none => quotedRest clock acc true

def quoted : Reader String := do quotedRest (← get) [] false

def digit? (x : Option Char) : Option Nat :=
  x.bind fun c => if '0' ≤ c ∧ c ≤ '9' then some (c.toNat - 48) else none

def peekDigit : Reader (Option Nat) := fun rest => .ok (rest.head?.bind digit?, rest)

def peekIs (cs : List Char) : Reader Bool := fun rest =>
  .ok ((rest.head?.join.any fun c => cs.contains c), rest)

def dropDigits : Reader Nat := fun rest =>
  let (digits, after) := rest.span fun x => (digit? x).isSome
  .ok (digits.length, after)

def maxSignificand : Nat := UInt64.size - 1

def maxExponent : Nat := 0x7FFFFFFF

/-- Reads digits into a significand for as long as it stays in range, and gives the significand with
the number of digits read. -/
def significand : (clock : Symbols) → (value count : Nat) → Reader (Nat × Nat)
  | [], value, count => pure (value, count)
  | _ :: clock, value, count => do
    match ← peekDigit with
    | none => pure (value, count)
    | some d =>
      if value * 10 + d ≤ maxSignificand then
        drop
        significand clock (value * 10 + d) (count + 1)
      else pure (value, count)

def maxPower : Nat := 308

def power (n : Nat) : Float := Float.ofScientific 1 false n

/-- `x` times `10 ^ e`, in steps of no more than `10 ^ 308` if it becomes smaller. No result means
that it is too large. -/
def scale : (steps : Nat) → (x : Float) → (e : Int) → Option Float
  | 0, x, _ => some x
  | steps + 1, x, e =>
    if e.natAbs ≤ maxPower then
      if 0 ≤ e then
        let y := x * power e.natAbs
        if y.isInf then none else some y
      else some (x / power e.natAbs)
    else if x == 0 then some x
    else if 0 ≤ e then none
    else scale steps (x / power maxPower) (e + maxPower)

def floatOf (positive : Bool) (value : Nat) (e : Int) : Reader JsonNumber := do
  -- After four steps every significand has become zero.
  match scale 8 (UInt64.ofNat value).toFloat e with
  | some x => pure (.float (if positive then x else -x))
  | none => fail .numberOutOfRange

/-- Reads the digits of an exponent, or gives `none` if it is too large to be told apart. -/
def exponentDigits : (clock : Symbols) → (value : Nat) → Reader (Option Nat)
  | [], value => pure (some value)
  | _ :: clock, value => do
    match ← peekDigit with
    | none => pure (some value)
    | some d =>
      drop
      if value * 10 + d ≤ maxExponent then exponentDigits clock (value * 10 + d) else pure none

def clampExponent (e : Int) : Int := max (-0x80000000) (min e maxExponent)

def exponent (positive : Bool) (value : Nat) (start : Int) : Reader JsonNumber := do
  drop
  let up ← do
    if ← peekIs ['+'] then
      drop
      pure true
    else if ← peekIs ['-'] then
      drop
      pure false
    else pure true
  match ← peek with
  | none => fail .endInValue
  | some x =>
    match digit? x with
    | none => failNext .invalidNumber
    | some d =>
      drop
      match ← exponentDigits (← get) d with
      | some e => floatOf positive value (clampExponent (if up then start + e else start - e))
      | none =>
        if value ≠ 0 && up then fail .numberOutOfRange
        else
          let _ ← dropDigits
          pure (.float (if positive then 0.0 else -0.0))

def withExponent (positive : Bool) (value : Nat) (e : Int) : Reader JsonNumber := do
  if ← peekIs ['e', 'E'] then exponent positive value e else floatOf positive value e

/-- Reads the digits after a decimal point, which comes next. Digits that the significand has no
room for are dropped. -/
def fraction (positive : Bool) (value : Nat) (e : Int) : Reader JsonNumber := do
  drop
  let (value, count) ← significand (← get) value 0
  let more ← dropDigits
  if count = 0 && more = 0 then
    match ← peek with
    | some _ => failNext .invalidNumber
    | none => failNext .endInValue
  else withExponent positive value (e - count)

/-- An integer with its sign. Minus zero and what is too small for 64 bits are floating-point
numbers. -/
def integerOf (positive : Bool) (value : Nat) : JsonNumber :=
  if positive then .natural value
  else if value = 0 || UInt64.size / 2 < value then .float (-(UInt64.ofNat value).toFloat)
  else .negative (value - 1)

def number (positive : Bool) : Reader JsonNumber := do
  match ← peek with
  | none => fail .endInValue
  | some x =>
    match digit? x with
    | none => failNext .invalidNumber
    | some 0 =>
      drop
      if (← peekDigit).isSome then failNext .invalidNumber
      else if ← peekIs ['.'] then fraction positive 0 0
      else if ← peekIs ['e', 'E'] then exponent positive 0 0
      else pure (integerOf positive 0)
    | some d =>
      drop
      let (value, _) ← significand (← get) d 1
      let more ← dropDigits
      if ← peekIs ['.'] then fraction positive value more
      else if ← peekIs ['e', 'E'] then exponent positive value more
      else if more = 0 then pure (integerOf positive value)
      else floatOf positive value more

/-- Whether there is another item in an array whose opening bracket has been read. The closing
bracket stays. -/
def anotherItem (first : Bool) : Reader Bool := do
  match ← next with
  | none => failNext .endInArray
  | some (some ']') => pure false
  | some x =>
    if first then pure true
    else if x = some ',' then
      drop
      match ← next with
      | none => failNext .endInValue
      | some (some ']') => failNext .trailingComma
      | some _ => pure true
    else failNext .expectedCommaOrBracket

/-- Reads the name of another member in an object whose opening brace has been read, or gives `none`
at the closing brace, which stays. -/
def anotherName (first : Bool) : Reader (Option String) := do
  match ← next with
  | none => failNext .endInObject
  | some (some '\x7d') => pure none
  | some x =>
    if first then
      if x = some '"' then
        drop
        some <$> quoted
      else failNext .keyNotString
    else if x = some ',' then
      drop
      match ← next with
      | none => failNext .endInValue
      | some (some '"') =>
        drop
        some <$> quoted
      | some (some '\x7d') => failNext .trailingComma
      | some _ => failNext .keyNotString
    else failNext .expectedCommaOrBrace

def colon : Reader Unit := do
  match ← next with
  | some (some ':') => drop
  | some _ => failNext .expectedColon
  | none => failNext .endInObject

def closeArray : Reader Unit := do
  match ← next with
  | some (some ']') => drop
  | some (some ',') =>
    drop
    match ← next with
    | some (some ']') => failNext .trailingComma
    | _ => failNext .trailingCharacters
  | some _ => failNext .trailingCharacters
  | none => failNext .endInArray

def closeObject : Reader Unit := do
  match ← next with
  | some (some '\x7d') => drop
  | some (some ',') => failNext .trailingComma
  | some _ => failNext .trailingCharacters
  | none => failNext .endInObject

def finish : Reader Unit := do
  match ← next with
  | none => pure ()
  | some _ => failNext .trailingCharacters

end Reader

end CallCatalog.Json
