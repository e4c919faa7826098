import CallCatalog.Toml.Value

/-!
The smallest pieces of a TOML text: blanks, comments, line ends, keys, strings, numbers and dates.
What is wrong with a text is not told apart: a reader gives no result for it.

Loops run on a clock, which is the text that is left when they begin.
-/

namespace CallCatalog.Toml

abbrev Reader (α : Type) := StateT (List Char) Option α

namespace Reader

def fail {α : Type} : Reader α := fun _ => none

def peek : Reader (Option Char) := fun rest => some (rest.head?, rest)

def drop : Reader Unit := fun rest => some ((), rest.tail)

def startsWith (word : List Char) : Reader Bool := fun rest => some (word.isPrefixOf rest, rest)

def skip (word : List Char) : Reader Bool := fun rest =>
  if word.isPrefixOf rest then some (true, rest.drop word.length) else some (false, rest)

def skipOne (cs : List Char) : Reader Bool := fun rest =>
  match rest with
  | c :: more => if cs.contains c then some (true, more) else some (false, rest)
  | [] => some (false, rest)

def expect (word : List Char) : Reader Unit := do
  if !(← skip word) then fail

def takeWhile (p : Char → Bool) : Reader (List Char) := fun rest =>
  some (rest.takeWhile p, rest.dropWhile p)

def orTry {α : Type} (first second : Reader α) : Reader α := fun rest =>
  match first rest with
  | some result => some result
  | none => second rest

def isBlank (c : Char) : Bool := c = ' ' || c = '\t'

def isText (c : Char) : Bool := c = '\t' || (32 ≤ c.toNat && c.toNat ≠ 127)

def blanks : Reader Unit := do let _ ← takeWhile isBlank

def comment : Reader Unit := do
  if ← startsWith ['#'] then
    let _ ← takeWhile isText

def newline : Reader Bool := do
  if ← skip ['\n'] then pure true else skip ['\r', '\n']

/-- Reads what may follow at the end of a line, and the end of the line or of the text. -/
def lineEnd : Reader Unit := do
  blanks
  comment
  if !(← newline) then
    if (← peek).isSome then fail

def filler : Reader Unit := do loop (← get)
where
  loop : (clock : List Char) → Reader Unit
    | [] => pure ()
    | _ :: clock => do
      blanks
      comment
      if ← newline then loop clock

def digitValue? (base : Nat) (c : Char) : Option Nat :=
  let n :=
    if '0' ≤ c ∧ c ≤ '9' then c.toNat - 48
    else if 'a' ≤ c ∧ c ≤ 'f' then c.toNat - 87
    else if 'A' ≤ c ∧ c ≤ 'F' then c.toNat - 55
    else base
  if n < base then some n else none

def digits (base : Nat) : (count : Nat) → (value : Nat) → Reader Nat
  | 0, value => pure value
  | count + 1, value => do
    match (← peek).bind (digitValue? base) with
    | none => fail
    | some d =>
      drop
      digits base count (value * base + d)

def charOf (n : Nat) : Reader Char :=
  if n < 0xD800 || (0xDFFF < n && n < 0x110000) then pure (Char.ofNat n) else fail

def escape : Reader Char := do
  match ← peek with
  | none => fail
  | some c =>
    drop
    match c with
    | 'b' => pure '\x08'
    | 't' => pure '\t'
    | 'n' => pure '\n'
    | 'f' => pure '\x0c'
    | 'r' => pure '\r'
    | '"' => pure '"'
    | '\\' => pure '\\'
    | 'u' => charOf (← digits 16 4 0)
    | 'U' => charOf (← digits 16 8 0)
    | _ => fail

def basic : (clock acc : List Char) → Reader String
  | [], _ => fail
  | _ :: clock, acc => do
    match ← peek with
    | none => fail
    | some c =>
      drop
      if c = '"' then pure (String.ofList acc.reverse)
      else if c = '\\' then
        let c ← escape
        basic clock (c :: acc)
      else if isText c then basic clock (c :: acc)
      else fail

def literal : Reader String := do
  let cs ← takeWhile fun c => isText c && c ≠ '\''
  expect ['\'']
  pure (String.ofList cs)

/-- Reads what follows the first quote of a run of quotes inside a string over several lines: three
or more of them close the string, of which two at most belong to it. The quotes that belong to it
are given, and whether the string ends. -/
def quoteRun (quote : Char) : Reader (List Char × Bool) := do
  let more ← takeWhile fun c => c = quote
  let count := more.length + 1
  if count < 3 then pure (List.replicate count quote, false)
  else if count ≤ 5 then pure (List.replicate (count - 3) quote, true)
  else fail

/-- Drops what a backslash at the end of a line takes away: the line end and all blanks and line
ends after it. -/
def lineJoin : Reader Unit := do
  blanks
  if !(← newline) then fail
  loop (← get)
where
  loop : (clock : List Char) → Reader Unit
    | [] => pure ()
    | _ :: clock => do
      blanks
      if ← newline then loop clock

def multiline (quote : Char) (escapes : Bool) : (clock acc : List Char) → Reader String
  | [], _ => fail
  | _ :: clock, acc => do
    if ← newline then multiline quote escapes clock ('\n' :: acc)
    else match ← peek with
      | none => fail
      | some c =>
        drop
        if c = quote then
          let (own, closed) ← quoteRun quote
          if closed then pure (String.ofList (own ++ acc).reverse)
          else multiline quote escapes clock (own ++ acc)
        else if escapes && c = '\\' then
          let after ← peek
          if after.any fun c => isBlank c || c = '\n' || c = '\r' then
            lineJoin
            multiline quote escapes clock acc
          else
            let c ← escape
            multiline quote escapes clock (c :: acc)
        else if isText c then multiline quote escapes clock (c :: acc)
        else fail

def stringValue (quote : Char) (escapes : Bool) : Reader String := do
  if ← skip [quote, quote, quote] then
    let _ ← newline
    multiline quote escapes (← get) []
  else
    drop
    if escapes then basic (← get) [] else literal

def isKeyChar (c : Char) : Bool := c.isAlphanum || c = '_' || c = '-'

def simpleKey : Reader String := do
  match ← peek with
  | some '"' =>
    drop
    basic (← get) []
  | some '\'' =>
    drop
    literal
  | _ =>
    let cs ← takeWhile isKeyChar
    if cs.isEmpty then fail else pure (String.ofList cs)

def maxKeyParts : Nat := 80

def key : Reader (List String) := do
  let parts ← loop (← get) []
  if parts.length < maxKeyParts then pure parts else fail
where
  loop : (clock : List Char) → (acc : List String) → Reader (List String)
    | [], _ => fail
    | _ :: clock, acc => do
      blanks
      let part ← simpleKey
      blanks
      if ← skip ['.'] then loop clock (part :: acc) else pure (part :: acc).reverse

def spacedDigits (base : Nat) : Reader (List Char) := do
  match (← peek).bind (digitValue? base) with
  | none => fail
  | some _ => loop (← get) []
where
  loop : (clock acc : List Char) → Reader (List Char)
    | [], acc => pure acc.reverse
    | _ :: clock, acc => do
      match ← peek with
      | none => pure acc.reverse
      | some c =>
        if (digitValue? base c).isSome then
          drop
          loop clock (c :: acc)
        else if c = '_' then
          drop
          match (← peek).bind (digitValue? base) with
          | none => fail
          | some _ => loop clock acc
        else pure acc.reverse

def valueOf (base : Nat) (cs : List Char) : Nat :=
  cs.foldl (fun n c => n * base + (digitValue? base c).getD 0) 0

def sign : Reader Bool := do
  if ← skip ['-'] then pure true
  else
    let _ ← skip ['+']
    pure false

def decimalDigits : Reader (List Char) := do
  if ← skip ['0'] then pure ['0'] else spacedDigits 10

def integerOf (n : Int) : Reader Toml :=
  if Int64.minValue.toInt ≤ n && n ≤ Int64.maxValue.toInt then pure (.integer n) else fail

def integer : Reader Toml := do
  if ← skip ['0', 'x'] then integerOf (valueOf 16 (← spacedDigits 16))
  else if ← skip ['0', 'o'] then integerOf (valueOf 8 (← spacedDigits 8))
  else if ← skip ['0', 'b'] then integerOf (valueOf 2 (← spacedDigits 2))
  else
    let negative ← sign
    let n := valueOf 10 (← decimalDigits)
    integerOf (if negative then -n else n)

def exponent? : Reader (Option Int) := do
  if ← skipOne ['e', 'E'] then
    let negative ← sign
    let n := valueOf 10 (← spacedDigits 10)
    pure (some (if negative then -n else n))
  else pure none

def floatOf (n : Nat) (e : Int) : Float :=
  if n = 0 then 0.0
  else
    let size := (Nat.toDigits 10 n).length + e
    if 400 < size then 1.0 / 0.0
    else if size < -400 then 0.0
    else if 0 ≤ e then Float.ofScientific n false e.toNat
    else Float.ofScientific n true (-e).toNat

def specialFloat : Reader Toml := do
  let negative ← sign
  let x ← do
    if ← skip ['i', 'n', 'f'] then pure (1.0 / 0.0)
    else if ← skip ['n', 'a', 'n'] then pure (0.0 / 0.0)
    else fail
  pure (.float (if negative then -x else x))

def float : Reader Toml := do
  let negative ← sign
  let whole ← decimalDigits
  let fraction ← do
    if ← skip ['.'] then spacedDigits 10 else pure []
  let e ← exponent?
  if fraction.isEmpty && e.isNone then fail
  else
    let x := floatOf (valueOf 10 (whole ++ fraction)) (e.getD 0 - fraction.length)
    if x.isInf && !negative then fail else pure (.float (if negative then -x else x))

def twoDigits (low high : Nat) : Reader Nat := do
  let n ← digits 10 2 0
  if low ≤ n && n ≤ high then pure n else fail

def daysIn (year month : Nat) : Nat :=
  if month = 2 then
    if year % 4 = 0 && (year % 100 ≠ 0 || year % 400 = 0) then 29 else 28
  else if [4, 6, 9, 11].contains month then 30
  else 31

def date : Reader Unit := do
  let year ← digits 10 4 0
  expect ['-']
  let month ← twoDigits 1 12
  expect ['-']
  let day ← twoDigits 1 31
  if daysIn year month < day then fail

def time : Reader Unit := do
  let _ ← twoDigits 0 23
  expect [':']
  let _ ← twoDigits 0 59
  expect [':']
  let _ ← twoDigits 0 60
  if ← skip ['.'] then
    let _ ← digits 10 1 0
    let _ ← takeWhile Char.isDigit

def offsetTime : Reader Unit := do
  time
  if ← skipOne ['Z', 'z'] then pure ()
  else if ← skipOne ['+', '-'] then
    let _ ← twoDigits 0 23
    expect [':']
    let _ ← twoDigits 0 59

/-- Reads what may follow a date: a letter or a blank and a time. A blank without a time stays. -/
def timeAfterDate : Reader Unit := do
  if ← skipOne ['T', 't'] then offsetTime
  else if ← startsWith [' '] then
    orTry (do drop; offsetTime) (pure ())

def datetime : Reader Toml := do
  orTry (do date; timeAfterDate) time
  pure .datetime

def numeric : Reader Toml := orTry datetime (orTry float (orTry specialFloat integer))

end Reader

end CallCatalog.Toml
