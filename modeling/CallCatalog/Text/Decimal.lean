namespace CallCatalog

structure Decimal where
  digits : Nat
  exponent : Int
  deriving DecidableEq

namespace Decimal

structure Fraction where
  num : Nat
  den : Nat

def Fraction.scaled (n b : Nat) (e : Int) : Fraction :=
  if 0 ≤ e then ⟨n * b.pow e.toNat, 1⟩ else ⟨n, b.pow (-e).toNat⟩

/-- The numbers that round to one floating-point number, as an interval. -/
structure Rounding where
  low : Fraction
  high : Fraction
  closed : Bool

def Rounding.holds (r : Rounding) (n : Nat) (e : Int) : Bool :=
  let x := Fraction.scaled n 10 e
  let low := r.low.num * x.den
  let high := r.high.num * x.den
  if r.closed then low ≤ x.num * r.low.den && x.num * r.high.den ≤ high
  else low < x.num * r.low.den && x.num * r.high.den < high

def leastMantissa : Nat := 1 <<< 52

/-- The numbers that round to `m * 2 ^ q`, where the least mantissa stands at the border to a finer
spacing below. -/
def Rounding.around (m : Nat) (q : Int) : Rounding where
  low :=
    if m = leastMantissa ∧ -1074 < q then .scaled (4 * m - 1) 2 (q - 2)
    else .scaled (2 * m - 1) 2 (q - 1)
  high := .scaled (2 * m + 1) 2 (q - 1)
  closed := m % 2 = 0

/-- Which of two neighbours stands for a number half way between them. -/
inductive Tie where
  | toEven
  | up
  deriving DecidableEq

def Tie.goesUp (tie : Tie) (below : Nat) : Bool :=
  match tie with
  | toEven => below % 2 = 1
  | up => true

/-- Looks for the coarsest power of ten, from `e` downwards, of which some multiple lies in the
interval, and takes the multiple closest to `x`. -/
def coarsest (tie : Tie) (x : Fraction) (r : Rounding) : (steps : Nat) → (e : Int) → Decimal
  | 0, e => ⟨0, e⟩
  | steps + 1, e =>
    let unit := Fraction.scaled 1 10 e
    let below := x.num * unit.den / (x.den * unit.num)
    let lowOk := below ≠ 0 && r.holds below e
    let highOk := r.holds (below + 1) e
    let twice := 2 * x.num * unit.den
    let middle := (2 * below + 1) * x.den * unit.num
    if lowOk && highOk then
      if middle < twice || (twice = middle && tie.goesUp below) then ⟨below + 1, e⟩ else ⟨below, e⟩
    else if lowOk then ⟨below, e⟩
    else if highOk then ⟨below + 1, e⟩
    else coarsest tie x r steps (e - 1)

def digitCount (n : Nat) : Nat := (Nat.toDigits 10 n).length

/-- The decimal number with the fewest digits that rounds to `m * 2 ^ q`, and of those the closest
one. -/
def shortest (tie : Tie) (m : Nat) (q : Int) : Decimal :=
  let x := Fraction.scaled m 2 q
  coarsest tie x (.around m q) 40 (digitCount x.num - digitCount x.den + 1)

def zeros (n : Nat) : String := String.ofList (List.replicate n '0')

/-- The digits with the decimal point in its place, and at least one digit on each side of it. -/
def positional (d : Decimal) : String :=
  let ds := Nat.toDigits 10 d.digits
  let point := ds.length + d.exponent
  if 0 ≤ d.exponent then String.ofList ds ++ zeros d.exponent.toNat ++ ".0"
  else if 0 < point then
    String.ofList (ds.take point.toNat) ++ "." ++ String.ofList (ds.drop point.toNat)
  else "0." ++ zeros (-point).toNat ++ String.ofList ds

/-- One digit before the decimal point, the others after it, and the power of ten with its sign. -/
def scientific (d : Decimal) : String :=
  let ds := Nat.toDigits 10 d.digits
  let point := ds.length + d.exponent
  let mantissa := match ds with
    | c :: r :: rs => c.toString ++ "." ++ String.ofList (r :: rs)
    | ds => String.ofList ds
  mantissa ++ (if 1 ≤ point then "e+" else "e") ++ toString (point - 1)

def compact (d : Decimal) : String :=
  let point := digitCount d.digits + d.exponent
  if -5 < point && point ≤ 16 then d.positional else d.scientific

end Decimal

namespace FloatText

/-- The mantissa and the power of two of a finite floating-point number, without its sign. -/
def parts (x : Float) : Nat × Int :=
  let bits := x.toBits.toNat
  let fraction : Nat := bits % Decimal.leastMantissa
  let exponent : Nat := bits / Decimal.leastMantissa % 2048
  if exponent = 0 then (fraction, -1074)
  else (Decimal.leastMantissa + fraction, (exponent : Int) - 1075)

def sign (x : Float) : String := if x.toBits >>> 63 = 1 then "-" else ""

/-- The text of a floating-point number, where finite numbers other than zero have a layout. -/
def write (tie : Decimal.Tie) (layout : Decimal → String) (x : Float) : String :=
  if x.isNaN then "NaN"
  else if x.isInf then sign x ++ "inf"
  else
    let (m, q) := parts x
    sign x ++ if m = 0 then "0.0" else layout (Decimal.shortest tie m q)

/-- The shortest text, with a power of ten if the number is very large or very small. Of two such
texts that are equally close, the one with an even last digit is taken. -/
def compact (x : Float) : String := write .toEven Decimal.compact x

/-- The shortest text without a power of ten. Of two such texts that are equally close, the one for
the number farther from zero is taken. -/
def positional (x : Float) : String := write .up Decimal.positional x

end FloatText

end CallCatalog
