namespace CallCatalog.Numeral

def ofDigits (digits : List Char) : Nat :=
  digits.foldl (fun n c => n * 10 + (c.toNat - 48)) 0

/-- The number that a text of digits stands for, if it has no more than 64 bits. A plus may come
before the digits. -/
def read? (text : String) : Option Nat :=
  let digits := match text.toList with
    | '+' :: cs => cs
    | cs => cs
  if digits.isEmpty || !digits.all Char.isDigit then none
  else
    let n := ofDigits digits
    if n < UInt64.size then some n else none

end CallCatalog.Numeral
