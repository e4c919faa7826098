import CallCatalog.Json.Fault

/-!
The symbols of a document that is given as text or as bytes. Bytes are read as UTF-8; one that
belongs to no character becomes a symbol of its own, so that it is noticed where it stands.
-/

namespace CallCatalog.Json

def symbolsOfString (s : String) : Symbols := s.toList.map some

def isContinuation (b : UInt8) : Bool := b &&& 0xC0 = 0x80

def continuationBits (b : UInt8) : Nat := (b &&& 0x3F).toNat

/-- The character at the front of some bytes, with the number of bytes after its first one. The
shortest form is the only one that counts, and neither halves of pairs nor numbers above 0x10FFFF
are characters. -/
def charAtFront? : List UInt8 → Option (Char × Nat)
  | [] => none
  | b :: bs =>
    if b < 0x80 then some (Char.ofNat b.toNat, 0)
    else if 0xC2 ≤ b && b ≤ 0xDF then
      match bs with
      | c :: _ =>
        if isContinuation c then
          some (Char.ofNat ((b &&& 0x1F).toNat * 64 + continuationBits c), 1)
        else none
      | _ => none
    else if 0xE0 ≤ b && b ≤ 0xEF then
      match bs with
      | c :: d :: _ =>
        let n := ((b &&& 0x0F).toNat * 64 + continuationBits c) * 64 + continuationBits d
        if isContinuation c && isContinuation d && 0x800 ≤ n && (n < 0xD800 || 0xDFFF < n) then
          some (Char.ofNat n, 2)
        else none
      | _ => none
    else if 0xF0 ≤ b && b ≤ 0xF4 then
      match bs with
      | c :: d :: e :: _ =>
        let n := (((b &&& 0x07).toNat * 64 + continuationBits c) * 64 + continuationBits d) * 64 +
          continuationBits e
        if isContinuation c && isContinuation d && isContinuation e && 0x10000 ≤ n && n < 0x110000
        then some (Char.ofNat n, 3)
        else none
      | _ => none
    else none

/-- Reads bytes as UTF-8, with `acc` the symbols so far in reverse. The next `skip` bytes belong to
a character that has been read. -/
def decode : (bytes : List UInt8) → (skip : Nat) → (acc : Symbols) → Symbols
  | [], _, acc => acc.reverse
  | _ :: bs, skip + 1, acc => decode bs skip acc
  | b :: bs, 0, acc =>
    match charAtFront? (b :: bs) with
    | some (c, more) => decode bs more (some c :: acc)
    | none => decode bs 0 (none :: acc)

def symbolsOfBytes (bytes : List UInt8) : Symbols := decode bytes 0 []

def textOfBytes? (bytes : List UInt8) : Option String :=
  ((symbolsOfBytes bytes).mapM id).map String.ofList

end CallCatalog.Json
