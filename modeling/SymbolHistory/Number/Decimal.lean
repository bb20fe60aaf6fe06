namespace SymbolHistory

/-- The number `±coefficient · 10 ^ exponent`. -/
structure Decimal where
  negative : Bool
  coefficient : Nat
  exponent : Int
  deriving DecidableEq, Repr

namespace Decimal

def digitValue (c : Char) : Nat := c.toNat - '0'.toNat

def ofDigits (ds : List Char) : Nat := ds.foldl (fun n c => n * 10 + digitValue c) 0

def natural? (s : List Char) : Option Nat :=
  if s.isEmpty || !s.all Char.isDigit then none else some (ofDigits s)

def wordLimit (bits : Nat) : Nat := Nat.pow 2 bits

/-- Reads digits after an optional plus sign, when the number is below `limit`. -/
def naturalBelow? (limit : Nat) (s : List Char) : Option Nat :=
  let digits := match s with
    | '+' :: rest => rest
    | rest => rest
  (natural? digits).filter (· < limit)

def integer64? (s : List Char) : Option Int :=
  match s with
  | '-' :: rest => ((natural? rest).filter (· ≤ wordLimit 63)).map fun n => -(n : Int)
  | rest => (naturalBelow? (wordLimit 63) rest).map Int.ofNat

def sign : List Char → Bool × List Char
  | '-' :: rest => (true, rest)
  | '+' :: rest => (false, rest)
  | rest => (false, rest)

def exponent? : List Char → Option Int
  | [] => some 0
  | c :: rest =>
    if c = 'e' ∨ c = 'E' then
      let (negative, digits) := sign rest
      (natural? digits).map fun n => if negative then -(n : Int) else n
    else none

/-- Reads an optional sign, digits with an optional point among them, and an optional exponent. -/
def read? (s : List Char) : Option Decimal :=
  let (negative, s) := sign s
  let (whole, s) := s.span Char.isDigit
  let (places, s) := match s with
    | '.' :: rest => rest.span Char.isDigit
    | rest => ([], rest)
  if whole.isEmpty && places.isEmpty then none
  else (exponent? s).map fun e => ⟨negative, ofDigits (whole ++ places), e - places.length⟩

def digits (n : Nat) : List Char := Nat.toDigits 10 n

/-- A coefficient and an exponent in positional notation, without an exponent mark. -/
def positional (coefficient : Nat) (exponent : Int) : List Char :=
  let ds := digits coefficient
  if 0 ≤ exponent then ds ++ List.replicate exponent.toNat '0'
  else
    let places := (-exponent).toNat
    let padded := List.replicate (places + 1 - ds.length) '0' ++ ds
    padded.take (padded.length - places) ++ '.' :: padded.drop (padded.length - places)

def fixedPoint (places scaled : Nat) : List Char :=
  if places = 0 then digits scaled else positional scaled (-(places : Int))

end Decimal
end SymbolHistory
