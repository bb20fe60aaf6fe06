import SymbolHistory.Number.Decimal

namespace SymbolHistory

/-- A double, exactly: a sign and a whole number of units of `2 ^ (-1074)`, the least positive one.
Constructors round to 53 significant bits, so only counts occur that a double can hold. -/
inductive Binary64 where
  | finite (negative : Bool) (units : Nat)
  | infinite (negative : Bool)
  | nan
  deriving DecidableEq, Repr

namespace Binary64

/-- The quotient rounded to a whole number, a half going to the even neighbour. -/
def roundHalfEven (num den : Nat) : Nat :=
  let q := num / den
  let r := num % den
  if 2 * r < den then q else if den < 2 * r then q + 1 else q + q % 2

def surplusBits (n : Nat) : Nat := Nat.log2 n + 1 - 53

def roundUnits (num den : Nat) : Nat :=
  let k := surplusBits (num / den)
  roundHalfEven num (den * Nat.pow 2 k) * Nat.pow 2 k

def unitsPerOne : Nat := Nat.pow 2 1074

def unitLimit : Nat := Nat.pow 2 2098

def ofUnits (negative : Bool) (units : Nat) : Binary64 :=
  if unitLimit ≤ units then .infinite negative else .finite negative units

def ofRatio (negative : Bool) (num den : Nat) : Binary64 :=
  ofUnits negative (roundUnits (num * unitsPerOne) den)

/-- The double nearest to a decimal number. Far outside the range of doubles the powers of ten
need not be computed. -/
def ofDecimal (d : Decimal) : Binary64 :=
  let magnitude : Int := (Decimal.digits d.coefficient).length + d.exponent
  if d.coefficient = 0 ∨ magnitude < -400 then .finite d.negative 0
  else if 400 < magnitude then .infinite d.negative
  else if 0 ≤ d.exponent then ofRatio d.negative (d.coefficient * Nat.pow 10 d.exponent.toNat) 1
  else ofRatio d.negative d.coefficient (Nat.pow 10 (-d.exponent).toNat)

def ofInt (n : Int) : Binary64 := ofRatio (n < 0) n.natAbs 1

def zero : Binary64 := .finite false 0

def one : Binary64 := ofRatio false 1 1

/-- The place of a number on a scale of whole numbers; infinities lie beyond every finite one. -/
def key? : Binary64 → Option Int
  | finite false u => some u
  | finite true u => some (-u)
  | infinite false => some unitLimit
  | infinite true => some (-unitLimit)
  | nan => none

def le (x y : Binary64) : Bool :=
  match x.key?, y.key? with
  | some a, some b => a ≤ b
  | _, _ => false

def lt (x y : Binary64) : Bool :=
  match x.key?, y.key? with
  | some a, some b => a < b
  | _, _ => false

def percent : Binary64 → Binary64
  | finite s u => ofUnits s (roundUnits (u * 100) 1)
  | x => x

def signed (negative : Bool) (text : List Char) : List Char :=
  if negative then '-' :: text else text

def fixed (places : Nat) : Binary64 → List Char
  | finite s u =>
    signed s (Decimal.fixedPoint places (roundHalfEven (u * Nat.pow 10 places) unitsPerOne))
  | infinite s => signed s ['i', 'n', 'f']
  | nan => ['N', 'a', 'N']

/-- Ends of the interval of reals that round to a positive number of units, in half units, and
whether the ends belong to it. -/
def roundingInterval (units : Nat) : Nat × Nat × Bool :=
  let k := surplusBits units
  let ulp := Nat.pow 2 k
  let below := if 0 < k ∧ units = Nat.pow 2 (52 + k) then ulp / 2 else ulp
  (2 * units - below, 2 * units + ulp, units / ulp % 2 == 0)

def onGrid? (units : Nat) (e : Int) : Option Nat :=
  let up := Nat.pow 10 e.toNat * (2 * unitsPerOne)
  let down := Nat.pow 10 (-e).toNat
  let (lo, hi, closed) := roundingInterval units
  let fits (c : Nat) : Bool :=
    if closed then lo * down ≤ c * up && c * up ≤ hi * down
    else lo * down < c * up && c * up < hi * down
  let exact := 2 * units * down
  let c := exact / up
  let nearer := if 2 * (exact % up) ≤ up then [c, c + 1] else [c + 1, c]
  nearer.find? fun c => c != 0 && fits c

/-- The coarsest grid with a hit, from `10 ^ e` downwards. -/
def shortestFrom (units : Nat) (e : Int) : Nat → Nat × Int
  | 0 => (0, 0)
  | fuel + 1 =>
    match onGrid? units e with
    | some c => (c, e)
    | none => shortestFrom units (e - 1) fuel

/-- The fewest digits that read back as the number, in positional notation. -/
def shortest : Binary64 → List Char
  | finite s 0 => signed s ['0']
  | finite s u =>
    let (c, e) := shortestFrom u 310 700
    signed s (Decimal.positional c e)
  | infinite s => signed s ['i', 'n', 'f']
  | nan => ['N', 'a', 'N']

end Binary64
end SymbolHistory
