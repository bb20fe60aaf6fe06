namespace SymbolHistory.Report

def maxShades : Nat := 9

/-- A requested number of shades, brought into the range of one to nine. -/
def clampShades (shades : Nat) : Nat := max 1 (min shades maxShades)

/-- The shade, from one to `shades`, of transition number `transition` out of `count`. -/
def shadeOf (transition count shades : Nat) : Nat :=
  let s := clampShades shades
  max 1 (min (1 + transition * s / max count 1) s)

end SymbolHistory.Report
