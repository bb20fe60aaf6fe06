namespace SymbolHistory.Text

abbrev FlipPoints := List Nat

/-- A code point is inside when an odd number of flip points is at or below it. -/
def FlipPoints.contains : FlipPoints → Nat → Bool
  | [], _ => false
  | p :: ps, n => if n < p then false else !FlipPoints.contains ps n

@[simp] theorem FlipPoints.contains_nil (n : Nat) : FlipPoints.contains [] n = false := rfl

theorem FlipPoints.contains_of_lt {p n : Nat} (ps : FlipPoints) (h : n < p) :
    FlipPoints.contains (p :: ps) n = false := by
  simp [FlipPoints.contains, h]

theorem FlipPoints.contains_of_le {p n : Nat} (ps : FlipPoints) (h : p ≤ n) :
    FlipPoints.contains (p :: ps) n = !FlipPoints.contains ps n := by
  simp [FlipPoints.contains, Nat.not_lt.mpr h]

end SymbolHistory.Text
