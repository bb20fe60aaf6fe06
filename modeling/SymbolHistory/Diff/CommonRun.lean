namespace SymbolHistory.Diff

variable {α : Type} [DecidableEq α]

def commonPrefix : List α → List α → Nat
  | x :: xs, y :: ys => if x = y then commonPrefix xs ys + 1 else 0
  | _, _ => 0

def commonSuffix (xs ys : List α) : Nat := commonPrefix xs.reverse ys.reverse

theorem commonPrefix_le_left (xs ys : List α) : commonPrefix xs ys ≤ xs.length := by
  induction xs generalizing ys with
  | nil => simp [commonPrefix]
  | cons x xs ih =>
    cases ys with
    | nil => simp [commonPrefix]
    | cons y ys =>
      simp only [commonPrefix, List.length_cons]
      split
      · exact Nat.succ_le_succ (ih ys)
      · omega

theorem commonPrefix_le_right (xs ys : List α) : commonPrefix xs ys ≤ ys.length := by
  induction xs generalizing ys with
  | nil => simp [commonPrefix]
  | cons x xs ih =>
    cases ys with
    | nil => simp [commonPrefix]
    | cons y ys =>
      simp only [commonPrefix, List.length_cons]
      split
      · exact Nat.succ_le_succ (ih ys)
      · omega

theorem commonSuffix_le_left (xs ys : List α) : commonSuffix xs ys ≤ xs.length := by
  simpa [commonSuffix] using commonPrefix_le_left xs.reverse ys.reverse

theorem commonSuffix_le_right (xs ys : List α) : commonSuffix xs ys ≤ ys.length := by
  simpa [commonSuffix] using commonPrefix_le_right xs.reverse ys.reverse

theorem take_commonPrefix (xs ys : List α) :
    xs.take (commonPrefix xs ys) = ys.take (commonPrefix xs ys) := by
  induction xs generalizing ys with
  | nil => cases ys <;> simp [commonPrefix]
  | cons x xs ih =>
    cases ys with
    | nil => simp [commonPrefix]
    | cons y ys =>
      simp only [commonPrefix]
      split
      · next h => simp [h, ih ys]
      · simp

/-- Length of the common run that starts at `x` in one array and at `y` in another. -/
def runFrom (xs ys : Array α) (x y : Nat) : Nat :=
  if hx : x < xs.size then
    if hy : y < ys.size then
      if xs[x] = ys[y] then runFrom xs ys (x + 1) (y + 1) + 1 else 0
    else 0
  else 0
termination_by xs.size - x

theorem runFrom_eq (xs ys : Array α) (x y : Nat) :
    runFrom xs ys x y = commonPrefix (xs.toList.drop x) (ys.toList.drop y) := by
  fun_induction runFrom xs ys x y with
  | case1 x y hx hy h ih =>
    rw [List.drop_eq_getElem_cons (l := xs.toList) (by simpa using hx),
      List.drop_eq_getElem_cons (l := ys.toList) (by simpa using hy)]
    simp [commonPrefix, h, ih]
  | case2 x y hx hy h =>
    rw [List.drop_eq_getElem_cons (l := xs.toList) (by simpa using hx),
      List.drop_eq_getElem_cons (l := ys.toList) (by simpa using hy)]
    simp [commonPrefix, h]
  | case3 x y hx hy =>
    have hd : ys.toList.drop y = [] := List.drop_eq_nil_of_le (Nat.le_of_not_lt hy)
    rw [hd]
    cases xs.toList.drop x <;> rfl
  | case4 x y hx =>
    have hd : xs.toList.drop x = [] := List.drop_eq_nil_of_le (Nat.le_of_not_lt hx)
    rw [hd]
    cases ys.toList.drop y <;> rfl

end SymbolHistory.Diff
