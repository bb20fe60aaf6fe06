namespace SymbolHistory.Text

/-- The characters with the property White_Space. -/
def isBlank (c : Char) : Bool :=
  let n := c.toNat
  (9 ≤ n && n ≤ 13) || n == 0x20 || n == 0x85 || n == 0xa0 || n == 0x1680
    || (0x2000 ≤ n && n ≤ 0x200a) || n == 0x2028 || n == 0x2029 || n == 0x202f || n == 0x205f
    || n == 0x3000

theorem isBlank_of_isWhitespace {c : Char} (h : c.isWhitespace = true) : isBlank c = true := by
  simp only [Char.isWhitespace, Bool.or_eq_true, decide_eq_true_eq] at h
  rcases h with ((h | h) | h) | h <;> subst h <;> decide

def dropEndWhile (p : Char → Bool) (s : List Char) : List Char :=
  (s.reverse.dropWhile p).reverse

def trimStart (s : List Char) : List Char := s.dropWhile isBlank

def trimEnd (s : List Char) : List Char := dropEndWhile isBlank s

def trim (s : List Char) : List Char := trimEnd (trimStart s)

def trimBy (p : Char → Bool) (s : List Char) : List Char := dropEndWhile p (s.dropWhile p)

def withoutBlanks (s : List Char) : List Char := s.filter fun c => !isBlank c

/-- The maximal runs of non-blank characters, in order. -/
def words (s : List Char) : List (List Char) :=
  go s []
where
  go : List Char → List Char → List (List Char)
    | [], run => if run.isEmpty then [] else [run.reverse]
    | c :: rest, run =>
      if isBlank c then
        if run.isEmpty then go rest [] else run.reverse :: go rest []
      else go rest (c :: run)

def trimmed (s : String) : String := String.ofList (trim s.toList)

@[simp] theorem withoutBlanks_nil : withoutBlanks [] = [] := rfl

theorem withoutBlanks_append (s t : List Char) :
    withoutBlanks (s ++ t) = withoutBlanks s ++ withoutBlanks t := by
  simp [withoutBlanks]

end SymbolHistory.Text
