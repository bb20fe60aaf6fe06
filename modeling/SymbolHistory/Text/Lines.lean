namespace SymbolHistory.Text

/-- The parts of a text between occurrences of `sep`, at least one. -/
def pieces (sep : Char) : List Char → List (List Char)
  | [] => [[]]
  | c :: rest =>
    if c = sep then [] :: pieces sep rest
    else
      match pieces sep rest with
      | [] => [[c]]
      | p :: ps => (c :: p) :: ps

def dropFinal (c : Char) (s : List Char) : List Char :=
  if s.getLast? = some c then s.dropLast else s

/-- The lines of a text. Only a line that was terminated loses its carriage return, and a text that
ends in a terminator has no further empty line. -/
def lines (s : List Char) : List (List Char) :=
  let ps := pieces '\n' s
  let last := ps.getLast?.getD []
  (ps.dropLast.map (dropFinal '\r')) ++ (if last.isEmpty then [] else [last])

def join (sep : List Char) : List (List Char) → List Char
  | [] => []
  | [p] => p
  | p :: q :: ps => p ++ sep ++ join sep (q :: ps)

theorem pieces_ne_nil (sep : Char) (s : List Char) : pieces sep s ≠ [] := by
  induction s with
  | nil => simp [pieces]
  | cons c rest ih =>
    simp only [pieces]
    split
    · simp
    · split <;> simp

theorem join_pieces (sep : Char) (s : List Char) : join [sep] (pieces sep s) = s := by
  induction s with
  | nil => rfl
  | cons c rest ih =>
    simp only [pieces]
    obtain ⟨p, ps, hp⟩ := List.exists_cons_of_ne_nil (pieces_ne_nil sep rest)
    rw [hp] at ih
    split
    · next h => rw [hp]; simp [join, ih, h]
    · rw [hp]
      cases ps with
      | nil => simpa [join] using ih
      | cons q qs => simpa [join] using ih

theorem not_mem_of_mem_pieces {sep : Char} {s p : List Char} (h : p ∈ pieces sep s) :
    sep ∉ p := by
  induction s generalizing p with
  | nil => simp [pieces] at h; simp [h]
  | cons c rest ih =>
    obtain ⟨q, qs, hq⟩ := List.exists_cons_of_ne_nil (pieces_ne_nil sep rest)
    simp only [pieces] at h
    split at h
    · rcases List.mem_cons.mp h with h | h
      · simp [h]
      · exact ih h
    · next hc =>
      rw [hq] at h ih
      rcases List.mem_cons.mp h with h | h
      · subst h
        have := ih (p := q) (by simp)
        simp [this, Ne.symm hc]
      · exact ih (by simp [h])

def linesOf (s : String) : List String := (lines s.toList).map String.ofList

def joinWith (sep : String) (ss : List String) : String :=
  String.ofList (join sep.toList (ss.map String.toList))

end SymbolHistory.Text
