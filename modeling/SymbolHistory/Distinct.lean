namespace SymbolHistory

variable {α β : Type} [DecidableEq β]

/-- The first elements whose keys are not among `seen`. -/
def distinctByFrom (key : α → β) (seen : List β) : List α → List α
  | [] => []
  | a :: rest =>
    if key a ∈ seen then distinctByFrom key seen rest
    else a :: distinctByFrom key (key a :: seen) rest

def distinctBy (key : α → β) (l : List α) : List α := distinctByFrom key [] l

theorem mem_of_mem_distinctByFrom {key : α → β} {seen : List β} {l : List α} {a : α}
    (h : a ∈ distinctByFrom key seen l) : a ∈ l ∧ key a ∉ seen := by
  induction l generalizing seen with
  | nil => simp [distinctByFrom] at h
  | cons b rest ih =>
    simp only [distinctByFrom] at h
    split at h
    · next hb => exact ⟨List.mem_cons_of_mem _ (ih h).1, (ih h).2⟩
    · next hb =>
      rcases List.mem_cons.mp h with rfl | h
      · exact ⟨List.mem_cons_self, hb⟩
      · have := ih h
        exact ⟨List.mem_cons_of_mem _ this.1, fun hs => this.2 (List.mem_cons_of_mem _ hs)⟩

theorem mem_of_mem_distinctBy {key : α → β} {l : List α} {a : α}
    (h : a ∈ distinctBy key l) : a ∈ l :=
  (mem_of_mem_distinctByFrom h).1

end SymbolHistory
