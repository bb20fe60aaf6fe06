import SymbolHistory.Diff.Greedy

namespace SymbolHistory.Diff

/-- The old line of a step and its number. -/
def SideStep.old? : SideStep → Option (String × Nat)
  | unchanged oldLine _ text => some (text, oldLine)
  | added .. => none
  | removed oldLine text => some (text, oldLine)
  | modified oldLine _ old _ => some (old, oldLine)

def SideStep.new? : SideStep → Option (String × Nat)
  | unchanged _ newLine text => some (text, newLine)
  | added newLine text => some (text, newLine)
  | removed .. => none
  | modified _ newLine _ new => some (new, newLine)

/-- Both sides of a modified line differ. -/
def SideStep.IsProper : SideStep → Prop
  | modified _ _ old new => old ≠ new
  | _ => True

section Runs

variable (line : Nat) (texts : List String)

theorem filterMap_old?_addedFrom : (addedFrom line texts).filterMap SideStep.old? = [] := by
  induction texts generalizing line with
  | nil => rfl
  | cons t ts ih =>
    rw [addedFrom, List.filterMap_cons_none rfl]
    exact ih (line + 1)

theorem filterMap_new?_addedFrom :
    (addedFrom line texts).filterMap SideStep.new? = texts.zipIdx line := by
  induction texts generalizing line with
  | nil => rfl
  | cons t ts ih => simp [addedFrom, SideStep.new?, ih]

theorem filterMap_old?_removedFrom :
    (removedFrom line texts).filterMap SideStep.old? = texts.zipIdx line := by
  induction texts generalizing line with
  | nil => rfl
  | cons t ts ih => simp [removedFrom, SideStep.old?, ih]

theorem filterMap_new?_removedFrom : (removedFrom line texts).filterMap SideStep.new? = [] := by
  induction texts generalizing line with
  | nil => rfl
  | cons t ts ih =>
    rw [removedFrom, List.filterMap_cons_none rfl]
    exact ih (line + 1)

theorem isProper_addedFrom : ∀ s ∈ addedFrom line texts, s.IsProper := by
  induction texts generalizing line with
  | nil => simp [addedFrom]
  | cons t ts ih => simpa [addedFrom, SideStep.IsProper] using ih (line + 1)

theorem isProper_removedFrom : ∀ s ∈ removedFrom line texts, s.IsProper := by
  induction texts generalizing line with
  | nil => simp [removedFrom]
  | cons t ts ih => simpa [removedFrom, SideStep.IsProper] using ih (line + 1)

end Runs

/-- A line found ahead stands between the lines before and after it. -/
theorem eq_of_linesAhead? {needle : String} {ahead : List String} {d : Nat}
    (h : linesAhead? needle ahead = some d) :
    ahead = ahead.take d ++ needle :: ahead.drop (d + 1) := by
  obtain ⟨hlt, hd, -⟩ := List.findIdx?_eq_some_iff_getElem.mp h
  rw [List.length_take] at hlt
  have hget : ahead[d] = needle := by simpa using hd
  rw [← hget, ← List.drop_eq_getElem_cons, List.take_append_drop]

theorem zipIdx_run {needle : String} {ahead : List String} {d : Nat}
    (h : linesAhead? needle ahead = some d) (first : String) (line : Nat) :
    (first :: ahead.take d).zipIdx line ++
        (needle, line + 1 + d) :: (ahead.drop (d + 1)).zipIdx (line + d + 2) =
      (first :: ahead).zipIdx line := by
  have hd : (ahead.take d).length = d := by
    obtain ⟨hlt, -⟩ := List.findIdx?_eq_some_iff_getElem.mp h
    simp only [List.length_take] at hlt ⊢
    omega
  have hahead : (first :: ahead).zipIdx line =
      (first :: (ahead.take d ++ needle :: ahead.drop (d + 1))).zipIdx line := by
    rw [← eq_of_linesAhead? h]
  rw [hahead]
  simp only [List.zipIdx_cons, List.zipIdx_append, List.cons_append, hd]
  rw [show line + 1 + d + 1 = line + d + 2 by omega]

/-- The old side of the script is the rest of the old text. -/
theorem greedyFrom_old (i j : Nat) (old new : List String) :
    (greedyFrom i j old new).filterMap SideStep.old? = old.zipIdx i := by
  fun_induction greedyFrom i j old new with
  | case1 i j new => simpa using filterMap_old?_addedFrom j new
  | case2 i j old => exact filterMap_old?_removedFrom i old
  | case3 i j os n ns ih => simp [SideStep.old?, ih]
  | case4 i j o os n ns hne d hd ih =>
    simp [filterMap_old?_addedFrom, SideStep.old?, ih]
  | case5 i j o os n ns hne hnone d hd ih =>
    rw [List.filterMap_append, filterMap_old?_removedFrom, ← zipIdx_run hd]
    simp [SideStep.old?, ih]
  | case6 i j o os n ns hne hnone hnone' ih => simp [SideStep.old?, ih]

theorem greedyFrom_new (i j : Nat) (old new : List String) :
    (greedyFrom i j old new).filterMap SideStep.new? = new.zipIdx j := by
  fun_induction greedyFrom i j old new with
  | case1 i j new => exact filterMap_new?_addedFrom j new
  | case2 i j old => simpa using filterMap_new?_removedFrom i old
  | case3 i j os n ns ih => simp [SideStep.new?, ih]
  | case4 i j o os n ns hne d hd ih =>
    rw [List.filterMap_append, filterMap_new?_addedFrom, ← zipIdx_run hd]
    simp [SideStep.new?, ih]
  | case5 i j o os n ns hne hnone d hd ih =>
    simp [filterMap_new?_removedFrom, SideStep.new?, ih]
  | case6 i j o os n ns hne hnone hnone' ih => simp [SideStep.new?, ih]

theorem greedyFrom_isProper (i j : Nat) (old new : List String) :
    ∀ s ∈ greedyFrom i j old new, s.IsProper := by
  fun_induction greedyFrom i j old new with
  | case1 i j new => exact isProper_addedFrom j new
  | case2 i j old => exact isProper_removedFrom i old
  | case3 i j os n ns ih => simpa [SideStep.IsProper] using ih
  | case4 i j o os n ns hne d hd ih =>
    intro s hs
    rcases List.mem_append.mp hs with hs | hs
    · exact isProper_addedFrom _ _ s hs
    · rcases List.mem_cons.mp hs with rfl | hs
      · trivial
      · exact ih s hs
  | case5 i j o os n ns hne hnone d hd ih =>
    intro s hs
    rcases List.mem_append.mp hs with hs | hs
    · exact isProper_removedFrom _ _ s hs
    · rcases List.mem_cons.mp hs with rfl | hs
      · trivial
      · exact ih s hs
  | case6 i j o os n ns hne hnone hnone' ih =>
    intro s hs
    rcases List.mem_cons.mp hs with rfl | hs
    · exact hne
    · exact ih s hs

theorem greedyFrom_self (i j : Nat) (texts : List String) :
    ∀ s ∈ greedyFrom i j texts texts, s.isUnchanged = true := by
  induction texts generalizing i j with
  | nil => simp [greedyFrom, addedFrom]
  | cons t ts ih => simpa [greedyFrom, SideStep.isUnchanged] using ih (i + 1) (j + 1)

/-- Unchanged steps have the same lines on both sides. -/
theorem texts_eq_of_unchanged {steps : List SideStep}
    (h : ∀ s ∈ steps, s.isUnchanged = true) :
    (steps.filterMap SideStep.old?).map Prod.fst =
      (steps.filterMap SideStep.new?).map Prod.fst := by
  induction steps with
  | nil => rfl
  | cons s steps ih =>
    have hs := h s List.mem_cons_self
    have hrest := ih fun s hs => h s (List.mem_cons_of_mem _ hs)
    cases s with
    | unchanged i j t => simp [SideStep.old?, SideStep.new?, hrest]
    | added j t => simp [SideStep.isUnchanged] at hs
    | removed i t => simp [SideStep.isUnchanged] at hs
    | modified i j o n => simp [SideStep.isUnchanged] at hs

/-- Read along its old side, a script gives the old lines with their numbers, and along its new side
the new ones; a modified line has two different texts, and only equal texts have a script without a
difference. -/
theorem greedy_sides (old new : List String) :
    (greedy old new).filterMap SideStep.old? = old.zipIdx 1 ∧
    (greedy old new).filterMap SideStep.new? = new.zipIdx 1 ∧
    (∀ s ∈ greedy old new, s.IsProper) ∧
    ((∀ s ∈ greedy old new, s.isUnchanged = true) ↔ old = new) := by
  refine ⟨greedyFrom_old 1 1 old new, greedyFrom_new 1 1 old new,
    greedyFrom_isProper 1 1 old new, ?_, ?_⟩
  · intro h
    have htexts := texts_eq_of_unchanged h
    rw [greedy, greedyFrom_old, greedyFrom_new] at htexts
    simpa using htexts
  · rintro rfl
    exact greedyFrom_self 1 1 old

end SymbolHistory.Diff
