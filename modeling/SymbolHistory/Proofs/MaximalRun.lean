import Mathlib.Data.List.DropRight

namespace SymbolHistory

variable {α : Type} {p : α → Bool} {a b : α} {l first before run after : List α}

/-- A stretch on which a property holds and that cannot be made longer, with what stands around. -/
structure IsMaximalRun (p : α → Bool) (l before run after : List α) : Prop where
  split : l = before ++ (run ++ after)
  ne_nil : run ≠ []
  all : ∀ a ∈ run, p a = true
  starts : ∀ a ∈ before.getLast?, p a = false
  ends : ∀ a ∈ after.head?, p a = false

namespace IsMaximalRun

theorem exists_mem (h : IsMaximalRun p l before run after) : ∃ a ∈ l, p a = true := by
  obtain ⟨a, ha⟩ := List.exists_mem_of_ne_nil run h.ne_nil
  refine ⟨a, ?_, h.all a ha⟩
  rw [h.split]
  simp [ha]

/-- A run that nothing precedes is all that the property holds of at the start. -/
theorem of_start (h : IsMaximalRun p l [] run after) :
    run = l.takeWhile p ∧ after = l.dropWhile p := by
  have hafter : after.takeWhile p = [] ∧ after.dropWhile p = after := by
    cases after with
    | nil => simp
    | cons b after =>
      have hb : p b = false := h.ends b rfl
      simp [hb]
  rw [h.split, List.nil_append, List.takeWhile_append_of_pos h.all,
    List.dropWhile_append_of_pos h.all, hafter.1, hafter.2]
  simp

theorem tail (h : IsMaximalRun p (a :: l) (b :: before) run after) :
    IsMaximalRun p l before run after := by
  have hsplit := h.split
  simp only [List.cons_append, List.cons.injEq] at hsplit
  refine ⟨hsplit.2, h.ne_nil, h.all, ?_, h.ends⟩
  intro c hc
  cases before with
  | nil => simp at hc
  | cons d before => exact h.starts c (by simpa using hc)

theorem skip (h : IsMaximalRun p (a :: l) before run after) (ha : p a = false) :
    ∃ before, IsMaximalRun p l before run after := by
  cases before with
  | nil =>
    have hrun := h.of_start.1
    simp only [List.takeWhile_cons, ha] at hrun
    exact absurd hrun h.ne_nil
  | cons b before => exact ⟨before, h.tail⟩

theorem skip_append (h : IsMaximalRun p (first ++ l) before run after)
    (hfirst : ∀ a ∈ first, p a = false) : ∃ before, IsMaximalRun p l before run after := by
  induction first generalizing before with
  | nil => exact ⟨before, h⟩
  | cons a first ih =>
    obtain ⟨before, h⟩ := h.skip (hfirst a List.mem_cons_self)
    exact ih h fun a ha => hfirst a (List.mem_cons_of_mem _ ha)

/-- A run that something precedes does not begin in the first run. -/
theorem skip_run (h : IsMaximalRun p (first ++ a :: l) (b :: before) run after)
    (hfirst : ∀ a ∈ first, p a = true) (ha : p a = false) :
    ∃ before, IsMaximalRun p l before run after := by
  induction first generalizing b before with
  | nil => exact h.skip ha
  | cons c first ih =>
    have hc : p c = true := hfirst c List.mem_cons_self
    have hbc : c = b := (List.cons.inj h.split).1
    cases before with
    | nil =>
      have hb : p b = false := h.starts b rfl
      rw [hbc, hb] at hc
      cases hc
    | cons d before => exact ih h.tail fun a ha => hfirst a (List.mem_cons_of_mem _ ha)

/-- The first run of a list is one, and every other comes after the element that ends it. -/
theorem eq_or_skip (h : IsMaximalRun p (first ++ a :: l) before run after)
    (hfirst : ∀ a ∈ first, p a = true) (ha : p a = false) :
    (run = first ∧ after = a :: l) ∨ ∃ before, IsMaximalRun p l before run after := by
  cases before with
  | nil =>
    obtain ⟨hrun, hafter⟩ := h.of_start
    rw [List.takeWhile_append_of_pos hfirst] at hrun
    rw [List.dropWhile_append_of_pos hfirst] at hafter
    exact Or.inl (by simpa [ha] using And.intro hrun hafter)
  | cons b before => exact Or.inr (h.skip_run hfirst ha)

theorem eq_of_all (h : IsMaximalRun p l before run after) (hl : ∀ a ∈ l, p a = true) :
    run = l ∧ after = [] := by
  have hbefore : before = [] := by
    rw [← List.getLast?_eq_none_iff, Option.eq_none_iff_forall_not_mem]
    intro a ha
    have hmem : a ∈ l := by
      rw [h.split]
      exact List.mem_append_left _ (List.mem_of_mem_getLast? ha)
    have hp := h.starts a ha
    rw [hl a hmem] at hp
    cases hp
  subst hbefore
  obtain ⟨hrun, hafter⟩ := h.of_start
  rw [List.takeWhile_eq_self_iff.mpr hl] at hrun
  rw [List.dropWhile_eq_nil_iff.mpr hl] at hafter
  exact ⟨hrun, hafter⟩

end IsMaximalRun

theorem exists_isMaximalRun (before after : List α) (ha : p a = true) (hb : p b = false) :
    ∃ start run, IsMaximalRun p (before ++ a :: b :: after) start run (b :: after) := by
  refine ⟨(before ++ [a]).rdropWhile p, (before ++ [a]).rtakeWhile p, ?_, ?_, ?_, ?_, ?_⟩
  · rw [← List.append_assoc, List.rdropWhile_append_rtakeWhile]
    simp
  · rw [List.rtakeWhile_concat_pos p before a ha]
    simp
  · intro c hc
    exact List.mem_rtakeWhile_imp hc
  · intro c hc
    obtain ⟨hne, rfl⟩ := List.mem_getLast?_eq_getLast hc
    exact eq_false_of_ne_true (List.rdropWhile_last_not p _ hne)
  · intro c hc
    cases hc
    exact hb

end SymbolHistory
