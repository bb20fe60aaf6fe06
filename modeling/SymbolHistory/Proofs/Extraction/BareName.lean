import SymbolHistory.PlainSource.Declarations
import SymbolHistory.Proofs.Extraction.NoOverlap
import SymbolHistory.Proofs.Pattern.Captures

namespace SymbolHistory

theorem Symbol.bareName_eq_name_of_not_prefix {s : Symbol}
    (h : ∀ cls ∈ s.parent, ¬cls.toList ++ ['.'] <+: s.name.toList) : s.bareName = s.name := by
  unfold bareName
  split
  · rfl
  · next cls hcls =>
    have hafter : after? (cls.toList ++ ['.']) s.name.toList = none := by
      rw [after?, if_neg]
      intro hbegins
      exact h cls hcls (List.isPrefixOf_iff_prefix.mp hbegins)
    rw [hafter]

theorem Symbol.bareName_eq_name {s : Symbol} (h : s.parent.isSome → '.' ∉ s.name.toList) :
    s.bareName = s.name := by
  refine bareName_eq_name_of_not_prefix fun cls hcls hbegins => ?_
  have hdot : '.' ∉ s.name.toList := h (Option.isSome_of_mem hcls)
  exact hdot (hbegins.mem (by simp))

namespace Query

variable {q : Query} {s : Symbol}

/-- A listed symbol is one of the raw declarations, perhaps qualified. -/
theorem exists_of_mem_list {l : List Symbol} (h : s ∈ q.list l) : ∃ t ∈ l, s = q.present t := by
  obtain ⟨t, ht, rfl⟩ := List.mem_map.mp h
  have hkept := (List.mem_filter.mp (List.mem_filter.mp ht).1).1
  exact ⟨t, List.mem_mergeSort.mp ((Symbol.dropRepeats_sublist _).mem hkept), rfl⟩

/-- Qualifying a method leaves what its name was as the bare name. -/
theorem bareName_present (q : Query) (s : Symbol) :
    (q.present s).bareName = s.bareName ∨ (q.present s).bareName = s.name := by
  unfold present
  split
  · next cls hcls =>
    split
    · refine Or.inr ?_
      have hafter : Symbol.after? (cls.toList ++ ['.']) (cls.toList ++ '.' :: s.name.toList) =
          some s.name.toList := by
        rw [Symbol.after?, if_pos (by simp)]
        simp
      simp [Symbol.bareName, hcls, hafter]
    · exact Or.inl rfl
  · exact Or.inl rfl

theorem startLine_present (q : Query) (s : Symbol) : (q.present s).startLine = s.startLine := by
  unfold present
  split
  · split <;> rfl
  · rfl

end Query

namespace PlainSource

variable {language : Language} {p : PlainSource} {q : Query}

/-- A routine in a class has a name without a dot. -/
def LineForm.Dotless : LineForm → Prop
  | routine _ name (some _) _ => '.' ∉ name.toList
  | _ => True

section Forms

variable {line : List Char} {around : Option String}

theorem forall_orElse {P : LineForm → Prop} {a b : Option LineForm} (ha : ∀ f ∈ a, P f)
    (hb : ∀ f ∈ b, P f) : ∀ f ∈ a <|> b, P f := by
  cases a with
  | none => exact hb
  | some f => exact ha

theorem forall_map {P : LineForm → Prop} {α : Type} {o : Option α} {form : α → LineForm}
    (h : ∀ a ∈ o, P (form a)) : ∀ f ∈ o.map form, P f := by
  intro f hf
  obtain ⟨a, ha, rfl⟩ := Option.map_eq_some_iff.mp hf
  exact h a ha

theorem not_mem_of_start? {form : Pattern} {name : String} {c : Pattern.Cursor} {x : Char}
    (hform : form.groupRefuses x 1 = true) (h : start? form line = some (name, c)) :
    x ∉ name.toList := by
  obtain ⟨d, hd, h⟩ := Option.bind_eq_some_iff.mp h
  obtain ⟨s, hs, h⟩ := Option.map_eq_some_iff.mp h
  cases h
  exact Pattern.not_mem_of_matchStart? hform hd hs

theorem methodLine_dotless {form : Pattern} {isControl : String → Bool}
    (hform : form.groupRefuses '.' 1 = true) :
    ∀ f ∈ methodLine form isControl around line, f.Dotless := by
  intro f h
  obtain ⟨cls, -, h⟩ := Option.bind_eq_some_iff.mp h
  obtain ⟨⟨name, c⟩, hstart, h⟩ := Option.bind_eq_some_iff.mp h
  dsimp only at h
  split at h
  · cases h
  · cases h
    exact not_mem_of_start? hform hstart

theorem readOnlyLine_dotless {nested : Bool} : ∀ f ∈ readOnlyLine nested line, f.Dotless := by
  intro f h
  unfold readOnlyLine at h
  split at h
  · split at h <;> cases h
    · split <;> trivial
    · trivial
  · cases h

theorem formOf_dotless {nested : Bool} : ∀ f ∈ formOf language nested around line, f.Dotless := by
  -- Only a method form, and a definition around which there is a class, name a routine in a class;
  -- the group that captures its name refuses the dot.
  cases language with
  | javaScript | typeScript =>
    refine forall_orElse (forall_map fun _ _ => trivial) ?_
    refine forall_orElse (forall_map fun _ _ => trivial) ?_
    refine forall_orElse (forall_map fun _ _ => trivial) ?_
    refine forall_orElse (forall_map fun _ _ => trivial) ?_
    refine forall_orElse (forall_map fun _ _ => trivial) ?_
    exact methodLine_dotless (by decide +kernel)
  | python =>
    refine forall_orElse (forall_map fun _ _ => trivial) (forall_orElse (forall_map ?_) ?_)
    · rintro ⟨name, c⟩ hstart
      cases around with
      | none => trivial
      | some cls => exact not_mem_of_start? (by decide +kernel) hstart
    · exact forall_orElse (forall_map fun _ _ => trivial) (forall_map fun _ _ => trivial)
  | shell =>
    refine forall_orElse ?_ (forall_orElse (forall_map ?_) (forall_map fun _ _ => trivial))
    · intro f h
      obtain ⟨c, -, h⟩ := Option.bind_eq_some_iff.mp h
      obtain ⟨name, -, rfl⟩ := Option.map_eq_some_iff.mp h
      trivial
    · rintro ⟨name, c⟩ -
      dsimp only
      split <;> trivial
  | powerShell =>
    refine forall_orElse (forall_map fun _ _ => trivial) ?_
    refine forall_orElse (forall_map fun _ _ => trivial) ?_
    refine forall_orElse readOnlyLine_dotless ?_
    refine forall_orElse (forall_map fun _ _ => trivial) ?_
    exact methodLine_dotless (by decide +kernel)
  | r =>
    refine forall_orElse (forall_map fun _ _ => trivial) ?_
    refine forall_orElse (forall_map fun _ _ => trivial) ?_
    exact forall_orElse (forall_map fun _ _ => trivial) (forall_map fun _ _ => trivial)

end Forms

theorem bareName_of_mem_symbolsOf {i : Nat} {lines : List SourceLine} {nested : Bool}
    {form : Option LineForm} {d : Symbol} (hform : ∀ f ∈ form, f.Dotless)
    (h : d ∈ symbolsOf language i lines nested form) : d.bareName = d.name := by
  apply Symbol.bareName_eq_name
  unfold symbolsOf at h
  split at h
  · obtain rfl := List.mem_singleton.mp h
    intro hnone
    cases hnone
  · next kind name parent opens =>
    obtain rfl := List.mem_singleton.mp h
    intro hsome
    obtain ⟨cls, rfl⟩ := Option.isSome_iff_exists.mp hsome
    exact hform _ rfl
  · obtain ⟨name, -, rfl⟩ := List.mem_map.mp h
    intro hnone
    cases hnone
  · cases h

theorem bareName_of_mem_declaredFrom {i : Nat} {seen : Seen} {lines : List SourceLine}
    {d : Symbol} (h : d ∈ declaredFrom language i seen lines) : d.bareName = d.name := by
  induction lines generalizing i seen with
  | nil => cases h
  | cons l rest ih =>
    rcases List.mem_append.mp h with h | h
    · exact bareName_of_mem_symbolsOf formOf_dotless h
    · exact ih h

theorem exists_declared_of_mem_symbols {s : Symbol} (h : s ∈ p.symbols q) :
    ∃ d ∈ p.declared, s.bareName = d.bareName ∧ s.startLine = d.startLine := by
  obtain ⟨d, hd, rfl⟩ := Query.exists_of_mem_list h
  refine ⟨d, hd, ?_, q.startLine_present d⟩
  rcases q.bareName_present d with h | h
  · exact h
  · rw [h, bareName_of_mem_declaredFrom hd]

end PlainSource
end SymbolHistory
