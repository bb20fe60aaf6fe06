import SymbolHistory.Proofs.Extraction.BareName

namespace SymbolHistory

/-- A language can declare a symbol of this kind and name, in this class and with this base. -/
inductive Language.Declares (l : Language) :
    SymbolKind → String → Option String → Option String → Prop
  | «class» (name : String) (base : Option String) : Declares l .class name none base
  | function (name : String) : Declares l .function name none none
  | method (name : String) (parent : Option String) : Declares l .method name parent none
  | constant {name : String} (h : isNoiseName name = false) : Declares l .constant name none none
  | global (name : String) : Declares l .global name none none
  | «export» (name : String) (h : l.family = .javaScript) : Declares l .export name none none
  | interface (name : String) (h : l.family = .javaScript) : Declares l .interface name none none

namespace Rules

variable {l : Language}

def Respect (rules : Rules) (l : Language) : Prop :=
  ∀ source v, ∀ d ∈ rules.declarations source v, l.Declares d.kind d.name d.parent d.base

namespace JavaScript

theorem declares_of_mem_constants {source : Bytes} {v : Visit} {d : Declaration}
    (h : d ∈ constants source v) : l.Declares d.kind d.name d.parent d.base := by
  obtain ⟨declarator, -, span, -, hd⟩ := exists_of_mem_constants h
  obtain ⟨name, kind, -, rfl, hkind⟩ := exists_of_constantAt hd
  rcases hkind with rfl | ⟨rfl, hnoise⟩
  · exact .function _
  · exact .constant hnoise

theorem declares_of_globalAt {source : Bytes} {v : Visit} {d : Declaration}
    (h : globalAt source v = some d) : l.Declares d.kind d.name d.parent d.base := by
  obtain ⟨left, property, -, -, -, rfl⟩ := exists_of_globalAt h
  exact .global _

theorem respect (hl : l.family = .javaScript) : javaScript.Respect l := by
  intro source v d h
  change d ∈ declarations source v at h
  simp only [declarations] at h
  split at h
  · obtain ⟨e, he, rfl⟩ := List.mem_map.mp h
    obtain ⟨name, -, rfl⟩ := exists_of_mem_namedAs he
    exact .class _ _
  · obtain ⟨e, he, rfl⟩ := List.mem_map.mp h
    obtain ⟨name, -, rfl⟩ := exists_of_mem_namedAs he
    exact .class _ _
  · obtain ⟨name, -, rfl⟩ := exists_of_mem_namedAs h
    exact .function _
  · obtain ⟨name, -, rfl⟩ := exists_of_mem_namedAs h
    exact .function _
  · obtain ⟨e, he, rfl⟩ := List.mem_map.mp h
    obtain ⟨name, -, rfl⟩ := exists_of_mem_namedAs he
    exact .method _ _
  · exact declares_of_mem_constants h
  · exact declares_of_globalAt (Option.mem_toList.mp h)
  · obtain ⟨name, -, rfl⟩ := List.mem_map.mp h
    exact .export _ hl
  · obtain ⟨name, -, rfl⟩ := exists_of_mem_namedAs h
    exact .interface _ hl
  · simp at h

end JavaScript

namespace Python

theorem declares_of_mem_moduleDeclarations {source : Bytes} {module : Node} {d : Declaration}
    (h : d ∈ moduleDeclarations source module) : l.Declares d.kind d.name d.parent d.base := by
  obtain ⟨u, -, name, kind, span, rfl, hfound⟩ := exists_of_mem_moduleDeclarations h
  rcases hfound with ⟨-, rfl | ⟨rfl, hnoise⟩⟩ | ⟨-, rfl⟩
  · exact .global _
  · exact .constant hnoise
  · exact .global _

theorem respect : python.Respect l := by
  intro source v d h
  change d ∈ declarations source v at h
  simp only [declarations] at h
  split at h
  · obtain ⟨name, -, rfl⟩ := Option.map_eq_some_iff.mp (Option.mem_toList.mp h)
    exact .class _ _
  · obtain ⟨name, -, rfl⟩ := Option.map_eq_some_iff.mp (Option.mem_toList.mp h)
    split
    · exact .method _ _
    · exact .function _
  · exact declares_of_mem_moduleDeclarations h
  · simp at h

end Python

namespace Shell

theorem constant_or_global_of_declaredKind? {source : Bytes} {n : Node} {kind : SymbolKind}
    (h : declaredKind? source n = some kind) : kind = .constant ∨ kind = .global := by
  simp only [declaredKind?, Option.bind_eq_bind, Option.bind_eq_some_iff] at h
  obtain ⟨keyword, -, h⟩ := h
  split at h
  · cases h
    exact Or.inl rfl
  · cases h
    exact Or.inr rfl
  · split at h
    · cases h
      exact Or.inl rfl
    · split at h <;> cases h
      exact Or.inr rfl
  · split at h
    · cases h
      exact Or.inl rfl
    · split at h <;> cases h
      exact Or.inr rfl
  · cases h

theorem respect : shell.Respect l := by
  intro source v d h
  change d ∈ declarations source v at h
  simp only [declarations] at h
  split at h
  · obtain ⟨name, -, rfl⟩ := Option.map_eq_some_iff.mp (Option.mem_toList.mp h)
    exact .function _
  · split at h
    · next kind hkind =>
      split at h
      · simp at h
      · obtain ⟨name, hname, rfl⟩ := List.mem_map.mp h
        rcases constant_or_global_of_declaredKind? hkind with rfl | rfl
        · -- The names left after the filter are those that are no noise.
          have hnoise := (List.mem_filter.mp hname).2
          exact .constant (by simpa using hnoise)
        · exact .global _
    · simp at h
  · simp at h

end Shell

theorem PowerShell.respect : powerShell.Respect l := by
  intro source v d h
  change d ∈ PowerShell.declarations source v at h
  simp only [PowerShell.declarations] at h
  split at h
  · obtain ⟨name, -, rfl⟩ := Option.map_eq_some_iff.mp (Option.mem_toList.mp h)
    exact .function _
  · obtain ⟨name, -, rfl⟩ := Option.map_eq_some_iff.mp (Option.mem_toList.mp h)
    exact .class _ _
  · obtain ⟨name, -, rfl⟩ := Option.map_eq_some_iff.mp (Option.mem_toList.mp h)
    exact .method _ _
  · obtain ⟨name, -, rfl⟩ := Option.map_eq_some_iff.mp (Option.mem_toList.mp h)
    exact .method _ _
  · split at h
    · simp at h
    · obtain ⟨name, hname, rfl⟩ := Option.map_eq_some_iff.mp (Option.mem_toList.mp h)
      have hnoise := (Option.filter_eq_some_iff.mp hname).2
      exact .constant (by simpa using hnoise)
  · split at h
    · split at h
      · obtain rfl := List.mem_singleton.mp h
        exact .global _
      · simp at h
    · simp at h
  · simp at h

theorem R.respect : r.Respect l := by
  intro source v d h
  change d ∈ R.declarations source v at h
  simp only [R.declarations] at h
  split at h
  · split at h
    · split at h
      · simp at h
      · split at h
        · obtain rfl := List.mem_singleton.mp h
          exact .function _
        · split at h
          · obtain rfl := List.mem_singleton.mp h
            exact .global _
          · split at h
            · next hname =>
              -- Of the three tests on a constant the second is the one for noise.
              obtain rfl := List.mem_singleton.mp h
              simp only [Bool.and_eq_true, Bool.not_eq_true'] at hname
              exact .constant hname.1.2
            · simp at h
    · simp at h
  · obtain ⟨name, -, rfl⟩ := Option.map_eq_some_iff.mp (Option.mem_toList.mp h)
    exact .global _
  · simp at h

end Rules

/-- Every language's rules find what it can declare. -/
theorem Language.rules_respect (l : Language) : l.rules.Respect l := by
  cases l with
  | javaScript => exact Rules.JavaScript.respect rfl
  | typeScript => exact Rules.JavaScript.respect rfl
  | python => exact Rules.Python.respect
  | shell => exact Rules.Shell.respect
  | powerShell => exact Rules.PowerShell.respect
  | r => exact Rules.R.respect

/-- A symbol that the language can declare. -/
def Symbol.DeclarableIn (s : Symbol) (l : Language) : Prop :=
  l.Declares s.kind s.name s.parent s.base

theorem ParsedSource.declarableIn_of_mem_declared {p : ParsedSource} {s : Symbol}
    (h : s ∈ p.declared) : s.DeclarableIn p.language := by
  obtain ⟨v, -, h⟩ := List.mem_flatMap.mp h
  obtain ⟨d, hd, rfl⟩ := List.mem_map.mp h
  exact p.language.rules_respect p.source v d hd

namespace PlainSource

variable {language : Language} {line : List Char} {around : Option String}

def LineForm.Respects (l : Language) : LineForm → Prop
  | .class _ _ => True
  | .routine kind name parent _ => l.Declares kind name parent none
  | .names kind listed => ∀ name ∈ listed, l.Declares kind name none none

theorem constantLine_respects (name : String) : (constantLine name).Respects language := by
  intro n hn
  split at hn
  · cases hn
  · next hnoise =>
    obtain rfl := List.mem_singleton.mp hn
    exact .constant (Bool.eq_false_iff.mpr hnoise)

theorem noConstants_respects : (LineForm.names .constant []).Respects language := by
  intro n hn
  cases hn

theorem globals_respects (names : List String) : (LineForm.names .global names).Respects language :=
  fun _ _ => .global _

theorem methodLine_respects {form : Pattern} {isControl : String → Bool} :
    ∀ f ∈ methodLine form isControl around line, f.Respects language := by
  intro f h
  obtain ⟨cls, -, h⟩ := Option.bind_eq_some_iff.mp h
  obtain ⟨⟨name, c⟩, -, h⟩ := Option.bind_eq_some_iff.mp h
  dsimp only at h
  split at h
  · cases h
  · cases h
    exact .method _ _

theorem readOnlyLine_respects {nested : Bool} :
    ∀ f ∈ readOnlyLine nested line, f.Respects language := by
  intro f h
  unfold readOnlyLine at h
  split at h
  · split at h <;> cases h
    · split
      · exact noConstants_respects
      · exact constantLine_respects _
    · exact noConstants_respects
  · cases h

theorem formOf_respects {nested : Bool} :
    ∀ f ∈ formOf language nested around line, f.Respects language := by
  cases language with
  | javaScript | typeScript =>
    refine forall_orElse (forall_map fun _ _ => trivial) ?_
    refine forall_orElse (forall_map fun _ _ => .function _) ?_
    refine forall_orElse (forall_map fun _ _ => .function _) ?_
    refine forall_orElse (forall_map fun _ _ => constantLine_respects _) ?_
    refine forall_orElse (forall_map fun _ _ => globals_respects _) ?_
    exact methodLine_respects
  | python =>
    refine forall_orElse (forall_map fun _ _ => trivial) (forall_orElse (forall_map ?_) ?_)
    · -- A definition is a method exactly where there is a class around it.
      rintro ⟨name, c⟩ -
      cases around with
      | none => exact .function _
      | some cls => exact .method _ _
    · exact forall_orElse (forall_map fun _ _ => constantLine_respects _)
        (forall_map fun _ _ => globals_respects _)
  | shell =>
    refine forall_orElse ?_
      (forall_orElse (forall_map ?_) (forall_map fun _ _ => globals_respects _))
    · intro f h
      obtain ⟨c, -, h⟩ := Option.bind_eq_some_iff.mp h
      obtain ⟨name, -, rfl⟩ := Option.map_eq_some_iff.mp h
      exact .function _
    · rintro ⟨name, c⟩ -
      dsimp only
      split
      · exact noConstants_respects
      · exact constantLine_respects _
  | powerShell =>
    refine forall_orElse (forall_map fun _ _ => trivial) ?_
    refine forall_orElse (forall_map fun _ _ => .function _) ?_
    refine forall_orElse readOnlyLine_respects ?_
    refine forall_orElse (forall_map fun _ _ => globals_respects _) ?_
    exact methodLine_respects
  | r =>
    refine forall_orElse (forall_map fun _ _ => .function _) ?_
    refine forall_orElse (forall_map fun _ _ => globals_respects _) ?_
    refine forall_orElse (forall_map fun _ _ => globals_respects _) ?_
    exact forall_map fun _ _ => constantLine_respects _

theorem declarableIn_of_mem_symbolsOf {i : Nat} {lines : List SourceLine} {nested : Bool}
    {form : Option LineForm} {s : Symbol} (hform : ∀ f ∈ form, f.Respects language)
    (h : s ∈ symbolsOf language i lines nested form) : s.DeclarableIn language := by
  unfold symbolsOf at h
  split at h
  · obtain rfl := List.mem_singleton.mp h
    exact .class _ _
  · obtain rfl := List.mem_singleton.mp h
    exact hform _ rfl
  · obtain ⟨name, hname, rfl⟩ := List.mem_map.mp h
    exact hform _ rfl name hname
  · cases h

theorem declarableIn_of_mem_declaredFrom {i : Nat} {seen : Seen} {lines : List SourceLine}
    {s : Symbol} (h : s ∈ declaredFrom language i seen lines) : s.DeclarableIn language := by
  induction lines generalizing i seen with
  | nil => cases h
  | cons l rest ih =>
    rcases List.mem_append.mp h with h | h
    · exact declarableIn_of_mem_symbolsOf formOf_respects h
    · exact ih h

end PlainSource
end SymbolHistory
