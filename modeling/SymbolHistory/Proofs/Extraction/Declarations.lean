import SymbolHistory.Rules.OfLanguage

namespace SymbolHistory.Rules

variable {source : Bytes} {v : Visit} {d : Declaration}

namespace JavaScript

theorem exists_of_mem_namedAs {kind : SymbolKind} {n : Node} (h : d ∈ namedAs source kind n) :
    ∃ name, n.fieldText? source "name" = some name ∧ d = ⟨name, kind, n, none, none⟩ := by
  obtain ⟨name, hname, rfl⟩ := Option.map_eq_some_iff.mp (Option.mem_toList.mp h)
  exact ⟨name, hname, rfl⟩

theorem exists_of_constantAt {span declarator : Node}
    (h : constantAt source span declarator = some d) :
    ∃ name kind, declarator.fieldText? source "name" = some name ∧
      d = ⟨name, kind, span, none, none⟩ ∧
      (kind = .function ∨ kind = .constant ∧ isNoiseName name = false) := by
  simp only [constantAt, Option.bind_eq_bind, Option.bind_eq_some_iff] at h
  obtain ⟨nameNode, hchild, h⟩ := h
  have hname : declarator.fieldText? source "name" = some (nameNode.text source) := by
    rw [Node.fieldText?, hchild]
    rfl
  split at h
  · cases h
  · split at h
    · cases h
      exact ⟨_, _, hname, rfl, Or.inl rfl⟩
    · split at h
      · cases h
      · next hnoise =>
        cases h
        exact ⟨_, _, hname, rfl, Or.inr ⟨rfl, Bool.eq_false_iff.mpr hnoise⟩⟩

/-- A constant covers its declarator, or the whole statement. -/
theorem exists_of_mem_constants (h : d ∈ constants source v) :
    ∃ declarator ∈ v.node.childrenOfKind "variable_declarator", ∃ span,
      (span = v.node ∨ span = declarator) ∧ constantAt source span declarator = some d := by
  simp only [constants] at h
  split at h
  · cases h
  · split at h
    · next declarator hone =>
      have hmem : declarator ∈ v.node.childrenOfKind "variable_declarator" := by simp [hone]
      exact ⟨declarator, hmem, v.node, Or.inl rfl, Option.mem_toList.mp h⟩
    · obtain ⟨declarator, hmem, hd⟩ := List.mem_filterMap.mp h
      exact ⟨declarator, hmem, declarator, Or.inr rfl, hd⟩

theorem exists_of_globalAt (h : globalAt source v = some d) :
    ∃ left property, v.node.child? "left" = some left ∧ isGlobalMember source left = true ∧
      left.child? "property" = some property ∧
      d = ⟨property.text source, .global,
        (v.parent?.filter (·.kind == "expression_statement")).getD v.node, none, none⟩ := by
  simp only [globalAt, Option.bind_eq_bind, Option.bind_eq_some_iff] at h
  obtain ⟨left, hleft, h⟩ := h
  split at h
  · cases h
  · next hglobal =>
    obtain ⟨property, hproperty, h⟩ := Option.bind_eq_some_iff.mp h
    cases h
    exact ⟨left, property, hleft, by simpa using hglobal, hproperty, rfl⟩

end JavaScript

/-- A module declares what an assignment in it assigns and what a global statement in it lists. -/
theorem Python.exists_of_mem_moduleDeclarations {module : Node}
    (h : d ∈ moduleDeclarations source module) :
    ∃ u ∈ module.visits, ∃ name kind span, d = ⟨name, kind, span, none, none⟩ ∧
      (assignmentAt source u = some (name, span) ∧
          (kind = .global ∨ kind = .constant ∧ isNoiseName name = false) ∨
        (name, span) ∈ globalsAt source u ∧ kind = .global) := by
  simp only [moduleDeclarations, List.mem_append] at h
  rcases h with h | h
  · obtain ⟨⟨name, span⟩, hmem, hd⟩ := List.mem_filterMap.mp h
    obtain ⟨u, hu, hassign⟩ := List.mem_filterMap.mp hmem
    dsimp only at hd
    split at hd
    · cases hd
      exact ⟨u, hu, _, _, _, rfl, Or.inl ⟨hassign, Or.inl rfl⟩⟩
    · split at hd
      · next hname =>
        simp only [Bool.and_eq_true, Bool.not_eq_true'] at hname
        cases hd
        exact ⟨u, hu, _, _, _, rfl, Or.inl ⟨hassign, Or.inr ⟨rfl, hname.2⟩⟩⟩
      · cases hd
  · obtain ⟨⟨name, statement⟩, hmem, rfl⟩ := List.mem_map.mp h
    have hlisted := mem_of_mem_distinctBy (List.mem_filter.mp hmem).1
    obtain ⟨u, hu, hlisted⟩ := List.mem_flatMap.mp hlisted
    exact ⟨u, hu, _, _, _, rfl, Or.inr ⟨hlisted, rfl⟩⟩

end SymbolHistory.Rules
