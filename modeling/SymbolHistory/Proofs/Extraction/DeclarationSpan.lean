import SymbolHistory.Proofs.Extraction.Declarations
import SymbolHistory.Proofs.Tree.Walk

namespace SymbolHistory

/-- A node that is below the visited one or around it. -/
def Visit.Sees (v : Visit) (n : Node) : Prop := n ∈ v.node.subtree ∨ n ∈ v.ancestors

namespace Visit

theorem sees_node (v : Visit) : v.Sees v.node := Or.inl v.node.self_mem_subtree

theorem sees_of_mem_namedChildren {v : Visit} {n : Node} (h : n ∈ v.node.namedChildren) :
    v.Sees n :=
  Or.inl (Node.mem_subtree_of_mem_children (Node.mem_children_of_mem_namedChildren h))

theorem sees_wrapper (v : Visit) (isWrapper : Node → Bool) :
    v.Sees ((v.parent?.filter isWrapper).getD v.node) := by
  cases h : v.parent?.filter isWrapper with
  | none => exact v.sees_node
  | some p =>
    have hp : v.parent? = some p := (Option.filter_eq_some_iff.mp h).1
    exact Or.inr (List.mem_of_head? hp)

end Visit

namespace Rules

/-- Declarations cover nodes that their visit sees. -/
def Covers (rules : Rules) : Prop :=
  ∀ source v, ∀ d ∈ rules.declarations source v, v.Sees d.span

namespace JavaScript

theorem sees_of_mem_constants {source : Bytes} {v : Visit} {d : Declaration}
    (h : d ∈ constants source v) : v.Sees d.span := by
  obtain ⟨declarator, hmem, span, hspan, hd⟩ := exists_of_mem_constants h
  obtain ⟨name, kind, -, rfl, -⟩ := exists_of_constantAt hd
  rcases hspan with rfl | rfl
  · exact v.sees_node
  · exact Visit.sees_of_mem_namedChildren (List.mem_filter.mp hmem).1

theorem sees_of_globalAt {source : Bytes} {v : Visit} {d : Declaration}
    (h : globalAt source v = some d) : v.Sees d.span := by
  obtain ⟨left, property, -, -, -, rfl⟩ := exists_of_globalAt h
  exact v.sees_wrapper _

theorem covers : javaScript.Covers := by
  intro source v d h
  have hnamed {kind : SymbolKind} {e : Declaration} (he : e ∈ namedAs source kind v.node) :
      v.Sees e.span := by
    obtain ⟨name, -, rfl⟩ := exists_of_mem_namedAs he
    exact v.sees_node
  change d ∈ declarations source v at h
  simp only [declarations] at h
  split at h
  · obtain ⟨e, he, rfl⟩ := List.mem_map.mp h
    exact (hnamed he : v.Sees e.span)
  · obtain ⟨e, he, rfl⟩ := List.mem_map.mp h
    exact (hnamed he : v.Sees e.span)
  · exact hnamed h
  · exact hnamed h
  · obtain ⟨e, he, rfl⟩ := List.mem_map.mp h
    exact (hnamed he : v.Sees e.span)
  · exact sees_of_mem_constants h
  · exact sees_of_globalAt (Option.mem_toList.mp h)
  · obtain ⟨name, -, rfl⟩ := List.mem_map.mp h
    exact v.sees_node
  · exact hnamed h
  · simp at h

end JavaScript

namespace Python

theorem sees_of_mem_globalsAt {source : Bytes} {v : Visit} {g : String × Node}
    (h : g ∈ globalsAt source v) : v.Sees g.2 := by
  unfold globalsAt at h
  split at h
  · obtain ⟨i, -, rfl⟩ := List.mem_map.mp h
    exact v.sees_node
  · simp at h

theorem sees_of_assignmentAt {source : Bytes} {v : Visit} {g : String × Node}
    (h : assignmentAt source v = some g) : v.Sees g.2 := by
  unfold assignmentAt at h
  split at h
  · obtain ⟨left, -, rfl⟩ := Option.map_eq_some_iff.mp h
    exact v.sees_wrapper _
  · cases h

theorem mem_subtree_of_sees {module n : Node} {v : Visit} (hv : v ∈ module.visits)
    (h : v.Sees n) : n ∈ module.subtree := by
  rcases h with h | h
  · exact Node.mem_subtree_trans h (Node.node_mem_subtree_of_mem_visits hv)
  · exact Node.ancestor_mem_subtree_of_mem_visits hv h

theorem span_of_mem_moduleDeclarations {source : Bytes} {module : Node} {d : Declaration}
    (h : d ∈ moduleDeclarations source module) : d.span ∈ module.subtree := by
  obtain ⟨u, hu, name, kind, span, rfl, hfound⟩ := exists_of_mem_moduleDeclarations h
  rcases hfound with ⟨hassign, -⟩ | ⟨hlisted, -⟩
  · exact mem_subtree_of_sees hu (sees_of_assignmentAt hassign)
  · exact mem_subtree_of_sees hu (sees_of_mem_globalsAt hlisted)

theorem covers : python.Covers := by
  intro source v d h
  change d ∈ declarations source v at h
  simp only [declarations] at h
  split at h
  · obtain ⟨name, -, rfl⟩ := Option.map_eq_some_iff.mp (Option.mem_toList.mp h)
    exact v.sees_wrapper _
  · obtain ⟨name, -, rfl⟩ := Option.map_eq_some_iff.mp (Option.mem_toList.mp h)
    split <;> exact v.sees_wrapper _
  · -- A module walks its own tree once more, so all it finds is below it.
    exact Or.inl (span_of_mem_moduleDeclarations h)
  · simp at h

end Python

theorem Shell.covers : shell.Covers := by
  intro source v d h
  change d ∈ Shell.declarations source v at h
  simp only [Shell.declarations] at h
  split at h
  · obtain ⟨name, -, rfl⟩ := Option.map_eq_some_iff.mp (Option.mem_toList.mp h)
    exact v.sees_node
  · split at h
    · split at h
      · simp at h
      · obtain ⟨name, -, rfl⟩ := List.mem_map.mp h
        exact v.sees_node
    · simp at h
  · simp at h

theorem PowerShell.covers : powerShell.Covers := by
  intro source v d h
  change d ∈ PowerShell.declarations source v at h
  simp only [PowerShell.declarations] at h
  split at h
  · obtain ⟨name, -, rfl⟩ := Option.map_eq_some_iff.mp (Option.mem_toList.mp h)
    exact v.sees_node
  · obtain ⟨name, -, rfl⟩ := Option.map_eq_some_iff.mp (Option.mem_toList.mp h)
    exact v.sees_node
  · obtain ⟨name, -, rfl⟩ := Option.map_eq_some_iff.mp (Option.mem_toList.mp h)
    exact v.sees_node
  · obtain ⟨name, -, rfl⟩ := Option.map_eq_some_iff.mp (Option.mem_toList.mp h)
    exact v.sees_node
  · split at h
    · simp at h
    · obtain ⟨name, -, rfl⟩ := Option.map_eq_some_iff.mp (Option.mem_toList.mp h)
      exact v.sees_node
  · split at h
    · split at h
      · obtain rfl := List.mem_singleton.mp h
        exact v.sees_node
      · simp at h
    · simp at h
  · simp at h

theorem R.covers : r.Covers := by
  intro source v d h
  change d ∈ R.declarations source v at h
  simp only [R.declarations] at h
  split at h
  · split at h
    · split at h
      · simp at h
      · split at h
        · obtain rfl := List.mem_singleton.mp h
          exact v.sees_node
        · split at h
          · obtain rfl := List.mem_singleton.mp h
            exact v.sees_node
          · split at h
            · obtain rfl := List.mem_singleton.mp h
              exact v.sees_node
            · simp at h
    · simp at h
  · obtain ⟨name, -, rfl⟩ := Option.map_eq_some_iff.mp (Option.mem_toList.mp h)
    exact v.sees_node
  · simp at h

end Rules

/-- Every language covers nodes that the visit sees. -/
theorem Language.rules_covers (l : Language) : l.rules.Covers := by
  cases l with
  | javaScript => exact Rules.JavaScript.covers
  | typeScript => exact Rules.JavaScript.covers
  | python => exact Rules.Python.covers
  | shell => exact Rules.Shell.covers
  | powerShell => exact Rules.PowerShell.covers
  | r => exact Rules.R.covers

end SymbolHistory
