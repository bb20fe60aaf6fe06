import SymbolHistory.ParsedSource
import SymbolHistory.Proofs.Extraction.DeclarationSpan
import SymbolHistory.Proofs.Tree.Laminar

namespace SymbolHistory

namespace Symbol

def range (s : Symbol) : ByteRange := ⟨s.startByte, s.endByte⟩

theorem isInside_iff {s t : Symbol} :
    s.isInside t = true ↔ s.range ≠ t.range ∧ s.range.Inside t.range := by
  by_cases hstart : s.startByte = t.startByte <;>
    simp [isInside, range, ByteRange.Inside, hstart]

theorem dropRepeatsAfter_sublist (last : Symbol) (l : List Symbol) :
    (dropRepeatsAfter last l).Sublist l := by
  induction l generalizing last with
  | nil => exact List.Sublist.slnil
  | cons s l ih =>
    rw [dropRepeatsAfter]
    split
    · exact (ih last).cons s
    · exact (ih s).cons_cons s

theorem dropRepeats_sublist (l : List Symbol) : (dropRepeats l).Sublist l := by
  cases l with
  | nil => exact List.Sublist.slnil
  | cons s l => exact (dropRepeatsAfter_sublist s l).cons_cons s

/-- A symbol that may be dropped stays only if what encloses it covers the same bytes. -/
theorem range_eq_of_inside {l : List Symbol} {s t : Symbol} (hs : s ∈ dropNested l)
    (hkind : s.kind.outlivesNesting = false) (ht : t ∈ l) (hexport : t.kind ≠ .export)
    (h : s.range.Inside t.range) : s.range = t.range := by
  have hkept := (List.mem_filter.mp hs).2
  simp only [hkind, Bool.false_or, Bool.not_eq_true', List.any_eq_false] at hkept
  have hout : ¬s.isInside t = true := by simpa [hexport] using hkept t ht
  rw [isInside_iff] at hout
  by_cases he : s.range = t.range
  · exact he
  · exact absurd ⟨he, h⟩ hout

/-- Where two symbols that stay are nested or disjoint, they are equal or disjoint. -/
theorem eq_or_disjoint_of_mem_dropNested {l : List Symbol} {s t : Symbol}
    (hs : s ∈ dropNested l) (ht : t ∈ dropNested l) (hs' : s.kind.outlivesNesting = false)
    (ht' : t.kind.outlivesNesting = false) (h : s.range.Laminar t.range) :
    s.range = t.range ∨ s.range.Disjoint t.range := by
  have hne {u : Symbol} (hu : u.kind.outlivesNesting = false) : u.kind ≠ .export := by
    intro he
    rw [he] at hu
    cases hu
  -- Neither is an export, so each counts as enclosing the other.
  rcases h with h | h | h
  · exact Or.inl (range_eq_of_inside hs hs' (List.mem_filter.mp ht).1 (hne ht') h)
  · exact Or.inl (range_eq_of_inside ht ht' (List.mem_filter.mp hs).1 (hne hs') h).symm
  · exact Or.inr h

end Symbol

theorem Query.present_range_kind (q : Query) (s : Symbol) :
    (q.present s).range = s.range ∧ (q.present s).kind = s.kind := by
  unfold present
  split
  · split <;> exact ⟨rfl, rfl⟩
  · exact ⟨rfl, rfl⟩

namespace ParsedSource

variable {p : ParsedSource}

/-- Every declaration has the range of a node. -/
theorem exists_node_of_mem_declared {s : Symbol} (h : s ∈ p.declared) :
    ∃ n ∈ p.tree.subtree, s.range = n.range := by
  obtain ⟨v, hv, h⟩ := List.mem_flatMap.mp h
  obtain ⟨d, hd, rfl⟩ := List.mem_map.mp h
  refine ⟨d.span, ?_, rfl⟩
  rcases p.language.rules_covers p.source v d hd with h | h
  · exact Node.mem_subtree_trans h (Node.node_mem_subtree_of_mem_visits hv)
  · exact Node.ancestor_mem_subtree_of_mem_visits hv h

theorem declared_laminar (hp : p.tree.WellFormed) {a b : Symbol} (ha : a ∈ p.declared)
    (hb : b ∈ p.declared) : a.range.Laminar b.range := by
  obtain ⟨m, hm, ham⟩ := exists_node_of_mem_declared ha
  obtain ⟨n, hn, hbn⟩ := exists_node_of_mem_declared hb
  rw [ham, hbn]
  exact hp.laminar hm hn

/-- A listed symbol is one that stayed, perhaps renamed. -/
theorem exists_of_mem_symbols {q : Query} {s : Symbol} (h : s ∈ p.symbols q) :
    ∃ t ∈ Symbol.dropNested (Symbol.dropRepeats (Symbol.sort p.declared)),
      t ∈ p.declared ∧ s.range = t.range ∧ s.kind = t.kind := by
  obtain ⟨t, ht, rfl⟩ := List.mem_map.mp h
  have ht := (List.mem_filter.mp ht).1
  have hsort := (Symbol.dropRepeats_sublist _).mem (List.mem_filter.mp ht).1
  exact ⟨t, ht, List.mem_mergeSort.mp hsort, q.present_range_kind t⟩

/-- In a well-formed tree, listed symbols other than methods, exports and globals cover the same
bytes or share none, and any two declarations are nested or disjoint. -/
theorem symbols_eq_or_disjoint (p : ParsedSource) (hp : p.tree.WellFormed) (q : Query) :
    (∀ a ∈ p.symbols q, ∀ b ∈ p.symbols q,
      a.kind ∉ [SymbolKind.method, .export, .global] →
      b.kind ∉ [SymbolKind.method, .export, .global] →
      a.range = b.range ∨ a.range.Disjoint b.range) ∧
    ∀ a ∈ p.declared, ∀ b ∈ p.declared,
      a.range.Inside b.range ∨ b.range.Inside a.range ∨ a.range.Disjoint b.range := by
  have hkind {k : SymbolKind} (h : k ∉ [SymbolKind.method, .export, .global]) :
      k.outlivesNesting = false := by
    cases k <;> simp_all [SymbolKind.outlivesNesting]
  refine ⟨?_, fun a ha b hb => declared_laminar hp ha hb⟩
  intro a ha b hb hka hkb
  obtain ⟨s, hs, hsd, har, hak⟩ := exists_of_mem_symbols ha
  obtain ⟨t, ht, htd, hbr, hbk⟩ := exists_of_mem_symbols hb
  rw [har, hbr]
  exact Symbol.eq_or_disjoint_of_mem_dropNested hs ht (hkind (hak ▸ hka)) (hkind (hbk ▸ hkb))
    (declared_laminar hp hsd htd)

def nestedFunctions : ParsedSource where
  tree :=
    let node (id : Nat) (kind field : String) (start stop : Nat) (children : List Node) : Node :=
      ⟨id, kind, field, start, stop, true, false, false, false, children⟩
    node 0 "program" "" 0 15 [node 1 "function_definition" "" 0 15 [
      node 2 "word" "name" 0 1 [], node 3 "compound_statement" "body" 3 15 [
        node 4 "function_definition" "" 5 13 [node 5 "word" "name" 5 6 []]]]]
  source := Text.encode "f(){ g(){ :;};}"
  path := "nested.sh"
  language := .shell
  grammar := .bash
  recovered := false

theorem nestedFunctions_eq_or_disjoint :
    nestedFunctions.tree.WellFormed ∧
      nestedFunctions.declared.map (·.range) = [⟨0, 15⟩, ⟨5, 13⟩] ∧
      ∀ a ∈ nestedFunctions.symbols .everything, ∀ b ∈ nestedFunctions.symbols .everything,
        a.kind ∉ [SymbolKind.method, .export, .global] →
        b.kind ∉ [SymbolKind.method, .export, .global] →
        a.range = b.range ∨ a.range.Disjoint b.range := by
  have hwf : nestedFunctions.tree.WellFormed := by decide
  exact ⟨hwf, by decide +kernel, (symbols_eq_or_disjoint nestedFunctions hwf .everything).1⟩

end ParsedSource
end SymbolHistory
