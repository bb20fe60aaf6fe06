import SymbolHistory.Tree.Visit

namespace SymbolHistory

namespace Node

/-- What holds of a node whenever it holds of its children holds of every node. -/
@[elab_as_elim]
theorem inductionOnChildren {motive : Node → Prop}
    (step : ∀ n : Node, (∀ c ∈ n.children, motive c) → motive n) (n : Node) : motive n :=
  step n fun c _hc => inductionOnChildren step c
termination_by sizeOf n
decreasing_by
  have hlt := List.sizeOf_lt_of_mem _hc
  cases n
  simp only [mk.sizeOf_spec] at hlt ⊢
  omega

end Node

theorem subtrees_eq (l : List Node) : subtrees l = l.flatMap Node.subtree := by
  induction l with
  | nil => rfl
  | cons n l ih => rw [subtrees, ih, List.flatMap_cons]

theorem visitsOfNamed_eq (ancestors l : List Node) :
    visitsOfNamed ancestors l = (l.filter (·.isNamed)).flatMap (visitsUnder ancestors) := by
  induction l with
  | nil => rfl
  | cons n l ih =>
    rw [visitsOfNamed, ih]
    cases hn : n.isNamed <;> simp [hn]

theorem visitsUnder_eq (ancestors : List Node) (n : Node) :
    visitsUnder ancestors n =
      ⟨n, ancestors⟩ :: n.namedChildren.flatMap (visitsUnder (n :: ancestors)) := by
  cases n
  rw [visitsUnder, visitsOfNamed_eq]
  rfl

namespace Node

theorem subtree_eq (n : Node) : n.subtree = n :: n.children.flatMap subtree := by
  cases n
  rw [subtree, subtrees_eq]

theorem mem_subtree {n a : Node} : a ∈ n.subtree ↔ a = n ∨ ∃ c ∈ n.children, a ∈ c.subtree := by
  rw [subtree_eq, List.mem_cons, List.mem_flatMap]

theorem self_mem_subtree (n : Node) : n ∈ n.subtree := mem_subtree.mpr (Or.inl rfl)

theorem mem_subtree_of_mem_children {n c : Node} (h : c ∈ n.children) : c ∈ n.subtree :=
  mem_subtree.mpr (Or.inr ⟨c, h, self_mem_subtree c⟩)

theorem mem_subtree_trans {a b n : Node} (ha : a ∈ b.subtree) (hb : b ∈ n.subtree) :
    a ∈ n.subtree := by
  induction n using inductionOnChildren with
  | step n ih =>
    rcases mem_subtree.mp hb with rfl | ⟨c, hc, hb⟩
    · exact ha
    · exact mem_subtree.mpr (Or.inr ⟨c, hc, ih c hc hb⟩)

theorem mem_children_of_mem_namedChildren {n c : Node} (h : c ∈ n.namedChildren) :
    c ∈ n.children :=
  (List.mem_filter.mp h).1

end Node

/-- A visit stays in the tree walked and in what was already around it. -/
theorem mem_subtree_of_mem_visitsUnder {n : Node} {ancestors : List Node} {v : Visit}
    (h : v ∈ visitsUnder ancestors n) :
    v.node ∈ n.subtree ∧ ∀ a ∈ v.ancestors, a ∈ ancestors ∨ a ∈ n.subtree := by
  induction n using Node.inductionOnChildren generalizing ancestors with
  | step n ih =>
    rw [visitsUnder_eq, List.mem_cons, List.mem_flatMap] at h
    rcases h with rfl | ⟨c, hc, h⟩
    · exact ⟨n.self_mem_subtree, fun a ha => Or.inl ha⟩
    · have hc := Node.mem_children_of_mem_namedChildren hc
      obtain ⟨hnode, hancestors⟩ := ih c hc h
      have hbelow : c ∈ n.subtree := Node.mem_subtree_of_mem_children hc
      refine ⟨Node.mem_subtree_trans hnode hbelow, ?_⟩
      intro a ha
      rcases hancestors a ha with h | h
      · rcases List.mem_cons.mp h with rfl | h
        · exact Or.inr a.self_mem_subtree
        · exact Or.inl h
      · exact Or.inr (Node.mem_subtree_trans h hbelow)

namespace Node

variable {root : Node} {v : Visit}

theorem node_mem_subtree_of_mem_visits (h : v ∈ root.visits) : v.node ∈ root.subtree :=
  (mem_subtree_of_mem_visitsUnder h).1

theorem ancestor_mem_subtree_of_mem_visits (h : v ∈ root.visits) {a : Node}
    (ha : a ∈ v.ancestors) : a ∈ root.subtree :=
  ((mem_subtree_of_mem_visitsUnder h).2 a ha).resolve_left (List.not_mem_nil)

end Node
end SymbolHistory
