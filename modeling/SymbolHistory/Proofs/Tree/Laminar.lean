import SymbolHistory.Proofs.Tree.Walk

namespace SymbolHistory

structure ByteRange where
  startByte : Nat
  endByte : Nat
  deriving DecidableEq, Repr

namespace ByteRange

variable {a b c : ByteRange}

def Inside (a b : ByteRange) : Prop := b.startByte ≤ a.startByte ∧ a.endByte ≤ b.endByte

def Disjoint (a b : ByteRange) : Prop := a.endByte ≤ b.startByte ∨ b.endByte ≤ a.startByte

/-- The ranges are nested or disjoint. -/
def Laminar (a b : ByteRange) : Prop := a.Inside b ∨ b.Inside a ∨ a.Disjoint b

instance (a b : ByteRange) : Decidable (a.Inside b) := inferInstanceAs (Decidable (_ ∧ _))

theorem Inside.refl (a : ByteRange) : a.Inside a := ⟨Nat.le_refl _, Nat.le_refl _⟩

theorem Inside.trans (h : a.Inside b) (h' : b.Inside c) : a.Inside c :=
  ⟨Nat.le_trans h'.1 h.1, Nat.le_trans h.2 h'.2⟩

end ByteRange

namespace Node

def range (n : Node) : ByteRange := ⟨n.startByte, n.endByte⟩

/-- The children of a node lie inside its range, in order and without overlapping. -/
structure HoldsChildren (n : Node) : Prop where
  inside : ∀ c ∈ n.children, c.range.Inside n.range
  ordered : n.children.Pairwise (·.endByte ≤ ·.startByte)

instance (n : Node) : Decidable n.HoldsChildren :=
  decidable_of_iff ((∀ c ∈ n.children, c.range.Inside n.range) ∧
    n.children.Pairwise (·.endByte ≤ ·.startByte)) ⟨fun h => ⟨h.1, h.2⟩, fun h => ⟨h.1, h.2⟩⟩

/-- Every node of the tree holds its children. -/
def WellFormed (root : Node) : Prop := ∀ n ∈ root.subtree, n.HoldsChildren

instance (root : Node) : Decidable root.WellFormed :=
  inferInstanceAs (Decidable (∀ n ∈ root.subtree, n.HoldsChildren))

variable {root n c d : Node}

theorem HoldsChildren.same_or_apart (h : n.HoldsChildren) (hc : c ∈ n.children)
    (hd : d ∈ n.children) : c = d ∨ c.endByte ≤ d.startByte ∨ d.endByte ≤ c.startByte :=
  List.Pairwise.forall_of_forall_of_flip
    (R := fun c d : Node => c = d ∨ c.endByte ≤ d.startByte ∨ d.endByte ≤ c.startByte)
    (fun _ _ => Or.inl rfl) (h.ordered.imp fun h => Or.inr (Or.inl h))
    (h.ordered.imp fun h => Or.inr (Or.inr h)) hc hd

theorem WellFormed.of_mem_children (h : root.WellFormed) (hc : c ∈ root.children) :
    c.WellFormed :=
  fun n hn => h n (mem_subtree_trans hn (mem_subtree_of_mem_children hc))

theorem WellFormed.holdsChildren (h : root.WellFormed) : root.HoldsChildren :=
  h root root.self_mem_subtree

theorem WellFormed.inside (h : root.WellFormed) (hn : n ∈ root.subtree) :
    n.range.Inside root.range := by
  induction root using inductionOnChildren with
  | step root ih =>
    rcases mem_subtree.mp hn with rfl | ⟨c, hc, hn⟩
    · exact .refl _
    · exact (ih c hc (h.of_mem_children hc) hn).trans (h.holdsChildren.inside c hc)

/-- What is below an earlier sibling ends before anything below a later one. -/
theorem disjoint_of_siblings {a b : Node} (hc : c.WellFormed) (hd : d.WellFormed)
    (h : c.endByte ≤ d.startByte) (ha : a ∈ c.subtree) (hb : b ∈ d.subtree) :
    a.range.Disjoint b.range := by
  have h₁ : a.endByte ≤ c.endByte := (hc.inside ha).2
  have h₂ : d.startByte ≤ b.startByte := (hd.inside hb).1
  exact Or.inl (Nat.le_trans h₁ (Nat.le_trans h h₂))

/-- Two nodes of a well-formed tree are nested or disjoint. -/
theorem WellFormed.laminar (h : root.WellFormed) {a b : Node} (ha : a ∈ root.subtree)
    (hb : b ∈ root.subtree) : a.range.Laminar b.range := by
  induction root using inductionOnChildren generalizing a b with
  | step root ih =>
    rcases mem_subtree.mp ha with rfl | ⟨c, hc, hac⟩
    · exact Or.inr (Or.inl (h.inside hb))
    rcases mem_subtree.mp hb with rfl | ⟨d, hd, hbd⟩
    · exact Or.inl (h.inside ha)
    -- Below one child the induction applies; below two, their order decides.
    have hcwf := h.of_mem_children hc
    have hdwf := h.of_mem_children hd
    rcases h.holdsChildren.same_or_apart hc hd with rfl | hcd | hdc
    · exact ih c hc hcwf hac hbd
    · exact Or.inr (Or.inr (disjoint_of_siblings hcwf hdwf hcd hac hbd))
    · exact Or.inr (Or.inr (disjoint_of_siblings hdwf hcwf hdc hbd hac).symm)

end Node
end SymbolHistory
