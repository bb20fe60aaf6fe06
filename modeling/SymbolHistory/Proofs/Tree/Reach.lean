import SymbolHistory.Proofs.Tree.Walk

namespace SymbolHistory

def Visit.down (v : Visit) (c : Node) : Visit := ⟨c, v.node :: v.ancestors⟩

/-- Reached from a visit through named children. -/
inductive Visit.Reaches (start : Visit) : Visit → Prop
  | refl : start.Reaches start
  | down {v : Visit} {c : Node} (h : start.Reaches v) (hc : c ∈ v.node.namedChildren) :
    start.Reaches (v.down c)

def Node.Reaches (root : Node) (v : Visit) : Prop := Visit.Reaches ⟨root, []⟩ v

namespace Visit

variable {start v w : Visit} {c : Node}

theorem Reaches.trans (hv : start.Reaches v) (hw : v.Reaches w) : start.Reaches w := by
  induction hw with
  | refl => exact hv
  | down _ hc ih => exact ih.down hc

theorem reaches_down (hc : c ∈ start.node.namedChildren) : start.Reaches (start.down c) :=
  Reaches.refl.down hc

end Visit

theorem mem_visitsUnder_self (ancestors : List Node) (n : Node) :
    ⟨n, ancestors⟩ ∈ visitsUnder ancestors n := by
  rw [visitsUnder_eq]
  exact List.mem_cons_self

theorem down_mem_visitsUnder {n : Node} {ancestors : List Node} {v : Visit} {c : Node}
    (hv : v ∈ visitsUnder ancestors n) (hc : c ∈ v.node.namedChildren) :
    v.down c ∈ visitsUnder ancestors n := by
  induction n using Node.inductionOnChildren generalizing ancestors with
  | step n ih =>
    rw [visitsUnder_eq, List.mem_cons, List.mem_flatMap] at hv ⊢
    rcases hv with rfl | ⟨d, hd, hv⟩
    · exact Or.inr ⟨c, hc, mem_visitsUnder_self _ c⟩
    · exact Or.inr ⟨d, hd, ih d (Node.mem_children_of_mem_namedChildren hd) hv⟩

theorem mem_visitsUnder {n : Node} {ancestors : List Node} {v : Visit} :
    v ∈ visitsUnder ancestors n ↔ Visit.Reaches ⟨n, ancestors⟩ v := by
  constructor
  · intro h
    induction n using Node.inductionOnChildren generalizing ancestors with
    | step n ih =>
      rw [visitsUnder_eq, List.mem_cons, List.mem_flatMap] at h
      rcases h with rfl | ⟨c, hc, h⟩
      · exact .refl
      · have hstep : Visit.Reaches ⟨n, ancestors⟩ ⟨c, n :: ancestors⟩ := Visit.reaches_down hc
        exact hstep.trans (ih c (Node.mem_children_of_mem_namedChildren hc) h)
  · intro h
    induction h with
    | refl => exact mem_visitsUnder_self ancestors n
    | down _ hc ih => exact down_mem_visitsUnder ih hc

namespace Node

variable {root : Node} {v : Visit}

theorem mem_visits : v ∈ root.visits ↔ root.Reaches v := mem_visitsUnder

/-- A visit below the root was reached through its parent. -/
theorem Reaches.parent {a : Node} (h : root.Reaches v) (ha : v.parent? = some a) :
    a ∈ root.subtree ∧ v.node ∈ a.children := by
  cases h with
  | refl => cases ha
  | down hu hc =>
    cases ha
    exact ⟨node_mem_subtree_of_mem_visits (mem_visits.mpr hu), mem_children_of_mem_namedChildren hc⟩

/-- A walk of its own from a node visits what a walk that comes to the node does. -/
theorem Reaches.within {ancestors : List Node} (h : root.Reaches v) :
    Visit.Reaches ⟨root, ancestors⟩ ⟨v.node, v.ancestors ++ ancestors⟩ := by
  induction h with
  | refl => exact .refl
  | down _ hc ih => exact ih.down hc

end Node

theorem Visit.isWithin_append {n : Node} {inner outer : List Node} {kinds : List String} :
    (⟨n, inner ++ outer⟩ : Visit).isWithin kinds =
      ((⟨n, inner⟩ : Visit).isWithin kinds || (⟨n, outer⟩ : Visit).isWithin kinds) := by
  simp [isWithin, nearest?, List.find?_append, Option.isSome_or]

end SymbolHistory
