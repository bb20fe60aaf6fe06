import Mathlib.Data.List.Nodup
import SymbolHistory.Proofs.Tree.Walk
import SymbolHistory.Tree.Capture

namespace SymbolHistory

namespace CapturePath

def holderFrom : String → List CaptureStep → String
  | kind, [] | kind, [_] => kind
  | _, s :: t :: rest => holderFrom s.kind (t :: rest)

/-- The kind of the node that holds a captured one. -/
def holder (path : CapturePath) : String := holderFrom path.root path.steps

theorem exists_holder_of_mem_follow {s : CaptureStep} {rest : List CaptureStep} {n c : Node}
    (h : c ∈ follow (s :: rest) n) :
    ∃ a ∈ n.subtree, c ∈ a.children ∧ a.kind = holderFrom n.kind (s :: rest) := by
  induction rest generalizing s n with
  | nil =>
    obtain ⟨m, hm, hc⟩ := List.mem_flatMap.mp h
    obtain rfl := List.mem_singleton.mp hc
    have hchild := Node.mem_children_of_mem_namedChildren (List.mem_filter.mp hm).1
    exact ⟨n, n.self_mem_subtree, hchild, rfl⟩
  | cons t rest ih =>
    obtain ⟨m, hm, hc⟩ := List.mem_flatMap.mp h
    obtain ⟨hm, hkind⟩ := List.mem_filter.mp hm
    have hkind : m.kind = s.kind := by
      simp only [Bool.and_eq_true, beq_iff_eq] at hkind
      exact hkind.1
    have hchild := Node.mem_children_of_mem_namedChildren hm
    obtain ⟨a, ha, hca, hholder⟩ := ih hc
    refine ⟨a, Node.mem_subtree_trans ha (Node.mem_subtree_of_mem_children hchild), hca, ?_⟩
    rw [hholder, hkind]
    rfl

/-- A captured node is held by a node of the last kind but one on the path. -/
theorem exists_holder_of_mem_captures {path : CapturePath} {root : Node} {id : Nat}
    (hsteps : path.steps ≠ []) (h : id ∈ path.captures root) :
    ∃ a ∈ root.subtree, ∃ c ∈ a.children, c.id = id ∧ a.kind = path.holder := by
  obtain ⟨c, hc, rfl⟩ := List.mem_map.mp h
  obtain ⟨n, hn, hc⟩ := List.mem_flatMap.mp hc
  obtain ⟨hn, hkind⟩ := List.mem_filter.mp hn
  obtain ⟨s, rest, hsteps⟩ := List.exists_cons_of_ne_nil hsteps
  rw [hsteps] at hc
  obtain ⟨a, ha, hca, hholder⟩ := exists_holder_of_mem_follow hc
  refine ⟨a, Node.mem_subtree_trans ha hn, c, hca, rfl, ?_⟩
  rw [hholder, holder, hsteps, beq_iff_eq.mp hkind]

end CapturePath

namespace Node

variable {root a b c d : Node}

/-- No two nodes of the tree share an id. -/
def DistinctIds (root : Node) : Prop := (root.subtree.map (·.id)).Nodup

instance (root : Node) : Decidable root.DistinctIds :=
  inferInstanceAs (Decidable (root.subtree.map (·.id)).Nodup)

namespace DistinctIds

theorem nodup_children (h : root.DistinctIds) :
    root.id ∉ root.children.flatMap (fun c => c.subtree.map (·.id)) ∧
      (root.children.flatMap fun c => c.subtree.map (·.id)).Nodup := by
  rw [DistinctIds, subtree_eq, List.map_cons, List.map_flatMap] at h
  exact List.nodup_cons.mp h

theorem of_mem_children (h : root.DistinctIds) (hc : c ∈ root.children) : c.DistinctIds :=
  (List.nodup_flatMap.mp h.nodup_children.2).1 c hc

theorem id_ne (h : root.DistinctIds) (ha : a ∈ root.subtree) (hd : d ∈ a.children) :
    d.id ≠ root.id := by
  intro hid
  have hbelow : ∃ c ∈ root.children, d ∈ c.subtree := by
    rcases mem_subtree.mp ha with rfl | ⟨c, hc, ha⟩
    · exact ⟨d, hd, d.self_mem_subtree⟩
    · exact ⟨c, hc, mem_subtree_trans (mem_subtree_of_mem_children hd) ha⟩
  obtain ⟨c, hc, hdc⟩ := hbelow
  exact h.nodup_children.1 (List.mem_flatMap.mpr ⟨c, hc, List.mem_map.mpr ⟨d, hdc, hid⟩⟩)

/-- An id stands below one child only. -/
theorem child_eq (h : root.DistinctIds) (hc : c ∈ root.children) (hd : d ∈ root.children)
    (ha : a ∈ c.subtree) (hb : b ∈ d.subtree) (hid : a.id = b.id) : c = d := by
  have happart : root.children.Pairwise fun c d =>
      ∀ a ∈ c.subtree, ∀ b ∈ d.subtree, a.id ≠ b.id := by
    refine (List.nodup_flatMap.mp h.nodup_children.2).2.imp ?_
    intro c d hdisjoint a ha b hb hid
    exact hdisjoint (List.mem_map_of_mem ha) (List.mem_map.mpr ⟨b, hb, hid.symm⟩)
  refine List.Pairwise.forall_of_forall_of_flip
    (R := fun c d : Node => ∀ a ∈ c.subtree, ∀ b ∈ d.subtree, a.id = b.id → c = d)
    ?_ (happart.imp ?_) (happart.imp ?_) hc hd a ha b hb hid
  · exact fun _ _ _ _ _ _ _ => rfl
  · exact fun h a ha b hb hid => absurd hid (h a ha b hb)
  · exact fun h a ha b hb hid => absurd hid.symm (h b hb a ha)

theorem eq_root (h : root.DistinctIds) (hc : c ∈ root.children) (hb : b ∈ root.subtree)
    (hd : d ∈ b.children) (hid : c.id = d.id) : b = root := by
  rcases mem_subtree.mp hb with rfl | ⟨e, he, hb⟩
  · rfl
  · have hbelow : d ∈ e.subtree := mem_subtree_trans (mem_subtree_of_mem_children hd) hb
    obtain rfl := h.child_eq hc he c.self_mem_subtree hbelow hid
    exact absurd hid.symm ((h.of_mem_children hc).id_ne hb hd)

/-- Nodes with a child in common are one node. -/
theorem parent_eq (h : root.DistinctIds) (ha : a ∈ root.subtree) (hb : b ∈ root.subtree)
    (hc : c ∈ a.children) (hd : d ∈ b.children) (hid : c.id = d.id) : a = b := by
  induction root using inductionOnChildren with
  | step root ih =>
    rcases mem_subtree.mp ha with rfl | ⟨e, he, hae⟩
    · exact (h.eq_root hc hb hd hid).symm
    rcases mem_subtree.mp hb with rfl | ⟨f, hf, hbf⟩
    · exact h.eq_root hd ha hc hid.symm
    -- Both parents are below children of the root, and the shared id makes these one child.
    have hce : c ∈ e.subtree := mem_subtree_trans (mem_subtree_of_mem_children hc) hae
    have hdf : d ∈ f.subtree := mem_subtree_trans (mem_subtree_of_mem_children hd) hbf
    obtain rfl := h.child_eq he hf hce hdf hid
    exact ih e he (h.of_mem_children he) hae hbf

theorem not_mem_captures (h : root.DistinctIds) {path : CapturePath} (hsteps : path.steps ≠ [])
    (ha : a ∈ root.subtree) (hc : c ∈ a.children) (hkind : a.kind ≠ path.holder) :
    c.id ∉ path.captures root := by
  intro hmem
  obtain ⟨b, hb, d, hd, hid, hholder⟩ := CapturePath.exists_holder_of_mem_captures hsteps hmem
  obtain rfl := h.parent_eq ha hb hc hd hid.symm
  exact hkind hholder

end DistinctIds
end Node
end SymbolHistory
