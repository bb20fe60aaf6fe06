import Mathlib.Algebra.GroupWithZero.Nat
import Mathlib.Data.Finset.Card
import Mathlib.Order.Interval.Finset.Nat
import SymbolHistory.Proofs.Tree.Laminar
import SymbolHistory.Tree.Damage

namespace SymbolHistory

mutual

/-- A node and all nodes below it, named or not, each with the nodes around it. -/
def placesUnder (ancestors : List Node) : Node → List Visit
  | ⟨id, kind, field, start, stop, named, missing, error, hasError, children⟩ =>
    let n : Node := ⟨id, kind, field, start, stop, named, missing, error, hasError, children⟩
    ⟨n, ancestors⟩ :: placesOf (n :: ancestors) children

def placesOf (ancestors : List Node) : List Node → List Visit
  | [] => []
  | n :: rest => placesUnder ancestors n ++ placesOf ancestors rest

end

theorem placesOf_eq (ancestors l : List Node) :
    placesOf ancestors l = l.flatMap (placesUnder ancestors) := by
  induction l with
  | nil => rfl
  | cons n l ih => rw [placesOf, ih, List.flatMap_cons]

theorem placesUnder_eq (ancestors : List Node) (n : Node) :
    placesUnder ancestors n =
      ⟨n, ancestors⟩ :: n.children.flatMap (placesUnder (n :: ancestors)) := by
  cases n
  rw [placesUnder, placesOf_eq]

theorem placesUnder_append (inner outer : List Node) (n : Node) :
    placesUnder (inner ++ outer) n =
      (placesUnder inner n).map fun v => ⟨v.node, v.ancestors ++ outer⟩ := by
  induction n using Node.inductionOnChildren generalizing inner with
  | step n ih =>
    rw [placesUnder_eq, placesUnder_eq, List.map_cons, List.map_flatMap]
    congr 1
    exact List.flatMap_congr fun c hc => ih c hc (n :: inner)

theorem damagedBytesOf_eq (l : List Node) :
    damagedBytesOf l = (l.map Node.damagedBytes).sum := by
  induction l with
  | nil => rfl
  | cons n l ih => rw [damagedBytesOf, ih, List.map_cons, List.sum_cons]

namespace Node

variable {root n : Node} {hit block : Node → Bool}

theorem damagedBytes_eq (n : Node) : n.damagedBytes =
    if n.isError then n.endByte - n.startByte else if n.isMissing then 1
    else if !n.hasError then 0 else (n.children.map damagedBytes).sum := by
  cases n
  rw [damagedBytes, damagedBytesOf_eq]

/-- The nodes of a tree that are hit and lie below no node that blocks, in preorder. -/
def outermost (hit block : Node → Bool) (root : Node) : List Node :=
  ((placesUnder [] root).filter fun v => hit v.node && v.ancestors.all (!block ·)).map (·.node)

/-- A node that blocks hides all nodes below it and no others. -/
theorem outermost_eq (hit block : Node → Bool) (root : Node) :
    root.outermost hit block = (if hit root then [root] else []) ++
      if block root then [] else root.children.flatMap (outermost hit block) := by
  have hbelow (c : Node) : ((placesUnder [root] c).filter fun v =>
        hit v.node && v.ancestors.all (!block ·)).map (·.node) =
      if block root then [] else c.outermost hit block := by
    have happend := placesUnder_append [] [root] c
    rw [List.nil_append] at happend
    rw [happend, List.filter_map, List.map_map, outermost]
    cases hblock : block root with
    | true => simp [hblock]
    | false => simp [hblock, Function.comp_def]
  rw [outermost, placesUnder_eq, List.filter_cons, List.filter_flatMap]
  cases hit root <;> cases hblock : block root <;> simp [hblock, hbelow, List.map_flatMap]

theorem outermost_eq_flatMap (hhit : hit root = false) (hblock : block root = false) :
    root.outermost hit block = root.children.flatMap (outermost hit block) := by
  rw [outermost_eq, hhit, hblock]
  rfl

theorem mem_subtree_of_mem_outermost (h : n ∈ root.outermost hit block) :
    n ∈ root.subtree ∧ hit n = true := by
  induction root using inductionOnChildren with
  | step root ih =>
    rw [outermost_eq, List.mem_append] at h
    rcases h with h | h
    · split at h
      · next hroot =>
        obtain rfl := List.mem_singleton.mp h
        exact ⟨n.self_mem_subtree, hroot⟩
      · cases h
    · split at h
      · cases h
      · obtain ⟨c, hc, h⟩ := List.mem_flatMap.mp h
        obtain ⟨hn, hhit⟩ := ih c hc h
        exact ⟨mem_subtree_trans hn (mem_subtree_of_mem_children hc), hhit⟩

theorem outermost_eq_nil (h : ∀ n ∈ root.subtree, hit n = false) :
    root.outermost hit block = [] := by
  rw [List.eq_nil_iff_forall_not_mem]
  intro n hn
  obtain ⟨hn, hhit⟩ := mem_subtree_of_mem_outermost hn
  rw [h n hn] at hhit
  cases hhit

def isDamaged (n : Node) : Bool := n.isError || n.isMissing

/-- A node has the flag exactly if it is damaged or a node below it is. -/
def FlagsDamage (root : Node) : Prop :=
  ∀ n ∈ root.subtree, n.hasError = n.subtree.any isDamaged

instance (root : Node) : Decidable root.FlagsDamage :=
  inferInstanceAs (Decidable (∀ n ∈ root.subtree, n.hasError = n.subtree.any isDamaged))

/-- The errors below no damaged node. -/
def outermostErrors (root : Node) : List Node := root.outermost (·.isError) isDamaged

/-- The missing nodes that are no errors and lie below no damaged node. -/
def outermostMissing (root : Node) : List Node :=
  root.outermost (fun n => n.isMissing && !n.isError) isDamaged

def width (n : Node) : Nat := n.endByte - n.startByte

theorem FlagsDamage.of_mem_children (h : root.FlagsDamage) {c : Node} (hc : c ∈ root.children) :
    c.FlagsDamage :=
  fun n hn => h n (mem_subtree_trans hn (mem_subtree_of_mem_children hc))

/-- Without the flag there is nothing to count. -/
theorem FlagsDamage.outermost_eq_nil (h : root.FlagsDamage) (hn : n ∈ root.subtree)
    (hflag : n.hasError = false) : n.outermostErrors = [] ∧ n.outermostMissing = [] := by
  rw [h n hn] at hflag
  have hclean : ∀ m ∈ n.subtree, m.isError = false ∧ m.isMissing = false := by
    simpa [isDamaged] using hflag
  exact ⟨Node.outermost_eq_nil fun m hm => (hclean m hm).1,
    Node.outermost_eq_nil fun m hm => by simp [(hclean m hm).2]⟩

def outermostDamage (root : Node) : Nat :=
  (root.outermostErrors.map width).sum + root.outermostMissing.length

/-- The outermost damaged nodes below an undamaged one are those of its children. -/
theorem outermostDamage_of_undamaged (herror : root.isError = false)
    (hmissing : root.isMissing = false) :
    root.outermostDamage = (root.children.map outermostDamage).sum := by
  have hblock : root.isDamaged = false := by rw [isDamaged, herror, hmissing]; rfl
  have hsum (l : List Node) : ((l.flatMap outermostErrors).map width).sum +
      (l.flatMap outermostMissing).length = (l.map outermostDamage).sum := by
    induction l with
    | nil => rfl
    | cons c l ih =>
      rw [List.map_cons, List.sum_cons, ← ih, outermostDamage, List.flatMap_cons,
        List.flatMap_cons, List.map_append, List.sum_append, List.length_append]
      omega
  have herrors : root.outermostErrors = root.children.flatMap outermostErrors :=
    outermost_eq_flatMap herror hblock
  have hmissings : root.outermostMissing = root.children.flatMap outermostMissing :=
    outermost_eq_flatMap (by simp [hmissing]) hblock
  rw [outermostDamage, herrors, hmissings, hsum]

theorem damagedBytes_eq_outermostDamage (h : root.FlagsDamage) :
    root.damagedBytes = root.outermostDamage := by
  induction root using inductionOnChildren with
  | step root ih =>
    rw [damagedBytes_eq]
    cases herror : root.isError with
    | true =>
      simp [outermostDamage, outermostErrors, outermostMissing, outermost_eq, isDamaged, herror,
        width]
    | false =>
      cases hmissing : root.isMissing with
      | true =>
        simp [outermostDamage, outermostErrors, outermostMissing, outermost_eq, isDamaged, herror,
          hmissing]
      | false =>
        cases hflag : root.hasError with
        | false =>
          obtain ⟨herrors, hmissings⟩ := h.outermost_eq_nil root.self_mem_subtree hflag
          simp [outermostDamage, herrors, hmissings]
        | true =>
          have hchildren : root.children.map damagedBytes = root.children.map outermostDamage :=
            List.map_congr_left fun c hc => ih c hc (h.of_mem_children hc)
          rw [outermostDamage_of_undamaged herror hmissing, ← hchildren]
          rfl

/-- Nothing is below a missing node. -/
def MissingAtLeaves (root : Node) : Prop :=
  ∀ n ∈ root.subtree, n.isMissing = true → n.children = []

instance (root : Node) : Decidable root.MissingAtLeaves :=
  inferInstanceAs (Decidable (∀ n ∈ root.subtree, n.isMissing = true → n.children = []))

/-- Where missing nodes hide nothing, the outermost errors are those below no other error. -/
theorem MissingAtLeaves.outermostErrors_eq (h : root.MissingAtLeaves) :
    root.outermostErrors = root.outermost (·.isError) (·.isError) := by
  induction root using inductionOnChildren with
  | step root ih =>
    have hchildren : root.children.flatMap (outermost (·.isError) isDamaged) =
        root.children.flatMap (outermost (·.isError) (·.isError)) :=
      List.flatMap_congr fun c hc =>
        ih c hc fun n hn => h n (mem_subtree_trans hn (mem_subtree_of_mem_children hc))
    rw [outermostErrors, outermost_eq, outermost_eq, hchildren]
    cases hmissing : root.isMissing with
    | true => simp [h root root.self_mem_subtree hmissing]
    | false => simp [isDamaged, hmissing]

/-- A byte that lies in an error of the tree. -/
def IsErrorByte (root : Node) (b : Nat) : Prop :=
  ∃ e ∈ root.subtree, e.isError = true ∧ e.startByte ≤ b ∧ b < e.endByte

instance (root : Node) : DecidablePred root.IsErrorByte := fun b =>
  inferInstanceAs (Decidable
    (∃ e ∈ root.subtree, e.isError = true ∧ e.startByte ≤ b ∧ b < e.endByte))

theorem isErrorByte_iff {b : Nat} : root.IsErrorByte b ↔
    (root.isError = true ∧ root.startByte ≤ b ∧ b < root.endByte) ∨
      ∃ c ∈ root.children, c.IsErrorByte b := by
  constructor
  · rintro ⟨e, he, hbyte⟩
    rcases mem_subtree.mp he with rfl | ⟨c, hc, he⟩
    · exact Or.inl hbyte
    · exact Or.inr ⟨c, hc, e, he, hbyte⟩
  · rintro (hbyte | ⟨c, hc, e, he, hbyte⟩)
    · exact ⟨root, root.self_mem_subtree, hbyte⟩
    · exact ⟨e, mem_subtree_trans he (mem_subtree_of_mem_children hc), hbyte⟩

theorem WellFormed.range_of_isErrorByte (h : root.WellFormed) {b : Nat} (hb : root.IsErrorByte b) :
    root.startByte ≤ b ∧ b < root.endByte := by
  obtain ⟨e, he, -, hstart, hstop⟩ := hb
  obtain ⟨h₁, h₂⟩ := h.inside he
  exact ⟨Nat.le_trans h₁ hstart, Nat.lt_of_lt_of_le hstop h₂⟩

/-- The bytes of a tree up to a limit that lie in an error. -/
def errorBytes (root : Node) (limit : Nat) : Finset Nat :=
  (Finset.range limit).filter root.IsErrorByte

theorem card_errorBytes_of_isError (h : root.WellFormed) (herror : root.isError = true)
    {limit : Nat} (hlimit : root.endByte ≤ limit) : (root.errorBytes limit).card = root.width := by
  have hbytes : root.errorBytes limit = Finset.Ico root.startByte root.endByte := by
    ext b
    rw [errorBytes, Finset.mem_filter, Finset.mem_range, Finset.mem_Ico]
    constructor
    · rintro ⟨-, hb⟩
      exact h.range_of_isErrorByte hb
    · intro hb
      exact ⟨Nat.lt_of_lt_of_le hb.2 hlimit, isErrorByte_iff.mpr (Or.inl ⟨herror, hb⟩)⟩
  rw [hbytes, Nat.card_Ico, width]

/-- Siblings share no bytes, so those in errors can be counted for each by itself. -/
theorem card_filter_isErrorByte {l : List Node} (hwf : ∀ c ∈ l, c.WellFormed)
    (hordered : l.Pairwise (·.endByte ≤ ·.startByte)) (limit : Nat) :
    ((Finset.range limit).filter fun b => ∃ c ∈ l, c.IsErrorByte b).card =
      (l.map fun c => (c.errorBytes limit).card).sum := by
  induction l with
  | nil => simp
  | cons c l ih =>
    obtain ⟨hc, hordered⟩ := List.pairwise_cons.mp hordered
    have hrest := ih (fun d hd => hwf d (List.mem_cons_of_mem c hd)) hordered
    have happart : Disjoint (c.errorBytes limit)
        ((Finset.range limit).filter fun b => ∃ d ∈ l, d.IsErrorByte b) := by
      refine Finset.disjoint_filter.mpr ?_
      rintro b - hb ⟨d, hd, hb'⟩
      have hend := ((hwf c List.mem_cons_self).range_of_isErrorByte hb).2
      have hstart := ((hwf d (List.mem_cons_of_mem c hd)).range_of_isErrorByte hb').1
      have := hc d hd
      omega
    simp only [List.exists_mem_cons_iff, Finset.filter_or]
    rw [List.map_cons, List.sum_cons, ← hrest, ← Finset.card_union_of_disjoint happart]
    rfl

/-- The errors below no other error cover each byte that lies in an error once. -/
theorem card_errorBytes (h : root.WellFormed) {limit : Nat} (hlimit : root.endByte ≤ limit) :
    (root.errorBytes limit).card =
      ((root.outermost (·.isError) (·.isError)).map width).sum := by
  induction root using inductionOnChildren with
  | step root ih =>
    cases herror : root.isError with
    | true =>
      rw [card_errorBytes_of_isError h herror hlimit, outermost_eq]
      simp [herror]
    | false =>
      have hbytes : root.errorBytes limit =
          (Finset.range limit).filter fun b => ∃ c ∈ root.children, c.IsErrorByte b := by
        refine Finset.filter_congr fun b _ => ?_
        rw [isErrorByte_iff, herror]
        simp
      have hchild (c : Node) (hc : c ∈ root.children) : (c.errorBytes limit).card =
          ((c.outermost (·.isError) (·.isError)).map width).sum :=
        ih c hc (h.of_mem_children hc)
          (Nat.le_trans (h.holdsChildren.inside c hc).2 hlimit)
      rw [hbytes, card_filter_isErrorByte (fun c hc => h.of_mem_children hc)
        h.holdsChildren.ordered, List.map_congr_left hchild, outermost_eq_flatMap herror herror,
        List.map_flatMap, List.flatMap_def, List.sum_flatten, List.map_map]
      rfl

/-- The damage of a tree with honest flags is the width of its outermost errors together, and one
for each outermost missing node; a subtree without the flag has none of these. A missing node would
hide an error below it, but has nothing below it in the trees of a parser; then the errors counted
are all that lie below no other error. In a well-formed tree these cover each byte that lies in an
error, however deep, and their widths count it once. -/
theorem damagedBytes_account (h : root.FlagsDamage) :
    root.damagedBytes =
      (root.outermostErrors.map width).sum + root.outermostMissing.length ∧
    (∀ n ∈ root.subtree, n.hasError = false →
      n.outermostErrors = [] ∧ n.outermostMissing = []) ∧
    (root.MissingAtLeaves →
      root.outermostErrors = root.outermost (·.isError) (·.isError)) ∧
    (root.WellFormed →
      ((root.outermost (·.isError) (·.isError)).map width).sum =
        (root.errorBytes root.endByte).card) :=
  ⟨damagedBytes_eq_outermostDamage h, fun _ hn hflag => h.outermost_eq_nil hn hflag,
    fun hleaves => hleaves.outermostErrors_eq,
    fun hwf => (card_errorBytes hwf (Nat.le_refl root.endByte)).symm⟩

def brokenScript : Node :=
  ⟨0, "program", "", 0, 20, true, false, false, true,
    [⟨1, "ERROR", "", 0, 6, true, false, true, true,
        [⟨2, "ERROR", "", 1, 3, true, false, true, true, []⟩]⟩,
      ⟨3, "expression_statement", "", 6, 12, true, false, false, true,
        [⟨4, "identifier", "", 6, 12, true, false, false, false, []⟩,
          ⟨5, ";", "", 12, 12, false, true, false, true, []⟩]⟩,
      ⟨6, "comment", "", 13, 20, true, false, false, false, []⟩]⟩

/-- The inner error adds nothing to the six bytes of the outer one. -/
theorem damagedBytes_brokenScript :
    brokenScript.FlagsDamage ∧ brokenScript.MissingAtLeaves ∧ brokenScript.WellFormed ∧
      brokenScript.damagedBytes = 7 ∧
      brokenScript.damagedBytes =
        (brokenScript.errorBytes 20).card + brokenScript.outermostMissing.length := by
  have hflags : brokenScript.FlagsDamage := by decide +kernel
  have hleaves : brokenScript.MissingAtLeaves := by decide +kernel
  have hwf : brokenScript.WellFormed := by decide +kernel
  obtain ⟨hdamage, -, herrors, hbytes⟩ := damagedBytes_account hflags
  refine ⟨hflags, hleaves, hwf, rfl, ?_⟩
  rw [hdamage, herrors hleaves, hbytes hwf]
  rfl

end Node
end SymbolHistory
