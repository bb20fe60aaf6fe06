import Mathlib.Data.Finset.Dedup
import Mathlib.Order.Preorder.Finite
import SymbolHistory.Proofs.Extraction.NoOverlap
import SymbolHistory.Proofs.Sorted

namespace SymbolHistory

/-- Ranges are ordered by lying inside one another. -/
instance : PartialOrder ByteRange where
  le := ByteRange.Inside
  le_refl := ByteRange.Inside.refl
  le_trans _ _ _ := ByteRange.Inside.trans
  le_antisymm a b h h' := by
    cases a
    cases b
    exact congrArg₂ ByteRange.mk (Nat.le_antisymm h'.1 h.1) (Nat.le_antisymm h.2 h'.2)

theorem SymbolKind.outlivesNesting_iff {k : SymbolKind} :
    k.outlivesNesting = true ↔ k ∈ [SymbolKind.method, .export, .global] := by
  cases k <;> decide

namespace Symbol

instance : Std.TransCmp order := by
  unfold order
  infer_instance

variable {l : List Symbol} {s t : Symbol}

theorem isInside_iff_lt : s.isInside t = true ↔ s.range < t.range := by
  rw [isInside_iff, lt_iff_le_and_ne, and_comm]
  rfl

/-- A symbol stays when it outlives nesting or no symbol but an export is around it. -/
theorem mem_dropNested : s ∈ dropNested l ↔
    s ∈ l ∧ (s.kind.outlivesNesting = true ∨
      ∀ t ∈ l, t.kind ≠ .export → ¬s.isInside t = true) := by
  simp [dropNested, List.mem_filter]

/-- Around a symbol that lies in another one is a symbol that stays. -/
theorem exists_mem_dropNested (ht : t ∈ l) (hexport : t.kind ≠ .export)
    (hinside : s.isInside t = true) :
    ∃ u ∈ dropNested l, u.kind ≠ .export ∧ s.isInside u = true := by
  let around := (l.filter fun u => u.kind ≠ .export ∧ s.isInside u = true).toFinset
  have hmem {u : Symbol} : u ∈ around ↔ u ∈ l ∧ u.kind ≠ .export ∧ s.isInside u = true := by
    simp [around]
  -- A widest one of the symbols around `s`: whatever is around it would be wider.
  obtain ⟨u, hu, hwidest⟩ :=
    around.exists_maximalFor Symbol.range ⟨t, hmem.mpr ⟨ht, hexport, hinside⟩⟩
  obtain ⟨hul, huexport, husi⟩ := hmem.mp hu
  refine ⟨u, mem_dropNested.mpr ⟨hul, Or.inr ?_⟩, huexport, husi⟩
  intro w hw hwexport huw
  have hsu : s.range < u.range := isInside_iff_lt.mp husi
  have huw : u.range < w.range := isInside_iff_lt.mp huw
  have hsw : s.isInside w = true := isInside_iff_lt.mpr (hsu.trans huw)
  exact huw.not_ge (hwidest (hmem.mpr ⟨hw, hwexport, hsw⟩) huw.le)

/-- It makes no difference whether a symbol is held against all symbols or against those that
stay. -/
theorem outside_dropNested_iff :
    (∀ t ∈ dropNested l, t.kind ≠ .export → ¬s.isInside t = true) ↔
      ∀ t ∈ l, t.kind ≠ .export → ¬s.isInside t = true := by
  constructor
  · intro h t ht hexport hinside
    obtain ⟨u, hu, huexport, hsu⟩ := exists_mem_dropNested ht hexport hinside
    exact h u hu huexport hsu
  · intro h t ht
    exact h t (mem_dropNested.mp ht).1

end Symbol

namespace Query

variable {q : Query}

theorem present_eq_self (hq : q.qualifyMethods = false) (s : Symbol) : q.present s = s := by
  unfold present
  split
  · simp [hq]
  · rfl

/-- A query that does not qualify methods only selects. -/
theorem list_eq_filter (hq : q.qualifyMethods = false) (symbols : List Symbol) :
    q.list symbols =
      (Symbol.dropNested (Symbol.dropRepeats (Symbol.sort symbols))).filter q.matches := by
  rw [list, List.map_congr_left fun s _ => present_eq_self hq s, List.map_id']

theorem list_everything (symbols : List Symbol) :
    everything.list symbols = Symbol.dropNested (Symbol.dropRepeats (Symbol.sort symbols)) := by
  rw [list_eq_filter rfl, List.filter_eq_self]
  intro s _
  rfl

/-- The query that keeps everything lists, of the symbols sorted and without repetitions, the
methods, exports and globals and those others that are inside no listed symbol but exports. So what
is dropped lies inside a symbol that is listed. -/
theorem list_everything_outermost (symbols : List Symbol) :
    everything.list symbols = (Symbol.dropRepeats (Symbol.sort symbols)).filter (fun s =>
      s.kind ∈ [SymbolKind.method, .export, .global] ∨
        ∀ t ∈ everything.list symbols, t.kind ≠ .export → ¬s.isInside t = true) ∧
    ∀ s ∈ Symbol.dropRepeats (Symbol.sort symbols), s ∉ everything.list symbols →
      ∃ t ∈ everything.list symbols, t.kind ≠ .export ∧ s.isInside t = true := by
  rw [list_everything]
  generalize Symbol.dropRepeats (Symbol.sort symbols) = l
  constructor
  · refine List.filter_congr fun s _ => ?_
    rw [Bool.eq_iff_iff, decide_eq_true_iff, Symbol.outside_dropNested_iff,
      ← SymbolKind.outlivesNesting_iff]
    simp
  · intro s hs hdropped
    by_contra hnone
    apply hdropped
    refine Symbol.mem_dropNested.mpr ⟨hs, Or.inr (Symbol.outside_dropNested_iff.mp ?_)⟩
    intro t ht hexport hinside
    exact hnone ⟨t, ht, hexport, hinside⟩

def nestedConstant : Symbol :=
  ⟨"LIMIT", .constant, 3, 3, .javaScript, none, none, 40, 50, false⟩

/-- The constant, the class, the function that the class stands in, and its export. -/
def nestedSymbols : List Symbol :=
  [nestedConstant, ⟨"Shape", .class, 2, 4, .javaScript, none, none, 30, 60, false⟩,
    ⟨"run", .function, 1, 5, .javaScript, none, none, 7, 70, true⟩,
    ⟨"run", .export, 1, 5, .javaScript, none, none, 0, 70, true⟩]

theorem sort_nestedSymbols : Symbol.sort nestedSymbols = nestedSymbols.reverse :=
  mergeSort_eq_of_perm (List.reverse_perm _).symm (by decide)

/-- The constant is inside the function, which is listed, and the class, which is not. -/
theorem nestedSymbols_outermost :
    (everything.list nestedSymbols).map (·.kind) = [.export, .function] ∧
    ∃ t ∈ everything.list nestedSymbols, t.kind ≠ .export ∧ nestedConstant.isInside t = true := by
  have hdistinct : nestedConstant ∈ Symbol.dropRepeats (Symbol.sort nestedSymbols) := by
    rw [sort_nestedSymbols]
    decide
  have hlist : everything.list nestedSymbols = nestedSymbols.reverse.take 2 := by
    rw [list_everything, sort_nestedSymbols]
    decide
  have hdropped : nestedConstant ∉ everything.list nestedSymbols := by
    rw [hlist]
    decide
  refine ⟨?_, (list_everything_outermost nestedSymbols).2 nestedConstant hdistinct hdropped⟩
  rw [hlist]
  rfl

end Query
end SymbolHistory
