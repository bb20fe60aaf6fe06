import SymbolHistory.Proofs.Sorted
import SymbolHistory.Reference
import Mathlib.Data.List.Sort

namespace SymbolHistory

/-- Two names are equal, up to the case of the letters A to Z where case is ignored. -/
def Language.EqualNames (l : Language) (a b : String) : Prop :=
  if l = .powerShell then a.toList.map Char.toLower = b.toList.map Char.toLower else a = b

instance {l : Language} {a b : String} : Decidable (l.EqualNames a b) :=
  inferInstanceAs (Decidable
    (if l = .powerShell then a.toList.map Char.toLower = b.toList.map Char.toLower else a = b))

theorem Usage.rank_injective {a b : Usage} (h : a.rank = b.rank) : a = b := by
  cases a <;> cases b <;> first | rfl | (simp [rank] at h)

namespace Reference

/-- What a listing has each reference once for. -/
def key (r : Reference) : String × Nat × Usage := (r.symbol, r.line, r.usage)

instance : Std.TransCmp order := by
  unfold order
  infer_instance

theorem key_eq_of_order_eq {a b : Reference} (h : order a b = .eq) : a.key = b.key := by
  obtain ⟨hline, h⟩ := compareLex_eq_eq.mp h
  obtain ⟨hsymbol, husage⟩ := compareLex_eq_eq.mp h
  have hline : a.line = b.line := Std.LawfulEqOrd.eq_of_compare hline
  have hsymbol : a.symbol = b.symbol := Std.LawfulEqOrd.eq_of_compare hsymbol
  have husage : a.usage = b.usage := Usage.rank_injective (Std.LawfulEqOrd.eq_of_compare husage)
  rw [key, hline, hsymbol, husage, key]

def Before (a b : Reference) : Prop := order a b = .lt

instance : Std.Irrefl Before where
  irrefl a h := by
    have hself : order a a = .eq := Std.ReflCmp.compare_self
    rw [Before, hself] at h
    cases h

instance : Std.Antisymm Before where
  antisymm a b h h' := by
    have hswap : order b a = (order a b).swap := Std.OrientedCmp.eq_swap
    rw [Before, hswap, h] at h'
    cases h'

theorem Before.key_ne {a b : Reference} (h : a.Before b) : a.key ≠ b.key := by
  intro hkey
  obtain ⟨hs, hl, hu⟩ : a.symbol = b.symbol ∧ a.line = b.line ∧ a.usage = b.usage := by
    simpa [key] using hkey
  have heq : order a b = .eq := by
    simp [order, compareLex_eq_eq, compareOn, hs, hl, hu]
  rw [Before, heq] at h
  cases h

theorem Before.line_lt_or_symbol_le {a b : Reference} (h : a.Before b) :
    a.line < b.line ∨ a.line = b.line ∧ (a.symbol < b.symbol ∨ a.symbol = b.symbol) := by
  rcases Ordering.then_eq_lt.mp h with hline | ⟨hline, h⟩
  · exact Or.inl (Nat.compare_eq_lt.mp hline)
  · refine Or.inr ⟨Nat.compare_eq_eq.mp hline, ?_⟩
    rcases Ordering.then_eq_lt.mp h with hsymbol | ⟨hsymbol, -⟩
    · exact Or.inl (compareOfLessAndEq_eq_lt.mp hsymbol)
    · exact Or.inr (Std.LawfulEqOrd.eq_of_compare hsymbol)

/-- Sorting references with different keys orders them strictly. -/
theorem before_mergeSort {l : List Reference} (h : l.Pairwise fun a b => a.key ≠ b.key) :
    (l.mergeSort fun a b => (order a b).isLE).Pairwise Before := by
  have hperm := List.mergeSort_perm l fun a b => (order a b).isLE
  have hne := (hperm.pairwise_iff fun h => Ne.symm h).mpr h
  refine pairwise_lt_of_isLE (pairwise_isLE_mergeSort l) (hne.imp ?_)
  intro a b hne heq
  exact hne (key_eq_of_order_eq heq)

end Reference
end SymbolHistory
