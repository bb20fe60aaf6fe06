import Mathlib.Data.List.Sort

namespace SymbolHistory

variable {α : Type} {cmp : α → α → Ordering}

theorem isLE_total [Std.TransCmp cmp] (a b : α) : ((cmp a b).isLE || (cmp b a).isLE) = true := by
  have hswap : cmp b a = (cmp a b).swap := Std.OrientedCmp.eq_swap
  rw [hswap]
  cases cmp a b <;> rfl

theorem pairwise_isLE_mergeSort [Std.TransCmp cmp] (l : List α) :
    (l.mergeSort fun a b => (cmp a b).isLE).Pairwise fun a b => (cmp a b).isLE = true :=
  List.pairwise_mergeSort (fun _ _ _ => Std.TransCmp.isLE_trans) isLE_total l

/-- Elements that stand in order stay as they stand, whatever is sorted in between them. -/
theorem filter_mergeSort [Std.TransCmp cmp] {l : List α} {p : α → Bool}
    (h : (l.filter p).Pairwise fun a b => (cmp a b).isLE = true) :
    (l.mergeSort fun a b => (cmp a b).isLE).filter p = l.filter p := by
  have hsub : (l.filter p).Sublist (l.mergeSort fun a b => (cmp a b).isLE) :=
    List.sublist_mergeSort (fun _ _ _ => Std.TransCmp.isLE_trans) isLE_total h
      List.filter_sublist
  have hlength := ((List.mergeSort_perm l fun a b => (cmp a b).isLE).filter p).length_eq
  have hkept := hsub.filter p
  simp only [List.filter_filter, Bool.and_self] at hkept
  exact (hkept.eq_of_length hlength.symm).symm

theorem not_isLE_of_lt [Std.TransCmp cmp] {a b : α} (h : cmp a b = .lt) :
    ¬(cmp b a).isLE = true := by
  have hswap : cmp b a = (cmp a b).swap := Std.OrientedCmp.eq_swap
  rw [hswap, h]
  exact Bool.false_ne_true

theorem sublist_of_lt_of_lt [Std.TransCmp cmp] {l : List α} {a b c : α}
    (hl : l.Pairwise fun a b => (cmp a b).isLE = true) (ha : a ∈ l) (hc : c ∈ l) (hb : b ∈ l)
    (hac : cmp a c = .lt) (hcb : cmp c b = .lt) : [a, c, b].Sublist l := by
  obtain ⟨front, back, rfl⟩ := List.append_of_mem hc
  obtain ⟨-, hback, hfront⟩ := List.pairwise_append.mp hl
  have hself : (cmp c c).isLE = true := by
    have heq : cmp c c = .eq := Std.ReflCmp.compare_self
    rw [heq]
    rfl
  have ha : a ∈ front := by
    refine (List.mem_append.mp ha).resolve_right fun ha => not_isLE_of_lt hac ?_
    rcases List.mem_cons.mp ha with rfl | ha
    · exact hself
    · exact (List.pairwise_cons.mp hback).1 a ha
  have hb : b ∈ back := by
    have hnot : ¬(cmp b c).isLE = true := not_isLE_of_lt hcb
    rcases List.mem_append.mp hb with hb | hb
    · exact absurd (hfront b hb c List.mem_cons_self) hnot
    · rcases List.mem_cons.mp hb with rfl | hb
      · exact absurd hself hnot
      · exact hb
  exact (List.singleton_sublist.mpr ha).append ((List.singleton_sublist.mpr hb).cons_cons c)

theorem pairwise_lt_of_isLE {l : List α} (hle : l.Pairwise fun a b => (cmp a b).isLE = true)
    (hne : l.Pairwise fun a b => cmp a b ≠ .eq) : l.Pairwise fun a b => cmp a b = .lt := by
  refine (hle.and hne).imp ?_
  intro a b ⟨hle, hne⟩
  rcases Ordering.isLE_iff_eq_lt_or_eq_eq.mp hle with h | h
  · exact h
  · exact absurd h hne

theorem eq_of_pairwise_lt [Std.TransCmp cmp] {l m : List α}
    (hl : l.Pairwise fun a b => cmp a b = .lt) (hm : m.Pairwise fun a b => cmp a b = .lt)
    (h : ∀ a, a ∈ l ↔ a ∈ m) : l = m := by
  have hirrefl : Std.Irrefl fun a b : α => cmp a b = .lt := by
    refine ⟨fun a ha => ?_⟩
    have hself : cmp a a = .eq := Std.ReflCmp.compare_self
    rw [hself] at ha
    cases ha
  have hantisymm : Std.Antisymm fun a b : α => cmp a b = .lt := by
    refine ⟨fun a b hab hba => ?_⟩
    have hswap : cmp b a = (cmp a b).swap := Std.OrientedCmp.eq_swap
    rw [hswap, hab] at hba
    cases hba
  exact hl.eq_of_mem_iff hm h

/-- A list in strict order is what sorting any arrangement of it gives. -/
theorem mergeSort_eq_of_perm [Std.TransCmp cmp] {l m : List α} (hperm : l.Perm m)
    (hm : m.Pairwise fun a b => cmp a b = .lt) :
    (l.mergeSort fun a b => (cmp a b).isLE) = m := by
  have hsorted := (List.mergeSort_perm l fun a b => (cmp a b).isLE).trans hperm
  have hne : m.Pairwise fun a b => cmp a b ≠ .eq := hm.imp fun h heq => by
    rw [h] at heq
    cases heq
  have hne := (hsorted.pairwise_iff fun h heq => h (Std.OrientedCmp.eq_comm.mp heq)).mpr hne
  exact eq_of_pairwise_lt (pairwise_lt_of_isLE (pairwise_isLE_mergeSort l) hne) hm
    fun _ => hsorted.mem_iff

end SymbolHistory
