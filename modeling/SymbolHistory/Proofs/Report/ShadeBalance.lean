import Mathlib.Algebra.Order.Floor.Div
import Mathlib.Order.Interval.Finset.Nat
import SymbolHistory.Report.Shade

namespace SymbolHistory.Report

variable {count shades t b : Nat}

theorem clampShades_pos (shades : Nat) : 0 < clampShades shades := Nat.le_max_left _ _

theorem mul_clampShades_div_lt (ht : t < count) :
    t * clampShades shades / count < clampShades shades := by
  rw [Nat.div_lt_iff_lt_mul (Nat.zero_lt_of_lt ht), Nat.mul_comm]
  exact Nat.mul_lt_mul_of_pos_left ht (clampShades_pos shades)

theorem shadeOf_of_lt (ht : t < count) :
    shadeOf t count shades = 1 + t * clampShades shades / count := by
  have hlt : t * clampShades shades / count < clampShades shades := mul_clampShades_div_lt ht
  have hcount : max count 1 = count := by omega
  simp only [shadeOf, hcount]
  rw [Nat.min_eq_left (by omega), Nat.max_eq_right (Nat.le_add_right 1 _)]

/-- The first transition whose shade is above `b`. -/
def firstAbove (count shades b : Nat) : Nat := (count * b) ⌈/⌉ clampShades shades

theorem firstAbove_le_iff : firstAbove count shades b ≤ t ↔ count * b ≤ clampShades shades * t :=
  ceilDiv_le_iff_le_mul (clampShades_pos shades)

theorem firstAbove_le_count (h : b ≤ clampShades shades) : firstAbove count shades b ≤ count := by
  rw [firstAbove_le_iff, Nat.mul_comm]
  exact Nat.mul_le_mul_right count h

theorem lt_shadeOf_iff (ht : t < count) :
    b < shadeOf t count shades ↔ firstAbove count shades b ≤ t := by
  have hcount := Nat.zero_lt_of_lt ht
  rw [firstAbove_le_iff, shadeOf_of_lt ht, Nat.add_comm, Nat.lt_succ_iff,
    Nat.le_div_iff_mul_le hcount, Nat.mul_comm b, Nat.mul_comm t]

/-- A shade covers the transitions from its first to the one before the next shade's first. -/
theorem shadeOf_eq_succ_iff (ht : t < count) :
    shadeOf t count shades = b + 1 ↔
      firstAbove count shades b ≤ t ∧ t < firstAbove count shades (b + 1) := by
  rw [← lt_shadeOf_iff ht, ← Nat.not_le (b := t), ← lt_shadeOf_iff ht]
  omega

/-- The shades of all transitions of a history, the oldest first. -/
def transitionShades (count shades : Nat) : List Nat :=
  (List.range count).map (shadeOf · count shades)

theorem countP_range_interval {low high n : Nat} {p : Nat → Bool} (hn : high ≤ n)
    (hp : ∀ t < n, p t = true ↔ low ≤ t ∧ t < high) : (List.range n).countP p = high - low := by
  have hset : ((List.range n).filter p).toFinset = Finset.Ico low high := by
    ext t
    simp only [List.mem_toFinset, List.mem_filter, List.mem_range, Finset.mem_Ico]
    constructor
    · rintro ⟨ht, h⟩
      exact (hp t ht).mp h
    · intro h
      have ht : t < n := Nat.lt_of_lt_of_le h.2 hn
      exact ⟨ht, (hp t ht).mpr h⟩
  rw [List.countP_eq_length_filter, ← List.toFinset_card_of_nodup (List.nodup_range.filter p),
    hset, Nat.card_Ico]

theorem count_transitionShades (h : b < clampShades shades) :
    (transitionShades count shades).count (b + 1) =
      firstAbove count shades (b + 1) - firstAbove count shades b := by
  rw [transitionShades, List.count_eq_countP, List.countP_map]
  refine countP_range_interval (firstAbove_le_count h) ?_
  intro t ht
  rw [Function.comp_apply, beq_iff_eq]
  exact shadeOf_eq_succ_iff ht

/-- Rounded up, a sum exceeds a part by the rest rounded down or rounded up. -/
theorem ceilDiv_add_sub (a n s : Nat) (hs : 0 < s) :
    (a + n) ⌈/⌉ s - a ⌈/⌉ s = n / s ∨ (a + n) ⌈/⌉ s - a ⌈/⌉ s = n ⌈/⌉ s := by
  have hsum : a + n + s - 1 = (a + s - 1) + n := by omega
  simp only [Nat.ceilDiv_eq_add_pred_div]
  rw [hsum, Nat.add_div hs, Nat.add_assoc, Nat.add_sub_cancel_left]
  split
  · next hcarry =>
    -- There is a carry only where `n` is no multiple, and then it is rounded up.
    right
    have hmod : (a + s - 1) % s < s := Nat.mod_lt _ hs
    have hpred : n + s - 1 = n + (s - 1) := by omega
    have hsmall : (s - 1) / s = 0 := Nat.div_eq_of_lt (by omega)
    have hrest : (s - 1) % s = s - 1 := Nat.mod_eq_of_lt (by omega)
    rw [hpred, Nat.add_div hs, hsmall, hrest, if_pos (by omega)]
  · exact Or.inl rfl

theorem count_transitionShades_floor_or_ceil (hb : 1 ≤ b) (h : b ≤ clampShades shades) :
    (transitionShades count shades).count b = count / clampShades shades ∨
      (transitionShades count shades).count b = count ⌈/⌉ clampShades shades := by
  obtain ⟨b, rfl⟩ := Nat.exists_eq_add_of_le' hb
  rw [count_transitionShades h, firstAbove, firstAbove, Nat.mul_succ]
  exact ceilDiv_add_sub (count * b) count (clampShades shades) (clampShades_pos shades)

theorem mem_transitionShades_bounds (h : b ∈ transitionShades count shades) :
    1 ≤ b ∧ b ≤ clampShades shades := by
  obtain ⟨t, ht, rfl⟩ := List.mem_map.mp h
  have ht := List.mem_range.mp ht
  rw [shadeOf_of_lt ht, Nat.add_comm]
  exact ⟨Nat.le_add_left 1 _, mul_clampShades_div_lt ht⟩

theorem transitionShades_ordered (count shades : Nat) :
    (transitionShades count shades).Pairwise (· ≤ ·) := by
  rw [transitionShades, List.pairwise_map]
  refine List.pairwise_lt_range.imp ?_
  intro t u htu
  have hmul : t * clampShades shades ≤ u * clampShades shades :=
    Nat.mul_le_mul_right _ (Nat.le_of_lt htu)
  have hdiv : t * clampShades shades / max count 1 ≤ u * clampShades shades / max count 1 :=
    Nat.div_le_div_right hmul
  simp only [shadeOf]
  omega

/-- With as many transitions as shades, no shade is left out. -/
theorem mem_transitionShades (hcount : clampShades shades ≤ count) (hb : 1 ≤ b)
    (h : b ≤ clampShades shades) : b ∈ transitionShades count shades := by
  have hfloor : 1 ≤ count / clampShades shades :=
    (Nat.one_le_div_iff (clampShades_pos shades)).mpr hcount
  have hceil : count / clampShades shades ≤ count ⌈/⌉ clampShades shades := by
    rw [Nat.ceilDiv_eq_add_pred_div]
    exact Nat.div_le_div_right (by have := clampShades_pos shades; omega)
  have hshare : (transitionShades count shades).count b = count / clampShades shades ∨
      (transitionShades count shades).count b = count ⌈/⌉ clampShades shades :=
    count_transitionShades_floor_or_ceil hb h
  rw [← List.count_pos_iff]
  rcases hshare with h | h <;> omega

theorem le_of_getLast?_transitionShades {last : Nat}
    (hlast : (transitionShades count shades).getLast? = some last)
    (hb : b ∈ transitionShades count shades) : b ≤ last := by
  have hordered := transitionShades_ordered count shades
  obtain ⟨front, hsplit⟩ := List.getLast?_eq_some_iff.mp hlast
  rw [hsplit] at hordered hb
  rcases List.mem_append.mp hb with hb | hb
  · exact (List.pairwise_append.mp hordered).2.2 b hb last (List.mem_singleton_self last)
  · exact Nat.le_of_eq (List.mem_singleton.mp hb)

theorem getLast?_transitionShades (hcount : clampShades shades ≤ count) :
    (transitionShades count shades).getLast? = some (clampShades shades) := by
  have hmem : clampShades shades ∈ transitionShades count shades :=
    mem_transitionShades hcount (clampShades_pos shades) (Nat.le_refl _)
  cases hlast : (transitionShades count shades).getLast? with
  | none => rw [List.getLast?_eq_none_iff.mp hlast] at hmem; cases hmem
  | some last =>
    have hle : clampShades shades ≤ last := le_of_getLast?_transitionShades hlast hmem
    have hge : last ≤ clampShades shades :=
      (mem_transitionShades_bounds (List.mem_of_getLast? hlast)).2
    rw [Nat.le_antisymm hge hle]

/-- The transitions of a history are shared out evenly. From the oldest to the newest their shades
start at one and never decrease; each lies within bounds without being brought there; and each
shade has the number of transitions divided by that of the shades, rounded down or up. So with no
fewer transitions than shades every shade is in use, the last one for the newest transition. -/
theorem transitionShades_balanced (hcount : 1 ≤ count) (shades : Nat) :
    (transitionShades count shades).Pairwise (· ≤ ·) ∧
    (transitionShades count shades).head? = some 1 ∧
    let s := max 1 (min shades 9)
    (∀ t < count, shadeOf t count shades = 1 + t * s / count) ∧
    (∀ b ∈ transitionShades count shades, 1 ≤ b ∧ b ≤ s) ∧
    (∀ b, 1 ≤ b → b ≤ s →
      (transitionShades count shades).count b = count / s ∨
        (transitionShades count shades).count b = count ⌈/⌉ s) ∧
    (s ≤ count → (∀ b, 1 ≤ b → b ≤ s → b ∈ transitionShades count shades) ∧
      (transitionShades count shades).getLast? = some s) := by
  have hcount0 : count ≠ 0 := by omega
  have hfirst : (transitionShades count shades).head? = some 1 := by
    rw [transitionShades, List.head?_map, List.head?_range, if_neg hcount0, Option.map_some,
      shadeOf_of_lt hcount, Nat.zero_mul, Nat.zero_div]
  refine ⟨transitionShades_ordered count shades, hfirst, fun t ht => shadeOf_of_lt ht,
    fun b hb => mem_transitionShades_bounds hb,
    fun b hb h => count_transitionShades_floor_or_ceil hb h, fun hs => ?_⟩
  exact ⟨fun b hb h => mem_transitionShades hs hb h, getLast?_transitionShades hs⟩

/-- Of eleven transitions in four shades the last shade has two and the others three each. -/
theorem transitionShades_eleven :
    (1 : Nat) ≤ 11 ∧ transitionShades 11 4 = [1, 1, 1, 2, 2, 2, 3, 3, 3, 4, 4] ∧
      (transitionShades 11 4).getLast? = some 4 := by
  have hcount : 1 ≤ 11 := by decide
  obtain ⟨-, -, -, -, -, hused⟩ := transitionShades_balanced hcount 4
  exact ⟨hcount, by decide, (hused (by decide)).2⟩

end SymbolHistory.Report
