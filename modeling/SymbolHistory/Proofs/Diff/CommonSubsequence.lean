import Mathlib.Data.List.Basic

namespace SymbolHistory.Diff

variable {α : Type} {xs ys : List α} {d : Nat}

/-- A longest list that can be left of both lists by taking elements out. -/
structure LongestCommon (kept xs ys : List α) : Prop where
  old_sublist : kept.Sublist xs
  new_sublist : kept.Sublist ys
  longest : ∀ zs : List α, zs.Sublist xs → zs.Sublist ys → zs.length ≤ kept.length

/-- The lists have a common subsequence that leaves `d` of their elements out: so many deletions and
insertions lead from one to the other. -/
def Edits (xs ys : List α) (d : Nat) : Prop :=
  ∃ kept : List α, kept.Sublist xs ∧ kept.Sublist ys ∧
    xs.length + ys.length = d + 2 * kept.length

namespace Edits

theorem all (xs ys : List α) : Edits xs ys (xs.length + ys.length) :=
  ⟨[], List.nil_sublist _, List.nil_sublist _, by simp⟩

theorem same (xs : List α) : Edits xs xs 0 :=
  ⟨xs, List.Sublist.refl _, List.Sublist.refl _, by omega⟩

theorem reverse (h : Edits xs ys d) : Edits xs.reverse ys.reverse d := by
  obtain ⟨kept, hx, hy, hl⟩ := h
  exact ⟨kept.reverse, hx.reverse, hy.reverse, by simpa using hl⟩

theorem append {us vs : List α} {e : Nat} (h : Edits xs ys d) (h' : Edits us vs e) :
    Edits (xs ++ us) (ys ++ vs) (d + e) := by
  obtain ⟨kept, hx, hy, hl⟩ := h
  obtain ⟨kept', hx', hy', hl'⟩ := h'
  refine ⟨kept ++ kept', hx.append hx', hy.append hy', ?_⟩
  simp only [List.length_append]
  omega

theorem length_left_le (h : Edits xs ys d) : xs.length ≤ ys.length + d := by
  obtain ⟨kept, hx, hy, hl⟩ := h
  have := hy.length_le
  omega

theorem length_right_le (h : Edits xs ys d) : ys.length ≤ xs.length + d := by
  obtain ⟨kept, hx, hy, hl⟩ := h
  have := hx.length_le
  omega

theorem le_length (h : Edits xs ys d) : d ≤ xs.length + ys.length := by
  obtain ⟨kept, -, -, hl⟩ := h
  omega

/-- Every kept element stands in both lists. -/
theorem parity (h : Edits xs ys d) : d % 2 = (xs.length + ys.length) % 2 := by
  obtain ⟨kept, -, -, hl⟩ := h
  omega

/-- The first step of a script: it keeps an element, deletes one or inserts one. -/
theorem first (h : Edits xs ys d) :
    (xs = [] ∧ ys = [] ∧ d = 0) ∨
    (∃ a us vs, xs = a :: us ∧ ys = a :: vs ∧ Edits us vs d) ∨
    (∃ a us e, xs = a :: us ∧ d = e + 1 ∧ Edits us ys e) ∨
    ∃ a vs e, ys = a :: vs ∧ d = e + 1 ∧ Edits xs vs e := by
  obtain ⟨kept, hx, hy, hl⟩ := h
  have hinsert : ∀ {a vs}, ys = a :: vs → kept.Sublist vs →
      ∃ a vs e, ys = a :: vs ∧ d = e + 1 ∧ Edits xs vs e := by
    rintro a vs rfl hv
    have := hv.length_le
    have := hx.length_le
    rw [List.length_cons] at hl
    exact ⟨a, vs, d - 1, rfl, by omega, kept, hx, hv, by omega⟩
  cases hx with
  | slnil =>
    cases ys with
    | nil => exact Or.inl ⟨rfl, rfl, by simpa using hl.symm⟩
    | cons b vs => exact Or.inr (Or.inr (Or.inr (hinsert rfl (List.nil_sublist _))))
  | @cons _ us a hu =>
    have := hu.length_le
    have := hy.length_le
    rw [List.length_cons] at hl
    exact Or.inr (Or.inr (Or.inl ⟨a, us, d - 1, rfl, by omega, kept, hu, hy, by omega⟩))
  | @cons_cons kept' us a hu =>
    cases hy with
    | cons b hv => exact Or.inr (Or.inr (Or.inr (hinsert rfl hv)))
    | @cons_cons _ vs _ hv =>
      simp only [List.length_cons] at hl
      exact Or.inr (Or.inl ⟨a, us, vs, rfl, rfl, kept', hu, hv, by omega⟩)

/-- After both first elements no more edits are left. -/
theorem tail {a b : α} (h : Edits (a :: xs) (b :: ys) d) : ∃ e ≤ d, Edits xs ys e := by
  obtain ⟨kept, hx, hy, hl⟩ := h
  simp only [List.length_cons] at hl
  -- An element kept by one list may be lost for both, but two steps have been made.
  cases kept with
  | nil =>
    rw [List.length_nil] at hl
    exact ⟨d - 2, by omega, [], List.nil_sublist _, List.nil_sublist _, by simp; omega⟩
  | cons c kept =>
    rw [List.length_cons] at hl
    exact ⟨d, Nat.le_refl d, kept, hx.tail, hy.tail, by omega⟩

theorem drop (h : Edits xs ys d) {n : Nat} (hx : n ≤ xs.length) (hy : n ≤ ys.length) :
    ∃ e ≤ d, Edits (xs.drop n) (ys.drop n) e := by
  induction n generalizing xs ys d with
  | zero => exact ⟨d, Nat.le_refl d, h⟩
  | succ n ih =>
    cases xs with
    | nil => simp at hx
    | cons a xs =>
      cases ys with
      | nil => simp at hy
      | cons b ys =>
        obtain ⟨e, he, ht⟩ := h.tail
        obtain ⟨f, hf, hd⟩ := ih ht (Nat.le_of_succ_le_succ hx) (Nat.le_of_succ_le_succ hy)
        exact ⟨f, Nat.le_trans hf he, hd⟩

theorem dropLast (h : Edits xs ys d) {n : Nat} (hx : n ≤ xs.length) (hy : n ≤ ys.length) :
    ∃ e ≤ d, Edits (xs.take (xs.length - n)) (ys.take (ys.length - n)) e := by
  obtain ⟨e, he, hd⟩ := h.reverse.drop (n := n) (by simpa using hx) (by simpa using hy)
  have hr := hd.reverse
  rw [List.drop_reverse, List.drop_reverse, List.reverse_reverse, List.reverse_reverse] at hr
  exact ⟨e, he, hr⟩

/-- A script can be cut after any number of its edits. -/
theorem split (h : Edits xs ys d) {e : Nat} (he : e ≤ d) :
    ∃ x y, x ≤ xs.length ∧ y ≤ ys.length ∧ Edits (xs.take x) (ys.take y) e ∧
      Edits (xs.drop x) (ys.drop y) (d - e) := by
  induction hsize : xs.length + ys.length using Nat.strongRecOn generalizing xs ys d e with
  | ind size ih =>
    subst hsize
    rcases e.eq_zero_or_pos with rfl | hpos
    · exact ⟨0, 0, Nat.zero_le _, Nat.zero_le _, same [], h⟩
    rcases h.first with ⟨-, -, rfl⟩ | ⟨a, us, vs, rfl, rfl, hrest⟩ |
      ⟨a, us, c, rfl, rfl, hrest⟩ | ⟨a, vs, c, rfl, rfl, hrest⟩
    · omega
    · obtain ⟨x, y, hx, hy, h₁, h₂⟩ := ih _ (by simp only [List.length_cons]; omega) hrest he rfl
      refine ⟨x + 1, y + 1, Nat.succ_le_succ hx, Nat.succ_le_succ hy, ?_, h₂⟩
      simpa using (same [a]).append h₁
    · obtain ⟨x, y, hx, hy, h₁, h₂⟩ := ih _ (by simp only [List.length_cons]; omega) hrest
        (show e - 1 ≤ c by omega) rfl
      refine ⟨x + 1, y, Nat.succ_le_succ hx, hy, ?_, ?_⟩
      · have h := (all [a] []).append h₁
        rwa [show [a].length + [].length + (e - 1) = e by simp; omega] at h
      · rwa [show c + 1 - e = c - (e - 1) by omega]
    · obtain ⟨x, y, hx, hy, h₁, h₂⟩ := ih _ (by simp only [List.length_cons]; omega) hrest
        (show e - 1 ≤ c by omega) rfl
      refine ⟨x, y + 1, hx, Nat.succ_le_succ hy, ?_, ?_⟩
      · have h := (all [] [a]).append h₁
        rwa [show [].length + [a].length + (e - 1) = e by simp; omega] at h
      · rwa [show c + 1 - e = c - (e - 1) by omega]

theorem eq_of_zero (h : Edits xs ys 0) : xs = ys := by
  obtain ⟨kept, hx, hy, hl⟩ := h
  have hlx := hx.length_le
  have hly := hy.length_le
  rw [← hx.eq_of_length (by omega), ← hy.eq_of_length (by omega)]

/-- Lists that differ at both ends are two edits apart. -/
theorem two_le (h : Edits xs ys d) (hx : xs ≠ []) (hy : ys ≠ [])
    (hhead : ∀ a ∈ xs.head?, a ∉ ys.head?) (hlast : ∀ a ∈ xs.getLast?, a ∉ ys.getLast?) :
    2 ≤ d := by
  rcases h.first with ⟨hnil, -, -⟩ | ⟨a, us, vs, rfl, rfl, -⟩ | ⟨a, us, e, rfl, rfl, hrest⟩ |
    ⟨a, vs, e, rfl, rfl, hrest⟩
  · exact absurd hnil hx
  · exact absurd rfl (hhead a rfl)
  · -- After one edit the rest would be equal, and so would the last elements be.
    refine Nat.succ_le_succ (Nat.pos_of_ne_zero fun he => ?_)
    obtain rfl := eq_of_zero (he ▸ hrest)
    have hz := List.getLast?_eq_some_getLast hy
    exact hlast (us.getLast hy) (by simp [List.getLast?_cons, hz]) hz
  · refine Nat.succ_le_succ (Nat.pos_of_ne_zero fun he => ?_)
    obtain rfl := eq_of_zero (he ▸ hrest)
    have hz := List.getLast?_eq_some_getLast hx
    exact hlast (xs.getLast hx) hz (by simp [List.getLast?_cons, hz])

/-- Fewest edits leave most in common. -/
theorem longestCommon {kept : List α} (hx : kept.Sublist xs) (hy : kept.Sublist ys)
    (hl : xs.length + ys.length = d + 2 * kept.length) (hmin : ∀ e, Edits xs ys e → d ≤ e) :
    LongestCommon kept xs ys := by
  refine ⟨hx, hy, fun zs hzx hzy => ?_⟩
  have hlx := hzx.length_le
  have hly := hzy.length_le
  have := hmin (xs.length + ys.length - 2 * zs.length) ⟨zs, hzx, hzy, by omega⟩
  omega

section Beginnings

variable {x y : Nat}

theorem take_keep (h : Edits (xs.take x) (ys.take y) d) (hxy : xs[x]? = ys[y]?) :
    Edits (xs.take (x + 1)) (ys.take (y + 1)) d := by
  rw [List.take_add_one, List.take_add_one, hxy]
  exact h.append (same _)

theorem take_delete (h : Edits (xs.take x) (ys.take y) d) (hx : x < xs.length) :
    Edits (xs.take (x + 1)) (ys.take y) (d + 1) := by
  have h' := h.append (all [xs[x]] [])
  rwa [List.take_append_getElem hx, List.append_nil] at h'

theorem take_insert (h : Edits (xs.take x) (ys.take y) d) (hy : y < ys.length) :
    Edits (xs.take x) (ys.take (y + 1)) (d + 1) := by
  have h' := h.append (all [] [ys[y]])
  rwa [List.take_append_getElem hy, List.append_nil] at h'

/-- A script between two beginnings ends on the diagonal that its insertions number. -/
theorem exists_number (h : Edits (xs.take x) (ys.take y) d) (hx : x ≤ xs.length)
    (hy : y ≤ ys.length) : ∃ t, x + 2 * t = y + d := by
  have hpar := h.parity
  have hlen := h.length_left_le
  rw [List.length_take, List.length_take, Nat.min_eq_left hx, Nat.min_eq_left hy] at hpar hlen
  exact ⟨(y + d - x) / 2, by omega⟩

theorem exists_of_reverse_take {a : α} {us : List α} (hx : x ≤ xs.length)
    (h : (xs.take x).reverse = a :: us) :
    ∃ x', x = x' + 1 ∧ xs[x']? = some a ∧ us = (xs.take x').reverse := by
  cases x with
  | zero => simp at h
  | succ x' =>
    rw [List.take_add_one, List.getElem?_eq_getElem hx] at h
    simp only [Option.toList_some, List.reverse_append, List.reverse_singleton,
      List.singleton_append, List.cons.injEq] at h
    exact ⟨x', rfl, by rw [← h.1]; exact List.getElem?_eq_getElem hx, h.2.symm⟩

/-- The last step of a script between two beginnings. -/
theorem last (h : Edits (xs.take x) (ys.take y) d) (hx : x ≤ xs.length) (hy : y ≤ ys.length) :
    (x = 0 ∧ y = 0) ∨
    (∃ x' y', x = x' + 1 ∧ y = y' + 1 ∧ (∃ a, xs[x']? = some a ∧ ys[y']? = some a) ∧
      Edits (xs.take x') (ys.take y') d) ∨
    (∃ x' e, x = x' + 1 ∧ d = e + 1 ∧ Edits (xs.take x') (ys.take y) e) ∨
    ∃ y' e, y = y' + 1 ∧ d = e + 1 ∧ Edits (xs.take x) (ys.take y') e := by
  have hlast {us vs : List α} {e : Nat} (h : Edits us.reverse vs.reverse e) : Edits us vs e := by
    simpa using h.reverse
  rcases h.reverse.first with ⟨hx₀, hy₀, -⟩ | ⟨a, us, vs, hu, hv, h⟩ | ⟨a, us, e, hu, hd, h⟩ |
    ⟨a, vs, e, hv, hd, h⟩
  · have hlx := congrArg List.length hx₀
    have hly := congrArg List.length hy₀
    simp only [List.length_reverse, List.length_take, List.length_nil] at hlx hly
    exact Or.inl ⟨by omega, by omega⟩
  · obtain ⟨x', rfl, hxa, rfl⟩ := exists_of_reverse_take hx hu
    obtain ⟨y', rfl, hya, rfl⟩ := exists_of_reverse_take hy hv
    exact Or.inr (Or.inl ⟨x', y', rfl, rfl, ⟨a, hxa, hya⟩, hlast h⟩)
  · obtain ⟨x', rfl, -, rfl⟩ := exists_of_reverse_take hx hu
    exact Or.inr (Or.inr (Or.inl ⟨x', e, rfl, hd, hlast h⟩))
  · obtain ⟨y', rfl, -, rfl⟩ := exists_of_reverse_take hy hv
    exact Or.inr (Or.inr (Or.inr ⟨y', e, rfl, hd, hlast h⟩))

end Beginnings

end Edits
end SymbolHistory.Diff
