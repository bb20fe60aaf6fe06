import SymbolHistory.Diff.MiddleSnake
import SymbolHistory.Proofs.Diff.CommonSubsequence

namespace SymbolHistory.Diff

variable {α : Type}

/-- At most `d` edits lead to `x` and `y`, a step past the end of a list being one of them. -/
def Reached (xs ys : List α) (x y d : Nat) : Prop :=
  ∃ e, Edits (xs.take x) (ys.take y) e ∧ e + (x - xs.length) + (y - ys.length) ≤ d

namespace Reached

variable {xs ys : List α} {x y d : Nat}

theorem right (h : Reached xs ys x y d) : Reached xs ys (x + 1) y (d + 1) := by
  obtain ⟨e, he, hd⟩ := h
  by_cases hx : x < xs.length
  · exact ⟨e + 1, he.take_delete hx, by omega⟩
  · refine ⟨e, ?_, by omega⟩
    rwa [List.take_of_length_le (by omega), ← List.take_of_length_le (Nat.le_of_not_lt hx)]

theorem down (h : Reached xs ys x y d) : Reached xs ys x (y + 1) (d + 1) := by
  obtain ⟨e, he, hd⟩ := h
  by_cases hy : y < ys.length
  · exact ⟨e + 1, he.take_insert hy, by omega⟩
  · refine ⟨e, ?_, by omega⟩
    rwa [List.take_of_length_le (l := ys) (by omega),
      ← List.take_of_length_le (Nat.le_of_not_lt hy)]

theorem diagonal (h : Reached xs ys x y d) (hx : x < xs.length) (hy : y < ys.length)
    (hxy : xs[x]? = ys[y]?) : Reached xs ys (x + 1) (y + 1) d := by
  obtain ⟨e, he, hd⟩ := h
  exact ⟨e, he.take_keep hxy, by omega⟩

theorem old_edge (xs ys : List α) (x : Nat) : Reached xs ys x 0 x := by
  induction x with
  | zero => exact ⟨0, Edits.same [], by simp⟩
  | succ x ih => exact ih.right

theorem new_edge (xs ys : List α) (y : Nat) : Reached xs ys 0 y y := by
  induction y with
  | zero => exact ⟨0, Edits.same [], by simp⟩
  | succ y ih => exact ih.down

theorem mono (h : Reached xs ys x y d) {c : Nat} (hc : d ≤ c) : Reached xs ys x y c := by
  obtain ⟨e, he, hd⟩ := h
  exact ⟨e, he, Nat.le_trans hd hc⟩

/-- The rest of the way along the edges, to the end of both lists. -/
theorem edits (h : Reached xs ys x y d) : ∃ e, Edits xs ys (e + (xs.length - x) + (ys.length - y)) ∧
    e + (x - xs.length) + (y - ys.length) ≤ d := by
  obtain ⟨e, he, hd⟩ := h
  have hall := he.append (Edits.all (xs.drop x) (ys.drop y))
  rw [List.take_append_drop, List.take_append_drop, List.length_drop, List.length_drop,
    ← Nat.add_assoc] at hall
  exact ⟨e, hall, hd⟩

/-- A point outside the grid is of no use for a shortest script: the way to its edge and along it
would be a shorter one. -/
theorem inside {c : Nat} (h : Reached xs ys x y d)
    (hc : ((x : Int) - y - (xs.length - ys.length)).natAbs ≤ c)
    (hmin : ∀ n, Edits xs ys n → d + c ≤ n) : x ≤ xs.length ∧ y ≤ ys.length := by
  obtain ⟨e, he, hd⟩ := h.edits
  have := hmin _ he
  omega

end Reached

/-- Where the scripts of `d` edits enter a diagonal: they reach its points up to `x` and `y`, and
none of them comes to a later one by an edit. -/
structure EntersAt (xs ys : List α) (d x y : Nat) : Prop where
  reached : ∀ x' y', x' ≤ x → x' + y = y' + x → Reached xs ys x' y' d
  latest : ∀ x' y' e, x' ≤ xs.length → y' ≤ ys.length → x' + y = y' + x → e < d →
    ((∃ u, x' = u + 1 ∧ Edits (xs.take u) (ys.take y') e) ∨
      ∃ v, y' = v + 1 ∧ Edits (xs.take x') (ys.take v) e) → x' ≤ x

section Runs

variable [DecidableEq α]

theorem getElem?_commonPrefix {xs ys : List α} {n : Nat} (h : n < commonPrefix xs ys) :
    xs[n]? = ys[n]? := by
  have ht := congrArg (fun l : List α => l[n]?) (take_commonPrefix xs ys)
  simpa [List.getElem?_take, h] using ht

theorem getElem?_commonPrefix_ne (xs ys : List α) {a : α}
    (hx : xs[commonPrefix xs ys]? = some a) : ys[commonPrefix xs ys]? ≠ some a := by
  induction xs generalizing ys with
  | nil => simp at hx
  | cons x xs ih =>
    cases ys with
    | nil => simp
    | cons y ys =>
      by_cases hxy : x = y
      · simp only [commonPrefix, hxy, if_true, List.getElem?_cons_succ] at hx ⊢
        exact ih ys hx
      · simp only [commonPrefix, hxy, if_false, List.getElem?_cons_zero] at hx ⊢
        cases hx
        intro hy
        exact hxy (Option.some.inj hy).symm

theorem advance_eq (xs ys : List α) {x y t d : Nat} (h : x + 2 * t = y + d) :
    advance xs.toArray ys.toArray ((d : Int) - 2 * t) x =
      x + commonPrefix (xs.drop x) (ys.drop y) := by
  have hy : (x : Int) - (d - 2 * t) = y := by omega
  simp only [advance, hy, Int.natCast_nonneg, if_true, Int.toNat_natCast, runFrom_eq]

variable {xs ys : List α} {x₀ y₀ d : Nat}

theorem EntersAt.reached_run (h : EntersAt xs ys d x₀ y₀) {x y : Nat}
    (hx : x ≤ x₀ + commonPrefix (xs.drop x₀) (ys.drop y₀)) (hxy : x + y₀ = y + x₀) :
    Reached xs ys x y d := by
  by_cases hle : x ≤ x₀
  · exact h.reached x y hle hxy
  · obtain ⟨n, rfl⟩ := Nat.exists_eq_add_of_lt (Nat.lt_of_not_le hle)
    obtain rfl : y = y₀ + n + 1 := by omega
    clear hle hxy
    have hrun {n : Nat} (hn : n < commonPrefix (xs.drop x₀) (ys.drop y₀)) :
        x₀ + n < xs.length ∧ y₀ + n < ys.length ∧ xs[x₀ + n]? = ys[y₀ + n]? := by
      have hl := commonPrefix_le_left (xs.drop x₀) (ys.drop y₀)
      have hr := commonPrefix_le_right (xs.drop x₀) (ys.drop y₀)
      have he := getElem?_commonPrefix hn
      rw [List.getElem?_drop, List.getElem?_drop] at he
      rw [List.length_drop] at hl hr
      exact ⟨by omega, by omega, he⟩
    induction n with
    | zero =>
      obtain ⟨hxl, hyl, he⟩ := hrun (n := 0) (by omega)
      exact (h.reached x₀ y₀ (Nat.le_refl _) (Nat.add_comm _ _)).diagonal hxl hyl he
    | succ n ih =>
      obtain ⟨hxl, hyl, he⟩ := hrun (n := n + 1) (by omega)
      exact (ih (by omega)).diagonal hxl hyl he

/-- No script gets beyond the run of equal elements. -/
theorem EntersAt.le_run (h : EntersAt xs ys d x₀ y₀) {x y e : Nat} (hx : x ≤ xs.length)
    (hy : y ≤ ys.length) (hxy : x + y₀ = y + x₀) (he : e ≤ d)
    (hedits : Edits (xs.take x) (ys.take y) e) :
    x ≤ x₀ + commonPrefix (xs.drop x₀) (ys.drop y₀) := by
  induction x generalizing y with
  | zero => exact Nat.zero_le _
  | succ x ih =>
    rcases hedits.last hx hy with ⟨h0, -⟩ | ⟨x', y', hx', rfl, ⟨a, hxa, hya⟩, hrest⟩ |
      ⟨x', f, hx', rfl, hrest⟩ | ⟨y', f, rfl, rfl, hrest⟩
    · omega
    · obtain rfl : x = x' := by omega
      have hle := ih (Nat.le_of_succ_le hx) (Nat.le_of_succ_le hy) (by omega) hrest
      refine Nat.lt_of_le_of_ne hle fun hend => ?_
      -- At the end of the run the next elements differ, so they cannot be kept.
      have hne := getElem?_commonPrefix_ne (xs.drop x₀) (ys.drop y₀) (a := a)
        (by rwa [List.getElem?_drop, ← hend])
      rw [List.getElem?_drop] at hne
      exact hne (by rwa [show y₀ + commonPrefix (xs.drop x₀) (ys.drop y₀) = y' by omega])
    · have := h.latest (x + 1) y f hx hy hxy (by omega) (Or.inl ⟨x', hx', hrest⟩)
      omega
    · have := h.latest (x + 1) (y' + 1) f hx hy hxy (by omega) (Or.inr ⟨y', rfl, hrest⟩)
      omega

end Runs

section Rounds

variable [DecidableEq α]

theorem getElem?_roundFrom (xs ys : Array α) (k : Int) (above below : List (Option Nat))
    (t : Nat) :
    (roundFrom xs ys k above below)[t]? = above[t]?.bind fun a => below[t]?.map fun b =>
      ⟨k - 2 * t, entry a b, advance xs ys (k - 2 * t) (entry a b)⟩ := by
  induction above generalizing k below t with
  | nil => simp [roundFrom]
  | cons a above ih =>
    cases below with
    | nil => cases t <;> simp [roundFrom]
    | cons b below =>
      cases t with
      | zero => simp [roundFrom]
      | succ t =>
        simp only [roundFrom, List.getElem?_cons_succ, ih]
        rw [show k - 2 - 2 * (t : Int) = k - 2 * ((t + 1 : Nat) : Int) by omega]

/-- How the point with number `t` is entered at `x` from the points of the round before: down from
its upper neighbour or right from its lower one, whichever goes further. -/
structure Entered (points : List Nat) (t x : Nat) : Prop where
  origin : (∃ s, t = s + 1 ∧ points[s]? = some x) ∨ ∃ v, points[t]? = some v ∧ x = v + 1
  above : ∀ s u, t = s + 1 → points[s]? = some u → u ≤ x
  below : ∀ v, points[t]? = some v → v < x

theorem entered_first {points : List Nat} {v : Nat} (h : points[0]? = some v) :
    Entered points 0 (entry none points[0]?) := by
  rw [h]
  refine ⟨Or.inr ⟨v, h, rfl⟩, fun s u hs => by omega, ?_⟩
  intro w hw
  rw [h] at hw
  cases hw
  exact Nat.lt_succ_self v

theorem entered_later {points : List Nat} {s u : Nat} (h : points[s]? = some u) :
    Entered points (s + 1) (entry (some u) points[s + 1]?) := by
  have habove : ∀ r w, s + 1 = r + 1 → points[r]? = some w → w = u := by
    intro r w hr hw
    cases hr
    rw [h] at hw
    exact (Option.some.inj hw).symm
  -- The last diagonal has no point to its other side.
  cases hb : points[s + 1]? with
  | none =>
    refine ⟨Or.inl ⟨s, rfl, h⟩, fun r w hr hw => Nat.le_of_eq (habove r w hr hw), ?_⟩
    intro v hv
    rw [hb] at hv
    cases hv
  | some v =>
    have hbelow : ∀ w, points[s + 1]? = some w → w = v := by
      intro w hw
      rw [hb] at hw
      exact (Option.some.inj hw).symm
    simp only [entry]
    split
    · next hlt =>
      refine ⟨Or.inl ⟨s, rfl, h⟩, fun r w hr hw => Nat.le_of_eq (habove r w hr hw), ?_⟩
      intro w hw
      exact hbelow w hw ▸ hlt
    · next hge =>
      refine ⟨Or.inr ⟨v, hb, rfl⟩, ?_, ?_⟩
      · intro r w hr hw
        rw [habove r w hr hw]
        omega
      · intro w hw
        rw [hbelow w hw]
        omega

/-- One round: each point is entered from the round before and then advances. -/
theorem getElem?_round_succ (xs ys : Array α) {d t : Nat} {points : List Nat}
    (hl : points.length = d + 1) (ht : t ≤ d + 1) :
    ∃ x, Entered points t x ∧ (round xs ys (d + 1) points)[t]? =
      some ⟨((d + 1 : Nat) : Int) - 2 * t, x,
        advance xs ys (((d + 1 : Nat) : Int) - 2 * t) x⟩ := by
  have hbelow : (points.map some ++ [none])[t]? = some points[t]? := by
    by_cases h : t < points.length
    · simp [List.getElem?_append_left, h]
    · rw [List.getElem?_append_right (by simpa using h), show t = points.length by omega]
      simp
  simp only [round, Nat.add_one_ne_zero, if_false, getElem?_roundFrom, hbelow, Option.map_some]
  cases t with
  | zero =>
    have h0 : points[0]? = some points[0] := List.getElem?_eq_getElem (by omega)
    exact ⟨_, entered_first h0, rfl⟩
  | succ s =>
    have hs : points[s]? = some points[s] := List.getElem?_eq_getElem (by omega)
    refine ⟨_, entered_later hs, ?_⟩
    rw [List.getElem?_cons_succ, List.getElem?_map, hs]
    rfl

theorem length_round_succ (xs ys : Array α) {d : Nat} {points : List Nat}
    (hl : points.length = d + 1) : (round xs ys (d + 1) points).length = d + 2 := by
  have hlen : ∀ (k : Int) (above below : List (Option Nat)), above.length = below.length →
      (roundFrom xs ys k above below).length = above.length := by
    intro k above below h
    induction above generalizing k below with
    | nil => simp [roundFrom]
    | cons a above ih =>
      cases below with
      | nil => simp at h
      | cons b below => simp [roundFrom, ih (k - 2) below (by simpa using h)]
  simp only [round, Nat.add_one_ne_zero, if_false]
  rw [hlen _ _ _ (by simp)]
  simp [hl]

theorem round_zero (xs ys : Array α) : round xs ys 0 [0] = [⟨0, 0, advance xs ys 0 0⟩] := rfl

end Rounds

/-- The furthest points of round `d` between two lists, the one numbered `t` on diagonal `d - 2 *
t`. -/
structure Furthest (xs ys : List α) (d : Nat) (points : List Nat) : Prop where
  length_eq : points.length = d + 1
  new_nonneg : ∀ t x : Nat, points[t]? = some x → d ≤ x + 2 * t
  reached : ∀ t z : Nat, points[t]? = some z → ∀ x y, x ≤ z → x + 2 * t = y + d →
    Reached xs ys x y d
  furthest : ∀ t x y e, x ≤ xs.length → y ≤ ys.length → x + 2 * t = y + d → e ≤ d →
    Edits (xs.take x) (ys.take y) e → ∃ z, points[t]? = some z ∧ x ≤ z

namespace Furthest

variable {xs ys : List α} {d t z : Nat} {points : List Nat}

theorem lt_of_point (h : Furthest xs ys d points) (hz : points[t]? = some z) : t < d + 1 := by
  have hlt := (List.getElem?_eq_some_iff.mp hz).1
  rwa [h.length_eq] at hlt

theorem entered_nonneg (h : Furthest xs ys d points) (he : Entered points t z) :
    d + 1 ≤ z + 2 * t := by
  rcases he.origin with ⟨s, rfl, hs⟩ | ⟨v, hv, rfl⟩
  · have := h.new_nonneg s z hs
    omega
  · have := h.new_nonneg t v hv
    omega

/-- Up to where a diagonal is entered, one more edit reaches its points. -/
theorem entered_reached (h : Furthest xs ys d points) (he : Entered points t z) {x y : Nat}
    (hx : x ≤ z) (hxy : x + 2 * t = y + (d + 1)) : Reached xs ys x y (d + 1) := by
  rcases he.origin with ⟨s, rfl, hs⟩ | ⟨v, hv, rfl⟩
  · cases y with
    | zero => exact (Reached.old_edge xs ys x).mono (by omega)
    | succ y => exact (h.reached s z hs x y hx (by omega)).down
  · have ht := h.lt_of_point hv
    cases x with
    | zero => exact (Reached.new_edge xs ys y).mono (by omega)
    | succ x => exact (h.reached t v hv x y (by omega) (by omega)).right

/-- No script of one more edit passes by where a diagonal is entered. -/
theorem le_entered (h : Furthest xs ys d points) (he : Entered points t z) {x y e : Nat}
    (hx : x ≤ xs.length) (hy : y ≤ ys.length) (hxy : x + 2 * t = y + (d + 1)) (hd : e < d + 1)
    (hlast : (∃ x', x = x' + 1 ∧ Edits (xs.take x') (ys.take y) e) ∨
      ∃ y', y = y' + 1 ∧ Edits (xs.take x) (ys.take y') e) : x ≤ z := by
  rcases hlast with ⟨x', rfl, hedits⟩ | ⟨y', rfl, hedits⟩
  · obtain ⟨v, hv, hxv⟩ := h.furthest t x' y e (by omega) hy (by omega) (by omega) hedits
    have := he.below v hv
    omega
  · have hlen := hedits.length_left_le
    rw [List.length_take, List.length_take] at hlen
    obtain ⟨s, rfl⟩ : ∃ s, t = s + 1 := Nat.exists_eq_succ_of_ne_zero (by omega)
    obtain ⟨u, hu, hxu⟩ := h.furthest s x y' e hx (by omega) (by omega) (by omega) hedits
    exact Nat.le_trans hxu (he.above s u rfl hu)

end Furthest

/-- What round `d` starts from: the virtual point before the first round, else the points of the
round before. -/
def Ready (xs ys : List α) (points : List Nat) : Nat → Prop
  | 0 => points = [0]
  | d + 1 => Furthest xs ys d points

variable [DecidableEq α] {xs ys : List α} {points : List Nat} {d : Nat}

theorem Ready.length_round (h : Ready xs ys points d) :
    (round xs.toArray ys.toArray d points).length = d + 1 := by
  cases d with
  | zero =>
    cases h
    rfl
  | succ d => exact length_round_succ _ _ (Furthest.length_eq h)

/-- One point of a round: where its diagonal is entered, moved on along equal elements. -/
theorem Ready.point (h : Ready xs ys points d) {t : Nat} (ht : t ≤ d) :
    ∃ x y, x + 2 * t = y + d ∧ EntersAt xs ys d x y ∧
      (round xs.toArray ys.toArray d points)[t]? = some ⟨(d : Int) - 2 * t, x,
        x + commonPrefix (xs.drop x) (ys.drop y)⟩ := by
  cases d with
  | zero =>
    cases h
    obtain rfl : t = 0 := by omega
    refine ⟨0, 0, rfl, ⟨?_, ?_⟩, ?_⟩
    · intro x' y' hx hxy
      obtain rfl : x' = 0 := by omega
      obtain rfl : y' = 0 := by omega
      exact Reached.old_edge xs ys 0
    · intro x' y' e _ _ _ he
      omega
    · have hadv := advance_eq xs ys (show 0 + 2 * 0 = 0 + 0 from rfl)
      rw [round_zero]
      simpa using hadv
  | succ d =>
    have hf : Furthest xs ys d points := h
    obtain ⟨x, he, hr⟩ := getElem?_round_succ xs.toArray ys.toArray hf.length_eq ht
    have hrow := hf.entered_nonneg he
    refine ⟨x, x + 2 * t - (d + 1), by omega, ⟨?_, ?_⟩, ?_⟩
    · intro x' y' hx hxy
      exact hf.entered_reached he hx (by omega)
    · intro x' y' e hx hy hxy
      have hxy' : x' + 2 * t = y' + (d + 1) := by omega
      exact hf.le_entered he hx hy hxy'
    · rw [hr, advance_eq xs ys (y := x + 2 * t - (d + 1)) (by omega)]

theorem Ready.point_of_mem (h : Ready xs ys points d) {r : Reach}
    (hr : r ∈ round xs.toArray ys.toArray d points) :
    ∃ t x y, x + 2 * t = y + d ∧ EntersAt xs ys d x y ∧
      (round xs.toArray ys.toArray d points)[t]? = some r ∧
      r = ⟨(d : Int) - 2 * t, x, x + commonPrefix (xs.drop x) (ys.drop y)⟩ := by
  obtain ⟨t, hrt⟩ := List.mem_iff_getElem?.mp hr
  have ht := (List.getElem?_eq_some_iff.mp hrt).1
  rw [h.length_round] at ht
  obtain ⟨x, y, hxy, henters, hpoint⟩ := h.point (Nat.lt_succ_iff.mp ht)
  exact ⟨t, x, y, hxy, henters, hrt, Option.some.inj (hrt.symm.trans hpoint)⟩

theorem Ready.mem_of_point (h : Ready xs ys points d) {t z : Nat}
    (hz : ((round xs.toArray ys.toArray d points).map (·.furthest))[t]? = some z) :
    ∃ r ∈ round xs.toArray ys.toArray d points, r.diagonal = (d : Int) - 2 * t ∧
      r.furthest = z := by
  rw [List.getElem?_map, Option.map_eq_some_iff] at hz
  obtain ⟨r, hr, hz⟩ := hz
  have ht := (List.getElem?_eq_some_iff.mp hr).1
  rw [h.length_round] at ht
  obtain ⟨x, y, -, -, hpoint⟩ := h.point (Nat.lt_succ_iff.mp ht)
  refine ⟨r, List.mem_of_getElem? hr, ?_, hz⟩
  rw [hpoint] at hr
  cases hr
  rfl

/-- The points of a round are the furthest of its number of edits. -/
theorem Ready.furthest (h : Ready xs ys points d) :
    Furthest xs ys d ((round xs.toArray ys.toArray d points).map (·.furthest)) := by
  have hlen : ((round xs.toArray ys.toArray d points).map (·.furthest)).length = d + 1 := by
    rw [List.length_map, h.length_round]
  have hpoint {t z : Nat}
      (hz : ((round xs.toArray ys.toArray d points).map (·.furthest))[t]? = some z) : t ≤ d := by
    have := (List.getElem?_eq_some_iff.mp hz).1
    omega
  refine ⟨hlen, ?_, ?_, ?_⟩
  · intro t z hz
    obtain ⟨x, y, hxy, -, hr⟩ := h.point (hpoint hz)
    rw [List.getElem?_map, hr] at hz
    cases hz
    dsimp only
    omega
  · intro t z hz x' y' hx' hxy'
    obtain ⟨x, y, hxy, henters, hr⟩ := h.point (hpoint hz)
    rw [List.getElem?_map, hr] at hz
    cases hz
    exact henters.reached_run hx' (by omega)
  · intro t x' y' e hx' hy' hxy' he hedits
    have hle := hedits.length_right_le
    rw [List.length_take, List.length_take] at hle
    obtain ⟨x, y, hxy, henters, hr⟩ := h.point (show t ≤ d by omega)
    refine ⟨_, by rw [List.getElem?_map, hr]; rfl, ?_⟩
    exact henters.le_run hx' hy' (by omega) he hedits

end SymbolHistory.Diff
