import SymbolHistory.Proofs.Diff.FurthestPoints

namespace SymbolHistory.Diff

variable {α : Type} {xs ys : List α} {x y d e : Nat}

/-- A point that cuts a shortest edit script into two of nearly equal length. -/
structure CutsInHalf (xs ys : List α) (x y : Nat) : Prop where
  old_le : x ≤ xs.length
  new_le : y ≤ ys.length
  shortest : ∃ e f, Edits (xs.take x) (ys.take y) e ∧ Edits (xs.drop x) (ys.drop y) f ∧
    f ≤ e ∧ e ≤ f + 1 ∧ ∀ n, Edits xs ys n → e + f ≤ n

theorem CutsInHalf.of_le {c f : Nat} (hx : x ≤ xs.length) (hy : y ≤ ys.length)
    (htake : Edits (xs.take x) (ys.take y) e) (he : e ≤ d)
    (hdrop : Edits (xs.drop x) (ys.drop y) f) (hf : f ≤ c) (hc : c ≤ d) (hd : d ≤ c + 1)
    (hmin : ∀ n, Edits xs ys n → d + c ≤ n) : CutsInHalf xs ys x y := by
  have hall := htake.append hdrop
  rw [List.take_append_drop, List.take_append_drop] at hall
  have hsum := hmin _ hall
  obtain rfl : e = d := by omega
  obtain rfl : f = c := by omega
  exact ⟨hx, hy, e, f, htake, hdrop, hc, hd, hmin⟩

/-- Lists that differ at both ends have edits on both sides of the cut, so each half is shorter than
the whole. -/
theorem CutsInHalf.shorter (h : CutsInHalf xs ys x y) (hxs : xs ≠ []) (hys : ys ≠ [])
    (hhead : ∀ a ∈ xs.head?, a ∉ ys.head?) (hlast : ∀ a ∈ xs.getLast?, a ∉ ys.getLast?) :
    0 < x + y ∧ x + y < xs.length + ys.length := by
  obtain ⟨e, f, htake, hdrop, hfe, hef, -⟩ := h.shortest
  have hall := htake.append hdrop
  rw [List.take_append_drop, List.take_append_drop] at hall
  have htwo := hall.two_le hxs hys hhead hlast
  have hte := htake.le_length
  have hdf := hdrop.le_length
  rw [List.length_take, List.length_take] at hte
  rw [List.length_drop, List.length_drop] at hdf
  have hx := h.old_le
  have hy := h.new_le
  omega

theorem take_reverse_of_length {z : Nat} (hx : xs.length = z + x) :
    xs.reverse.take z = (xs.drop x).reverse := by
  rw [List.take_reverse, hx, Nat.add_sub_cancel_left]

/-- What the front from the end has reached is the rest of a script. -/
theorem Reached.edits_drop {z w : Nat} (h : Reached xs.reverse ys.reverse z w d)
    (hx : xs.length = z + x) (hy : ys.length = w + y) :
    ∃ f ≤ d, Edits (xs.drop x) (ys.drop y) f := by
  obtain ⟨f, hf, hd⟩ := h
  rw [take_reverse_of_length hx, take_reverse_of_length hy] at hf
  have hr := hf.reverse
  rw [List.reverse_reverse, List.reverse_reverse] at hr
  exact ⟨f, by omega, hr⟩

/-- Two fronts whose rounds make up the edits of a script meet. -/
theorem Furthest.exists_meeting {forth back : List Nat} (hf : Furthest xs ys d forth)
    (hb : Furthest xs.reverse ys.reverse e back) (h : Edits xs ys (d + e)) :
    ∃ t s z b, forth[t]? = some z ∧ back[s]? = some b ∧
      xs.length + 2 * t + 2 * s = ys.length + d + e ∧ xs.length ≤ z + b := by
  -- The script passes a point after `d` edits, which neither front has left behind.
  obtain ⟨x, y, hx, hy, htake, hdrop⟩ := h.split (Nat.le_add_right d e)
  rw [Nat.add_sub_cancel_left] at hdrop
  obtain ⟨u, hu⟩ := Nat.exists_eq_add_of_le' hx
  obtain ⟨v, hv⟩ := Nat.exists_eq_add_of_le' hy
  have hback := hdrop.reverse
  rw [← take_reverse_of_length hu, ← take_reverse_of_length hv] at hback
  obtain ⟨t, ht⟩ := htake.exists_number hx hy
  obtain ⟨s, hs⟩ := hback.exists_number (by simp [hu]) (by simp [hv])
  obtain ⟨z, hz, hxz⟩ := hf.furthest t x y d hx hy ht (Nat.le_refl d) htake
  obtain ⟨b, hb, hub⟩ := hb.furthest s u v e (by simp [hu]) (by simp [hv]) hs (Nat.le_refl e) hback
  exact ⟨t, s, z, b, hz, hb, by omega, by omega⟩

/-- A front meets the opposite one where their points on one diagonal make up the old list. -/
theorem meets_iff (n m : Nat) {t : Nat} {back : List Nat} {r : Reach} (hlen : back.length = e + 1)
    (hr : r.diagonal = (d : Int) - 2 * t) (hpar : (n + m + d + e) % 2 = 0) :
    meets n ((n : Int) - m) e back.toArray r = true ↔
      ∃ s b, back[s]? = some b ∧ n + 2 * t + 2 * s = m + d + e ∧ n ≤ r.furthest + b := by
  have hfar {s b : Nat} (hb : back[s]? = some b) (hs : n + 2 * t + 2 * s = m + d + e) :
      furthestOn e back.toArray ((n : Int) - m - r.diagonal) = b := by
    rw [furthestOn, show ((e : Int) - ((n : Int) - m - r.diagonal)) / 2 = s by omega]
    simp [Array.getD_eq_getD_getElem?, hb]
  simp only [meets, Bool.and_eq_true, decide_eq_true_eq]
  constructor
  · rintro ⟨hk, hn⟩
    obtain ⟨s, hs⟩ : ∃ s : Nat, n + 2 * t + 2 * s = m + d + e :=
      ⟨(m + d + e - n - 2 * t) / 2, by omega⟩
    have hget : back[s]? = some back[s] := List.getElem?_eq_getElem (by omega)
    rw [hfar hget hs] at hn
    exact ⟨s, back[s], hget, hs, hn⟩
  · rintro ⟨s, b, hb, hs, hn⟩
    have hlt := (List.getElem?_eq_some_iff.mp hb).1
    rw [hfar hb hs]
    exact ⟨by omega, hn⟩

variable [DecidableEq α]

theorem Edits.of_run {us vs : List α} {n : Nat} (hn : n ≤ commonPrefix us vs)
    (h : Edits (us.drop n) (vs.drop n) d) : Edits us vs d := by
  have htake : us.take n = vs.take n := by
    have hp := congrArg (List.take n) (take_commonPrefix us vs)
    rwa [List.take_take, List.take_take, Nat.min_eq_left hn] at hp
  have hall := (Edits.same (us.take n)).append h
  rwa [List.take_append_drop, htake, List.take_append_drop, Nat.zero_add] at hall

/-- The invariant of the search: both fronts are ready, and no script is so short that they could
have met. -/
structure Searched (xs ys : List α) (d : Nat) (forth back : List Nat) : Prop where
  forth_ready : Ready xs ys forth d
  back_ready : Ready xs.reverse ys.reverse back d
  apart : ∀ n, Edits xs ys n → 2 * d ≤ n + 1

namespace Searched

variable {forth back : List Nat} {r : Reach}

/-- Where the front from the start meets the other one, the script is cut at the start of its last
run. -/
theorem forth_cutsInHalf (h : Searched xs ys (d + 1) forth back)
    (hodd : (xs.length + ys.length) % 2 = 1)
    (hr : r ∈ round xs.toArray ys.toArray (d + 1) forth)
    (hm : meets xs.length ((xs.length : Int) - ys.length) d back.toArray r = true) :
    CutsInHalf xs ys r.entered ((r.entered : Int) - r.diagonal).toNat := by
  have hback : Furthest xs.reverse ys.reverse d back := h.back_ready
  have hmin : ∀ n, Edits xs ys n → d + 1 + d ≤ n := by
    intro n hn
    have := h.apart n hn
    have := hn.parity
    omega
  obtain ⟨t, x, y, hxy, henters, -, rfl⟩ := h.forth_ready.point_of_mem hr
  obtain ⟨s, b, hb, hs, hn⟩ := (meets_iff _ _ hback.length_eq rfl (by omega)).mp hm
  have hsd := hback.lt_of_point hb
  have hreached := henters.reached x y (Nat.le_refl x) (Nat.add_comm x y)
  obtain ⟨hx, hy⟩ := hreached.inside (c := d) (by omega) hmin
  obtain ⟨f, htake, hfd⟩ := hreached
  -- The other front ends on the run or before it.
  obtain ⟨i, u, hi, hub, hu⟩ : ∃ i u, i ≤ commonPrefix (xs.drop x) (ys.drop y) ∧ u ≤ b ∧
      xs.length = u + (x + i) :=
    ⟨xs.length - b - x, min b (xs.length - x), by dsimp only at hn; omega, by omega, by omega⟩
  have hiy := commonPrefix_le_right (xs.drop x) (ys.drop y)
  rw [List.length_drop] at hiy
  obtain ⟨v, hv⟩ := Nat.exists_eq_add_of_le' (show y + i ≤ ys.length by omega)
  obtain ⟨g, hg, hdrop⟩ := (hback.reached s b hb u v hub (by omega)).edits_drop hu hv
  rw [← List.drop_drop, ← List.drop_drop] at hdrop
  have hcut : ((x : Int) - (((d + 1 : Nat) : Int) - 2 * t)).toNat = y := by omega
  rw [hcut]
  exact CutsInHalf.of_le hx hy htake (by omega) (hdrop.of_run hi) hg (Nat.le_succ d)
    (Nat.le_refl _) hmin

theorem back_cutsInHalf (h : Searched xs ys d forth back)
    (heven : (xs.length + ys.length) % 2 = 0)
    (hr : r ∈ round xs.reverse.toArray ys.reverse.toArray d back)
    (hm : meets xs.length ((xs.length : Int) - ys.length) d
      ((round xs.toArray ys.toArray d forth).map (·.furthest)).toArray r = true) :
    CutsInHalf xs ys (xs.length - r.furthest)
      ((ys.length : Int) - ((r.furthest : Int) - r.diagonal)).toNat := by
  have hforth := h.forth_ready.furthest
  have hmin : ∀ n, Edits xs ys n → d + d ≤ n := by
    intro n hn
    have := h.apart n hn
    have := hn.parity
    omega
  obtain ⟨t, x₀, y₀, -, -, hpoint, rfl⟩ := h.back_ready.point_of_mem hr
  have hback := h.back_ready.furthest
  obtain ⟨s, b, hb, hs, hn⟩ := (meets_iff _ _ hforth.length_eq rfl (by omega)).mp hm
  have hsd := hforth.lt_of_point hb
  have hz : ((round xs.reverse.toArray ys.reverse.toArray d back).map (·.furthest))[t]? =
      some (x₀ + commonPrefix (xs.reverse.drop x₀) (ys.reverse.drop y₀)) := by
    rw [List.getElem?_map, hpoint]
    rfl
  dsimp only at hn ⊢
  generalize x₀ + commonPrefix (xs.reverse.drop x₀) (ys.reverse.drop y₀) = z at hz hn ⊢
  obtain ⟨w, hw⟩ := Nat.exists_eq_add_of_le (hback.new_nonneg t z hz)
  have hreached := hback.reached t z hz z w (Nat.le_refl z) (by omega)
  have hin := hreached.inside (c := d) (by simp only [List.length_reverse]; omega)
    (fun n hn => hmin n (by simpa using hn.reverse))
  rw [List.length_reverse, List.length_reverse] at hin
  obtain ⟨x, hx⟩ := Nat.exists_eq_add_of_le hin.1
  obtain ⟨y, hy⟩ := Nat.exists_eq_add_of_le hin.2
  have hcut : ((ys.length : Int) - ((z : Int) - ((d : Int) - 2 * t))).toNat = y := by
    rw [show (z : Int) - ((d : Int) - 2 * t) = w by omega, hy]
    omega
  rw [hcut, hx, Nat.add_sub_cancel_left]
  obtain ⟨f, hf, hdrop⟩ := hreached.edits_drop hx hy
  obtain ⟨e, htake, he⟩ := hforth.reached s b hb x y (by omega) (by omega)
  exact CutsInHalf.of_le (hx ▸ Nat.le_add_left x z) (hy ▸ Nat.le_add_left y w) htake (by omega)
    hdrop hf (Nat.le_refl d) (Nat.le_succ d) hmin

/-- A round from the start that finds nothing rules out the scripts it could have found. -/
theorem forth_apart (h : Searched xs ys d forth back) (hodd : (xs.length + ys.length) % 2 = 1)
    (hnone : d ≠ 0 → ∀ r ∈ round xs.toArray ys.toArray d forth,
      meets xs.length ((xs.length : Int) - ys.length) (d - 1) back.toArray r = false) (n : Nat)
    (hn : Edits xs ys n) : 2 * (d + 1) ≤ n + 1 := by
  have hpar := hn.parity
  have hge := h.apart n hn
  by_contra hlt
  cases d with
  | zero => omega
  | succ d =>
    obtain rfl : n = d + 1 + d := by omega
    have hback : Furthest xs.reverse ys.reverse d back := h.back_ready
    obtain ⟨t, s, z, b, hz, hb, hs, hle⟩ := h.forth_ready.furthest.exists_meeting hback hn
    obtain ⟨r, hr, hdiag, rfl⟩ := h.forth_ready.mem_of_point hz
    have hmeets := (meets_iff _ _ hback.length_eq hdiag (by omega)).mpr ⟨s, b, hb, hs, hle⟩
    exact Bool.noConfusion ((hnone (Nat.succ_ne_zero d) r hr).symm.trans hmeets)

theorem back_apart (h : Searched xs ys d forth back) (heven : (xs.length + ys.length) % 2 = 0)
    (hnone : ∀ r ∈ round xs.reverse.toArray ys.reverse.toArray d back,
      meets xs.length ((xs.length : Int) - ys.length) d
        ((round xs.toArray ys.toArray d forth).map (·.furthest)).toArray r = false) (n : Nat)
    (hn : Edits xs ys n) : 2 * (d + 1) ≤ n + 1 := by
  have hpar := hn.parity
  have hge := h.apart n hn
  by_contra hlt
  obtain rfl : n = d + d := by omega
  have hforth := h.forth_ready.furthest
  obtain ⟨s, t, b, z, hb, hz, hs, hle⟩ := hforth.exists_meeting h.back_ready.furthest hn
  obtain ⟨r, hr, hdiag, rfl⟩ := h.back_ready.mem_of_point hz
  have hmeets := (meets_iff xs.length ys.length hforth.length_eq hdiag (by omega)).mpr
    ⟨s, b, hb, by omega, by omega⟩
  exact Bool.noConfusion ((hnone r hr).symm.trans hmeets)

theorem next (h : Searched xs ys d forth back)
    (hapart : ∀ n, Edits xs ys n → 2 * (d + 1) ≤ n + 1) :
    Searched xs ys (d + 1) ((round xs.toArray ys.toArray d forth).map (·.furthest))
      ((round xs.reverse.toArray ys.reverse.toArray d back).map (·.furthest)) :=
  ⟨h.forth_ready.furthest, h.back_ready.furthest, hapart⟩

/-- With rounds enough for the edits that replace everything, the search ends at a point that cuts
a shortest script. -/
theorem meetingFrom_eq {fuel : Nat} (h : Searched xs ys d forth back)
    (hfuel : xs.length + ys.length + 1 < 2 * (d + fuel)) :
    ∃ x y, meetingFrom xs.toArray ys.toArray xs.reverse.toArray ys.reverse.toArray d forth back
      fuel = some (x, y) ∧ CutsInHalf xs ys x y := by
  induction fuel generalizing d forth back with
  | zero =>
    have := h.apart _ (Edits.all xs ys)
    omega
  | succ fuel ih =>
    simp only [meetingFrom, List.size_toArray]
    by_cases hodd : (xs.length + ys.length) % 2 = 1
    · have hdelta : (((xs.length : Int) - ys.length) % 2 != 0) = true := by
        rw [bne_iff_ne]
        omega
      simp only [hdelta, Bool.true_and, if_true]
      split
      · next r hr =>
        split at hr
        · next hd =>
          obtain ⟨d, rfl⟩ := Nat.exists_eq_succ_of_ne_zero (by simpa using hd)
          exact ⟨_, _, rfl, h.forth_cutsInHalf hodd (List.mem_of_find?_eq_some hr)
            (List.find?_some hr)⟩
        · cases hr
      · next hnone =>
        refine ih (h.next (h.forth_apart hodd ?_)) (by omega)
        intro hd r hr
        rw [if_pos (by simpa using hd)] at hnone
        simpa using List.find?_eq_none.mp hnone r hr
    · have hdelta : (((xs.length : Int) - ys.length) % 2 != 0) = false := by
        rw [bne_eq_false_iff_eq]
        omega
      simp only [hdelta, Bool.false_and, Bool.false_eq_true, if_false]
      split
      · next r hr =>
        exact ⟨_, _, rfl, h.back_cutsInHalf (by omega) (List.mem_of_find?_eq_some hr)
          (List.find?_some hr)⟩
      · next hnone =>
        refine ih (h.next (h.back_apart (by omega) ?_)) (by omega)
        intro r hr
        simpa using List.find?_eq_none.mp hnone r hr

end Searched

/-- Two lists have a meeting point, and it cuts a shortest script. -/
theorem meeting_eq (xs ys : List α) :
    ∃ x y, meeting xs ys = some (x, y) ∧ CutsInHalf xs ys x y := by
  have hstart : Searched xs ys 0 [0] [0] := ⟨rfl, rfl, fun _ _ => by omega⟩
  exact hstart.meetingFrom_eq (by omega)

theorem meeting_cutsInHalf {xs ys : List α} {x y : Nat} (h : meeting xs ys = some (x, y)) :
    CutsInHalf xs ys x y := by
  obtain ⟨x', y', h', hcut⟩ := meeting_eq xs ys
  rw [h] at h'
  cases h'
  exact hcut

theorem meeting_le {xs ys : List α} {x y : Nat} (h : meeting xs ys = some (x, y)) :
    x ≤ xs.length ∧ y ≤ ys.length :=
  ⟨(meeting_cutsInHalf h).old_le, (meeting_cutsInHalf h).new_le⟩

end SymbolHistory.Diff
