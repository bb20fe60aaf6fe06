import SymbolHistory.Proofs.Distinct
import SymbolHistory.Proofs.Evolution.ViewRecovery
import SymbolHistory.Report.ViewLine

namespace SymbolHistory

open Diff (LineChange ChangeKind IsPatch ofKind)

namespace Diff.IsPatch

variable {key : String → String} {i j : Nat} {xs ys : List String} {cs : List LineChange}

theorem min_le_line (h : IsPatch key i j xs ys cs) {c : LineChange} (hc : c ∈ cs) :
    min i j ≤ c.line := by
  have hof (kind : ChangeKind) (hkind : c.kind = kind) : c ∈ ofKind kind cs :=
    List.mem_filter.mpr ⟨hc, by simpa using hkind⟩
  cases hkind : c.kind with
  | delete => exact Nat.le_trans (Nat.min_le_left i j) (h.deleted_increasing.2 c (hof _ hkind))
  | add => exact Nat.le_trans (Nat.min_le_right i j) (h.added_increasing.2 c (hof _ hkind))

end Diff.IsPatch

theorem VersionChain.Linked.isPatch {c : VersionChain} (hc : c.Linked) {t : Transition}
    (ht : t ∈ c.transitions) :
    ∃ xs ys, IsPatch Diff.LineComparison.ignoringBlanks.key 1 1 xs ys t.changes := by
  obtain ⟨i, hi⟩ := List.mem_iff_getElem?.mp ht
  obtain ⟨v, w, -, -, hlink⟩ := hc.links i t hi
  rw [hlink.changes_eq]
  exact ⟨_, _, Diff.lineDiff_isPatch v.content w.content .ignoringBlanks⟩

theorem taggedFrom_eq_flatMap (first : Nat) (ts : List Transition) :
    taggedFrom first ts = (ts.zipIdx first).flatMap fun p => p.1.changes.map (⟨·, p.2⟩) := by
  induction ts generalizing first with
  | nil => rfl
  | cons t ts ih => rw [taggedFrom, ih, List.zipIdx_cons, List.flatMap_cons]

theorem map_change_taggedFrom (first : Nat) (ts : List Transition) :
    (taggedFrom first ts).map (·.change) = ts.flatMap (·.changes) := by
  induction ts generalizing first with
  | nil => rfl
  | cons t ts ih =>
    have hid : t.changes.map (TaggedChange.change ∘ (⟨·, first⟩)) = t.changes := List.map_id _
    rw [taggedFrom, List.map_append, ih, List.map_map, hid, List.flatMap_cons]

theorem getLast?_eq_max? {l m : List Nat} (hl : l.Pairwise (· < ·)) (h : ∀ n, n ∈ l ↔ n ∈ m) :
    l.getLast? = m.max? := by
  cases hlast : l.getLast? with
  | none =>
    have hnil : m = [] := by
      apply List.eq_nil_iff_forall_not_mem.mpr
      intro n hn
      rw [← h, List.getLast?_eq_none_iff.mp hlast] at hn
      cases hn
    rw [hnil]
    rfl
  | some n =>
    obtain ⟨front, rfl⟩ := List.getLast?_eq_some_iff.mp hlast
    refine (List.max?_eq_some_iff.mpr ⟨(h n).mp (by simp), ?_⟩).symm
    intro k hk
    rcases List.mem_append.mp ((h k).mpr hk) with hk | hk
    · exact Nat.le_of_lt ((List.pairwise_append.mp hl).2.2 k hk n (List.mem_singleton_self n))
    · exact Nat.le_of_eq (List.mem_singleton.mp hk)

namespace CompressedView

variable {c : VersionChain}

/-- The lines that the transitions of a chain touch. -/
def touchedLines (c : VersionChain) : List Nat := (c.transitions.flatMap (·.changes)).map (·.line)

theorem map_line_tagged (c : VersionChain) :
    (taggedFrom 0 c.transitions).map (·.change.line) = touchedLines c := by
  rw [touchedLines, ← map_change_taggedFrom 0, List.map_map]
  rfl

theorem mem_gatheredLines {changes : List TaggedChange} {n : Nat} :
    n ∈ ((changes.map (·.change.line)).mergeSort (· ≤ ·)).eraseDups ↔
      n ∈ changes.map (·.change.line) := by
  rw [List.mem_eraseDups, List.mem_mergeSort]

/-- The changes at a line are those of all transitions with its number, in their order. -/
theorem changesAt_ofChain (c : VersionChain) (n : Nat) :
    (ofChain c).changesAt n = (taggedFrom 0 c.transitions).filter (·.change.line == n) := by
  simp only [changesAt, ofChain, gatherByLine, List.find?_map, Option.map_map]
  generalize taggedFrom 0 c.transitions = changes
  cases hfind : List.find? _ ((changes.map (·.change.line)).mergeSort (· ≤ ·)).eraseDups with
  | some m =>
    obtain rfl : m = n := by simpa using List.find?_some hfind
    rfl
  | none =>
    -- No bucket has the number, so no change does.
    symm
    apply List.filter_eq_nil_iff.mpr
    intro d hd
    have hmem := mem_gatheredLines.mpr (List.mem_map_of_mem hd)
    simpa using List.find?_eq_none.mp hfind _ hmem

/-- A view reaches to the end of the final text or to the highest line touched. -/
theorem span_ofChain (c : VersionChain) :
    (ofChain c).span = max (ofChain c).finalLines.length ((touchedLines c).max?.getD 0) := by
  have hlast : (ofChain c).changesByLine.getLast?.map (·.line) = (touchedLines c).max? := by
    have hlines : (ofChain c).changesByLine.map (·.line) =
        (((taggedFrom 0 c.transitions).map (·.change.line)).mergeSort (· ≤ ·)).eraseDups := by
      rw [ofChain, gatherByLine, List.map_map]
      exact List.map_id _
    -- The buckets increase by line, so the last of them has the highest line.
    rw [← List.getLast?_map, hlines, ← map_line_tagged]
    exact getLast?_eq_max? (gatheredLines_increasing _) fun n => mem_gatheredLines
  rw [span, hlast]

theorem length_le_span (c : VersionChain) : (ofChain c).finalLines.length ≤ (ofChain c).span := by
  rw [span_ofChain]
  exact Nat.le_max_left _ _

theorem le_span_of_mem_touchedLines {n : Nat} (h : n ∈ touchedLines c) : n ≤ (ofChain c).span := by
  rw [span_ofChain]
  refine Nat.le_trans ?_ (Nat.le_max_right _ _)
  cases hmax : (touchedLines c).max? with
  | none =>
    rw [List.max?_eq_none_iff.mp hmax] at h
    cases h
  | some m => exact (List.max?_eq_some_iff.mp hmax).2 n h

theorem one_le_of_mem_touchedLines (hc : c.Linked) {n : Nat} (h : n ∈ touchedLines c) : 1 ≤ n := by
  obtain ⟨d, hd, rfl⟩ := List.mem_map.mp h
  obtain ⟨t, ht, hd⟩ := List.mem_flatMap.mp hd
  obtain ⟨xs, ys, hpatch⟩ := hc.isPatch ht
  exact hpatch.min_le_line hd

end CompressedView

namespace Report

open CompressedView

/-- The lines of a final text, as a view prints them. -/
def finalEntries (lines : List String) : List ViewLine :=
  (lines.zipIdx 1).map fun p => ⟨p.2, .final, p.1, none⟩

/-- The changes of all transitions in their order, as a view prints them. -/
def changeEntries (transitions : List Transition) (shades : Nat) : List ViewLine :=
  transitions.zipIdx.flatMap fun p => p.1.changes.map fun d =>
    ⟨d.line, Marker.ofChange d.kind, d.content, some (shadeOf p.2 transitions.length shades)⟩

/-- What a view prints at a line. -/
def linesAt (v : CompressedView) (shades n : Nat) : List ViewLine :=
  rowLines v.transitionCount shades ⟨n, v.finalLines[n - 1]?, v.changesAt n⟩

theorem line_of_mem_linesAt {v : CompressedView} {shades n : Nat} {l : ViewLine}
    (h : l ∈ linesAt v shades n) : l.line = n := by
  rcases List.mem_append.mp h with h | h
  · obtain ⟨t, -, rfl⟩ := Option.map_eq_some_iff.mp (Option.mem_toList.mp h)
    rfl
  · obtain ⟨d, -, rfl⟩ := List.mem_map.mp h
    rfl

theorem viewLines_eq_flatMap (v : CompressedView) (shades : Nat) :
    viewLines v shades = (List.range' 1 v.span).flatMap (linesAt v shades) := by
  have hrow (n : Nat) :
      ((v.row? n).toList.flatMap (rowLines v.transitionCount shades)) = linesAt v shades n := by
    unfold row? linesAt
    dsimp only
    split
    · next h =>
      obtain ⟨htext, hchanges⟩ : v.finalLines[n - 1]? = none ∧ v.changesAt n = [] := by
        simpa using h
      simp [rowLines, htext, hchanges]
    · simp
  rw [viewLines, rows]
  induction List.range' 1 v.span with
  | nil => rfl
  | cons n ns ih =>
    rw [List.flatMap_cons, ← ih, ← hrow n]
    cases hn : v.row? n <;> simp [hn]

theorem filter_line_viewLines (v : CompressedView) (shades n : Nat) :
    (viewLines v shades).filter (·.line == n) =
      if 1 ≤ n ∧ n ≤ v.span then linesAt v shades n else [] := by
  have hmem : n ∈ List.range' 1 v.span ↔ 1 ≤ n ∧ n ≤ v.span := by
    rw [List.mem_range'_1]
    omega
  rw [viewLines_eq_flatMap, filter_flatMap_of_key (fun _ _ => line_of_mem_linesAt)
    List.nodup_range']
  simp only [hmem]

theorem filter_line_finalEntries (lines : List String) (n : Nat) :
    (finalEntries lines).filter (·.line == n) =
      if 1 ≤ n then ((lines[n - 1]?).map fun t => ⟨n, .final, t, none⟩).toList else [] := by
  have hfrom (k : Nat) :
      ((lines.zipIdx k).map fun p => (⟨p.2, .final, p.1, none⟩ : ViewLine)).filter (·.line == n) =
        if k ≤ n then ((lines[n - k]?).map fun t => ⟨n, .final, t, none⟩).toList else [] := by
    induction lines generalizing k with
    | nil => simp
    | cons t lines ih =>
      rw [List.zipIdx_cons, List.map_cons, List.filter_cons, ih (k + 1)]
      rcases Nat.lt_trichotomy k n with h | rfl | h
      · have hstep : n - k = n - (k + 1) + 1 := by omega
        simp [Nat.ne_of_lt h, Nat.le_of_lt h, Nat.succ_le_of_lt h, hstep]
      · simp
      · simp [Nat.ne_of_gt h, Nat.not_le_of_gt h, Nat.not_le_of_gt (Nat.lt_succ_of_lt h)]
  exact hfrom 1

def changeEntry (count shades : Nat) (d : TaggedChange) : ViewLine :=
  ⟨d.change.line, Marker.ofChange d.change.kind, d.change.content,
    some (shadeOf d.transition count shades)⟩

theorem changeEntries_eq_map (ts : List Transition) (shades : Nat) :
    changeEntries ts shades = (taggedFrom 0 ts).map (changeEntry ts.length shades) := by
  rw [taggedFrom_eq_flatMap, List.map_flatMap, changeEntries]
  simp only [List.map_map]
  rfl

theorem filter_line_changeEntries (c : VersionChain) (shades n : Nat) :
    (changeEntries c.transitions shades).filter (·.line == n) =
      ((ofChain c).changesAt n).map (changeEntry c.transitions.length shades) := by
  rw [changeEntries_eq_map, List.filter_map, changesAt_ofChain]
  rfl

theorem changesAt_eq_nil {c : VersionChain} {n : Nat} (h : n ∉ touchedLines c) :
    (ofChain c).changesAt n = [] := by
  rw [changesAt_ofChain]
  apply List.filter_eq_nil_iff.mpr
  intro d hd hline
  obtain rfl : d.change.line = n := by simpa using hline
  rw [← map_line_tagged] at h
  exact h (List.mem_map_of_mem hd)

/-- At a line a view prints the final text first, then the changes in the order of transitions. -/
theorem linesAt_ofChain (c : VersionChain) (shades n : Nat) :
    linesAt (ofChain c) shades n =
      (((ofChain c).finalLines[n - 1]?).map fun t => ⟨n, .final, t, none⟩).toList ++
        ((ofChain c).changesAt n).map (changeEntry c.transitions.length shades) := by
  unfold linesAt rowLines
  congr 1
  apply List.map_congr_left
  intro d hd
  -- A row prints its own number, which is that of the changes in it.
  have hline : d.change.line = n := by
    rw [changesAt_ofChain] at hd
    simpa using (List.mem_filter.mp hd).2
  rw [changeEntry, hline]
  rfl

theorem filter_line_viewLines_ofChain {c : VersionChain} (hc : c.Linked) (shades n : Nat) :
    (viewLines (ofChain c) shades).filter (·.line == n) =
      (finalEntries (ofChain c).finalLines).filter (·.line == n) ++
        (changeEntries c.transitions shades).filter (·.line == n) := by
  rw [filter_line_viewLines, filter_line_finalEntries, filter_line_changeEntries]
  by_cases hn : 1 ≤ n ∧ n ≤ (ofChain c).span
  · rw [if_pos hn, if_pos hn.1, linesAt_ofChain]
  · -- Outside the view there is neither a final line nor a change.
    have htouched : n ∉ touchedLines c := fun h =>
      hn ⟨one_le_of_mem_touchedLines hc h, le_span_of_mem_touchedLines h⟩
    rw [if_neg hn, changesAt_eq_nil htouched, List.map_nil, List.append_nil]
    by_cases hpos : 1 ≤ n
    · have hlength := length_le_span c
      have hbeyond : (ofChain c).finalLines[n - 1]? = none := by
        rw [List.getElem?_eq_none_iff]
        omega
      rw [if_pos hpos, hbeyond]
      rfl
    · rw [if_neg hpos]

theorem perm_of_filter_line {l m : List ViewLine}
    (h : ∀ n, l.filter (·.line == n) = m.filter (·.line == n)) : l.Perm m :=
  perm_of_filter_key h

end Report
end SymbolHistory
