import SymbolHistory.Proofs.Report.ViewCompleteness
import SymbolHistory.Report.ChainRecord

namespace SymbolHistory

open Diff (LineChange)

namespace VersionChain

theorem Linked.getElem?_steps {c : VersionChain} (hc : c.Linked) (k : Nat) :
    c.steps[k]? = c.versions[k]?.map fun v =>
      (v, if k = 0 then none else c.transitions[k - 1]?) := by
  have hlength := hc.length_eq
  cases hv : c.versions[k]? with
  | none =>
    rw [Option.map_none, List.getElem?_eq_none_iff, steps, List.length_zip]
    exact Nat.le_trans (Nat.min_le_left _ _) (List.getElem?_eq_none_iff.mp hv)
  | some v =>
    rw [steps, Option.map_some, List.getElem?_zip_eq_some]
    refine ⟨hv, ?_⟩
    cases k with
    | zero => rfl
    | succ k =>
      have hk : k < c.transitions.length := by
        have := (List.getElem?_eq_some_iff.mp hv).1
        omega
      simp [hk]

end VersionChain

namespace CompressedView

/-- All tagged changes of a view, in order of lines. -/
def entries (v : CompressedView) : List TaggedChange := v.changesByLine.flatMap (·.changes)

/-- The changes that a view tags with a transition. -/
def changesTagged (v : CompressedView) (transition : Nat) : List LineChange :=
  (v.entries.filter (·.transition == transition)).map (·.change)

end CompressedView

/-- Gathering by line loses and repeats nothing. -/
theorem flatMap_gatherByLine_perm (changes : List TaggedChange) :
    ((gatherByLine changes).flatMap (·.changes)).Perm changes := by
  have hlines := (gatheredLines_increasing changes).imp Nat.ne_of_lt
  have hkey : ∀ n, ∀ d ∈ changes.filter (·.change.line == n), d.change.line = n := by
    intro n d hd
    simpa using (List.mem_filter.mp hd).2
  have hsame (n : Nat) : ((gatherByLine changes).flatMap (·.changes)).filter
      (·.change.line == n) = changes.filter (·.change.line == n) := by
    rw [gatherByLine, List.flatMap_map, filter_flatMap_of_key hkey hlines]
    split
    · rfl
    · next hn =>
      -- No bucket has the number, so no change does.
      symm
      rw [List.filter_eq_nil_iff]
      intro d hd hline
      rw [CompressedView.mem_gatheredLines] at hn
      exact hn (List.mem_map.mpr ⟨d, hd, by simpa using hline⟩)
  exact perm_of_filter_key hsame

theorem le_transition_of_mem_taggedFrom {first : Nat} {ts : List Transition} {d : TaggedChange}
    (h : d ∈ taggedFrom first ts) :
    first ≤ d.transition ∧ d.transition < first + ts.length := by
  induction ts generalizing first with
  | nil => cases h
  | cons t ts ih =>
    rw [List.length_cons]
    rcases List.mem_append.mp h with h | h
    · obtain ⟨_, -, rfl⟩ := List.mem_map.mp h
      exact ⟨Nat.le_refl first, Nat.lt_add_of_pos_right (Nat.succ_pos _)⟩
    · have := ih h
      omega

theorem filter_transition_taggedFrom {ts : List Transition} {t : Transition} {i : Nat}
    (h : ts[i]? = some t) (first : Nat) :
    (taggedFrom first ts).filter (·.transition == first + i) =
      t.changes.map (⟨·, first + i⟩) := by
  induction ts generalizing first i with
  | nil => simp at h
  | cons u ts ih =>
    rw [taggedFrom, List.filter_append]
    cases i with
    | zero =>
      obtain rfl : u = t := by simpa using h
      have hlater : (taggedFrom (first + 1) ts).filter (·.transition == first + 0) = [] := by
        rw [List.filter_eq_nil_iff]
        intro d hd
        have := (le_transition_of_mem_taggedFrom hd).1
        simp only [beq_iff_eq]
        omega
      rw [hlater, List.append_nil, Nat.add_zero, List.filter_eq_self]
      simp
    | succ i =>
      have hrest := ih (by simpa using h) (first + 1)
      rw [Nat.add_right_comm, Nat.add_assoc] at hrest
      have hnone : (u.changes.map (⟨·, first⟩)).filter
          (fun d : TaggedChange => d.transition == first + (i + 1)) = [] := by
        simp
      rw [hnone, List.nil_append, hrest]

namespace CompressedView

variable {c : VersionChain}

theorem entries_ofChain_perm (c : VersionChain) :
    (ofChain c).entries.Perm (taggedFrom 0 c.transitions) :=
  flatMap_gatherByLine_perm _

theorem transition_lt_of_mem_entries {d : TaggedChange} (h : d ∈ (ofChain c).entries) :
    d.transition < c.transitions.length := by
  have := (le_transition_of_mem_taggedFrom ((entries_ofChain_perm c).mem_iff.mp h)).2
  omega

/-- What the view tags with a transition are its changes. -/
theorem changesTagged_ofChain_perm {t : Transition} {i : Nat} (h : c.transitions[i]? = some t) :
    ((ofChain c).changesTagged i).Perm t.changes := by
  have hof := filter_transition_taggedFrom h 0
  rw [Nat.zero_add] at hof
  have hperm := ((entries_ofChain_perm c).filter (·.transition == i)).map (·.change)
  rw [hof, List.map_map] at hperm
  simpa [changesTagged, Function.comp_def] using hperm

end CompressedView

namespace Report

open CompressedView

variable {c : VersionChain} {shades : Nat}

theorem getElem?_versionRecordsFrom (count shades first : Nat)
    (steps : List (Version × Option Transition)) (k : Nat) :
    (versionRecordsFrom count shades first steps)[k]? = steps[k]?.map fun p =>
      ⟨p.1, p.2.map (·.changes),
        if first + k = 0 then none else some (shadeOf (first + k - 1) count shades)⟩ := by
  induction steps generalizing first k with
  | nil => rfl
  | cons p steps ih =>
    cases k with
    | zero => rfl
    | succ k =>
      rw [versionRecordsFrom, List.getElem?_cons_succ, List.getElem?_cons_succ, ih,
        Nat.add_right_comm, Nat.add_assoc]

theorem map_versionRecordsFrom (count shades first : Nat)
    (steps : List (Version × Option Transition)) :
    (versionRecordsFrom count shades first steps).map (fun r => (r.version, r.changes)) =
      steps.map fun p => (p.1, p.2.map (·.changes)) := by
  apply List.ext_getElem?
  intro k
  rw [List.getElem?_map, List.getElem?_map, getElem?_versionRecordsFrom, Option.map_map]
  rfl

theorem map_chainRecord_newest (c : VersionChain) (shades : Nat) :
    (chainRecord c true shades).versions.map (fun r => (r.version, r.changes)) =
      c.newestFirst.map fun p => (p.1, p.2.map (·.changes)) := by
  have hreverse : (chainRecord c true shades).versions =
      (versionRecordsFrom c.transitions.length shades 0 c.steps).reverse := rfl
  rw [hreverse, List.map_reverse, map_versionRecordsFrom, VersionChain.newestFirst,
    List.map_reverse]

/-- The record of a version, by its position from the oldest. -/
theorem getElem?_chainRecord (hc : c.Linked) (shades k : Nat) :
    (chainRecord c false shades).versions[k]? = c.versions[k]?.map fun v =>
      ⟨v, if k = 0 then none else c.transitions[k - 1]?.map (·.changes),
        if k = 0 then none else some (shadeOf (k - 1) c.transitions.length shades)⟩ := by
  have hrecord : (chainRecord c false shades).versions =
      versionRecordsFrom c.transitions.length shades 0 c.steps := rfl
  rw [hrecord, getElem?_versionRecordsFrom, hc.getElem?_steps, Option.map_map, Nat.zero_add]
  congr 1
  funext v
  by_cases hk : k = 0 <;> simp [hk]

theorem map_version_chainRecord (hc : c.Linked) (shades : Nat) :
    (chainRecord c false shades).versions.map (·.version) = c.versions := by
  apply List.ext_getElem?
  intro k
  rw [List.getElem?_map, getElem?_chainRecord hc, Option.map_map]
  simp [Function.comp_def]

theorem isSome_iff_of_getElem?_chainRecord (hc : c.Linked) {k : Nat} {r : VersionRecord}
    (h : (chainRecord c false shades).versions[k]? = some r) :
    (r.changes.isSome = true ↔ k ≠ 0) ∧ (r.shade.isSome = true ↔ k ≠ 0) := by
  rw [getElem?_chainRecord hc] at h
  obtain ⟨v, hv, rfl⟩ := Option.map_eq_some_iff.mp h
  cases k with
  | zero => simp
  | succ k =>
    have hk : k < c.transitions.length := by
      have := (List.getElem?_eq_some_iff.mp hv).1
      have := hc.length_eq
      omega
    simp [hk]

/-- A transition is recorded at the version that it leads to. -/
theorem getElem?_succ_chainRecord (hc : c.Linked) (shades : Nat) {t : Transition} {i : Nat}
    (ht : c.transitions[i]? = some t) :
    ∃ v, t.toCommit = v.commit.id ∧ (chainRecord c false shades).versions[i + 1]? =
      some ⟨v, some t.changes, some (shadeOf i c.transitions.length shades)⟩ := by
  obtain ⟨_, v, -, hv, hlink⟩ := hc.links i t ht
  refine ⟨v, hlink.toCommit_eq, ?_⟩
  rw [getElem?_chainRecord hc, hv]
  simp [ht]

theorem viewLines_perm (hc : c.Linked) (shades : Nat) :
    (viewLines (ofChain c) shades).Perm
      (finalEntries (ofChain c).finalLines ++ changeEntries c.transitions shades) := by
  apply perm_of_filter_line
  intro n
  rw [filter_line_viewLines_ofChain hc, List.filter_append]

/-- The lines that a view prints for changes are its tagged changes, each once. -/
theorem filter_changed_viewLines_perm (hc : c.Linked) (shades : Nat) :
    ((viewLines (ofChain c) shades).filter (·.marker ≠ .final)).Perm
      ((ofChain c).entries.map (changeEntry c.transitions.length shades)) := by
  have hfinals : (finalEntries (ofChain c).finalLines).filter (·.marker ≠ .final) = [] := by
    rw [List.filter_eq_nil_iff]
    intro l hl
    obtain ⟨_, -, rfl⟩ := List.mem_map.mp hl
    simp
  have hchanges : (changeEntries c.transitions shades).filter (·.marker ≠ .final) =
      changeEntries c.transitions shades := by
    rw [changeEntries_eq_map, List.filter_eq_self]
    intro l hl
    obtain ⟨d, -, rfl⟩ := List.mem_map.mp hl
    cases hkind : d.change.kind <;> simp [changeEntry, Marker.ofChange, hkind]
  have hperm := (viewLines_perm hc shades).filter (·.marker ≠ .final)
  rw [List.filter_append, hfinals, hchanges, List.nil_append, changeEntries_eq_map] at hperm
  exact hperm.trans ((entries_ofChain_perm c).symm.map _)

theorem map_changeEntry_entries (hc : c.Linked) (shades : Nat) :
    (ofChain c).entries.map (changeEntry c.transitions.length shades) =
      (ofChain c).entries.map fun d =>
        ⟨d.change.line, Marker.ofChange d.change.kind, d.change.content,
          (chainRecord c false shades).versions[d.transition + 1]?.bind (·.shade)⟩ := by
  apply List.map_congr_left
  intro d hd
  obtain ⟨v, -, hr⟩ := getElem?_succ_chainRecord hc shades
    (List.getElem?_eq_getElem (transition_lt_of_mem_entries hd))
  rw [hr]
  rfl

/-- The ways to show a chain agree. Its record lists the versions from the newest as the chain does,
with the changes of the transition that the chain pairs each with, and from the oldest the other way
round; all but the oldest have changes and a shade. The changes recorded at a version are those of
the transition to its commit, which the view tags with the number of that transition; and the view
prints each tagged change once, in the shade of the version that it is recorded at. -/
theorem chainRecord_agrees {i : SymbolIdentity} {vs : List Version}
    (h : VersionChain.build? i vs = some c) (shades : Nat) :
    let newest := (chainRecord c true shades).versions
    let oldest := (chainRecord c false shades).versions
    let view := (chainRecord c true shades).compressed
    newest.map (fun r => (r.version, r.changes)) =
      c.newestFirst.map (fun p => (p.1, p.2.map (·.changes))) ∧
    newest = oldest.reverse ∧
    oldest.map (·.version) = c.versions ∧
    (∀ k r, oldest[k]? = some r →
      (r.changes.isSome = true ↔ k ≠ 0) ∧ (r.shade.isSome = true ↔ k ≠ 0)) ∧
    (∀ k t, c.transitions[k]? = some t → ∃ r, oldest[k + 1]? = some r ∧
      t.toCommit = r.version.commit.id ∧ r.changes = some t.changes ∧
      t.changes.Perm (view.changesTagged k)) ∧
    (∀ d ∈ view.entries, d.transition < c.transitions.length) ∧
    ((viewLines view shades).filter (·.marker ≠ .final)).Perm (view.entries.map fun d =>
      ⟨d.change.line, Marker.ofChange d.change.kind, d.change.content,
        oldest[d.transition + 1]?.bind (·.shade)⟩) := by
  have hc := VersionChain.build?_linked h
  intro newest oldest view
  refine ⟨map_chainRecord_newest c shades, rfl, map_version_chainRecord hc shades,
    fun k r hr => isSome_iff_of_getElem?_chainRecord hc hr, ?_,
    fun d hd => transition_lt_of_mem_entries hd, ?_⟩
  · intro k t ht
    obtain ⟨v, hcommit, hr⟩ := getElem?_succ_chainRecord hc shades ht
    exact ⟨_, hr, hcommit, rfl, (changesTagged_ofChain_perm ht).symm⟩
  · have hprinted := filter_changed_viewLines_perm hc shades
    rwa [map_changeEntry_entries hc] at hprinted

/-- A function of one line that changes twice. -/
def rewritten : List Version :=
  [⟨⟨"1", "", 0, ""⟩, "a.py", 1, 1, "x"⟩, ⟨⟨"2", "", 0, ""⟩, "a.py", 1, 1, "y"⟩,
    ⟨⟨"3", "", 0, ""⟩, "a.py", 1, 1, "z"⟩]

/-- The changes of both transitions stand at one line and are told apart by their shades. -/
theorem chainRecord_rewritten :
    ∃ c, VersionChain.build? ⟨"f", .function⟩ rewritten = some c ∧
      (chainRecord c true 2).versions.map (·.shade) = [some 2, some 1, none] ∧
      [⟨.delete, 1, "y"⟩, ⟨.add, 1, "z"⟩].Perm ((chainRecord c true 2).compressed.changesTagged 1) ∧
      ((viewLines (chainRecord c true 2).compressed 2).filter (·.marker ≠ .final)).Perm
        [⟨1, .deleted, "x", some 1⟩, ⟨1, .added, "y", some 1⟩, ⟨1, .deleted, "y", some 2⟩,
          ⟨1, .added, "z", some 2⟩] := by
  have hb : VersionChain.build? ⟨"f", .function⟩ rewritten = some ⟨⟨"f", .function⟩, rewritten,
      [⟨"1", "2", [⟨.delete, 1, "x"⟩, ⟨.add, 1, "y"⟩]⟩,
        ⟨"2", "3", [⟨.delete, 1, "y"⟩, ⟨.add, 1, "z"⟩]⟩]⟩ := by decide +kernel
  obtain ⟨-, -, -, -, hchanges, -, hprinted⟩ := chainRecord_agrees hb 2
  obtain ⟨r, -, -, -, htagged⟩ := hchanges 1 _ rfl
  refine ⟨_, hb, by decide +kernel, htagged, hprinted.trans ?_⟩
  exact ((entries_ofChain_perm _).map _).trans (List.Perm.of_eq (by decide +kernel))

end Report
end SymbolHistory
