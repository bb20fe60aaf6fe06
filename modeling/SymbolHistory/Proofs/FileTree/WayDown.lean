import Mathlib.Data.List.Nodup
import SymbolHistory.FileTree

namespace SymbolHistory

/-- A name that a directory can hold: one part of a path, and no step of its own. -/
structure Path.IsName (s : String) : Prop where
  ne_empty : s ≠ ""
  no_slash : '/' ∉ s.toList
  ne_here : s ≠ "."
  ne_up : s ≠ ".."

instance (s : String) : Decidable (Path.IsName s) :=
  decidable_of_iff (s ≠ "" ∧ '/' ∉ s.toList ∧ s ≠ "." ∧ s ≠ "..")
    ⟨fun h => ⟨h.1, h.2.1, h.2.2.1, h.2.2.2⟩, fun h => ⟨h.1, h.2, h.3, h.4⟩⟩

namespace FileTree

variable {t u : FileTree} {entries : List (String × FileTree)} {name : String}
  {names : List String} {keep : String → FileTree → Bool}

/-- What holds of files, and of a directory whenever it holds of its entries, holds of every
tree. -/
@[elab_as_elim]
theorem inductionOnEntries {motive : FileTree → Prop} (file : ∀ content, motive (.file content))
    (directory : ∀ entries, (∀ e ∈ entries, motive e.2) → motive (.directory entries))
    (t : FileTree) : motive t :=
  match t with
  | .file content => file content
  | .directory entries =>
    directory entries fun e _he => inductionOnEntries file directory e.2
termination_by sizeOf t
decreasing_by
  have hlt := List.sizeOf_lt_of_mem _he
  cases e
  simp only [Prod.mk.sizeOf_spec, FileTree.directory.sizeOf_spec] at hlt ⊢
  omega

/-- In every directory of the tree the entries have names, and different ones. -/
inductive WellFormed : FileTree → Prop
  | file (content : Bytes) : WellFormed (.file content)
  | directory {entries : List (String × FileTree)} (distinct : (entries.map Prod.fst).Nodup)
    (named : ∀ e ∈ entries, Path.IsName e.1) (below : ∀ e ∈ entries, e.2.WellFormed) :
    WellFormed (.directory entries)

/-- What the names of a way lead to. -/
def at? : FileTree → List String → Option FileTree
  | t, [] => some t
  | t, name :: names => (t.entries.lookup name).bind fun u => u.at? names

theorem lookup_eq_some_iff_mem (h : (entries.map Prod.fst).Nodup) :
    entries.lookup name = some u ↔ (name, u) ∈ entries := by
  induction entries with
  | nil => simp
  | cons e entries ih =>
    obtain ⟨he, h⟩ := List.nodup_cons.mp h
    rw [List.lookup_cons, List.mem_cons, Prod.ext_iff]
    by_cases hname : name = e.1
    · subst hname
      have hnot : (e.1, u) ∉ entries := fun hmem => he (List.mem_map.mpr ⟨(e.1, u), hmem, rfl⟩)
      simp [hnot, eq_comm]
    · have hbeq : (name == e.1) = false := beq_eq_false_iff_ne.mpr hname
      simp [hbeq, hname, ih h]

theorem at?_file_cons (content : Bytes) (name : String) (names : List String) :
    (file content).at? (name :: names) = none := rfl

theorem at?_directory_cons (h : (entries.map Prod.fst).Nodup) :
    (directory entries).at? (name :: names) = some t ↔
      ∃ u, (name, u) ∈ entries ∧ u.at? names = some t := by
  simp only [at?, FileTree.entries, Option.bind_eq_some_iff, lookup_eq_some_iff_mem h]

/-- On the way to a file everything before it is a directory. -/
theorem isDirectory_of_at? {content : Bytes} (h : t.at? names = some (.file content)) :
    t.isDirectory = !names.isEmpty := by
  cases names with
  | nil =>
    obtain rfl := Option.some.inj h
    rfl
  | cons name names =>
    cases t with
    | file _ => cases h
    | directory _ => rfl

theorem isName_of_mem_at? (h : t.WellFormed) (hat : t.at? names = some u) (hn : name ∈ names) :
    Path.IsName name := by
  induction names generalizing t with
  | nil => cases hn
  | cons first names ih =>
    cases h with
    | file => cases hat
    | directory distinct named below =>
      obtain ⟨v, hv, hat⟩ := (at?_directory_cons distinct).mp hat
      rcases List.mem_cons.mp hn with rfl | hn
      · exact named _ hv
      · exact ih (below _ hv) hat hn

theorem filesOfEntries_eq (keep : String → FileTree → Bool) (entries : List (String × FileTree)) :
    filesOfEntries keep entries = entries.flatMap fun e =>
      if keep e.1 e.2 then (e.2.filesBelow keep).map (e.1 :: ·) else [] := by
  induction entries with
  | nil => rfl
  | cons e entries ih => rw [filesOfEntries, ih, List.flatMap_cons]

theorem mem_filesBelow_file {content : Bytes} :
    names ∈ (file content).filesBelow keep ↔ names = [] := by
  rw [filesBelow, List.mem_singleton]

theorem nil_not_mem_filesBelow_directory : [] ∉ (directory entries).filesBelow keep := by
  rw [filesBelow, filesOfEntries_eq, List.mem_flatMap]
  rintro ⟨e, -, h⟩
  split at h
  · obtain ⟨_, -, h⟩ := List.mem_map.mp h
    cases h
  · cases h

theorem cons_mem_filesBelow_directory :
    name :: names ∈ (directory entries).filesBelow keep ↔
      ∃ u, (name, u) ∈ entries ∧ keep name u = true ∧ names ∈ u.filesBelow keep := by
  rw [filesBelow, filesOfEntries_eq, List.mem_flatMap]
  constructor
  · rintro ⟨⟨first, u⟩, he, h⟩
    split at h
    · next hkeep =>
      obtain ⟨rest, hrest, heq⟩ := List.mem_map.mp h
      obtain ⟨rfl, rfl⟩ := List.cons.inj heq
      exact ⟨u, he, hkeep, hrest⟩
    · cases h
  · rintro ⟨u, he, hkeep, h⟩
    refine ⟨(name, u), he, ?_⟩
    rw [if_pos hkeep]
    exact List.mem_map_of_mem h

/-- No way is listed twice. -/
theorem nodup_filesBelow (h : t.WellFormed) (keep : String → FileTree → Bool) :
    (t.filesBelow keep).Nodup := by
  induction t using inductionOnEntries with
  | file content => exact List.nodup_singleton []
  | directory entries ih =>
    cases h with
    | directory distinct named below =>
      rw [filesBelow, filesOfEntries_eq, List.nodup_flatMap]
      constructor
      · intro e he
        split
        · exact (ih e he (below e he)).map (List.cons_injective)
        · exact List.nodup_nil
      · -- The ways through two entries begin with different names.
        refine (List.pairwise_map.mp distinct).imp ?_
        intro d e hne way hd he
        have hfirst {e : String × FileTree} (h : way ∈ if keep e.1 e.2 then
            (e.2.filesBelow keep).map (e.1 :: ·) else []) : way.head? = some e.1 := by
          split at h
          · obtain ⟨rest, -, rfl⟩ := List.mem_map.mp h
            rfl
          · cases h
        exact hne (Option.some.inj ((hfirst hd).symm.trans (hfirst he)))

end FileTree
end SymbolHistory
