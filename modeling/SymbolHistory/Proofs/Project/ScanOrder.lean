import SymbolHistory.Project
import SymbolHistory.Proofs.Distinct
import SymbolHistory.Proofs.References.Targets

namespace SymbolHistory

namespace ProjectReference

instance : Std.TransCmp order := by
  unfold order
  infer_instance

def listingOrder : ProjectReference → ProjectReference → Ordering :=
  compareLex (compareOn file) <|
  compareLex (compareOn fun r => r.reference.line) <|
  compareLex (compareOn fun r => r.reference.symbol) (compareOn fun r => r.reference.usage.rank)

instance : Std.TransCmp listingOrder := by
  unfold listingOrder
  infer_instance

theorem listingOrder_of_file_eq {a b : ProjectReference} (h : a.file = b.file) :
    listingOrder a b = Reference.order a.reference b.reference := by
  have hfile : compareOn file a b = .eq := by
    unfold compareOn
    rw [h]
    exact Std.ReflCmp.compare_self
  unfold listingOrder
  rw [compareLex, hfile]
  rfl

theorem listingOrder_of_order_lt {a b : ProjectReference} (h : order a b = .lt) :
    listingOrder a b = .lt := by
  have hthen : listingOrder a b =
      (order a b).then (compareOn (fun r => r.reference.usage.rank) a b) := by
    simp only [listingOrder, order, compareLex, Ordering.then_assoc]
  rw [hthen, h]
  rfl

theorem file_eq_of_order_eq {a b : ProjectReference} (h : order a b = .eq) : a.file = b.file :=
  Std.LawfulEqOrd.eq_of_compare (compareLex_eq_eq.mp h).1

/-- Within a file the listing order of references agrees with the order of the sort. -/
theorem order_isLE_of_before {a b : ProjectReference} (hfile : a.file = b.file)
    (h : a.reference.Before b.reference) : (order a b).isLE = true := by
  have hlt : listingOrder a b = .lt := by
    rw [listingOrder_of_file_eq hfile]
    exact h
  cases horder : order a b with
  | lt => rfl
  | eq => rfl
  | gt =>
    have hthen : listingOrder b a = .lt :=
      listingOrder_of_order_lt (Std.OrientedCmp.lt_of_gt horder)
    rw [Std.OrientedCmp.gt_of_lt hthen] at hlt
    cases hlt

end ProjectReference

namespace Project

variable {p : Project} {symbols : List Symbol} {files : List String}

/-- The references of a file by itself; none where it cannot be read. -/
def referencesOf (p : Project) (symbols : List Symbol) (file : String) : List Reference :=
  let path := Path.under p.base (p.absolute file)
  match p.config.languageFor? path, p.workspace.readBytes path with
  | some l, .ok source => (p.model l (p.relative path) source).references symbols
  | _, _ => []

theorem fileReferences_eq (p : Project) (symbols : List Symbol) (file : String) :
    p.fileReferences symbols file = (p.referencesOf symbols file).map (⟨file, ·⟩) := by
  unfold fileReferences referencesOf referencesIn languageOf
  dsimp only
  cases p.config.languageFor? (Path.under p.base (p.absolute file)) with
  | none => rfl
  | some l =>
    cases p.workspace.readBytes (Path.under p.base (p.absolute file)) <;> rfl

theorem file_of_mem_fileReferences {file : String} {r : ProjectReference}
    (h : r ∈ p.fileReferences symbols file) : r.file = file := by
  rw [fileReferences_eq] at h
  obtain ⟨reference, -, rfl⟩ := List.mem_map.mp h
  rfl

theorem referencesOf_before (p : Project) (symbols : List Symbol) (file : String) :
    (p.referencesOf symbols file).Pairwise Reference.Before := by
  unfold referencesOf
  dsimp only
  split
  · exact SourceModel.references_before _ symbols
  · exact List.Pairwise.nil

/-- A file's references stand in order before the sort. -/
theorem fileReferences_ordered (p : Project) (symbols : List Symbol) (file : String) :
    (p.fileReferences symbols file).Pairwise fun a b =>
      (ProjectReference.order a b).isLE = true := by
  rw [fileReferences_eq, List.pairwise_map]
  refine (p.referencesOf_before symbols file).imp ?_
  intro a b h
  exact ProjectReference.order_isLE_of_before rfl h

/-- The listing of a scan holds for each scanned file what the file gives by itself. -/
theorem filter_file_referencesAmong (hn : files.Nodup) (file : String) :
    (p.referencesAmong symbols files).filter (·.file == file) =
      if file ∈ files then p.fileReferences symbols file else [] := by
  have hfile : (files.flatMap (p.fileReferences symbols)).filter (·.file == file) =
      if file ∈ files then p.fileReferences symbols file else [] :=
    filter_flatMap_of_key (fun _ _ => file_of_mem_fileReferences) hn file
  unfold referencesAmong
  -- A file's references are in order before the sort, so the sort leaves them as they are.
  rw [filter_mergeSort, hfile]
  rw [hfile]
  split
  · exact p.fileReferences_ordered symbols file
  · exact List.Pairwise.nil

/-- The references of one file are listed as the file gives them, so by usage too. -/
theorem referencesAmong_before (hn : files.Nodup) :
    (p.referencesAmong symbols files).Pairwise fun a b =>
      a.file = b.file → a.reference.Before b.reference := by
  have hown (file : String) : ((p.referencesAmong symbols files).filter (·.file == file)).Pairwise
      fun a b => a.reference.Before b.reference := by
    rw [filter_file_referencesAmong hn]
    split
    · rw [fileReferences_eq, List.pairwise_map]
      exact p.referencesOf_before symbols file
    · exact List.Pairwise.nil
  -- Two references of one file stand in the listing as they do in its part for that file.
  rw [List.pairwise_iff_forall_sublist]
  intro a b hsub hfile
  have hkept : [a, b].Sublist ((p.referencesAmong symbols files).filter (·.file == b.file)) := by
    simpa [hfile] using hsub.filter (·.file == b.file)
  exact List.pairwise_iff_forall_sublist.mp (hown b.file) hkept

/-- Ties of the sort are within a file, where the usage has decided already. -/
theorem referencesAmong_increasing (hn : files.Nodup) :
    (p.referencesAmong symbols files).Pairwise fun a b =>
      ProjectReference.listingOrder a b = .lt := by
  have hsorted : (p.referencesAmong symbols files).Pairwise fun a b =>
      (ProjectReference.order a b).isLE = true := pairwise_isLE_mergeSort _
  refine (hsorted.and (referencesAmong_before hn)).imp ?_
  rintro a b ⟨hle, hbefore⟩
  rcases Ordering.isLE_iff_eq_lt_or_eq_eq.mp hle with hlt | heq
  · exact ProjectReference.listingOrder_of_order_lt hlt
  · have hfile := ProjectReference.file_eq_of_order_eq heq
    rw [ProjectReference.listingOrder_of_file_eq hfile]
    exact hbefore hfile

theorem referencesAmong_perm {scanned : List String} (h : scanned.Perm files) :
    (p.referencesAmong symbols scanned).Perm (p.referencesAmong symbols files) :=
  (List.mergeSort_perm _ _).trans
    ((h.flatMap_right _).trans (List.mergeSort_perm _ _).symm)

/-- The references in different files of a project are listed the same in whatever order the files
are scanned, those of a language family among them. The listing increases strictly by file, line,
symbol and usage, and what it holds for a file is what the file's own model gives, or nothing for a
file that is not scanned or cannot be read. -/
theorem referencesAmong_scan (p : Project) (symbols : List Symbol) (files : List String)
    (hn : files.Nodup) :
    (∀ scanned : List String, scanned.Perm files →
      p.referencesAmong symbols scanned = p.referencesAmong symbols files) ∧
    (∀ l, (p.files l).Perm files →
      p.references symbols l = p.referencesAmong symbols files) ∧
    (p.referencesAmong symbols files).Pairwise
      (fun a b => ProjectReference.listingOrder a b = .lt) ∧
    ∀ file, ((p.referencesAmong symbols files).filter (·.file == file)).map (·.reference) =
      if file ∈ files then p.referencesOf symbols file else [] := by
  have hany (scanned : List String) (h : scanned.Perm files) :
      p.referencesAmong symbols scanned = p.referencesAmong symbols files := by
    refine eq_of_pairwise_lt (referencesAmong_increasing (h.nodup_iff.mpr hn))
      (referencesAmong_increasing hn) ?_
    intro r
    exact (referencesAmong_perm h).mem_iff
  refine ⟨hany, fun l h => hany (p.files l) h, referencesAmong_increasing hn, ?_⟩
  intro file
  rw [filter_file_referencesAmong hn]
  split
  · rw [fileReferences_eq, List.map_map]
    exact List.map_id _
  · rfl

/-- A project of two scripts that call a function, of which the second by name is met first. -/
def twoScripts : Project where
  workspace :=
    let script : FileTree := .file (Text.encode "f\n")
    ⟨.directory [("p", .directory [("b.sh", script), ("a.sh", script)])], "/", "/"⟩
  parser := fun _ _ => none
  config := {}
  excluded := []
  base := "/p"

theorem references_twoScripts :
    twoScripts.files .shell = ["b.sh", "a.sh"] ∧
    ["a.sh", "b.sh"].Nodup ∧
    twoScripts.references [SourceModel.functionNamed "f"] .shell =
      twoScripts.referencesAmong [SourceModel.functionNamed "f"] ["a.sh", "b.sh"] ∧
    ((twoScripts.references [SourceModel.functionNamed "f"] .shell).filter
      (·.file == "b.sh")).map (·.reference) = [⟨"f", 1, none, .plain⟩] := by
  have hfiles : twoScripts.files .shell = ["b.sh", "a.sh"] := by decide +kernel
  have hn : ["a.sh", "b.sh"].Nodup := by decide
  have hperm : (twoScripts.files .shell).Perm ["a.sh", "b.sh"] := by
    rw [hfiles]
    exact List.Perm.swap _ _ _
  obtain ⟨-, hscan, -, hown⟩ :=
    referencesAmong_scan twoScripts [SourceModel.functionNamed "f"] ["a.sh", "b.sh"] hn
  refine ⟨hfiles, hn, hscan .shell hperm, ?_⟩
  rw [hscan .shell hperm, hown]
  decide +kernel

end Project
end SymbolHistory
