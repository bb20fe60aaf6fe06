import SymbolHistory.Project
import SymbolHistory.Proofs.FileTree.WayDown
import SymbolHistory.Proofs.Text.Pieces

namespace SymbolHistory

namespace Path

variable {front name : List Char}

theorem getLast?_pieces (hname : '/' ∉ name) (hfront : front = [] ∨ front.getLast? = some '/') :
    (Text.pieces '/' (front ++ name)).getLast? = some name := by
  rcases hfront with rfl | hfront
  · rw [List.nil_append, Text.pieces_of_not_mem hname]
    rfl
  · obtain ⟨front, rfl⟩ := List.getLast?_eq_some_iff.mp hfront
    rw [List.append_assoc, List.singleton_append, Text.pieces_append_sep,
      Text.pieces_of_not_mem hname, List.getLast?_concat]

theorem fileName?_eq {path s : String} (hs : IsName s) (hpath : path.toList = front ++ s.toList)
    (hfront : front = [] ∨ front.getLast? = some '/') : fileName? path = some s := by
  obtain ⟨before, hparts⟩ := List.getLast?_eq_some_iff.mp (getLast?_pieces hs.no_slash hfront)
  have hkept : s.toList ≠ [] ∧ s.toList ≠ ['.'] :=
    ⟨fun h => hs.ne_empty (String.toList_inj.mp h), fun h => hs.ne_here (String.toList_inj.mp h)⟩
  have hstep : stepOf s.toList = .name s := by
    have hup : s.toList ≠ ['.', '.'] := fun h => hs.ne_up (String.toList_inj.mp h)
    rw [stepOf, if_neg hup, String.ofList_toList]
  -- Whatever begins the path, its last part is the name, which counts as a step.
  have hlast : (steps path).getLast? = some (.name s) := by
    simp only [steps, hpath, hparts, List.filter_append, List.map_append]
    split
    · simp [hkept, hstep, List.getLast?_cons]
    · split <;> simp [hkept, hstep, List.getLast?_cons]
  rw [fileName?, hlast]

/-- A path read from a directory ends as it does by itself. -/
theorem exists_toList_under (base path : String) : ∃ front,
    (under base path).toList = front ++ path.toList ∧
      (front = [] ∨ front.getLast? = some '/') := by
  unfold under
  split
  · exact ⟨[], rfl, Or.inl rfl⟩
  split
  · exact ⟨[], rfl, Or.inl rfl⟩
  split
  · next hslash => exact ⟨base.toList, by simp, Or.inr hslash⟩
  · exact ⟨base.toList ++ ['/'], by simp, Or.inr (by simp)⟩

end Path

namespace Text

theorem toList_joinWith (names : List String) :
    (joinWith "/" names).toList = join ['/'] (names.map String.toList) := by
  rw [joinWith, String.toList_ofList]
  rfl

/-- Names without slashes can be read back from their path. -/
theorem eq_of_joinWith_eq {xs ys : List String} (hx : xs ≠ []) (hy : ys ≠ [])
    (hxs : ∀ s ∈ xs, '/' ∉ s.toList) (hys : ∀ s ∈ ys, '/' ∉ s.toList)
    (h : joinWith "/" xs = joinWith "/" ys) : xs = ys := by
  have hpieces (zs : List String) (hz : zs ≠ []) (hzs : ∀ s ∈ zs, '/' ∉ s.toList) :
      pieces '/' (joinWith "/" zs).toList = zs.map String.toList := by
    rw [toList_joinWith]
    exact pieces_join (by simpa using hz) (by simpa using hzs)
  have heq := hpieces xs hx hxs
  rw [h, hpieces ys hy hys] at heq
  exact (List.map_injective_iff.mpr (fun _ _ => String.toList_inj.mp) heq).symm

theorem exists_toList_joinWith (folders : List String) (name : String) : ∃ front,
    (joinWith "/" (folders ++ [name])).toList = front ++ name.toList ∧
      (front = [] ∨ front.getLast? = some '/') := by
  refine ⟨(folders.map String.toList).flatMap (· ++ ['/']), ?_, ?_⟩
  · rw [toList_joinWith, List.map_append, List.map_singleton,
      join_append _ (List.cons_ne_nil _ [])]
    rfl
  · rcases List.eq_nil_or_concat folders with rfl | ⟨folders, last, rfl⟩
    · exact Or.inl rfl
    · right
      simp

end Text

namespace Config

variable {config : Config} {patterns : List String} {globs : List Glob}

theorem map_parse?_of_globsOf (h : globsOf patterns = .ok globs) :
    patterns.map Glob.parse? = globs.map some := by
  induction patterns generalizing globs with
  | nil =>
    cases h
    rfl
  | cons pattern patterns ih =>
    rw [globsOf] at h
    split at h
    · cases h
    · next g hg =>
      cases hrest : globsOf patterns with
      | error fault =>
        rw [hrest] at h
        cases h
      | ok rest =>
        rw [hrest] at h
        cases h
        rw [List.map_cons, List.map_cons, hg, ih hrest]

theorem mem_iff_of_map_parse? (h : patterns.map Glob.parse? = globs.map some) {g : Glob} :
    g ∈ globs ↔ ∃ pattern ∈ patterns, Glob.parse? pattern = some g := by
  rw [← List.mem_map, h]
  simp

theorem excluded_of_globsOf (h : globsOf config.excludedPaths = .ok globs) :
    config.excluded = if globs.any Glob.isTooDeep then .error .tooDeepPattern else .ok globs := by
  rw [excluded, h]
  rfl

/-- The globs of a configuration are its patterns, read one by one. -/
theorem map_parse?_of_excluded (h : config.excluded = .ok globs) :
    config.excludedPaths.map Glob.parse? = globs.map some := by
  cases hglobs : globsOf config.excludedPaths with
  | error fault =>
    rw [excluded, hglobs] at h
    cases h
  | ok read =>
    rw [excluded_of_globsOf hglobs] at h
    split at h
    · cases h
    · cases h
      exact map_parse?_of_globsOf hglobs

theorem exists_globsOf_of_check {checked : Config} (h : config.check = .ok checked) :
    ∃ globs, globsOf config.excludedPaths = .ok globs := by
  cases hglobs : globsOf config.excludedPaths with
  | error fault =>
    rw [check, hglobs] at h
    cases h
  | ok globs => exact ⟨globs, rfl⟩

end Config

namespace Project

variable {p : Project} {t : FileTree} {names folders : List String} {name : String}

theorem scans_iff : p.scans name t = true ↔
    (p.config.scansHidden = true ∨ name.toList.head? ≠ some '.') ∧
      (t.isDirectory = true → name ∉ skippedDirectories) := by
  cases hdirectory : t.isDirectory <;> simp [scans, hdirectory]

/-- A way is listed when it leads to a file and none of its names is passed over, the last one not
as a directory. -/
theorem mem_filesBelow_scans (h : t.WellFormed) : names ∈ t.filesBelow p.scans ↔
    (∃ content, t.at? names = some (.file content)) ∧
      (∀ name ∈ names, p.config.scansHidden = true ∨ name.toList.head? ≠ some '.') ∧
      ∀ name ∈ names.dropLast, name ∉ skippedDirectories := by
  induction t using FileTree.inductionOnEntries generalizing names with
  | file content =>
    rw [FileTree.mem_filesBelow_file]
    cases names with
    | nil => simp [FileTree.at?]
    | cons name names => simp [FileTree.at?_file_cons]
  | directory entries ih =>
    cases h with
    | directory distinct named below =>
      cases names with
      | nil => simp [FileTree.nil_not_mem_filesBelow_directory, FileTree.at?]
      | cons name names =>
        rw [FileTree.cons_mem_filesBelow_directory]
        -- The first name is judged as that of a directory if there are more.
        have hskipped : (∀ folder ∈ (name :: names).dropLast, folder ∉ skippedDirectories) ↔
            (names.isEmpty = false → name ∉ skippedDirectories) ∧
              ∀ folder ∈ names.dropLast, folder ∉ skippedDirectories := by
          cases names <;> simp
        rw [hskipped, List.forall_mem_cons]
        constructor
        · rintro ⟨u, hu, hscans, hbelow⟩
          obtain ⟨hfile, hvisible, hfolders⟩ := (ih _ hu (below _ hu)).mp hbelow
          obtain ⟨hname, hskip⟩ := scans_iff.mp hscans
          obtain ⟨content, hfile⟩ := hfile
          have hat := (FileTree.at?_directory_cons distinct).mpr ⟨u, hu, hfile⟩
          rw [FileTree.isDirectory_of_at? hfile] at hskip
          exact ⟨⟨content, hat⟩, ⟨hname, hvisible⟩, by simpa using hskip, hfolders⟩
        · rintro ⟨⟨content, hat⟩, ⟨hname, hvisible⟩, hskip, hfolders⟩
          obtain ⟨u, hu, hfile⟩ := (FileTree.at?_directory_cons distinct).mp hat
          have hscans : p.scans name u = true := by
            rw [scans_iff, FileTree.isDirectory_of_at? hfile]
            exact ⟨hname, by simpa using hskip⟩
          exact ⟨u, hu, hscans, (ih _ hu (below _ hu)).mpr ⟨⟨content, hfile⟩, hvisible, hfolders⟩⟩

theorem fileName?_absolute (p : Project) (folders : List String) (hname : Path.IsName name) :
    Path.fileName? (p.absolute (Text.joinWith "/" (folders ++ [name]))) = some name := by
  obtain ⟨inner, hinner, hinnerEnd⟩ := Text.exists_toList_joinWith folders name
  obtain ⟨outer, houter, houterEnd⟩ :=
    Path.exists_toList_under p.base (Text.joinWith "/" (folders ++ [name]))
  have hne : Text.joinWith "/" (folders ++ [name]) ≠ "" := by
    intro hempty
    rw [hempty] at hinner
    have hnil : name.toList = [] := (List.append_eq_nil_iff.mp hinner.symm).2
    exact hname.ne_empty (String.toList_inj.mp hnil)
  rw [absolute, if_neg (by simpa using hne)]
  have hend : outer ++ inner = [] ∨ (outer ++ inner).getLast? = some '/' := by
    cases inner with
    | nil => simpa using houterEnd
    | cons c inner =>
      right
      simpa [List.getLast?_append] using hinnerEnd
  refine Path.fileName?_eq hname ?_ hend
  rw [houter, hinner, List.append_assoc]

/-- The language of a file goes by its name: the configured language of the extension, else the
listed one. -/
theorem hasFamily_absolute (p : Project) (l : Language) (folders : List String)
    (hname : Path.IsName name) :
    p.hasFamily l (p.absolute (Text.joinWith "/" (folders ++ [name]))) = true ↔
      ∃ ext l', Path.extensionOfName? name.toList = some ext ∧
        ((p.config.extensions.lookup (String.ofList ext)).bind Language.ofId?).or
          (Language.ofExtension? (String.ofList ext)) = some l' ∧
        l'.family = l.family := by
  unfold hasFamily Config.languageFor? Path.extension?
  rw [fileName?_absolute p folders hname, Option.bind_some]
  cases Path.extensionOfName? name.toList with
  | none => simp
  | some ext =>
    simp only [Option.map_some, Option.bind_some, Option.some.injEq, exists_and_left,
      exists_eq_left']
    split
    · next l' hl' => simp [hl']
    · next hl' => simp [hl']

/-- What makes a scan for a language cover the file of a name in some folders, one in the other,
below the directory of a project. -/
structure Covers (config : Config) (l : Language) (root : FileTree) (folders : List String)
    (name : String) : Prop where
  isFile : ∃ content, root.at? (folders ++ [name]) = some (.file content)
  visible : config.scansHidden = true ∨
    ∀ part ∈ folders ++ [name], part.toList.head? ≠ some '.'
  notSkipped : ∀ folder ∈ folders,
    folder ∉ ["node_modules", "vendor", "__pycache__", "target", "dist"]
  notExcluded : ∀ pattern ∈ config.excludedPaths, ∃ g, Glob.parse? pattern = some g ∧
    g.matches (Text.joinWith "/" (folders ++ [name])) = false
  sameFamily : ∃ ext l', Path.extensionOfName? name.toList = some ext ∧
    ((config.extensions.lookup (String.ofList ext)).bind Language.ofId?).or
      (Language.ofExtension? (String.ofList ext)) = some l' ∧
    l'.family = l.family

theorem isExcluded_eq_false_iff {rel : String}
    (h : p.config.excludedPaths.map Glob.parse? = p.excluded.map some) :
    p.isExcluded rel = false ↔ ∀ pattern ∈ p.config.excludedPaths, ∃ g,
      Glob.parse? pattern = some g ∧ g.matches rel = false := by
  have hread (pattern : String) (hp : pattern ∈ p.config.excludedPaths) :
      ∃ g ∈ p.excluded, Glob.parse? pattern = some g := by
    have hp := List.mem_map_of_mem (f := Glob.parse?) hp
    rw [h] at hp
    obtain ⟨g, hg, heq⟩ := List.mem_map.mp hp
    exact ⟨g, hg, heq.symm⟩
  rw [isExcluded, List.any_eq_false]
  constructor
  · intro hnone pattern hp
    obtain ⟨g, hg, heq⟩ := hread pattern hp
    exact ⟨g, heq, by simpa using hnone g hg⟩
  · intro hall g hg
    obtain ⟨pattern, hp, heq⟩ := (Config.mem_iff_of_map_parse? h).mp hg
    obtain ⟨g', heq', hmatches⟩ := hall pattern hp
    obtain rfl := Option.some.inj (heq.symm.trans heq')
    simp [hmatches]

/-- A file is covered when it is reached on the way down and then passes the patterns and the
language. -/
theorem covers_iff {l : Language} (hwf : t.WellFormed)
    (hexcluded : p.config.excludedPaths.map Glob.parse? = p.excluded.map some) :
    Covers p.config l t folders name ↔
      folders ++ [name] ∈ t.filesBelow p.scans ∧
        p.isExcluded (Text.joinWith "/" (folders ++ [name])) = false ∧
        p.hasFamily l (p.absolute (Text.joinWith "/" (folders ++ [name]))) = true := by
  have hvisible : (∀ part ∈ folders ++ [name],
        p.config.scansHidden = true ∨ part.toList.head? ≠ some '.') ↔
      p.config.scansHidden = true ∨ ∀ part ∈ folders ++ [name], part.toList.head? ≠ some '.' := by
    by_cases h : p.config.scansHidden = true <;> simp [h]
  rw [mem_filesBelow_scans hwf, hvisible, List.dropLast_concat, isExcluded_eq_false_iff hexcluded]
  have hname {content : Bytes} (hat : t.at? (folders ++ [name]) = some (.file content)) :
      Path.IsName name :=
    FileTree.isName_of_mem_at? hwf hat (by simp)
  constructor
  · intro h
    obtain ⟨content, hat⟩ := h.isFile
    exact ⟨⟨h.isFile, h.visible, h.notSkipped⟩, h.notExcluded,
      (hasFamily_absolute p l folders (hname hat)).mpr h.sameFamily⟩
  · rintro ⟨⟨⟨content, hat⟩, hvisible, hskipped⟩, hexcluded, hfamily⟩
    exact ⟨⟨content, hat⟩, hvisible, hskipped, hexcluded,
      (hasFamily_absolute p l folders (hname hat)).mp hfamily⟩

theorem eq_of_open {w : Workspace} {parser : Grammar.Parser} {config : Config} {base : String}
    (h : Project.open w parser config base = .ok p) :
    p.workspace = w ∧ p.config = config ∧ p.base = base ∧
      config.excludedPaths.map Glob.parse? = p.excluded.map some := by
  unfold Project.open at h
  split at h
  · next globs hglobs =>
    cases h
    exact ⟨rfl, rfl, rfl, Config.map_parse?_of_excluded hglobs⟩
  · cases h

/-- With a configuration in order a project opens unless a pattern nests too deeply for use. -/
theorem exists_open_iff {w : Workspace} {parser : Grammar.Parser} {config checked : Config}
    (hvalid : config.check = .ok checked) (base : String) :
    (∃ p, Project.open w parser config base = .ok p) ↔
      ∀ pattern ∈ config.excludedPaths, ∀ g, Glob.parse? pattern = some g →
        g.isTooDeep = false := by
  obtain ⟨globs, hglobs⟩ := Config.exists_globsOf_of_check hvalid
  have hmem {g : Glob} : g ∈ globs ↔
      ∃ pattern ∈ config.excludedPaths, Glob.parse? pattern = some g :=
    Config.mem_iff_of_map_parse? (Config.map_parse?_of_globsOf hglobs)
  simp only [Project.open, Config.excluded_of_globsOf hglobs]
  cases hdeep : globs.any Glob.isTooDeep with
  | true =>
    obtain ⟨g, hg, hdeep⟩ := List.any_eq_true.mp hdeep
    obtain ⟨pattern, hp, heq⟩ := hmem.mp hg
    constructor
    · rintro ⟨p, hp⟩
      cases hp
    · intro hall
      rw [hall pattern hp g heq] at hdeep
      cases hdeep
  | false =>
    refine ⟨fun _ pattern hp g heq => ?_, fun _ => ⟨_, rfl⟩⟩
    simpa using List.any_eq_false.mp hdeep g (hmem.mpr ⟨pattern, hp, heq⟩)

section Files

variable {way : List String} {entries : List (String × FileTree)}

theorem files_of_locate (hbase : p.workspace.locate p.base = .ok (way, t)) (l : Language) :
    p.files l = ((t.filesBelow p.scans).map (Text.joinWith "/")).filter fun rel =>
      !p.isExcluded rel && p.hasFamily l (p.absolute rel) := by
  rw [files, hbase]

theorem no_slash_of_mem_filesBelow (hwf : (FileTree.directory entries).WellFormed)
    (h : names ∈ (FileTree.directory entries).filesBelow p.scans) :
    names ≠ [] ∧ ∀ s ∈ names, '/' ∉ s.toList := by
  constructor
  · rintro rfl
    exact FileTree.nil_not_mem_filesBelow_directory h
  · intro s hs
    obtain ⟨content, hat⟩ := ((mem_filesBelow_scans hwf).mp h).1
    exact (FileTree.isName_of_mem_at? hwf hat hs).no_slash

theorem nodup_files (hbase : p.workspace.locate p.base = .ok (way, .directory entries))
    (hwf : (FileTree.directory entries).WellFormed) (l : Language) : (p.files l).Nodup := by
  rw [files_of_locate hbase]
  refine List.Nodup.filter _ ((FileTree.nodup_filesBelow hwf p.scans).map_on ?_)
  intro xs hxs ys hys h
  obtain ⟨hx, hxs⟩ := no_slash_of_mem_filesBelow hwf hxs
  obtain ⟨hy, hys⟩ := no_slash_of_mem_filesBelow hwf hys
  exact Text.eq_of_joinWith_eq hx hy hxs hys h

theorem mem_files_iff (hbase : p.workspace.locate p.base = .ok (way, .directory entries))
    (hwf : (FileTree.directory entries).WellFormed)
    (hexcluded : p.config.excludedPaths.map Glob.parse? = p.excluded.map some) {l : Language}
    {rel : String} :
    rel ∈ p.files l ↔ ∃ folders name, rel = Text.joinWith "/" (folders ++ [name]) ∧
      Covers p.config l (.directory entries) folders name := by
  simp only [files_of_locate hbase, covers_iff hwf hexcluded, List.mem_filter, List.mem_map,
    Bool.and_eq_true, Bool.not_eq_true']
  constructor
  · rintro ⟨⟨names, hnames, rfl⟩, hjudged⟩
    obtain ⟨folders, name, rfl⟩ : ∃ folders name, names = folders ++ [name] :=
      ⟨_, _, (List.dropLast_concat_getLast (no_slash_of_mem_filesBelow hwf hnames).1).symm⟩
    exact ⟨folders, name, rfl, hnames, hjudged⟩
  · rintro ⟨folders, name, rfl, hnames, hjudged⟩
    exact ⟨⟨_, hnames, rfl⟩, hjudged⟩

end Files

/-- A scan lists each file of a language family below the directory of a project once, and only
these: no name on the way from the directory, the file's own among them, begins with a dot unless
hidden ones are scanned; no folder on the way is one of those never scanned; no excluded pattern
matches the path in the project; and the extension of the file, by the configuration or else by the
listed ones, is of a language of the family. With a configuration in order there is a project to
scan, unless a pattern nests too deeply for use. -/
theorem files_exact {w : Workspace} {base : String} {way : List String}
    {entries : List (String × FileTree)} (hbase : w.locate base = .ok (way, .directory entries))
    (hwf : (FileTree.directory entries).WellFormed) (parser : Grammar.Parser) (config : Config)
    (l : Language) :
    (∀ p, Project.open w parser config base = .ok p → (p.files l).Nodup ∧
      ∀ rel, rel ∈ p.files l ↔ ∃ folders name, rel = Text.joinWith "/" (folders ++ [name]) ∧
        Covers config l (.directory entries) folders name) ∧
    (config.check = .ok config → ((∃ p, Project.open w parser config base = .ok p) ↔
      ∀ pattern ∈ config.excludedPaths, ∀ g, Glob.parse? pattern = some g →
        g.isTooDeep = false)) := by
  refine ⟨fun p hopen => ?_, fun hvalid => exists_open_iff hvalid base⟩
  obtain ⟨rfl, rfl, rfl, hexcluded⟩ := eq_of_open hopen
  exact ⟨nodup_files hbase hwf l, fun rel => mem_files_iff hbase hwf hexcluded⟩

/-- Directory entries with a hidden file, a folder that is never scanned, a generated file and one
of a further extension. -/
def mixedEntries : List (String × FileTree) :=
  [(".a.py", .file []), ("vendor", .directory [("b.py", .file [])]),
    ("lib", .directory [("gen.py", .file []), ("vendor", .file []), ("c.pyx", .file []),
      ("d.ts", .file []), ("e.PY", .file [])])]

def mixedProject : Project where
  workspace := ⟨.directory [("p", .directory mixedEntries)], "/", "/"⟩
  parser := fun _ _ => none
  config := { excludedPaths := ["lib/gen*"], extensions := [("pyx", "python")] }
  excluded := ["lib/gen".toList.map .literal ++ [.anyRun]]
  base := "/p"

theorem parse?_mixedPattern :
    Glob.parse? "lib/gen*" = some ("lib/gen".toList.map .literal ++ [.anyRun]) := by
  cbv

/-- The generated file is passed over for its pattern and the one below `vendor` for its folder. -/
theorem files_mixedProject :
    mixedProject.config.check = .ok mixedProject.config ∧
    mixedProject.workspace.locate "/p" = .ok (["p"], .directory mixedEntries) ∧
    (FileTree.directory mixedEntries).WellFormed ∧
    Project.open mixedProject.workspace mixedProject.parser mixedProject.config "/p" =
      .ok mixedProject ∧
    (mixedProject.files .python).Nodup ∧ "lib/c.pyx" ∈ mixedProject.files .python ∧
    "lib/gen.py" ∉ mixedProject.files .python ∧ "vendor/b.py" ∉ mixedProject.files .python ∧
    mixedProject.files .python = ["lib/c.pyx", "lib/e.PY"] ∧
    mixedProject.files .javaScript = ["lib/d.ts"] := by
  have hopen : Project.open mixedProject.workspace mixedProject.parser mixedProject.config "/p" =
      .ok mixedProject := by
    simp only [Project.open, Config.excluded, mixedProject, Config.globsOf, parse?_mixedPattern]
    rfl
  have hvalid : mixedProject.config.check = .ok mixedProject.config := by
    simp only [Config.check, mixedProject, Config.globsOf, parse?_mixedPattern]
    rfl
  have hbase : mixedProject.workspace.locate "/p" = .ok (["p"], .directory mixedEntries) := rfl
  have hwf : (FileTree.directory mixedEntries).WellFormed := by
    refine .directory (by decide) (by decide) ?_
    simp only [mixedEntries, List.forall_mem_cons]
    refine ⟨.file [], .directory (by decide) (by decide) ?_,
      .directory (by decide) (by decide) ?_, by simp⟩
    · simp [FileTree.WellFormed.file]
    · simp [FileTree.WellFormed.file]
  obtain ⟨hnodup, hmem⟩ := (files_exact hbase hwf _ _ .python).1 mixedProject hopen
  refine ⟨hvalid, hbase, hwf, hopen, hnodup, (hmem "lib/c.pyx").mpr ⟨["lib"], "c.pyx", rfl, ?_⟩,
    ?_, ?_, by decide +kernel, by decide +kernel⟩
  · refine ⟨⟨[], rfl⟩, Or.inr (by decide), by decide, ?_, ⟨['p', 'y', 'x'], .python, ?_⟩⟩
    · intro pattern hpattern
      obtain rfl := List.mem_singleton.mp hpattern
      exact ⟨_, parse?_mixedPattern, by decide +kernel⟩
    · decide +kernel
  · intro h
    obtain ⟨folders, name, hrel, hcovers⟩ := (hmem "lib/gen.py").mp h
    obtain ⟨g, hg, hmatches⟩ := hcovers.notExcluded "lib/gen*" (List.mem_singleton_self _)
    obtain rfl := Option.some.inj (parse?_mixedPattern.symm.trans hg)
    rw [← hrel] at hmatches
    exact absurd hmatches (by decide +kernel)
  · intro h
    obtain ⟨folders, name, hrel, hcovers⟩ := (hmem "vendor/b.py").mp h
    obtain ⟨content, hat⟩ := hcovers.isFile
    have hparts : folders ++ [name] = ["vendor"] ++ ["b.py"] :=
      Text.eq_of_joinWith_eq (by simp) (by simp)
        (fun s hs => (FileTree.isName_of_mem_at? hwf hat hs).no_slash) (by decide) hrel.symm
    obtain ⟨rfl, -⟩ := List.append_inj' hparts rfl
    exact hcovers.notSkipped "vendor" (by decide) (by decide)

end Project
end SymbolHistory
