import SymbolHistory.Proofs.Distinct
import SymbolHistory.Proofs.Extraction.Declarations
import SymbolHistory.Proofs.Extraction.Repeats
import SymbolHistory.Proofs.Tree.Reach

namespace SymbolHistory

namespace Rules.Python

/-- A global statement with this name among its identifiers. -/
def ListsGlobal (source : Bytes) (name : String) (v : Visit) : Prop :=
  v.node.kind = "global_statement" ∧
    ∃ c ∈ v.node.namedChildren, c.kind = "identifier" ∧ c.text source = name

/-- An assignment to this plain name, with no class and no function around it. -/
def Assigns (source : Bytes) (name : String) (v : Visit) : Prop :=
  v.node.kind = "assignment" ∧
    (∀ a ∈ v.ancestors, a.kind ≠ "class_definition" ∧ a.kind ≠ "function_definition") ∧
    ∃ left ∈ v.node.child? "left", left.kind = "identifier" ∧ left.text source = name

instance (source : Bytes) (name : String) : DecidablePred (ListsGlobal source name) := fun _ =>
  inferInstanceAs (Decidable (_ ∧ _))

instance (source : Bytes) (name : String) : DecidablePred (Assigns source name) := fun _ =>
  inferInstanceAs (Decidable (_ ∧ _ ∧ _))

def statementOf (v : Visit) : Node :=
  (v.parent?.filter (·.kind == "expression_statement")).getD v.node

/-- The nodes that declare a global: the statements that assign it or, where there are none, the
first one that lists it. -/
def globalAnchors (source : Bytes) (module : Node) (name : String) : List Node :=
  let assigned := module.visits.filter (Assigns source name ·)
  if assigned.isEmpty then ((module.visits.find? (ListsGlobal source name ·)).map (·.node)).toList
  else assigned.map statementOf

variable {source : Bytes} {v : Visit} {name : String} {span : Node}

theorem isWithin_scopeKinds : v.isWithin scopeKinds = false ↔
    ∀ a ∈ v.ancestors, a.kind ≠ "class_definition" ∧ a.kind ≠ "function_definition" := by
  simp [Visit.isWithin, Visit.nearest?, scopeKinds]

theorem assignmentAt_eq_some :
    assignmentAt source v = some (name, span) ↔ Assigns source name v ∧ statementOf v = span := by
  simp only [assignmentAt, Assigns, ← isWithin_scopeKinds]
  split
  · next h =>
    simp only [Bool.and_eq_true, beq_iff_eq, Bool.not_eq_true'] at h
    simp only [h, true_and, Option.map_eq_some_iff, Option.filter_eq_some_iff, Prod.mk.injEq]
    constructor
    · rintro ⟨left, ⟨hleft, hkind⟩, hname, hspan⟩
      exact ⟨⟨left, hleft, beq_iff_eq.mp hkind, hname⟩, hspan⟩
    · rintro ⟨⟨left, hleft, hkind, hname⟩, hspan⟩
      exact ⟨left, ⟨hleft, beq_iff_eq.mpr hkind⟩, hname, hspan⟩
  · next h =>
    simp only [Bool.and_eq_true, beq_iff_eq, Bool.not_eq_true', not_and] at h
    constructor
    · intro hnone
      cases hnone
    · rintro ⟨⟨hkind, hscope, -⟩, -⟩
      exact absurd hscope (h hkind)

theorem mem_globalsAt :
    (name, span) ∈ globalsAt source v ↔ ListsGlobal source name v ∧ v.node = span := by
  simp only [globalsAt, ListsGlobal, Node.childrenOfKind]
  split
  · next h =>
    simp only [beq_iff_eq] at h
    simp only [h, true_and, List.mem_map, List.mem_filter, Prod.mk.injEq, beq_iff_eq]
    constructor
    · rintro ⟨c, ⟨hc, hkind⟩, hname, hspan⟩
      exact ⟨⟨c, hc, hkind, hname⟩, hspan⟩
    · rintro ⟨⟨c, hc, hkind, hname⟩, hspan⟩
      exact ⟨c, ⟨hc, hkind⟩, hname, hspan⟩
  · next h =>
    simp only [beq_iff_eq] at h
    simp [h]

/-- The assignments of a module that are to one name. -/
theorem filter_assignments (visits : List Visit) (name : String) :
    (visits.filterMap (assignmentAt source)).filter (·.1 == name) =
      (visits.filter (Assigns source name ·)).map fun v => (name, statementOf v) := by
  induction visits with
  | nil => rfl
  | cons v visits ih =>
    cases hv : assignmentAt source v with
    | none =>
      have hnot : ¬Assigns source name v := by
        intro h
        rw [assignmentAt_eq_some.mpr ⟨h, rfl⟩] at hv
        cases hv
      simp [hv, hnot, ih]
    | some found =>
      obtain ⟨hassigns, hspan⟩ := assignmentAt_eq_some.mp hv
      have hiff : Assigns source name v ↔ found.1 = name := by
        constructor
        · intro h
          rw [assignmentAt_eq_some.mpr ⟨h, rfl⟩] at hv
          cases hv
          rfl
        · rintro rfl
          exact hassigns
      by_cases hname : found.1 = name
      · have hfound : found = (name, statementOf v) := Prod.ext hname hspan.symm
        simp [hv, hiff.mpr hname, ih, hfound]
      · simp [hv, mt hiff.mp hname, ih, hname]

theorem find?_globalsAt : (globalsAt source v).find? (·.1 == name) =
    if ListsGlobal source name v then some (name, v.node) else none := by
  split
  · next h =>
    have hsome : ((globalsAt source v).find? (·.1 == name)).isSome := by
      rw [List.find?_isSome]
      exact ⟨(name, v.node), mem_globalsAt.mpr ⟨h, rfl⟩, beq_self_eq_true name⟩
    obtain ⟨found, hfound⟩ := Option.isSome_iff_exists.mp hsome
    have hname : found.1 = name := by simpa using List.find?_some hfound
    obtain ⟨-, hspan⟩ := mem_globalsAt.mp (List.mem_of_find?_eq_some hfound)
    rw [hfound]
    exact congrArg some (Prod.ext hname hspan.symm)
  · next h =>
    refine List.find?_eq_none.mpr ?_
    rintro ⟨other, statement⟩ hmem hname
    obtain rfl : other = name := by simpa using hname
    exact h (mem_globalsAt.mp hmem).1

/-- The statement that stands for a listed name: the first that lists it. -/
theorem filter_globals (visits : List Visit) (name : String) :
    (distinctBy Prod.fst (visits.flatMap (globalsAt source))).filter (·.1 == name) =
      ((visits.find? (ListsGlobal source name ·)).map fun v => (name, v.node)).toList := by
  -- Of the entries with one name only the first is left, so it is the first that has to be found.
  rw [filter_distinctBy]
  congr 1
  induction visits with
  | nil => rfl
  | cons v visits ih =>
    rw [List.flatMap_cons, List.find?_append, ih, find?_globalsAt, List.find?_cons]
    by_cases hv : ListsGlobal source name v <;> simp [hv]

theorem any_globals {visits : List Visit} {name : String} :
    (distinctBy Prod.fst (visits.flatMap (globalsAt source))).any (·.1 == name) = true ↔
      ∃ v ∈ visits, ListsGlobal source name v := by
  constructor
  · intro h
    obtain ⟨⟨other, statement⟩, hmem, hname⟩ := List.any_eq_true.mp h
    obtain rfl : other = name := by simpa using hname
    obtain ⟨v, hv, hlisted⟩ := List.mem_flatMap.mp (mem_of_mem_distinctBy hmem)
    exact ⟨v, hv, (mem_globalsAt.mp hlisted).1⟩
  · rintro ⟨v, hv, hlists⟩
    have hkey : name ∈ (visits.flatMap (globalsAt source)).map Prod.fst :=
      List.mem_map.mpr ⟨(name, v.node),
        List.mem_flatMap.mpr ⟨v, hv, mem_globalsAt.mpr ⟨hlists, rfl⟩⟩, rfl⟩
    obtain ⟨found, hfound, hname⟩ := List.mem_map.mp (mem_map_distinctBy.mpr hkey)
    exact List.any_eq_true.mpr ⟨found, hfound, beq_iff_eq.mpr hname⟩

theorem any_assignments {visits : List Visit} {name : String} :
    (visits.filterMap (assignmentAt source)).any (·.1 == name) = false ↔
      (visits.filter (Assigns source name ·)).isEmpty = true := by
  rw [List.any_eq_false, ← List.filter_eq_nil_iff, filter_assignments]
  simp only [List.map_eq_nil_iff, List.isEmpty_iff]

variable {module : Node} {d : Declaration}

/-- What a module declares is a global when its name is listed, and a constant otherwise. -/
theorem kind_of_mem_moduleDeclarations (h : d ∈ moduleDeclarations source module) :
    d.kind = .global ∧ (∃ v ∈ module.visits, ListsGlobal source d.name v) ∨
      d.kind = .constant ∧ ¬∃ v ∈ module.visits, ListsGlobal source d.name v := by
  simp only [moduleDeclarations, List.mem_append] at h
  rcases h with h | h
  · obtain ⟨⟨name, span⟩, -, hd⟩ := List.mem_filterMap.mp h
    dsimp only at hd
    split at hd
    · next hlisted =>
      cases hd
      exact Or.inl ⟨rfl, any_globals.mp hlisted⟩
    · next hlisted =>
      split at hd <;> cases hd
      exact Or.inr ⟨rfl, mt any_globals.mpr hlisted⟩
  · obtain ⟨⟨name, statement⟩, hmem, rfl⟩ := List.mem_map.mp h
    have hlisted := mem_of_mem_distinctBy (List.mem_filter.mp hmem).1
    obtain ⟨u, hu, hlisted⟩ := List.mem_flatMap.mp hlisted
    exact Or.inl ⟨rfl, u, hu, (mem_globalsAt.mp hlisted).1⟩

theorem globalAnchors_ne_nil (h : ∃ v ∈ module.visits, ListsGlobal source name v) :
    globalAnchors source module name ≠ [] := by
  rw [globalAnchors]
  split
  · have hsome : (module.visits.find? (ListsGlobal source name ·)).isSome :=
      List.find?_isSome.mpr (h.imp fun v hv => ⟨hv.1, decide_eq_true hv.2⟩)
    obtain ⟨v, hv⟩ := Option.isSome_iff_exists.mp hsome
    simp [hv]
  · next hassigned => simpa using hassigned

theorem filter_declared_assignments {isGlobal : String → Bool} (hname : isGlobal name = true)
    (assignments : List (String × Node)) :
    (assignments.filterMap fun a =>
        if isGlobal a.1 then some ⟨a.1, .global, a.2, none, none⟩
        else if isConstantName a.1 && !isNoiseName a.1 then some ⟨a.1, .constant, a.2, none, none⟩
        else none).filter (fun d : Declaration => d.kind = .global ∧ d.name = name) =
      (assignments.filter (·.1 == name)).map fun a => ⟨name, .global, a.2, none, none⟩ := by
  rw [List.filter_filterMap, ← List.filterMap_eq_map, List.filterMap_filter]
  congr 1
  funext a
  by_cases hn : a.1 = name
  · simp [hn, hname]
  · have hne : (a.1 == name) = false := by simpa using hn
    simp only [hne]
    split
    · simp [hn]
    · split <;> simp

theorem filter_declared_globals (isAssigned : String → Bool) (globals : List (String × Node)) :
    ((globals.filter fun g => !isAssigned g.1).map fun g =>
        (⟨g.1, .global, g.2, none, none⟩ : Declaration)).filter
          (fun d => d.kind = .global ∧ d.name = name) =
      if isAssigned name then [] else
        (globals.filter (·.1 == name)).map fun g => ⟨name, .global, g.2, none, none⟩ := by
  rw [List.filter_map, List.filter_filter]
  split
  · next hassigned =>
    refine List.map_eq_nil_iff.mpr (List.filter_eq_nil_iff.mpr fun g _ => ?_)
    by_cases hg : g.1 = name <;> simp [hg, hassigned]
  · next hassigned =>
    rw [← List.filterMap_eq_map, List.filterMap_filter, ← List.filterMap_eq_map,
      List.filterMap_filter]
    congr 1
    funext g
    by_cases hg : g.1 = name <;> simp [hg, hassigned]

/-- The declarations of a listed name stand at its anchors. -/
theorem filter_moduleDeclarations (h : ∃ v ∈ module.visits, ListsGlobal source name v) :
    (moduleDeclarations source module).filter (fun d => d.kind = .global ∧ d.name = name) =
      (globalAnchors source module name).map (⟨name, .global, ·, none, none⟩) := by
  let isGlobal (n : String) :=
    (distinctBy Prod.fst (module.visits.flatMap (globalsAt source))).any (·.1 == n)
  let isAssigned (n : String) :=
    (module.visits.filterMap (assignmentAt source)).any (·.1 == n)
  have hglobal : isGlobal name = true := any_globals.mpr h
  simp only [moduleDeclarations, List.filter_append]
  rw [filter_declared_assignments hglobal, filter_declared_globals isAssigned, filter_assignments,
    filter_globals, globalAnchors]
  -- Either the assignments declare the name or the statement does, never both.
  by_cases hassigned : (module.visits.filter (Assigns source name ·)).isEmpty = true
  · have hnone : isAssigned name = false := any_assignments.mpr hassigned
    rw [hnone, if_pos hassigned, List.isEmpty_iff.mp hassigned]
    cases module.visits.find? (ListsGlobal source name ·) <;> rfl
  · have hsome : isAssigned name = true :=
      Bool.eq_true_of_not_eq_false (mt any_assignments.mp hassigned)
    rw [hsome, if_neg hassigned]
    simp

/-- Below a module only its own node declares constants and globals. -/
theorem kind_of_mem_declarations (hv : v.node.kind ≠ "module")
    (h : d ∈ declarations source v) : d.kind ≠ .global ∧ d.kind ≠ .constant := by
  simp only [declarations] at h
  split at h
  · obtain ⟨name, -, rfl⟩ := Option.map_eq_some_iff.mp (Option.mem_toList.mp h)
    exact ⟨by simp, by simp⟩
  · obtain ⟨name, -, rfl⟩ := Option.map_eq_some_iff.mp (Option.mem_toList.mp h)
    split <;> exact ⟨by simp, by simp⟩
  · next hkind => exact absurd hkind hv
  · cases h

end Rules.Python

theorem Visit.Reaches.ancestors_ne_nil {start v : Visit} (h : start.Reaches v)
    (hstart : start.ancestors ≠ []) : v.ancestors ≠ [] := by
  cases h with
  | refl => exact hstart
  | down _ _ => exact List.cons_ne_nil _ _

namespace Query

/-- A symbol that nesting does not drop leaves one of its kind and name in the listing. -/
theorem exists_mem_list_everything {symbols : List Symbol} {s : Symbol} (hs : s ∈ symbols)
    (hkind : s.kind.outlivesNesting = true) :
    ∃ t ∈ everything.list symbols, t.identity = s.identity := by
  have hsort : [s].Sublist (Symbol.sort symbols) :=
    List.singleton_sublist.mpr (List.mem_mergeSort.mpr hs)
  obtain ⟨kept, hsub, hkeys⟩ := Symbol.exists_sublist_dropRepeats hsort (List.isChain_singleton _)
  obtain ⟨t, rest, rfl, ht, -⟩ := List.map_eq_cons_iff.mp hkeys.symm
  obtain ⟨htkind, htname, -⟩ := Symbol.key_eq_iff.mp ht
  refine ⟨t, ?_, congrArg₂ SymbolIdentity.mk htname htkind⟩
  rw [list_everything]
  exact Symbol.mem_dropNested.mpr ⟨hsub.mem List.mem_cons_self, Or.inl (htkind ▸ hkind)⟩

end Query

namespace ParsedSource

open Rules.Python

/-- A Python tree whose root is its only module. -/
structure IsPythonModule (p : ParsedSource) : Prop where
  language : p.language = .python
  root : p.tree.kind = "module"
  only : ∀ v, p.tree.Reaches v → v.node.kind = "module" → v.ancestors = []

def globalOver (p : ParsedSource) (name : String) (span : Node) : Symbol :=
  (⟨name, .global, span, none, none⟩ : Declaration).toSymbol p.source p.language true

namespace IsPythonModule

variable {p : ParsedSource} {i : SymbolIdentity} {name : String}

theorem declaredAt_root (hp : p.IsPythonModule) :
    p.declaredAt ⟨p.tree, []⟩ =
      (moduleDeclarations p.source p.tree).map (·.toSymbol p.source p.language true) := by
  simp [declaredAt, hp.language, Language.rules, Rules.python, declarations, hp.root]

theorem filter_declaredAt (hp : p.IsPythonModule) (hi : i.kind = .global ∨ i.kind = .constant) :
    ∀ v ∈ p.tree.namedChildren.flatMap (visitsUnder [p.tree]),
      (p.declaredAt v).filter (·.identity = i) = [] := by
  intro v hv
  obtain ⟨c, hc, hv⟩ := List.mem_flatMap.mp hv
  have hbelow := mem_visitsUnder.mp hv
  have hreach : p.tree.Reaches v := Visit.Reaches.trans (Visit.reaches_down hc) hbelow
  have hkind : v.node.kind ≠ "module" := fun h =>
    hbelow.ancestors_ne_nil (List.cons_ne_nil _ _) (hp.only v hreach h)
  refine List.filter_eq_nil_iff.mpr fun s hs hsi => ?_
  obtain ⟨d, hd, rfl⟩ := List.mem_map.mp hs
  rw [hp.language] at hd
  obtain ⟨hglobal, hconstant⟩ := kind_of_mem_declarations hkind hd
  have hdi : d.kind = i.kind := congrArg SymbolIdentity.kind (of_decide_eq_true hsi)
  rcases hi with hi | hi
  · exact hglobal (hdi.trans hi)
  · exact hconstant (hdi.trans hi)

/-- The constants and globals of the file are those of the module. -/
theorem filter_declared (hp : p.IsPythonModule) (hi : i.kind = .global ∨ i.kind = .constant) :
    p.declared.filter (·.identity = i) =
      ((moduleDeclarations p.source p.tree).filter fun d => d.kind = i.kind ∧ d.name = i.name).map
        (·.toSymbol p.source p.language true) := by
  rw [declared, Node.visits, visitsUnder_eq, List.flatMap_cons, List.filter_append,
    List.filter_flatMap, List.flatMap_eq_nil_iff.mpr (hp.filter_declaredAt hi), List.append_nil,
    hp.declaredAt_root, List.filter_map]
  congr 1
  refine List.filter_congr fun d _ => decide_eq_decide.mpr ?_
  exact Iff.intro (fun h => h ▸ ⟨rfl, rfl⟩) fun h => congrArg₂ SymbolIdentity.mk h.2 h.1

theorem exists_of_mem_declared (hp : p.IsPythonModule)
    (hi : i.kind = .global ∨ i.kind = .constant) (h : i ∈ p.declared.map Symbol.identity) :
    ∃ d ∈ moduleDeclarations p.source p.tree, d.kind = i.kind ∧ d.name = i.name := by
  obtain ⟨s, hs, hsi⟩ := List.mem_map.mp h
  have hs : s ∈ p.declared.filter (·.identity = i) :=
    List.mem_filter.mpr ⟨hs, decide_eq_true hsi⟩
  rw [hp.filter_declared hi] at hs
  obtain ⟨d, hd, -⟩ := List.mem_map.mp hs
  obtain ⟨hd, hdi⟩ := List.mem_filter.mp hd
  exact ⟨d, hd, of_decide_eq_true hdi⟩

theorem globals_eq (hp : p.IsPythonModule)
    (h : ∃ v ∈ p.tree.visits, ListsGlobal p.source name v) :
    p.declared.filter (·.identity = ⟨name, .global⟩) =
      (globalAnchors p.source p.tree name).map (p.globalOver name) := by
  rw [hp.filter_declared (Or.inl rfl), filter_moduleDeclarations h, List.map_map]
  rfl

theorem global_mem_declared (hp : p.IsPythonModule)
    (h : ∃ v ∈ p.tree.visits, ListsGlobal p.source name v) :
    ⟨name, .global⟩ ∈ p.declared.map Symbol.identity := by
  obtain ⟨span, hspan⟩ := List.exists_mem_of_ne_nil _ (globalAnchors_ne_nil h)
  have hs : p.globalOver name span ∈ p.declared.filter (·.identity = ⟨name, .global⟩) := by
    rw [hp.globals_eq h]
    exact List.mem_map_of_mem hspan
  exact List.mem_map.mpr ⟨_, (List.mem_filter.mp hs).1, rfl⟩

end IsPythonModule

/-- A Python module declares a global for a name exactly when a global statement lists it. Such a
name has no constant, its globals stand at its anchors in order, and at least one is listed. -/
theorem globals_anchored (p : ParsedSource) (hp : p.IsPythonModule) (name : String) :
    (⟨name, .global⟩ ∈ p.declared.map Symbol.identity ↔
      ∃ v, p.tree.Reaches v ∧ ListsGlobal p.source name v) ∧
    ((∃ v, p.tree.Reaches v ∧ ListsGlobal p.source name v) →
      ⟨name, .constant⟩ ∉ p.declared.map Symbol.identity ∧
      p.declared.filter (·.identity = ⟨name, .global⟩) =
        (globalAnchors p.source p.tree name).map (p.globalOver name) ∧
      ⟨name, .global⟩ ∈ (Query.everything.list p.declared).map Symbol.identity) := by
  simp only [← Node.mem_visits]
  refine ⟨⟨?_, hp.global_mem_declared⟩, fun h => ⟨?_, hp.globals_eq h, ?_⟩⟩
  · intro h
    obtain ⟨d, hd, hkind, rfl⟩ := hp.exists_of_mem_declared (Or.inl rfl) h
    rcases kind_of_mem_moduleDeclarations hd with ⟨-, hlisted⟩ | ⟨hconstant, -⟩
    · exact hlisted
    · exact absurd (hkind.symm.trans hconstant) (by simp)
  · intro hconstant
    obtain ⟨d, hd, hkind, rfl⟩ := hp.exists_of_mem_declared (Or.inr rfl) hconstant
    rcases kind_of_mem_moduleDeclarations hd with ⟨hglobal, -⟩ | ⟨-, hnot⟩
    · exact absurd (hkind.symm.trans hglobal) (by simp)
    · exact hnot h
  · -- Globals outlive nesting, and a repetition is dropped only beside one of its name.
    obtain ⟨s, hs, hi⟩ := List.mem_map.mp (hp.global_mem_declared h)
    have hkind : s.kind = .global := congrArg SymbolIdentity.kind hi
    obtain ⟨t, ht, hti⟩ := Query.exists_mem_list_everything hs (hkind ▸ rfl)
    exact List.mem_map.mpr ⟨t, ht, hti.trans hi⟩

/-- A function that declares `LIMIT` and `count` global, before the module assigns `LIMIT`. -/
def sharedNames : ParsedSource where
  tree :=
    let node (id : Nat) (kind field : String) (named : Bool) (start stop : Nat)
        (children : List Node) : Node :=
      ⟨id, kind, field, start, stop, named, false, false, false, children⟩
    let statement := node 7 "global_statement" "" true 13 32
      [node 8 "global" "" false 13 19 [], node 9 "identifier" "" true 20 25 [],
        node 10 "," "" false 25 26 [], node 11 "identifier" "" true 27 32 []]
    let function := node 1 "function_definition" "" true 0 32
      [node 2 "def" "" false 0 3 [], node 3 "identifier" "name" true 4 5 [],
        node 4 "parameters" "parameters" true 5 7 [], node 5 ":" "" false 7 8 [],
        node 6 "block" "body" true 13 32 [statement]]
    let assignment := node 13 "assignment" "" true 33 42
      [node 14 "identifier" "left" true 33 38 [], node 15 "=" "" false 39 40 [],
        node 16 "integer" "right" true 41 42 []]
    node 0 "module" "" true 0 43
      [function, node 12 "expression_statement" "" true 33 42 [assignment]]
  source := Text.encode "def f():\n    global LIMIT, count\nLIMIT = 1\n"
  path := "shared.py"
  language := .python
  grammar := .python
  recovered := false

theorem sharedNames_isPythonModule : sharedNames.IsPythonModule where
  language := rfl
  root := rfl
  only v hv := by
    have hall : ∀ v ∈ sharedNames.tree.visits, v.node.kind = "module" → v.ancestors.isEmpty := by
      decide +kernel
    exact fun hkind => List.isEmpty_iff.mp (hall v (Node.mem_visits.mpr hv) hkind)

/-- One name is anchored at its assignment and is no constant, the other at the statement that lists
it, though that stands in a function. -/
theorem globals_anchored_sharedNames :
    sharedNames.IsPythonModule ∧
      ⟨"LIMIT", .constant⟩ ∉ sharedNames.declared.map Symbol.identity ∧
      sharedNames.declared.filter (·.identity = ⟨"LIMIT", .global⟩) =
        [⟨"LIMIT", .global, 3, 3, .python, none, none, 33, 42, true⟩] ∧
      sharedNames.declared.filter (·.identity = ⟨"count", .global⟩) =
        [⟨"count", .global, 2, 2, .python, none, none, 13, 32, true⟩] ∧
      ⟨"count", .global⟩ ∈ (Query.everything.list sharedNames.declared).map Symbol.identity := by
  have hlimit : ∃ v, sharedNames.tree.Reaches v ∧ ListsGlobal sharedNames.source "LIMIT" v := by
    simp only [← Node.mem_visits]
    decide +kernel
  have hcount : ∃ v, sharedNames.tree.Reaches v ∧ ListsGlobal sharedNames.source "count" v := by
    simp only [← Node.mem_visits]
    decide +kernel
  obtain ⟨hconstant, hassigned, -⟩ :=
    (globals_anchored sharedNames sharedNames_isPythonModule "LIMIT").2 hlimit
  obtain ⟨-, hlisted, hkept⟩ :=
    (globals_anchored sharedNames sharedNames_isPythonModule "count").2 hcount
  refine ⟨sharedNames_isPythonModule, hconstant, ?_, ?_, hkept⟩
  · rw [hassigned]
    decide +kernel
  · rw [hlisted]
    decide +kernel

end ParsedSource
end SymbolHistory
