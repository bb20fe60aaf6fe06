import SymbolHistory.Proofs.Extraction.Declarations
import SymbolHistory.Proofs.Tree.Reach

namespace SymbolHistory

theorem Node.exists_of_fieldText? {n : Node} {source : Bytes} {field text : String}
    (h : n.fieldText? source field = some text) :
    ∃ c, n.child? field = some c ∧ c.text source = text :=
  Option.map_eq_some_iff.mp h

theorem Node.kind_of_childOfKind? {n c : Node} {kind : String} (h : n.childOfKind? kind = some c) :
    c.kind = kind := by
  simpa using List.find?_some h

namespace Rules

namespace JavaScript

def wrapperKinds : List String :=
  ["lexical_declaration", "variable_declaration", "export_statement", "export_clause"]

/-- A declaring node is named by its name field, a wrapper by what it holds, and an assignment to a
member of a global object by that member. -/
inductive OwnName (source : Bytes) : Visit → Visit → Prop
  | field {v : Visit} {c : Node} (hv : v.node.kind ∈ declaringKinds)
    (hc : v.node.child? "name" = some c) : OwnName source v (v.down c)
  | held {v w : Visit} {n : Node} (hv : v.node.kind ∈ wrapperKinds)
    (hn : n ∈ v.node.children) (hw : OwnName source (v.down n) w) : OwnName source v w
  | member {v : Visit} {left c : Node} (hv : v.node.kind = "assignment_expression")
    (hleft : v.node.child? "left" = some left) (hglobal : isGlobalMember source left = true)
    (hc : left.child? "property" = some c) : OwnName source v ((v.down left).down c)

/-- An export exports a declaration or a value of a declaring kind, or a list of names. -/
def NamesItself (v : Visit) : Prop :=
  v.node.kind = "export_statement" →
    match v.node.child? "declaration", v.node.child? "value" with
    | some e, _ =>
      e.kind ∈ declaringKinds ∨ e.kind = "lexical_declaration" ∨ e.kind = "variable_declaration"
    | none, some e => e.kind ∈ declaringKinds
    | none, none => True

def IsNamed (source : Bytes) (v : Visit) (name : String) : Prop :=
  ∃ w, OwnName source v w ∧ w.node.text source = name

variable {source : Bytes} {v : Visit} {name : String} {d : Declaration}

theorem IsNamed.field (hv : v.node.kind ∈ declaringKinds)
    (h : v.node.fieldText? source "name" = some name) : IsNamed source v name := by
  obtain ⟨c, hc, rfl⟩ := Node.exists_of_fieldText? h
  exact ⟨v.down c, .field hv hc, rfl⟩

theorem IsNamed.held {n : Node} (hv : v.node.kind ∈ wrapperKinds) (hn : n ∈ v.node.children)
    (h : IsNamed source (v.down n) name) : IsNamed source v name := by
  obtain ⟨w, hw, hname⟩ := h
  exact ⟨w, .held hv hn hw, hname⟩

theorem IsNamed.ofKind {n : Node} {kind : String} (hv : v.node.kind ∈ wrapperKinds)
    (hkind : kind ∈ declaringKinds) (hn : n ∈ v.node.childrenOfKind kind)
    (h : n.fieldText? source "name" = some name) : IsNamed source v name := by
  obtain ⟨hn, hk⟩ := List.mem_filter.mp hn
  refine .held hv (Node.mem_children_of_mem_namedChildren hn) (.field ?_ h)
  rw [← beq_iff_eq.mp hk] at hkind
  exact hkind

theorem isNamed_of_mem_constants (hv : v.node.kind = "lexical_declaration")
    (h : d ∈ constants source v) : IsNamed source v d.name := by
  have hwrapper : v.node.kind ∈ wrapperKinds := by
    rw [hv]
    decide
  obtain ⟨declarator, hmem, span, -, hd⟩ := exists_of_mem_constants h
  obtain ⟨name, kind, hname, rfl, -⟩ := exists_of_constantAt hd
  exact .ofKind hwrapper (by decide) hmem hname

theorem isNamed_of_globalAt (hv : v.node.kind = "assignment_expression")
    (h : globalAt source v = some d) : IsNamed source v d.name := by
  obtain ⟨left, property, hleft, hglobal, hproperty, rfl⟩ := exists_of_globalAt h
  exact ⟨_, .member hv hleft hglobal hproperty, rfl⟩

/-- An exported declaration is named by its declarators or by its name field. -/
theorem isNamed_of_mem_exportedNames
    (hv : v.node.kind ∈ declaringKinds ∨ v.node.kind = "lexical_declaration" ∨
      v.node.kind = "variable_declaration")
    (h : name ∈ exportedNames source v.node) : IsNamed source v name := by
  have hdeclarators (hwrapper : v.node.kind ∈ wrapperKinds)
      (h : name ∈ (((v.node.childrenOfKind "variable_declarator").filterMap
        (·.child? "name")).filter (·.kind == "identifier")).map (·.text source)) :
      IsNamed source v name := by
    obtain ⟨c, hc, rfl⟩ := List.mem_map.mp h
    obtain ⟨declarator, hmem, hname⟩ := List.mem_filterMap.mp (List.mem_filter.mp hc).1
    exact .ofKind hwrapper (by decide) hmem (by rw [Node.fieldText?, hname]; rfl)
  unfold exportedNames at h
  split at h
  · next hkind => exact hdeclarators (by rw [hkind]; decide) h
  · next hkind => exact hdeclarators (by rw [hkind]; decide) h
  · next hlexical hvariable =>
    have hdeclaring := hv.resolve_right (by rintro (h | h) <;> contradiction)
    exact .field hdeclaring (Option.mem_toList.mp h)

theorem isNamed_of_mem_exportNames (hv : v.node.kind = "export_statement")
    (hown : NamesItself v) (h : name ∈ exportNames source v.node) : IsNamed source v name := by
  have hwrapper : v.node.kind ∈ wrapperKinds := by
    rw [hv]
    decide
  have hown := hown hv
  unfold exportNames at h
  split at h
  · next e hdeclaration =>
    rw [hdeclaration] at hown
    refine .held hwrapper (List.mem_of_find?_eq_some hdeclaration) ?_
    exact isNamed_of_mem_exportedNames (v := v.down e) hown h
  · next e hdeclaration hvalue =>
    rw [hdeclaration, hvalue] at hown
    have hkind : e.kind ∈ declaringKinds := hown
    refine .held hwrapper (List.mem_of_find?_eq_some hvalue) ?_
    split at h
    · next hidentifier =>
      -- A bare identifier is of no declaring kind.
      rw [beq_iff_eq.mp hidentifier] at hkind
      exact absurd hkind (by decide)
    · exact .field hkind (Option.mem_toList.mp h)
  · obtain ⟨specifier, hspecifier, hname⟩ := List.mem_filterMap.mp h
    obtain ⟨clause, hclause, hspecifier⟩ := List.mem_flatMap.mp hspecifier
    obtain ⟨hclause, hkind⟩ := List.mem_filter.mp hclause
    refine .held hwrapper (Node.mem_children_of_mem_namedChildren hclause) ?_
    refine .ofKind ?_ (by decide) hspecifier hname
    rw [show (v.down clause).node.kind = "export_clause" from beq_iff_eq.mp hkind]
    decide

theorem isNamed_of_mem_declarations (hown : NamesItself v) (h : d ∈ declarations source v) :
    IsNamed source v d.name := by
  have hnamed {kind : SymbolKind} {e : Declaration} (hkind : v.node.kind ∈ declaringKinds)
      (he : e ∈ namedAs source kind v.node) : IsNamed source v e.name := by
    obtain ⟨name, hname, rfl⟩ := exists_of_mem_namedAs he
    exact .field hkind hname
  simp only [declarations] at h
  split at h
  · next hkind =>
    obtain ⟨e, he, rfl⟩ := List.mem_map.mp h
    exact (hnamed (by rw [hkind]; decide) he : IsNamed source v e.name)
  · next hkind =>
    obtain ⟨e, he, rfl⟩ := List.mem_map.mp h
    exact (hnamed (by rw [hkind]; decide) he : IsNamed source v e.name)
  · next hkind => exact hnamed (by rw [hkind]; decide) h
  · next hkind => exact hnamed (by rw [hkind]; decide) h
  · next hkind =>
    obtain ⟨e, he, rfl⟩ := List.mem_map.mp h
    exact (hnamed (by rw [hkind]; decide) he : IsNamed source v e.name)
  · next hkind => exact isNamed_of_mem_constants hkind h
  · next hkind => exact isNamed_of_globalAt hkind (Option.mem_toList.mp h)
  · next hkind =>
    obtain ⟨name, hname, rfl⟩ := List.mem_map.mp h
    exact isNamed_of_mem_exportNames hkind hown hname
  · next hkind => exact hnamed (by rw [hkind]; decide) h
  · cases h

end JavaScript

namespace Python

/-- A definition is named by its name field, a module by the names that it assigns outside classes
and functions and by those that its global statements list. -/
inductive OwnName (kind : SymbolKind) (v : Visit) : Visit → Prop
  | field {c : Node} (hv : v.node.kind ∈ scopeKinds)
    (hc : v.node.child? "name" = some c) : OwnName kind v (v.down c)
  | assigned {u : Visit} {c : Node} (hv : v.node.kind = "module") (hu : v.Reaches u)
    (hkind : kind = .constant ∨ kind = .global) (ha : u.node.kind = "assignment")
    (hscope : u.isWithin scopeKinds = false) (hc : u.node.child? "left" = some c) :
    OwnName kind v (u.down c)
  | listed {u : Visit} {c : Node} (hv : v.node.kind = "module") (hu : v.Reaches u)
    (hkind : kind = .global) (hg : u.node.kind = "global_statement")
    (hc : c ∈ u.node.children) : OwnName kind v (u.down c)

def NamesItself (v : Visit) : Prop := v.node.kind = "module" → v.isWithin scopeKinds = false

variable {source : Bytes} {v : Visit} {d : Declaration}

theorem of_assignmentAt {u : Visit} {g : String × Node} (h : assignmentAt source u = some g) :
    u.node.kind = "assignment" ∧ u.isWithin scopeKinds = false ∧
      ∃ c, u.node.child? "left" = some c ∧ c.text source = g.1 := by
  unfold assignmentAt at h
  split at h
  · next hassign =>
    simp only [Bool.and_eq_true, beq_iff_eq, Bool.not_eq_true'] at hassign
    obtain ⟨c, hc, rfl⟩ := Option.map_eq_some_iff.mp h
    exact ⟨hassign.1, hassign.2, c, (Option.filter_eq_some_iff.mp hc).1, rfl⟩
  · cases h

theorem of_mem_globalsAt {u : Visit} {g : String × Node} (h : g ∈ globalsAt source u) :
    u.node.kind = "global_statement" ∧ ∃ c ∈ u.node.children, c.text source = g.1 := by
  unfold globalsAt at h
  split at h
  · next hkind =>
    obtain ⟨c, hc, rfl⟩ := List.mem_map.mp h
    have hc := Node.mem_children_of_mem_namedChildren (List.mem_filter.mp hc).1
    exact ⟨beq_iff_eq.mp hkind, c, hc, rfl⟩
  · cases h

theorem isNamed_of_mem_moduleDeclarations (hv : v.node.kind = "module")
    (hscope : v.isWithin scopeKinds = false) (h : d ∈ moduleDeclarations source v.node) :
    ∃ w, OwnName d.kind v w ∧ w.node.text source = d.name := by
  obtain ⟨u, hu, name, kind, span, rfl, hfound⟩ := exists_of_mem_moduleDeclarations h
  have hreach : v.Reaches ⟨u.node, u.ancestors ++ v.ancestors⟩ := (Node.mem_visits.mp hu).within
  rcases hfound with ⟨hassign, hkind⟩ | ⟨hlisted, rfl⟩
  · obtain ⟨hassignment, hwithin, c, hc, rfl⟩ := of_assignmentAt hassign
    -- The module walks its own tree, so what is around the module is put back around the visit.
    have hout : (⟨u.node, u.ancestors ++ v.ancestors⟩ : Visit).isWithin scopeKinds = false := by
      rw [Visit.isWithin_append, hwithin, Bool.false_or]
      exact hscope
    have hkind : kind = .constant ∨ kind = .global := hkind.symm.imp And.left id
    exact ⟨_, .assigned hv hreach hkind hassignment hout hc, rfl⟩
  · obtain ⟨hstatement, c, hc, rfl⟩ := of_mem_globalsAt hlisted
    exact ⟨_, .listed hv hreach rfl hstatement hc, rfl⟩

theorem isNamed_of_mem_declarations (hown : NamesItself v) (h : d ∈ declarations source v) :
    ∃ w, OwnName d.kind v w ∧ w.node.text source = d.name := by
  have hfield {kind : SymbolKind} {name : String} (hv : v.node.kind ∈ scopeKinds)
      (hname : v.node.fieldText? source "name" = some name) :
      ∃ w, OwnName kind v w ∧ w.node.text source = name := by
    obtain ⟨c, hc, rfl⟩ := Node.exists_of_fieldText? hname
    exact ⟨v.down c, .field hv hc, rfl⟩
  simp only [declarations] at h
  split at h
  · next hkind =>
    obtain ⟨name, hname, rfl⟩ := Option.map_eq_some_iff.mp (Option.mem_toList.mp h)
    exact hfield (by rw [hkind]; decide) hname
  · next hkind =>
    obtain ⟨name, hname, rfl⟩ := Option.map_eq_some_iff.mp (Option.mem_toList.mp h)
    split <;> exact hfield (by rw [hkind]; decide) hname
  · next hkind => exact isNamed_of_mem_moduleDeclarations hkind (hown hkind) h
  · cases h

end Python

namespace Shell

/-- A function is named by its name field, a declaration command by the variables in it. -/
inductive OwnName (v : Visit) : Visit → Prop
  | field {c : Node} (hv : v.node.kind = "function_definition")
    (hc : v.node.child? "name" = some c) : OwnName v (v.down c)
  | «variable» {c : Node} (hv : v.node.kind = "declaration_command") (hc : c ∈ v.node.children)
    (hkind : c.kind = "variable_name") : OwnName v (v.down c)
  | assigned {part c : Node} (hv : v.node.kind = "declaration_command")
    (hpart : part ∈ v.node.children) (hassign : part.kind = "variable_assignment")
    (hc : part.child? "name" = some c) (hkind : c.kind = "variable_name") :
    OwnName v ((v.down part).down c)

def NamesItself (v : Visit) : Prop :=
  v.node.kind = "declaration_command" → ∀ part ∈ v.node.childrenOfKind "variable_assignment",
    ∀ c, part.child? "name" = some c → c.kind = "variable_name"

variable {source : Bytes} {v : Visit} {d : Declaration}

theorem isNamed_of_declaredName? {part : Node} {name : String}
    (hv : v.node.kind = "declaration_command") (hown : NamesItself v)
    (hpart : part ∈ v.node.namedChildren) (h : declaredName? source part = some name) :
    ∃ w, OwnName v w ∧ w.node.text source = name := by
  have hchild : part ∈ v.node.children := Node.mem_children_of_mem_namedChildren hpart
  unfold declaredName? at h
  split at h
  · next hkind =>
    obtain ⟨c, hc, rfl⟩ := Node.exists_of_fieldText? h
    have hname : c.kind = "variable_name" :=
      hown hv part (List.mem_filter.mpr ⟨hpart, beq_iff_eq.mpr hkind⟩) c hc
    exact ⟨_, .assigned hv hchild hkind hc hname, rfl⟩
  · next hkind =>
    cases h
    exact ⟨_, .variable hv hchild hkind, rfl⟩
  · cases h

theorem isNamed_of_mem_declarations (hown : NamesItself v) (h : d ∈ declarations source v) :
    ∃ w, OwnName v w ∧ w.node.text source = d.name := by
  simp only [declarations] at h
  split at h
  · next hkind =>
    obtain ⟨name, hname, rfl⟩ := Option.map_eq_some_iff.mp (Option.mem_toList.mp h)
    obtain ⟨c, hc, rfl⟩ := Node.exists_of_fieldText? hname
    exact ⟨_, .field hkind hc, rfl⟩
  · next hkind =>
    split at h
    · split at h
      · cases h
      · obtain ⟨name, hname, rfl⟩ := List.mem_map.mp h
        obtain ⟨part, hpart, hname⟩ := List.mem_filterMap.mp (List.mem_filter.mp hname).1
        exact isNamed_of_declaredName? hkind hown hpart hname
    · cases h
  · cases h

end Shell

namespace PowerShell

/-- Functions, classes and methods are named by their name nodes, a command that sets a variable by
the tokens in it, and an assignment to a scoped variable by that variable. -/
inductive OwnName (source : Bytes) (kind : SymbolKind) (v : Visit) : Visit → Prop
  | function {c : Node} (hv : v.node.kind = "function_statement")
    (hc : v.node.childOfKind? "function_name" = some c) : OwnName source kind v (v.down c)
  | «class» {c : Node} (hv : v.node.kind = "class_statement")
    (hc : v.node.childOfKind? "simple_name" = some c) : OwnName source kind v (v.down c)
  | method {c : Node} (hv : v.node.kind ∈ methodKinds)
    (hc : v.node.childOfKind? "simple_name" = some c) : OwnName source kind v (v.down c)
  | token {w : Visit} {command : String} (hw : v.Reaches w)
    (hkind : w.node.kind = "generic_token")
    (hv : w.nearest? ["command"] = some v.node)
    (hcommand : commandName source v.node = some command)
    (hsets : setsVariable command = true) (hscope : w.isWithin scopeKinds = false) :
    OwnName source kind v w
  | «variable» {w : Visit} {left : Node} (hw : v.Reaches w) (hkind : w.node.kind = "variable")
    (hv : w.nearest? ["assignment_expression"] = some v.node)
    (hleft : v.node.childOfKind? "left_assignment_expression" = some left)
    (hstart : left.startByte ≤ w.node.startByte) (hend : w.node.endByte ≤ left.endByte)
    (hglobal : isGlobalVariable (w.node.text source) = true) (hsymbol : kind = .global) :
    OwnName source kind v w

/-- A function, class or method without a name field. Commands and assignments are read as text. -/
def NamesItself (v : Visit) : Prop :=
  v.node.kind ≠ "command" ∧ v.node.kind ≠ "assignment_expression" ∧ v.node.child? "name" = none

variable {source : Bytes} {v : Visit} {d : Declaration}

theorem exists_of_nameOr {n : Node} {kind name : String} (hn : n.child? "name" = none)
    (h : nameOr source kind n = some name) :
    ∃ c, n.childOfKind? kind = some c ∧ c.kind = kind ∧ c.text source = name := by
  rw [nameOr, Node.fieldText?, hn] at h
  obtain ⟨c, hc, rfl⟩ := Option.map_eq_some_iff.mp h
  exact ⟨c, hc, Node.kind_of_childOfKind? hc, rfl⟩

theorem isNamed_of_mem_declarations (hown : NamesItself v) (h : d ∈ declarations source v) :
    ∃ w, OwnName source d.kind v w ∧ nameOf source w.node = d.name := by
  obtain ⟨hcommand, hassignment, hfield⟩ := hown
  have htext {c : Node} {kind : String} (hc : c.kind = kind)
      (hkind : kind = "function_name" ∨ kind = "simple_name") :
      nameOf source c = c.text source := by
    rcases hkind with rfl | rfl <;> simp [nameOf, hc]
  simp only [declarations] at h
  split at h
  · next hkind =>
    obtain ⟨name, hname, rfl⟩ := Option.map_eq_some_iff.mp (Option.mem_toList.mp h)
    obtain ⟨c, hfirst, hc, rfl⟩ := exists_of_nameOr hfield hname
    exact ⟨_, .function hkind hfirst, htext hc (Or.inl rfl)⟩
  · next hkind =>
    obtain ⟨name, hname, rfl⟩ := Option.map_eq_some_iff.mp (Option.mem_toList.mp h)
    obtain ⟨c, hfirst, hc, rfl⟩ := exists_of_nameOr hfield hname
    exact ⟨_, .class hkind hfirst, htext hc (Or.inr rfl)⟩
  · next hkind =>
    obtain ⟨name, hname, rfl⟩ := Option.map_eq_some_iff.mp (Option.mem_toList.mp h)
    obtain ⟨c, hfirst, hc, rfl⟩ := exists_of_nameOr hfield hname
    exact ⟨_, .method (by rw [hkind]; decide) hfirst, htext hc (Or.inr rfl)⟩
  · next hkind =>
    obtain ⟨name, hname, rfl⟩ := Option.map_eq_some_iff.mp (Option.mem_toList.mp h)
    obtain ⟨c, hfirst, hc, rfl⟩ := exists_of_nameOr hfield hname
    exact ⟨_, .method (by rw [hkind]; decide) hfirst, htext hc (Or.inr rfl)⟩
  · next hkind => exact absurd hkind hcommand
  · next hkind => exact absurd hkind hassignment
  · cases h

end PowerShell

namespace R

/-- An assignment that reaches outside every function is named by the side it assigns. -/
inductive OwnName (v : Visit) : Visit → Prop
  | assigned {a : Assignment} (hv : assignment? v.node = some a)
    (hscope : a.outward = true ∨ v.isWithin ["function_definition"] = false) :
    OwnName v (v.down a.name)

def NamesItself (v : Visit) : Prop :=
  v.node.kind ≠ "call" ∧ ∀ a, assignment? v.node = some a →
    a.outward = true ∨ v.isWithin ["function_definition"] = false

variable {source : Bytes} {v : Visit} {d : Declaration}

theorem isNamed_of_mem_declarations (hown : NamesItself v) (h : d ∈ declarations source v) :
    ∃ w, OwnName v w ∧ w.node.text source = d.name := by
  simp only [declarations] at h
  split at h
  · split at h
    · next a ha =>
      refine ⟨v.down a.name, .assigned ha (hown.2 a ha), ?_⟩
      split at h
      · cases h
      · split at h
        · obtain rfl := List.mem_singleton.mp h
          rfl
        · split at h
          · obtain rfl := List.mem_singleton.mp h
            rfl
          · split at h
            · obtain rfl := List.mem_singleton.mp h
              rfl
            · cases h
    · cases h
  · next hkind => exact absurd hkind hown.1
  · cases h

end R

end Rules

namespace Language

def OwnName : Language → Bytes → SymbolKind → Visit → Visit → Prop
  | javaScript, source, _ | typeScript, source, _ => Rules.JavaScript.OwnName source
  | python, _, kind => Rules.Python.OwnName kind
  | shell, _, _ => Rules.Shell.OwnName
  | powerShell, source, kind => Rules.PowerShell.OwnName source kind
  | r, _, _ => Rules.R.OwnName

/-- The declarations at a node are named by nodes. -/
def NamesItself : Language → Visit → Prop
  | javaScript | typeScript => Rules.JavaScript.NamesItself
  | python => Rules.Python.NamesItself
  | shell => Rules.Shell.NamesItself
  | powerShell => Rules.PowerShell.NamesItself
  | r => Rules.R.NamesItself

/-- Extraction reads the name of a declaration off one of the own names of its node. -/
theorem exists_ownName {l : Language} {source : Bytes} {v : Visit} {d : Declaration}
    (hown : l.NamesItself v) (h : d ∈ l.rules.declarations source v) :
    ∃ w, l.OwnName source d.kind v w ∧ l.rules.nameOf source w.node = d.name := by
  cases l with
  | javaScript => exact Rules.JavaScript.isNamed_of_mem_declarations hown h
  | typeScript => exact Rules.JavaScript.isNamed_of_mem_declarations hown h
  | python => exact Rules.Python.isNamed_of_mem_declarations hown h
  | shell => exact Rules.Shell.isNamed_of_mem_declarations hown h
  | powerShell => exact Rules.PowerShell.isNamed_of_mem_declarations hown h
  | r => exact Rules.R.isNamed_of_mem_declarations hown h

end Language
end SymbolHistory
