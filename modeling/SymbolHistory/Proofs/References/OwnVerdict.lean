import SymbolHistory.ParsedSource.References
import SymbolHistory.Proofs.Extraction.OwnNames
import SymbolHistory.Proofs.Tree.Identity

namespace SymbolHistory

namespace Visit

variable {v : Visit} {c : Node}

@[simp] theorem node_down : (v.down c).node = c := rfl

@[simp] theorem parent?_down : (v.down c).parent? = some v.node := rfl

@[simp] theorem grandparent?_down : (v.down c).grandparent? = v.parent? :=
  List.head?_eq_getElem?.symm

@[simp] theorem isField_down {kind field : String} :
    (v.down c).isField kind field = (v.node.kind == kind && c.isIn field v.node) := rfl

theorem isWithin_down {kinds : List String} :
    (v.down c).isWithin kinds = (kinds.contains v.node.kind || v.isWithin kinds) := by
  unfold isWithin nearest? down
  rw [List.find?_cons]
  cases kinds.contains v.node.kind <;> simp

end Visit

theorem Node.isIn_of_child? {n c : Node} {field : String} (h : n.child? field = some c) :
    c.isIn field n = true := by
  simp [isIn, h, same]

namespace Rules

variable (source : Bytes) (kind : SymbolKind) {v w : Visit}

variable {source} in
theorem JavaScript.kind_of_isGlobalMember {n : Node} (h : isGlobalMember source n = true) :
    n.kind = "member_expression" := by
  simp only [isGlobalMember, Bool.and_eq_true, beq_iff_eq] at h
  exact h.1

theorem JavaScript.verdict_of_ownName (h : OwnName source v w) :
    verdict source kind w = .declaration := by
  induction h with
  | field hv hc => simp [verdict, hv, Node.isIn_of_child? hc]
  | held hv hn hw ih => exact ih
  | @member v left c hv hleft hglobal hc =>
    simp [verdict, memberVerdict, hv, kind_of_isGlobalMember hglobal, hglobal,
      Node.isIn_of_child? hleft, Node.isIn_of_child? hc]

theorem Python.verdict_of_ownName (h : OwnName kind v w) :
    verdict source kind w = .declaration := by
  cases h with
  | field hv hc =>
    have hv : v.node.kind = "class_definition" ∨ v.node.kind = "function_definition" := by
      simpa [scopeKinds] using hv
    rcases hv with hv | hv <;> simp [verdict, hv, Node.isIn_of_child? hc]
  | @assigned u c hv hu hkind ha hscope hc =>
    have hwithin : (u.down c).isWithin scopeKinds = false := by
      rw [Visit.isWithin_down, ha, hscope]
      decide
    rcases hkind with rfl | rfl <;> simp [verdict, ha, hwithin, Node.isIn_of_child? hc]
  | listed hv hu hkind hg hc => simp [verdict, hkind, hg]

theorem Shell.verdict_of_ownName (h : OwnName v w) : verdict source kind w = .declaration := by
  cases h with
  | field hv hc => simp [verdict, hv, Node.isIn_of_child? hc]
  | «variable» hv hc hkind => simp [verdict, hv, hkind]
  | assigned hv hpart hassign hc hkind =>
    simp [verdict, hv, hassign, hkind, Node.isIn_of_child? hc]

namespace PowerShell

theorem ne_newObject_of_setsVariable {command : String} (h : setsVariable command = true) :
    Text.sameIgnoringAsciiCase command "New-Object" = false := by
  simp only [setsVariable, List.any_cons, List.any_nil, Bool.or_false, Bool.or_eq_true,
    Text.sameIgnoringAsciiCase, Text.eqIgnoringAsciiCase, beq_iff_eq] at h ⊢
  rcases h with h | h <;> rw [h] <;> decide

theorem verdict_of_ownName (h : OwnName source kind v w) :
    verdict source kind w = .declaration := by
  cases h with
  | function hv hc => simp [verdict, Node.kind_of_childOfKind? hc]
  | «class» hv hc =>
    simp [verdict, simpleNameVerdict, Node.kind_of_childOfKind? hc, hv, hc, Node.same]
  | method hv hc =>
    have hne : v.node.kind ≠ "class_statement" := by
      intro he
      rw [he] at hv
      exact absurd hv (by decide)
    simp [verdict, simpleNameVerdict, Node.kind_of_childOfKind? hc, hv, hne]
  | token hw hkind hv hcommand hsets hscope =>
    simp [verdict, tokenVerdict, hkind, hv, hcommand, hsets, hscope,
      ne_newObject_of_setsVariable hsets]
  | «variable» hw hkind hv hleft hstart hend hglobal hsymbol =>
    simp [verdict, variableVerdict, hkind, hv, hleft, hstart, hend, hglobal, hsymbol]

end PowerShell

theorem R.verdict_of_ownName (h : OwnName v w) : verdict source kind w = .declaration := by
  cases h with
  | @assigned a hv hscope =>
    have hkind : v.node.kind = "binary_operator" := by
      unfold assignment? at hv
      split at hv
      · cases hv
      · next h => simpa using h
    have hwithin : (v.down a.name).isWithin ["function_definition"] =
        v.isWithin ["function_definition"] := by
      rw [Visit.isWithin_down, hkind]
      rfl
    rcases hscope with hscope | hscope <;>
      simp [verdict, hv, Node.same, Option.filter_some, hwithin, hscope]

variable {source kind}

theorem JavaScript.parent_of_ownName (h : OwnName source v w) :
    ∃ a, w.parent? = some a ∧ ∀ path ∈ javaScript.imports, a.kind ≠ path.holder := by
  induction h with
  | @field v c hv hc =>
    have hapart : ∀ kind ∈ declaringKinds, ∀ path ∈ javaScript.imports, kind ≠ path.holder := by
      decide
    exact ⟨v.node, rfl, hapart _ hv⟩
  | held hv hn hw ih => exact ih
  | @member v left c hv hleft hglobal hc =>
    refine ⟨left, rfl, ?_⟩
    rw [kind_of_isGlobalMember hglobal]
    decide

theorem Python.parent_of_ownName (h : OwnName kind v w) :
    ∃ a, w.parent? = some a ∧ ∀ path ∈ python.imports, a.kind ≠ path.holder := by
  cases h with
  | field hv hc =>
    have hapart : ∀ kind ∈ scopeKinds, ∀ path ∈ python.imports, kind ≠ path.holder := by
      decide
    exact ⟨v.node, rfl, hapart _ hv⟩
  | @assigned u c hv hu hkind ha hscope hc =>
    refine ⟨u.node, rfl, ?_⟩
    rw [ha]
    decide
  | @listed u c hv hu hkind hg hc =>
    refine ⟨u.node, rfl, ?_⟩
    rw [hg]
    decide

end Rules

namespace Language

variable {l : Language} {source : Bytes} {kind : SymbolKind} {v w : Visit}

theorem verdict_of_ownName (h : l.OwnName source kind v w) :
    l.rules.verdict source kind w = .declaration := by
  cases l with
  | javaScript => exact Rules.JavaScript.verdict_of_ownName source kind h
  | typeScript => exact Rules.JavaScript.verdict_of_ownName source kind h
  | python => exact Rules.Python.verdict_of_ownName source kind h
  | shell => exact Rules.Shell.verdict_of_ownName source kind h
  | powerShell => exact Rules.PowerShell.verdict_of_ownName source kind h
  | r => exact Rules.R.verdict_of_ownName source kind h

theorem steps_ne_nil {path : CapturePath} (h : path ∈ l.rules.imports) : path.steps ≠ [] := by
  have hsteps : ∀ path ∈ l.rules.imports, path.steps ≠ [] := by
    cases l <;> simp [rules, Rules.javaScript, Rules.python, Rules.shell, Rules.powerShell, Rules.r]
  exact hsteps path h

/-- Where names are imported, the node around an own name holds none of them. -/
theorem parent_of_ownName {path : CapturePath} (hpath : path ∈ l.rules.imports)
    (h : l.OwnName source kind v w) : ∃ a, w.parent? = some a ∧ a.kind ≠ path.holder := by
  cases l with
  | javaScript | typeScript =>
    obtain ⟨a, ha, hkind⟩ := Rules.JavaScript.parent_of_ownName h
    exact ⟨a, ha, hkind path hpath⟩
  | python =>
    obtain ⟨a, ha, hkind⟩ := Rules.Python.parent_of_ownName h
    exact ⟨a, ha, hkind path hpath⟩
  | shell | powerShell | r => cases hpath

end Language

/-- No import captures an own name. -/
theorem ParsedSource.not_mem_importedNames {p : ParsedSource} {kind : SymbolKind} {v w : Visit}
    (hp : p.tree.DistinctIds) (hw : p.tree.Reaches w)
    (h : p.language.OwnName p.source kind v w) : w.node.id ∉ p.importedNames := by
  simp only [importedNames, List.mem_flatMap, not_exists, not_and]
  intro path hpath
  obtain ⟨a, ha, hkind⟩ := Language.parent_of_ownName hpath h
  obtain ⟨hmem, hchild⟩ := hw.parent ha
  exact hp.not_mem_captures (Language.steps_ne_nil hpath) hmem hchild hkind

end SymbolHistory
