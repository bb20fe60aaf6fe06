import SymbolHistory.Proofs.Extraction.BareName
import SymbolHistory.Proofs.References.OwnVerdict
import SymbolHistory.Proofs.References.Parsed
import SymbolHistory.Proofs.References.Plain
import SymbolHistory.SourceModel

namespace SymbolHistory

variable {q : Query} {s : Symbol} {r : Reference}

namespace PlainSource

theorem sameName_self (language : Language) (name : String) :
    sameName language name name = true := by
  unfold sameName
  split <;> simp [Text.sameIgnoringAsciiCase, Text.eqIgnoringAsciiCase]

/-- No reference to a symbol stands on the first line of its declaration. -/
theorem line_ne_startLine {p : PlainSource} (hs : s ∈ p.symbols q)
    (hr : r ∈ p.references (p.symbols q)) (hsymbol : r.symbol = s.bareName) :
    r.line ≠ s.startLine := by
  intro hline
  obtain ⟨d, hd, hname, hstart⟩ := exists_declared_of_mem_symbols hs
  obtain ⟨kind, -, hfrom⟩ := mem_references.mp hr
  have hnone := (of_mem_referencesFrom hfrom).2.2
  rw [List.any_eq_false] at hnone
  refine hnone d hd ?_
  rw [hline, hsymbol, hname, hstart, sameName_self, beq_self_eq_true]
  rfl

end PlainSource

namespace ParsedSource

variable {p : ParsedSource} {v w : Visit} {d : Declaration}

/-- What a visited node declares is listed as a symbol. -/
def Lists (p : ParsedSource) (q : Query) (v : Visit) (d : Declaration) (s : Symbol) : Prop :=
  p.tree.Reaches v ∧ d ∈ p.language.rules.declarations p.source v ∧
    ∃ topLevel, s = q.present (d.toSymbol p.source p.language topLevel)

/-- A visited node is an own name of a declaration and carries the name of its symbol. -/
def NamedBy (p : ParsedSource) (v : Visit) (d : Declaration) (s : Symbol) (w : Visit) : Prop :=
  p.tree.Reaches w ∧ p.language.OwnName p.source d.kind v w ∧
    p.language.rules.isNameKind w.node.kind = true ∧
    p.language.EqualNames s.bareName (p.language.rules.nameOf p.source w.node)

theorem exists_lists (hs : s ∈ p.symbols q) : ∃ v d, p.Lists q v d s := by
  obtain ⟨t, ht, rfl⟩ := Query.exists_of_mem_list hs
  obtain ⟨v, hv, ht⟩ := List.mem_flatMap.mp ht
  obtain ⟨d, hd, rfl⟩ := List.mem_map.mp ht
  exact ⟨v, d, Node.mem_visits.mp hv, hd, _, rfl⟩

theorem Lists.kind_eq (h : p.Lists q v d s) : s.kind = d.kind := by
  obtain ⟨-, -, topLevel, rfl⟩ := h
  exact (q.present_range_kind _).2

/-- Own names are declaring occurrences of the symbols they name. -/
theorem NamedBy.declaresAt (hp : p.tree.DistinctIds) (hs : s ∈ p.symbols q)
    (hlists : p.Lists q v d s) (hw : p.NamedBy v d s w) :
    p.DeclaresAt (p.symbols q) s.bareName (p.lineOf w) w := by
  obtain ⟨hreaches, hown, hkind, hkey⟩ := hw
  -- An import would come before the rules, and own names are not imported.
  have hverdict : (if p.Imports w.node then .use .import
      else p.language.rules.verdict p.source s.kind w) = .declaration := by
    rw [if_neg (mt mem_importedNames.mpr (not_mem_importedNames hp hreaches hown)), hlists.kind_eq]
    exact Language.verdict_of_ownName hown
  exact ⟨rfl, hkind, hkey, s, hs, rfl, hverdict⟩

/-- No reference to a symbol stands on the line of one of its own names. -/
theorem line_ne_lineOf (hp : p.tree.DistinctIds) (hs : s ∈ p.symbols q)
    (hlists : p.Lists q v d s) (hw : p.NamedBy v d s w) (hr : r ∈ p.references (p.symbols q))
    (hsymbol : r.symbol = s.bareName) : r.line ≠ p.lineOf w := by
  intro hline
  refine (mem_references.mp hr).1 ⟨w, hw.1, ?_⟩
  rw [hline, hsymbol]
  exact hw.declaresAt hp hs hlists

end ParsedSource

namespace Node

def branch (id : Nat) (kind field : String) (start stop : Nat) (children : List Node) : Node :=
  ⟨id, kind, field, start, stop, true, false, false, false, children⟩

def token (id : Nat) (kind field : String) (start stop : Nat) : Node :=
  ⟨id, kind, field, start, stop, false, false, false, false, []⟩

end Node

namespace SourceModel

/-- A reference to a symbol stands on the first line of its declaration. -/
def RefersToOwnLine (m : SourceModel) (q : Query) (s : Symbol) : Prop :=
  ∃ r ∈ m.references (m.symbols q), r.symbol = s.bareName ∧ r.line = s.startLine

instance (m : SourceModel) (q : Query) (s : Symbol) : Decidable (m.RefersToOwnLine q s) :=
  inferInstanceAs (Decidable (∃ r ∈ m.references (m.symbols q), _ ∧ _))

/-- A script that exports a name as its default. -/
def exportDefault : ParsedSource where
  tree := .branch 0 "program" "" 0 20 [.branch 1 "export_statement" "" 0 19 [
    .token 2 "export" "" 0 6, .token 3 "default" "" 7 14,
    .branch 4 "identifier" "value" 15 18 [], .token 5 ";" "" 18 19]]
  source := Text.encode "export default foo;\n"
  path := "index.js"
  language := .javaScript
  grammar := .javascript
  recovered := false

/-- The name in a default export is listed as a symbol and reported as a use of itself. -/
theorem exportDefault_refersToOwnLine :
    read (fun _ _ => some exportDefault.tree) .javaScript "index.js" exportDefault.source
        defaultTolerance = .parsed exportDefault ∧
      ¬∀ s ∈ (parsed exportDefault).symbols .everything,
        ¬(parsed exportDefault).RefersToOwnLine .everything s := by
  refine ⟨rfl, ?_⟩
  decide +kernel

/-- A declaration is reported as its own reference exactly where a syntax tree has a use of its name
on its first line and no node that the rules judge to declare the name there. A declaration is never
reported on the lines of its own names, and in the forms that are named by nodes one of these
carries its name. -/
theorem refersToOwnLine_iff (q : Query) :
    (∀ m : SourceModel, ∀ s ∈ m.symbols q, m.RefersToOwnLine q s ↔
      ∃ p, m = .parsed p ∧
        (∃ v usage, p.tree.Reaches v ∧ p.UsesAt (p.symbols q) s.bareName s.startLine usage v) ∧
        ¬∃ v, p.tree.Reaches v ∧ p.DeclaresAt (p.symbols q) s.bareName s.startLine v) ∧
    ∀ p : ParsedSource, p.tree.DistinctIds → ∀ s ∈ p.symbols q,
      (∃ v d, p.Lists q v d s) ∧ ∀ v d, p.Lists q v d s →
        (p.language.NamesItself v → ∃ w, p.language.OwnName p.source d.kind v w ∧
          p.language.rules.nameOf p.source w.node = d.name) ∧
        ∀ w, p.NamedBy v d s w → ∀ r ∈ p.references (p.symbols q),
          r.symbol = s.bareName → r.line ≠ p.lineOf w := by
  constructor
  · intro m s hs
    cases m with
    | plain p =>
      constructor
      · rintro ⟨r, hr, hsymbol, hline⟩
        exact absurd hline (PlainSource.line_ne_startLine hs hr hsymbol)
      · rintro ⟨p, hp, -⟩
        cases hp
    | parsed p =>
      -- Any usage will do, so the exact condition for one usage is quantified over usages.
      constructor
      · rintro ⟨r, hr, hsymbol, hline⟩
        obtain ⟨⟨v, hv⟩, hdeclared⟩ :=
          ParsedSource.exists_reference_iff.mp ⟨r, hr, hsymbol, hline, rfl⟩
        exact ⟨p, rfl, ⟨v, r.usage, hv⟩, hdeclared⟩
      · rintro ⟨p, ⟨⟩, ⟨v, usage, hv⟩, hdeclared⟩
        obtain ⟨r, hr, hsymbol, hline, -⟩ :=
          ParsedSource.exists_reference_iff.mpr ⟨⟨v, hv⟩, hdeclared⟩
        exact ⟨r, hr, hsymbol, hline⟩
  · intro p hp s hs
    refine ⟨ParsedSource.exists_lists hs, ?_⟩
    intro v d hlists
    refine ⟨fun hown => Language.exists_ownName hown hlists.2.1, ?_⟩
    intro w hw r hr hsymbol
    exact ParsedSource.line_ne_lineOf hp hs hlists hw hr hsymbol

def selfDeclarator : Node :=
  .branch 3 "variable_declarator" "" 6 15 [.branch 4 "identifier" "name" 6 9 [],
    .token 5 "=" "" 10 11, .branch 6 "identifier" "value" 12 15 []]

def selfStatement : Node :=
  .branch 1 "lexical_declaration" "" 0 16
    [.token 2 "const" "kind" 0 5, selfDeclarator, .token 7 ";" "" 15 16]

/-- A script that sets a constant from its own name. -/
def setFromItself : ParsedSource where
  tree := .branch 0 "program" "" 0 17 [selfStatement]
  source := Text.encode "const foo = foo;\n"
  path := "index.js"
  language := .javaScript
  grammar := .javascript
  recovered := false

theorem setFromItself_unreported :
    setFromItself.tree.DistinctIds ∧
    ∃ s ∈ setFromItself.symbols .everything, ∃ v d w,
      setFromItself.Lists .everything v d s ∧ setFromItself.NamedBy v d s w ∧
      setFromItself.lineOf w = s.startLine ∧
      (∃ u usage, setFromItself.tree.Reaches u ∧
        setFromItself.UsesAt (setFromItself.symbols .everything) s.bareName s.startLine usage u) ∧
      ∀ r ∈ setFromItself.references (setFromItself.symbols .everything),
        r.symbol = s.bareName → r.line ≠ s.startLine := by
  let foo : Symbol := ⟨"foo", .constant, 1, 1, .javaScript, none, none, 0, 16, true⟩
  let declaration : Declaration := ⟨"foo", .constant, selfStatement, none, none⟩
  let statement : Visit := ⟨selfStatement, [setFromItself.tree]⟩
  let declarator : Visit := statement.down selfDeclarator
  have hids : setFromItself.tree.DistinctIds := by decide +kernel
  have hs : foo ∈ setFromItself.symbols .everything := by decide +kernel
  have hstatement : setFromItself.tree.Reaches statement := .down .refl (List.Mem.head _)
  have hdeclarator : setFromItself.tree.Reaches declarator :=
    .down hstatement (List.Mem.head _)
  have hlists : setFromItself.Lists .everything statement declaration foo :=
    ⟨hstatement, List.Mem.head _, true, rfl⟩
  have hnamed : setFromItself.NamedBy statement declaration foo
      (declarator.down (.branch 4 "identifier" "name" 6 9 [])) := by
    refine ⟨.down hdeclarator (List.Mem.head _), ?_, rfl, rfl⟩
    exact .held (by decide) (List.Mem.tail _ (List.Mem.head _)) (.field (by decide) rfl)
  have huse : setFromItself.UsesAt (setFromItself.symbols .everything) "foo" 1 .plain
      (declarator.down (.branch 6 "identifier" "value" 12 15 [])) := by decide +kernel
  refine ⟨hids, foo, hs, statement, declaration, _, hlists, hnamed, rfl,
    ⟨_, .plain, .down hdeclarator (List.Mem.tail _ (List.Mem.head _)), huse⟩, ?_⟩
  exact (((refersToOwnLine_iff .everything).2 setFromItself hids foo hs).2 statement declaration
    hlists).2 _ hnamed

end SourceModel
end SymbolHistory
