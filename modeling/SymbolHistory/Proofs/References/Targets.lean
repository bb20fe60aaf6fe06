import SymbolHistory.Proofs.References.Parsed
import SymbolHistory.Proofs.References.Plain
import SymbolHistory.SourceModel

namespace SymbolHistory

/-- Two lists of symbols have the same targets with a name. -/
def AgreeOn (name : String) (xs ys : List Symbol) : Prop :=
  ∀ kind, (⟨name, kind⟩ : Target) ∈ xs.map Symbol.target ↔ ⟨name, kind⟩ ∈ ys.map Symbol.target

variable {xs ys : List Symbol} {name : String} {r : Reference}

theorem mem_map_target {kind : SymbolKind} : (⟨name, kind⟩ : Target) ∈ xs.map Symbol.target ↔
    ∃ s ∈ xs, s.bareName = name ∧ s.kind = kind := by
  simp [Symbol.target]

theorem agreeOn_filter (name : String) (xs : List Symbol) :
    AgreeOn name xs (xs.filter (·.bareName == name)) := by
  intro kind
  rw [mem_map_target, mem_map_target]
  constructor
  · rintro ⟨s, hs, hname, hkind⟩
    exact ⟨s, List.mem_filter.mpr ⟨hs, by simpa using hname⟩, hname, hkind⟩
  · rintro ⟨s, hs, hname, hkind⟩
    exact ⟨s, (List.mem_filter.mp hs).1, hname, hkind⟩

namespace ParsedSource

variable {p : ParsedSource} {v : Visit}

theorem judges_congr (h : AgreeOn name xs ys) {verdict : Verdict} :
    p.Judges xs v name verdict ↔ p.Judges ys v name verdict := by
  have htargets (symbols : List Symbol) :
      p.Judges symbols v name verdict ↔
        p.language.rules.isNameKind v.node.kind = true ∧
          p.language.EqualNames name (p.language.rules.nameOf p.source v.node) ∧
          ∃ kind, (⟨name, kind⟩ : Target) ∈ symbols.map Symbol.target ∧
            p.verdict p.importedNames v ⟨name, kind⟩ = verdict := by
    simp only [Judges, verdict_eq]
    refine and_congr_right fun _ => and_congr_right fun _ => ?_
    constructor
    · rintro ⟨s, hs, rfl, hv⟩
      exact ⟨s.kind, List.mem_map_of_mem hs, hv⟩
    · rintro ⟨kind, hmem, hv⟩
      obtain ⟨s, hs, rfl, rfl⟩ := mem_map_target.mp hmem
      exact ⟨s, hs, rfl, hv⟩
  rw [htargets xs, htargets ys]
  simp only [h _]

theorem firstUse?_congr (h : AgreeOn name xs ys) (line : Nat) (usage : Usage) :
    p.firstUse? xs name line usage = p.firstUse? ys name line usage := by
  unfold firstUse?
  congr 1
  funext v
  rw [decide_eq_decide]
  exact and_congr_right fun _ => judges_congr h

theorem mem_references_congr (h : AgreeOn r.symbol xs ys) :
    r ∈ p.references xs ↔ r ∈ p.references ys := by
  simp only [mem_references, DeclaresAt, judges_congr h, firstUse?_congr h]

theorem exists_target_of_mem_references (h : r ∈ p.references xs) :
    ∃ s ∈ xs, s.bareName = r.symbol := by
  obtain ⟨v, hv, -⟩ := Option.map_eq_some_iff.mp (mem_references.mp h).2
  obtain ⟨-, -, -, s, hs, hname, -⟩ : p.UsesAt xs r.symbol r.line r.usage v := by
    simpa using List.find?_some hv
  exact ⟨s, hs, hname⟩

end ParsedSource

namespace PlainSource

variable {p : PlainSource}

theorem mem_references_congr (h : AgreeOn r.symbol xs ys) :
    r ∈ p.references xs ↔ r ∈ p.references ys := by
  have htargets (symbols : List Symbol) (kind : SymbolKind) :
      (r.symbol, kind) ∈ namesOf symbols ↔
        (⟨r.symbol, kind⟩ : Target) ∈ symbols.map Symbol.target ∧
          ∀ k, (⟨r.symbol, k⟩ : Target) ∈ symbols.map Symbol.target → kind.rank ≤ k.rank := by
    rw [mem_namesOf, mem_map_target]
    refine and_congr_right fun _ => ⟨fun hle k hk => ?_, fun hle s hs hname => ?_⟩
    · obtain ⟨s, hs, hname, rfl⟩ := mem_map_target.mp hk
      exact hle s hs hname
    · exact hle s.kind (mem_map_target.mpr ⟨s, hs, hname, rfl⟩)
  simp only [mem_references, htargets, h _]

theorem exists_target_of_mem_references (h : r ∈ p.references xs) :
    ∃ s ∈ xs, s.bareName = r.symbol := by
  obtain ⟨kind, hname, -⟩ := mem_references.mp h
  obtain ⟨⟨s, hs, hname, -⟩, -⟩ := mem_namesOf.mp hname
  exact ⟨s, hs, hname⟩

end PlainSource

namespace SourceModel

theorem references_before (m : SourceModel) (symbols : List Symbol) :
    (m.references symbols).Pairwise Reference.Before := by
  cases m with
  | parsed p => exact p.references_before symbols
  | plain p => exact p.references_before symbols

theorem mem_references_congr {m : SourceModel} (h : AgreeOn r.symbol xs ys) :
    r ∈ m.references xs ↔ r ∈ m.references ys := by
  cases m with
  | parsed p => exact ParsedSource.mem_references_congr h
  | plain p => exact PlainSource.mem_references_congr h

theorem exists_target_of_mem_references {m : SourceModel} (h : r ∈ m.references xs) :
    ∃ s ∈ xs, s.bareName = r.symbol := by
  cases m with
  | parsed p => exact ParsedSource.exists_target_of_mem_references h
  | plain p => exact PlainSource.exists_target_of_mem_references h

/-- Lists of symbols with the same names and kinds have the same references, and the references to
a name are those found when it is searched for alone. -/
theorem references_by_name (m : SourceModel) :
    (∀ xs ys : List Symbol,
      (∀ t : Target, t ∈ xs.map Symbol.target ↔ t ∈ ys.map Symbol.target) →
        m.references xs = m.references ys) ∧
      ∀ (xs : List Symbol) (name : String),
        (m.references xs).filter (·.symbol == name) =
          m.references (xs.filter (·.bareName == name)) := by
  constructor
  · intro xs ys h
    refine (m.references_before xs).eq_of_mem_iff (m.references_before ys) ?_
    intro r
    exact mem_references_congr fun kind => h ⟨r.symbol, kind⟩
  · intro xs name
    refine ((m.references_before xs).filter _).eq_of_mem_iff (m.references_before _) ?_
    intro r
    rw [List.mem_filter]
    constructor
    · rintro ⟨hr, hname⟩
      obtain rfl : r.symbol = name := by simpa using hname
      exact (mem_references_congr (agreeOn_filter r.symbol xs)).mp hr
    · intro hr
      obtain ⟨s, hs, hname⟩ := exists_target_of_mem_references hr
      have hs : s.bareName = name := by simpa using (List.mem_filter.mp hs).2
      obtain rfl : r.symbol = name := hname.symm.trans hs
      exact ⟨(mem_references_congr (agreeOn_filter r.symbol xs)).mpr hr, by simp⟩

def callsBoth : SourceModel := .plain ⟨"a.sh", .shell, "f\ng\n", ""⟩

def functionNamed (name : String) : Symbol :=
  ⟨name, .function, 1, 1, .shell, none, none, 0, 0, true⟩

theorem references_callsBoth :
    (∀ t : Target, t ∈ [functionNamed "f", functionNamed "g"].map Symbol.target ↔
      t ∈ [functionNamed "g", functionNamed "f", functionNamed "g"].map Symbol.target) ∧
    callsBoth.references [functionNamed "f", functionNamed "g"] =
      callsBoth.references [functionNamed "g", functionNamed "f", functionNamed "g"] ∧
    (callsBoth.references [functionNamed "f", functionNamed "g"]).filter (·.symbol == "g") =
      [⟨"g", 2, none, .plain⟩] := by
  have htargets (t : Target) : t ∈ [functionNamed "f", functionNamed "g"].map Symbol.target ↔
      t ∈ [functionNamed "g", functionNamed "f", functionNamed "g"].map Symbol.target := by
    simp only [List.map_cons, List.map_nil, List.mem_cons, List.not_mem_nil, or_false]
    tauto
  refine ⟨htargets, (references_by_name callsBoth).1 _ _ htargets, ?_⟩
  rw [(references_by_name callsBoth).2]
  decide +kernel

end SourceModel
end SymbolHistory
