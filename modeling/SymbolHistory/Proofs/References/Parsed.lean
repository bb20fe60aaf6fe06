import SymbolHistory.ParsedSource.References
import SymbolHistory.Proofs.Distinct
import SymbolHistory.Proofs.References.Order
import SymbolHistory.Proofs.Tree.Reach

namespace SymbolHistory

theorem mem_targets {symbols : List Symbol} {t : Target} :
    t ∈ targets symbols ↔ ∃ s ∈ symbols, s.target = t := by
  have h : t ∈ (targets symbols).map id ↔ t ∈ (symbols.map Symbol.target).map id :=
    mem_map_distinctBy
  rw [List.map_id, List.map_id] at h
  rw [h, List.mem_map]

theorem Language.nameKey_eq_iff {l : Language} {a b : String} :
    l.nameKey a = l.nameKey b ↔ l.EqualNames a b := by
  cases l <;>
    simp [nameKey, EqualNames, ignoresCase, Text.loweredAscii, Text.lowerAscii, String.ofList_inj]

namespace ParsedSource

variable {p : ParsedSource} {symbols : List Symbol} {v : Visit} {name : String} {line : Nat}
  {usage : Usage} {r : Reference}

def lineOf (p : ParsedSource) (v : Visit) : Nat := lineAt p.source v.node.startByte

/-- A query for imports captures a node. -/
def Imports (p : ParsedSource) (n : Node) : Prop :=
  ∃ query ∈ p.language.rules.imports, n.id ∈ query.captures p.tree

instance (n : Node) : Decidable (p.Imports n) :=
  inferInstanceAs (Decidable (∃ query ∈ p.language.rules.imports, _))

/-- A visited node carries a name, and this is the verdict on it for a target of that name: where
names are imported it is an import, and anywhere else what the rules say for the target's kind. -/
def Judges (p : ParsedSource) (symbols : List Symbol) (v : Visit) (name : String)
    (verdict : Verdict) : Prop :=
  p.language.rules.isNameKind v.node.kind = true ∧
    p.language.EqualNames name (p.language.rules.nameOf p.source v.node) ∧
    ∃ s ∈ symbols, s.bareName = name ∧
      (if p.Imports v.node then .use .import
        else p.language.rules.verdict p.source s.kind v) = verdict

/-- A visited node on a line uses a name. -/
def UsesAt (p : ParsedSource) (symbols : List Symbol) (name : String) (line : Nat) (usage : Usage)
    (v : Visit) : Prop :=
  p.lineOf v = line ∧ p.Judges symbols v name (.use usage)

/-- A visited node on a line declares a name. -/
def DeclaresAt (p : ParsedSource) (symbols : List Symbol) (name : String) (line : Nat)
    (v : Visit) : Prop :=
  p.lineOf v = line ∧ p.Judges symbols v name .declaration

instance : Decidable (p.UsesAt symbols name line usage v) :=
  inferInstanceAs (Decidable (_ ∧ _ ∧ _ ∧ _))

/-- The first use of a name on a line, in preorder. -/
def firstUse? (p : ParsedSource) (symbols : List Symbol) (name : String) (line : Nat)
    (usage : Usage) : Option Visit :=
  p.tree.visits.find? fun v => p.UsesAt symbols name line usage v

theorem mem_importedNames {n : Node} : n.id ∈ p.importedNames ↔ p.Imports n := List.mem_flatMap

theorem verdict_eq (v : Visit) (t : Target) : p.verdict p.importedNames v t =
    if p.Imports v.node then .use .import
      else p.language.rules.verdict p.source t.kind v := by
  simp only [verdict, List.contains_iff_mem, mem_importedNames]

theorem mem_named {t : Target} : t ∈ p.named (targets symbols) v ↔
    p.language.rules.isNameKind v.node.kind = true ∧
      p.language.EqualNames t.name (p.language.rules.nameOf p.source v.node) ∧
      ∃ s ∈ symbols, s.target = t := by
  by_cases hk : p.language.rules.isNameKind v.node.kind = true
  · simp [named, hk, mem_targets, Language.nameKey_eq_iff, and_comm]
  · simp [named, hk]

theorem judges_iff {verdict : Verdict} : p.Judges symbols v name verdict ↔
    ∃ t ∈ p.named (targets symbols) v, t.name = name ∧
      p.verdict p.importedNames v t = verdict := by
  simp only [verdict_eq]
  constructor
  · rintro ⟨hk, hkey, s, hs, rfl, hv⟩
    exact ⟨s.target, mem_named.mpr ⟨hk, hkey, s, hs, rfl⟩, rfl, hv⟩
  · rintro ⟨t, ht, rfl, hv⟩
    obtain ⟨hk, hkey, s, hs, rfl⟩ := mem_named.mp ht
    exact ⟨hk, hkey, s, hs, rfl, hv⟩

theorem occurrence?_eq_declared {t : Target} :
    p.occurrence? p.importedNames v t = some (.declared name line) ↔
      t.name = name ∧ p.lineOf v = line ∧ p.verdict p.importedNames v t = .declaration := by
  unfold occurrence? lineOf
  split <;> simp_all

theorem occurrence?_eq_used {t : Target} :
    p.occurrence? p.importedNames v t = some (.used r) ↔
      (t.name = r.symbol ∧ p.lineOf v = r.line ∧
        p.verdict p.importedNames v t = .use r.usage) ∧ p.contextOf v = r.context := by
  unfold occurrence? lineOf
  cases r
  split <;> simp_all [and_comm, and_left_comm, and_assoc]

/-- A line declares a name where a visited node on it does. -/
theorem declared_mem_occurrences :
    .declared name line ∈ p.occurrences (targets symbols) ↔
      ∃ v, p.tree.Reaches v ∧ p.DeclaresAt symbols name line v := by
  simp only [occurrences, List.mem_flatMap, List.mem_filterMap, occurrence?_eq_declared,
    Node.mem_visits, DeclaresAt, judges_iff]
  constructor
  · rintro ⟨v, hv, t, ht, hname, hline, hverdict⟩
    exact ⟨v, hv, hline, t, ht, hname, hverdict⟩
  · rintro ⟨v, hv, hline, t, ht, hname, hverdict⟩
    exact ⟨v, hv, t, ht, hname, hline, hverdict⟩

def usesOf (p : ParsedSource) (symbols : List Symbol) (v : Visit) : List Reference :=
  ((p.named (targets symbols) v).filterMap (p.occurrence? p.importedNames v)).filterMap
    Occurrence.use?

theorem filterMap_use?_occurrences :
    (p.occurrences (targets symbols)).filterMap Occurrence.use? =
      p.tree.visits.flatMap (p.usesOf symbols) :=
  List.filterMap_flatMap

theorem mem_usesOf : r ∈ p.usesOf symbols v ↔
    p.UsesAt symbols r.symbol r.line r.usage v ∧ p.contextOf v = r.context := by
  have huse (o : Occurrence) : o.use? = some r ↔ o = .used r := by
    cases o <;> simp [Occurrence.use?]
  simp only [usesOf, List.mem_filterMap, huse, exists_eq_right, occurrence?_eq_used, UsesAt,
    judges_iff]
  constructor
  · rintro ⟨t, ht, ⟨hname, hline, hverdict⟩, hcontext⟩
    exact ⟨⟨hline, t, ht, hname, hverdict⟩, hcontext⟩
  · rintro ⟨⟨hline, t, ht, hname, hverdict⟩, hcontext⟩
    exact ⟨t, ht, ⟨hname, hline, hverdict⟩, hcontext⟩

/-- The uses at one node with a key are all the same reference. -/
theorem find?_usesOf (r : Reference) (v : Visit) :
    (p.usesOf symbols v).find? (fun a => a.key = r.key) =
      (Option.guard (fun v => p.UsesAt symbols r.symbol r.line r.usage v) v).map fun v =>
        { r with context := p.contextOf v } := by
  have hmem (a : Reference) (ha : a.key = r.key) : a ∈ p.usesOf symbols v ↔
      p.UsesAt symbols r.symbol r.line r.usage v ∧ { r with context := p.contextOf v } = a := by
    obtain ⟨hs, hl, hu⟩ : a.symbol = r.symbol ∧ a.line = r.line ∧ a.usage = r.usage := by
      simpa [Reference.key] using ha
    rw [mem_usesOf, hs, hl, hu]
    cases a
    simp_all
  cases hfind : (p.usesOf symbols v).find? (fun a => a.key = r.key) with
  | some a =>
    have hkey : a.key = r.key := by simpa using List.find?_some hfind
    obtain ⟨hv, ha⟩ := (hmem a hkey).mp (List.mem_of_find?_eq_some hfind)
    simp [hv, ha]
  | none =>
    have hv : ¬p.UsesAt symbols r.symbol r.line r.usage v := by
      intro hv
      have hr := (hmem { r with context := p.contextOf v } rfl).mpr ⟨hv, rfl⟩
      simpa [Reference.key] using List.find?_eq_none.mp hfind _ hr
    simp [hv]

theorem find?_uses (r : Reference) :
    (p.tree.visits.flatMap (p.usesOf symbols)).find? (fun a => a.key = r.key) =
      (p.firstUse? symbols r.symbol r.line r.usage).map fun v =>
        { r with context := p.contextOf v } := by
  rw [List.find?_flatMap, firstUse?, List.find?_eq_findSome?_guard, List.map_findSome?]
  congr 1
  funext v
  exact find?_usesOf r v

/-- A reference is listed when no node on its line declares its symbol and it is the first use with
its key. -/
theorem mem_references : r ∈ p.references symbols ↔
    (¬∃ v, p.tree.Reaches v ∧ p.DeclaresAt symbols r.symbol r.line v) ∧
      (p.firstUse? symbols r.symbol r.line r.usage).map p.contextOf = some r.context := by
  let declares (a : Reference) : Bool :=
    (p.occurrences (targets symbols)).contains (.declared a.symbol a.line)
  -- Whether a line declares a symbol is the same for all uses with the key.
  have hkey (a : Reference) (ha : a.key = r.key) : (!declares a) = !declares r := by
    obtain ⟨hs, hl, -⟩ : a.symbol = r.symbol ∧ a.line = r.line ∧ a.usage = r.usage := by
      simpa [Reference.key] using ha
    simp only [declares, hs, hl]
  have hmem : r ∈ p.references symbols ↔
      (if !declares r then (p.firstUse? symbols r.symbol r.line r.usage).map fun v =>
        { r with context := p.contextOf v } else none) = some r := by
    rw [← find?_uses, ← filterMap_use?_occurrences, ← find?_filter_of_key hkey, references,
      List.mem_mergeSort]
    exact mem_distinctBy
  rw [hmem, ← declared_mem_occurrences, ← List.contains_iff_mem]
  change _ ↔ ¬declares r = true ∧ _
  cases declares r with
  | true => simp
  | false =>
    simp only [Bool.not_false, if_true, Bool.false_eq_true, not_false_eq_true, true_and,
      Option.map_eq_some_iff]
    refine exists_congr fun v => and_congr_right fun _ => ?_
    cases r
    simp

theorem references_before (p : ParsedSource) (symbols : List Symbol) :
    (p.references symbols).Pairwise Reference.Before :=
  Reference.before_mergeSort (distinctBy_pairwise Reference.key _)

theorem firstUse?_isSome : (p.firstUse? symbols name line usage).isSome ↔
    ∃ v, p.tree.Reaches v ∧ p.UsesAt symbols name line usage v := by
  simp [firstUse?, List.find?_isSome, Node.mem_visits]

theorem exists_reference_iff :
    (∃ r ∈ p.references symbols, r.symbol = name ∧ r.line = line ∧ r.usage = usage) ↔
      (∃ v, p.tree.Reaches v ∧ p.UsesAt symbols name line usage v) ∧
        ¬∃ v, p.tree.Reaches v ∧ p.DeclaresAt symbols name line v := by
  constructor
  · rintro ⟨r, hr, rfl, rfl, rfl⟩
    obtain ⟨hdeclared, hfirst⟩ := mem_references.mp hr
    obtain ⟨v, hv, -⟩ := Option.map_eq_some_iff.mp hfirst
    exact ⟨firstUse?_isSome.mp (by simp [hv]), hdeclared⟩
  · rintro ⟨huse, hdeclared⟩
    obtain ⟨v, hv⟩ := Option.isSome_iff_exists.mp (firstUse?_isSome.mpr huse)
    refine ⟨⟨name, line, p.contextOf v, usage⟩, ?_, rfl, rfl, rfl⟩
    exact mem_references.mpr ⟨hdeclared, by rw [hv]; rfl⟩

/-- The references to some symbols in a tree are exactly the uses that the rules find in it, save
on lines that declare the name; each is listed once, in order, with the context of the first
node that makes it. -/
theorem references_exact (p : ParsedSource) (symbols : List Symbol) :
    (∀ name line usage,
      (∃ r ∈ p.references symbols, r.symbol = name ∧ r.line = line ∧ r.usage = usage) ↔
        (∃ v, p.tree.Reaches v ∧ p.UsesAt symbols name line usage v) ∧
          ¬∃ v, p.tree.Reaches v ∧ p.DeclaresAt symbols name line v) ∧
      (p.references symbols).Pairwise (fun a b => Reference.order a b = .lt) ∧
      ((p.references symbols).map fun r => (r.symbol, r.line, r.usage)).Nodup ∧
      ∀ r ∈ p.references symbols, ∃ v,
        p.tree.visits.find? (fun v => p.UsesAt symbols r.symbol r.line r.usage v) = some v ∧
          r.context = contextFrom (p.language.rules.frame? p.source) none v.ancestors := by
  have hbefore := references_before p symbols
  refine ⟨fun _ _ _ => exists_reference_iff, hbefore, ?_, ?_⟩
  · exact (hbefore.imp Reference.Before.key_ne).map _ fun _ _ h => h
  · intro r hr
    obtain ⟨v, hv, hcontext⟩ := Option.map_eq_some_iff.mp (mem_references.mp hr).2
    exact ⟨v, hv, hcontext.symm⟩

end ParsedSource
end SymbolHistory
