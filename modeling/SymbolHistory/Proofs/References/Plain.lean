import SymbolHistory.PlainSource.References
import SymbolHistory.Proofs.Distinct
import SymbolHistory.Proofs.References.Order

namespace SymbolHistory.PlainSource

variable {language : Language} {declared : List Symbol} {name : String} {kind : SymbolKind}
  {symbols : List Symbol} {r : Reference}

theorem of_referenceOn? {number : Nat} {line : List Char}
    (h : referenceOn? language declared name kind number line = some r) :
    r.symbol = name ∧ r.line = number ∧
      (declared.any fun d => d.startLine == number && sameName language d.bareName name) =
        false := by
  obtain ⟨⟨before, after⟩, -, h⟩ := Option.bind_eq_some_iff.mp h
  dsimp only at h
  split at h
  · cases h
  · next hd =>
    obtain rfl := Option.some.inj h
    exact ⟨rfl, rfl, by simpa using hd⟩

/-- The references to a name are on lines from the first one on, none of which declares it. -/
theorem of_mem_referencesFrom {number : Nat} {lines : List SourceLine}
    (h : r ∈ referencesFrom language declared name kind number lines) :
    r.symbol = name ∧ number ≤ r.line ∧
      (declared.any fun d => d.startLine == r.line && sameName language d.bareName name) =
        false := by
  induction lines generalizing number with
  | nil => simp [referencesFrom] at h
  | cons l rest ih =>
    rw [referencesFrom, List.mem_append, Option.mem_toList] at h
    rcases h with h | h
    · obtain ⟨hname, hline, hd⟩ := of_referenceOn? h
      rw [hline]
      exact ⟨hname, Nat.le_refl number, hd⟩
    · obtain ⟨hname, hline, hd⟩ := ih h
      exact ⟨hname, Nat.le_of_succ_le hline, hd⟩

theorem referencesFrom_increasing (number : Nat) (lines : List SourceLine) :
    (referencesFrom language declared name kind number lines).Pairwise (·.line < ·.line) := by
  induction lines generalizing number with
  | nil => exact List.Pairwise.nil
  | cons l rest ih =>
    rw [referencesFrom, List.pairwise_append]
    refine ⟨?_, ih (number + 1), ?_⟩
    · cases referenceOn? language declared name kind number l.text <;> simp
    · intro a ha b hb
      have ha := (of_referenceOn? (Option.mem_toList.mp ha)).2.1
      have hb := (of_mem_referencesFrom hb).2.1
      omega

theorem rank_le_of_find? {l : List SymbolIdentity} {i j : SymbolIdentity}
    (hl : l.Pairwise fun a b => (SymbolIdentity.order a b).isLE = true)
    (h : l.find? (fun a => a.name = i.name) = some i) (hj : j ∈ l) (hname : j.name = i.name) :
    i.kind.rank ≤ j.kind.rank := by
  obtain ⟨-, before, after, rfl, hbefore⟩ := List.find?_eq_some_iff_append.mp h
  rcases List.mem_append.mp hj with hj | hj
  · simpa [hname] using hbefore j hj
  · rcases List.mem_cons.mp hj with rfl | hj
    · exact Nat.le_refl _
    · have hle := (List.pairwise_cons.mp (List.pairwise_append.mp hl).2.1).1 j hj
      simpa [SymbolIdentity.order, compareLex, compareOn, hname, Nat.isLE_compare] using hle

/-- The kind under which a name is searched for is the first one that the name has. -/
theorem mem_namesOf : (name, kind) ∈ namesOf symbols ↔
    (∃ s ∈ symbols, s.bareName = name ∧ s.kind = kind) ∧
      ∀ s ∈ symbols, s.bareName = name → kind.rank ≤ s.kind.rank := by
  let sorted := (symbols.map fun s => (⟨s.bareName, s.kind⟩ : SymbolIdentity)).mergeSort
    fun a b => (SymbolIdentity.order a b).isLE
  have hsorted : sorted.Pairwise fun a b => (SymbolIdentity.order a b).isLE = true :=
    pairwise_isLE_mergeSort _
  have hmem (i : SymbolIdentity) :
      i ∈ sorted ↔ ∃ s ∈ symbols, s.bareName = i.name ∧ s.kind = i.kind := by
    cases i
    simp [sorted]
  have hfirst : (name, kind) ∈ namesOf symbols ↔
      sorted.find? (fun a => a.name = name) = some ⟨name, kind⟩ := by
    have hdistinct : (⟨name, kind⟩ : SymbolIdentity) ∈ distinctBy SymbolIdentity.name sorted ↔
        sorted.find? (fun a => a.name = name) = some ⟨name, kind⟩ := mem_distinctBy
    rw [← hdistinct, namesOf, List.mem_map]
    constructor
    · rintro ⟨i, hi, hkind⟩
      cases hkind
      exact hi
    · intro h
      exact ⟨⟨name, kind⟩, h, rfl⟩
  rw [hfirst]
  constructor
  · intro h
    refine ⟨(hmem ⟨name, kind⟩).mp (List.mem_of_find?_eq_some h), ?_⟩
    intro s hs hname
    have hin : (⟨s.bareName, s.kind⟩ : SymbolIdentity) ∈ sorted := (hmem _).mpr ⟨s, hs, rfl, rfl⟩
    exact rank_le_of_find? (i := ⟨name, kind⟩) hsorted h hin hname
  · rintro ⟨hs, hleast⟩
    have hin : (⟨name, kind⟩ : SymbolIdentity) ∈ sorted := (hmem _).mpr hs
    have hsome : (sorted.find? fun a => a.name = name).isSome :=
      List.find?_isSome.mpr ⟨_, hin, by simp⟩
    obtain ⟨i, hi⟩ := Option.isSome_iff_exists.mp hsome
    obtain rfl : i.name = name := by simpa using List.find?_some hi
    -- The first one found and the least one have the same rank.
    obtain ⟨s, hs, hsname, hskind⟩ := (hmem i).mp (List.mem_of_find?_eq_some hi)
    have hle := rank_le_of_find? hsorted hi hin rfl
    have hge := hleast s hs hsname
    have hkind : i.kind = kind := SymbolKind.rank_injective (by
      rw [hskind] at hge
      exact Nat.le_antisymm hle hge)
    rw [hi, ← hkind]

theorem namesOf_pairwise (symbols : List Symbol) :
    (namesOf symbols).Pairwise fun a b => a.1 ≠ b.1 := by
  rw [namesOf, List.pairwise_map]
  exact distinctBy_pairwise SymbolIdentity.name _

theorem mem_references {p : PlainSource} : r ∈ p.references symbols ↔
    ∃ kind, (r.symbol, kind) ∈ namesOf symbols ∧
      r ∈ referencesFrom p.language p.declared r.symbol kind 1 p.lines := by
  rw [references, List.mem_mergeSort, List.mem_flatMap]
  constructor
  · rintro ⟨⟨name, kind⟩, hname, hr⟩
    obtain rfl := (of_mem_referencesFrom hr).1
    exact ⟨kind, hname, hr⟩
  · rintro ⟨kind, hname, hr⟩
    exact ⟨(r.symbol, kind), hname, hr⟩

theorem references_before (p : PlainSource) (symbols : List Symbol) :
    (p.references symbols).Pairwise Reference.Before := by
  apply Reference.before_mergeSort
  rw [List.pairwise_flatMap]
  refine ⟨?_, (namesOf_pairwise symbols).imp ?_⟩
  · rintro ⟨name, kind⟩ -
    refine (referencesFrom_increasing 1 p.lines).imp ?_
    intro a b hlt hkey
    have hline : a.line = b.line := congrArg (·.2.1) hkey
    omega
  · intro a b hne x hx y hy hkey
    have hx := (of_mem_referencesFrom hx).1
    have hy := (of_mem_referencesFrom hy).1
    have hsymbol : x.symbol = y.symbol := congrArg (·.1) hkey
    exact hne (hx.symm.trans (hsymbol.trans hy))

end SymbolHistory.PlainSource
