import Mathlib.Data.List.Destutter
import SymbolHistory.Proofs.Extraction.Outermost
import SymbolHistory.SourceModel

namespace SymbolHistory

section Lists

variable {α : Type} {a b : α} {l t : List α}

theorem sublist_destutter' [DecidableEq α] (h : t.Sublist (a :: l)) (ht : t.IsChain (· ≠ ·)) :
    t.Sublist (l.destutter' (· ≠ ·) a) := by
  induction l generalizing a t with
  | nil => exact h
  | cons b l ih =>
    by_cases hab : a ≠ b
    · rw [List.destutter'_cons_pos l hab]
      cases h with
      | cons _ h => exact (ih h ht).cons a
      | cons_cons _ h => exact (ih h ht.tail).cons_cons a
    · rw [List.destutter'_cons_neg l hab]
      obtain rfl : a = b := not_not.mp hab
      refine ih ?_ ht
      -- A choice without repetitions takes one of the two at most.
      cases h with
      | cons _ h => exact h
      | cons_cons _ h =>
        cases h with
        | cons _ h => exact h.cons_cons a
        | cons_cons _ h => exact absurd rfl (List.isChain_cons_cons.mp ht).1

/-- Between two elements that may not follow one another stands a third. -/
theorem exists_between_of_isChain {R : α → α → Prop} (hl : l.IsChain R) (h : [a, b].Sublist l)
    (hab : ¬R a b) : ∃ c, R a c ∧ [a, c, b].Sublist l := by
  induction l with
  | nil => cases h
  | cons x l ih =>
    cases h with
    | cons _ h =>
      obtain ⟨c, hc, hsub⟩ := ih hl.tail h
      exact ⟨c, hc, hsub.cons x⟩
    | cons_cons _ h =>
      cases l with
      | nil => cases h
      | cons c l =>
        have hac : R a c := (List.isChain_cons_cons.mp hl).1
        have hb : b ∈ l := by
          rcases List.mem_cons.mp (List.singleton_sublist.mp h) with rfl | hb
          · exact absurd hac hab
          · exact hb
        exact ⟨c, hac, ((List.singleton_sublist.mpr hb).cons_cons c).cons_cons a⟩

end Lists

namespace Symbol

variable {l : List Symbol} {a b c : Symbol}

def key (s : Symbol) : SymbolKind × String × Nat := (s.kind, s.name, s.startByte)

theorem key_eq_iff :
    a.key = b.key ↔ a.kind = b.kind ∧ a.name = b.name ∧ a.startByte = b.startByte := by
  simp [key]

theorem isRepeat_iff : a.isRepeat b = true ↔ a.key = b.key := by
  simp [isRepeat, key_eq_iff, and_assoc]

theorem key_eq_of_order_eq (h : order a b = .eq) : a.key = b.key := by
  obtain ⟨-, h⟩ := compareLex_eq_eq.mp h
  obtain ⟨hstart, h⟩ := compareLex_eq_eq.mp h
  obtain ⟨-, h⟩ := compareLex_eq_eq.mp h
  obtain ⟨hkind, hname⟩ := compareLex_eq_eq.mp h
  have hstart : a.startByte = b.startByte := Std.LawfulEqOrd.eq_of_compare hstart
  have hkind : a.kind = b.kind :=
    SymbolKind.rank_injective (Std.LawfulEqOrd.eq_of_compare hkind)
  have hname : a.name = b.name := Std.LawfulEqOrd.eq_of_compare hname
  exact key_eq_iff.mpr ⟨hkind, hname, hstart⟩

theorem startLine_le_of_order (h : (order a b).isLE = true) : a.startLine ≤ b.startLine := by
  obtain ⟨h, -⟩ := Ordering.isLE_then_iff_and.mp h
  exact Nat.isLE_compare.mp h

theorem pairwise_sort (symbols : List Symbol) :
    (sort symbols).Pairwise fun a b => (order a b).isLE = true :=
  pairwise_isLE_mergeSort symbols

/-- `c` comes after `a` and before `b` in listing order, or with one of them. -/
def StandsBetween (c a b : Symbol) : Prop :=
  (order a c).isLE = true ∧ (order c b).isLE = true

theorem map_key_dropRepeatsAfter (last : Symbol) (l : List Symbol) :
    last.key :: (dropRepeatsAfter last l).map key = (l.map key).destutter' (· ≠ ·) last.key := by
  induction l generalizing last with
  | nil => rfl
  | cons s l ih =>
    rw [dropRepeatsAfter, List.map_cons, List.destutter'_cons]
    by_cases hs : s.key = last.key
    · rw [if_pos (isRepeat_iff.mpr hs), if_neg (not_not.mpr hs.symm)]
      exact ih last
    · rw [if_neg (mt isRepeat_iff.mp hs), if_pos (Ne.symm hs), List.map_cons, ih s]

theorem map_key_dropRepeats (l : List Symbol) :
    (dropRepeats l).map key = (l.map key).destutter (· ≠ ·) := by
  cases l with
  | nil => rfl
  | cons s l => exact map_key_dropRepeatsAfter s l

theorem isChain_dropRepeats (l : List Symbol) :
    (dropRepeats l).IsChain fun a b => a.key ≠ b.key := by
  rw [← List.isChain_map, map_key_dropRepeats]
  exact List.isChain_destutter _ _

/-- Between two symbols of one key that stay stands one of another key. -/
theorem exists_between_of_sublist (h : [a, b].Sublist (dropRepeats l)) (hkey : a.key = b.key)
    (hl : l.Pairwise fun a b => (order a b).isLE = true) :
    ∃ c ∈ l, c.key ≠ a.key ∧ c.StandsBetween a b := by
  obtain ⟨c, hc, hsub⟩ := exists_between_of_isChain (isChain_dropRepeats l) h (not_not.mpr hkey)
  have hsub := hsub.trans (dropRepeats_sublist l)
  have hordered := hl.sublist hsub
  simp only [List.pairwise_cons, List.mem_cons, forall_eq_or_imp] at hordered
  exact ⟨c, hsub.mem (by simp), Ne.symm hc, hordered.1.1, hordered.2.1.1⟩

theorem exists_sublist_dropRepeats {t : List Symbol} (h : t.Sublist l)
    (ht : (t.map key).IsChain (· ≠ ·)) :
    ∃ t' : List Symbol, t'.Sublist (dropRepeats l) ∧ t.map key = t'.map key := by
  apply List.sublist_map_iff.mp
  rw [map_key_dropRepeats]
  cases l with
  | nil => exact h.map key
  | cons s l => exact sublist_destutter' (h.map key) ht

theorem order_lt_of_key_ne (h : (order a b).isLE = true) (hkey : a.key ≠ b.key) :
    order a b = .lt := by
  rcases Ordering.isLE_iff_eq_lt_or_eq_eq.mp h with h | h
  · exact h
  · exact absurd (key_eq_of_order_eq h) hkey

/-- Two symbols of one key with one of another key between them both stay, up to their keys. -/
theorem exists_repeats (hl : l.Pairwise fun a b => (order a b).isLE = true) (ha : a ∈ l)
    (hb : b ∈ l) (hc : c ∈ l) (hkey : a.key = b.key) (hne : c.key ≠ a.key)
    (h : c.StandsBetween a b) :
    ∃ a' b', [a', b'].Sublist (dropRepeats l) ∧ a'.key = a.key ∧ b'.key = a.key := by
  have hac : order a c = .lt := order_lt_of_key_ne h.1 (Ne.symm hne)
  have hcb : order c b = .lt := order_lt_of_key_ne h.2 (hkey ▸ hne)
  obtain ⟨t, ht, hkeys⟩ := exists_sublist_dropRepeats (sublist_of_lt_of_lt hl ha hc hb hac hcb)
    (by simp [hne, ← hkey, Ne.symm hne])
  obtain ⟨a', t, rfl, ha', hkeys⟩ := List.map_eq_cons_iff.mp hkeys.symm
  obtain ⟨c', t, rfl, -, hkeys⟩ := List.map_eq_cons_iff.mp hkeys
  obtain ⟨b', t, rfl, hb', -⟩ := List.map_eq_cons_iff.mp hkeys
  refine ⟨a', b', List.Sublist.trans ?_ ht, ha', hb'.trans hkey.symm⟩
  exact ((List.singleton_sublist.mpr List.mem_cons_self).cons c').cons_cons a'

/-- A symbol that can be dropped for lying in another is not narrower than one of its key. -/
theorem endByte_eq_of_le (ha : a ∈ dropNested l) (hb : b ∈ dropNested l) (hkey : a.key = b.key)
    (hkind : a.kind.outlivesNesting = false) (hle : a.endByte ≤ b.endByte) :
    a.endByte = b.endByte := by
  obtain ⟨hk, -, hstart⟩ := key_eq_iff.mp hkey
  have hexport : b.kind ≠ .export := by
    intro he
    rw [hk, he] at hkind
    cases hkind
  have hinside : a.range.Inside b.range := ⟨Nat.le_of_eq hstart.symm, hle⟩
  have hrange := range_eq_of_inside ha hkind (mem_dropNested.mp hb).1 hexport hinside
  exact congrArg ByteRange.endByte hrange

theorem endByte_eq_of_key_eq (ha : a ∈ dropNested l) (hb : b ∈ dropNested l)
    (hkey : a.key = b.key) (hkind : a.kind.outlivesNesting = false) : a.endByte = b.endByte := by
  rcases Nat.le_total a.endByte b.endByte with hle | hle
  · exact endByte_eq_of_le ha hb hkey hkind hle
  · have hkind' : b.kind.outlivesNesting = false := (key_eq_iff.mp hkey).1 ▸ hkind
    exact (endByte_eq_of_le hb ha hkey.symm hkind' hle).symm

/-- Symbols of one key and range on one line are not told apart by the listing order, so nothing
stands between them. -/
theorem startLine_lt_of_between (hkey : a.key = b.key) (hend : a.endByte = b.endByte)
    (hne : c.key ≠ a.key) (h : c.StandsBetween a b) : a.startLine < b.startLine := by
  have hle : a.startLine ≤ b.startLine :=
    Nat.le_trans (startLine_le_of_order h.1) (startLine_le_of_order h.2)
  refine Nat.lt_of_le_of_ne hle fun hline => ?_
  obtain ⟨hkind, hname, hstart⟩ := key_eq_iff.mp hkey
  have hba : order b a = .eq := by
    simp [order, compareLex_eq_eq, compareOn, hline, hstart, hend, hkind, hname]
  have hac : order a c = .lt := order_lt_of_key_ne h.1 (Ne.symm hne)
  have hca : (order c a).isLE = true := Std.TransCmp.isLE_trans h.2 (by rw [hba]; rfl)
  exact not_isLE_of_lt hac hca

theorem sublist_dropNested {t : List Symbol} (h : t.Sublist l)
    (ht : ∀ s ∈ t, s.kind.outlivesNesting = true) : t.Sublist (dropNested l) := by
  have hkept := h.filter fun s =>
    s.kind.outlivesNesting || !l.any fun t => t.kind != .export && s.isInside t
  rw [List.filter_eq_self.mpr fun s hs => by simp [ht s hs]] at hkept
  exact hkept

end Symbol

/-- Two symbols of one kind, name and start are listed only where a symbol of another kind or name
stands between them in listing order, and then only methods, exports and globals, or symbols that
begin on different lines; and wherever a symbol stands so between two methods, exports or globals,
two of their kind, name and start are listed. -/
theorem Query.list_repeats (symbols : List Symbol) :
    (∀ q : Query, q.qualifyMethods = false → ∀ a b, [a, b].Sublist (q.list symbols) →
      a.key = b.key → (∃ c ∈ symbols, c.key ≠ a.key ∧ c.StandsBetween a b) ∧
        (a.kind.outlivesNesting = true ∨ a.startLine < b.startLine ∧ a.endByte = b.endByte)) ∧
    ∀ a ∈ symbols, ∀ b ∈ symbols, ∀ c ∈ symbols, a.key = b.key → c.key ≠ a.key →
      c.StandsBetween a b → a.kind.outlivesNesting = true →
      ∃ a' b', [a', b'].Sublist (everything.list symbols) ∧ a'.key = a.key ∧ b'.key = a.key := by
  constructor
  · intro q hq a b h hkey
    rw [list_eq_filter hq] at h
    have hkept := h.trans List.filter_sublist
    have hdistinct : [a, b].Sublist (Symbol.dropRepeats (Symbol.sort symbols)) :=
      hkept.trans List.filter_sublist
    obtain ⟨c, hc, hne, hbetween⟩ :=
      Symbol.exists_between_of_sublist hdistinct hkey (Symbol.pairwise_sort symbols)
    refine ⟨⟨c, List.mem_mergeSort.mp hc, hne, hbetween⟩, ?_⟩
    cases hkind : a.kind.outlivesNesting with
    | true => exact Or.inl rfl
    | false =>
      have hend := Symbol.endByte_eq_of_key_eq (hkept.mem (by simp)) (hkept.mem (by simp)) hkey
        hkind
      exact Or.inr ⟨Symbol.startLine_lt_of_between hkey hend hne hbetween, hend⟩
  · intro a ha b hb c hc hkey hne hbetween hkind
    obtain ⟨a', b', h, ha', hb'⟩ := Symbol.exists_repeats (Symbol.pairwise_sort symbols)
      (List.mem_mergeSort.mpr ha) (List.mem_mergeSort.mpr hb) (List.mem_mergeSort.mpr hc) hkey hne
      hbetween
    refine ⟨a', b', ?_, ha', hb'⟩
    rw [list_everything]
    refine Symbol.sublist_dropNested h ?_
    have hkinds : a'.kind = a.kind ∧ b'.kind = a.kind :=
      ⟨(Symbol.key_eq_iff.mp ha').1, (Symbol.key_eq_iff.mp hb').1⟩
    simp [hkinds, hkind]

namespace ParsedSource

/-- The script `1 ->> x ->> y ->> x`, whose assignments all begin at its start. -/
def chainedAssignments : ParsedSource where
  tree :=
    let leaf (id : Nat) (kind field : String) (named : Bool) (start stop : Nat) : Node :=
      ⟨id, kind, field, start, stop, named, false, false, false, []⟩
    let assigned (id : Nat) (field : String) (value : Node) (next stop : Nat) : Node :=
      ⟨id, "binary_operator", field, 0, stop, true, false, false, false,
        [value, leaf next "->>" "operator" false (stop - 5) (stop - 2),
          leaf (next + 1) "identifier" "rhs" true (stop - 1) stop]⟩
    let first := assigned 3 "lhs" (leaf 4 "float" "lhs" true 0 1) 5 7
    let last := assigned 1 "" (assigned 2 "lhs" first 7 13) 9 19
    ⟨0, "program", "", 0, 20, true, false, false, false, [last]⟩
  source := Text.encode "1 ->> x ->> y ->> x\n"
  path := "chain.R"
  language := .r
  grammar := .r
  recovered := false

def chainedGlobal (name : String) (stop : Nat) : Symbol :=
  ⟨name, .global, 1, 1, .r, none, none, 0, stop, true⟩

theorem declared_chainedAssignments : chainedAssignments.declared =
    [chainedGlobal "x" 19, chainedGlobal "y" 13, chainedGlobal "x" 7] := by
  decide +kernel

theorem list_chainedAssignments : Query.everything.list chainedAssignments.declared =
    [chainedGlobal "x" 7, chainedGlobal "y" 13, chainedGlobal "x" 19] := by
  have hsort : Symbol.sort [chainedGlobal "x" 19, chainedGlobal "y" 13, chainedGlobal "x" 7] =
      [chainedGlobal "x" 7, chainedGlobal "y" 13, chainedGlobal "x" 19] :=
    mergeSort_eq_of_perm (List.reverse_perm _).symm (by decide)
  rw [declared_chainedAssignments, Query.list_everything, hsort]
  decide

/-- A global assigned twice in one chain is listed twice, with one kind, name and start. -/
theorem chainedAssignments_repeated :
    SourceModel.read (fun _ _ => some chainedAssignments.tree) .r "chain.R"
        chainedAssignments.source defaultTolerance = .parsed chainedAssignments ∧
      Query.everything.qualifyMethods = false ∧
      ¬(Query.everything.list chainedAssignments.declared).Pairwise fun a b => a.key ≠ b.key := by
  refine ⟨rfl, rfl, ?_⟩
  rw [list_chainedAssignments]
  decide

theorem chainedAssignments_between :
    (∃ c ∈ chainedAssignments.declared, c.key ≠ (chainedGlobal "x" 7).key ∧
      c.StandsBetween (chainedGlobal "x" 7) (chainedGlobal "x" 19)) ∧
    ∃ a b, [a, b].Sublist (Query.everything.list chainedAssignments.declared) ∧
      a.key = (chainedGlobal "x" 7).key ∧ b.key = (chainedGlobal "x" 7).key := by
  obtain ⟨hlisted, hbetween⟩ := Query.list_repeats chainedAssignments.declared
  constructor
  · refine (hlisted .everything rfl _ _ ?_ (by decide)).1
    rw [list_chainedAssignments]
    decide
  · rw [declared_chainedAssignments] at hbetween ⊢
    exact hbetween (chainedGlobal "x" 7) (by decide) (chainedGlobal "x" 19) (by decide)
      (chainedGlobal "y" 13) (by decide) (by decide) (by decide) ⟨by decide, by decide⟩ rfl

end ParsedSource
end SymbolHistory
