import SymbolHistory.Proofs.Extraction.BareName
import SymbolHistory.Proofs.References.Targets
import Mathlib.Data.List.Forall2

namespace SymbolHistory

namespace Symbol

variable {s : Symbol}

/-- A method named after its class; any other symbol as it is. -/
def qualified (s : Symbol) : Symbol :=
  match s.parent with
  | some cls => if s.kind = .method then { s with name := cls ++ "." ++ s.name } else s
  | none => s

/-- A method whose name already begins with its class and a dot. -/
def NamesItsClass (s : Symbol) : Prop :=
  s.kind = .method ∧ ∃ cls ∈ s.parent, (cls ++ ".").toList <+: s.name.toList

theorem qualified_of_ne_method (h : s.kind ≠ .method) : s.qualified = s := by
  unfold qualified
  split
  · exact if_neg h
  · rfl

theorem qualified_eq_withName (s : Symbol) : s.qualified = { s with name := s.qualified.name } := by
  unfold qualified
  split
  · split <;> rfl
  · rfl

theorem kind_qualified (s : Symbol) : s.qualified.kind = s.kind := by
  rw [qualified_eq_withName]

theorem bareName_of_not_namesItsClass (hmethod : s.kind = .method) (h : ¬s.NamesItsClass) :
    s.bareName = s.name := by
  refine bareName_eq_name_of_not_prefix fun cls hcls hbegins => h ⟨hmethod, cls, hcls, ?_⟩
  rw [String.toList_append]
  exact hbegins

end Symbol

namespace Query

variable (q : Query) (s : Symbol)

theorem present_qualifying : present { q with qualifyMethods := true } s = s.qualified := by
  unfold present Symbol.qualified
  cases s.parent <;> simp

theorem present_plain : present { q with qualifyMethods := false } s = s := by
  unfold present
  cases s.parent <;> simp

/-- Qualifying comes after the filters, so it changes names and nothing else. -/
theorem list_qualifying (symbols : List Symbol) :
    list { q with qualifyMethods := true } symbols =
      (list { q with qualifyMethods := false } symbols).map Symbol.qualified := by
  have hqualifying : present { q with qualifyMethods := true } = Symbol.qualified :=
    funext (present_qualifying q)
  have hplain : present { q with qualifyMethods := false } = id := funext (present_plain q)
  rw [list, list, hqualifying, hplain, List.map_id]
  rfl

end Query

theorem Symbol.bareName_qualified {s : Symbol} (h : ¬s.NamesItsClass) :
    s.qualified.bareName = s.bareName := by
  by_cases hmethod : s.kind = .method
  · have hname := bareName_of_not_namesItsClass hmethod h
    rw [← Query.present_qualifying .everything s]
    rcases Query.bareName_present { Query.everything with qualifyMethods := true } s with
      hbare | hbare
    · exact hbare
    · exact hbare.trans hname.symm
  · rw [qualified_of_ne_method hmethod]

namespace SourceModel

/-- Symbols with the same bare names and kinds, in the same order, have the same references. -/
theorem references_eq_of_targets (m : SourceModel) {xs ys : List Symbol}
    (h : xs.map Symbol.target = ys.map Symbol.target) : m.references xs = m.references ys := by
  refine (m.references_before xs).eq_of_mem_iff (m.references_before ys) fun r => ?_
  exact mem_references_congr fun kind => by rw [h]

theorem symbols_qualifying (m : SourceModel) (q : Query) :
    m.symbols { q with qualifyMethods := true } =
      (m.symbols { q with qualifyMethods := false }).map Symbol.qualified := by
  cases m with
  | parsed p => exact q.list_qualifying p.declared
  | plain p => exact q.list_qualifying p.declared

/-- Whether methods are qualified cannot be told from the references to them, provided none is
called by its class and a dot to begin with: the symbols are the same up to their names, with the
same bare names and kinds. -/
theorem references_qualified (m searched : SourceModel) (q : Query)
    (h : ∀ s ∈ m.symbols { q with qualifyMethods := false }, ¬s.NamesItsClass) :
    let on := m.symbols { q with qualifyMethods := true }
    let off := m.symbols { q with qualifyMethods := false }
    on.length = off.length ∧
      List.Forall₂ (fun a b => a = { b with name := a.name } ∧ a.bareName = b.bareName ∧
        a.kind = b.kind) on off ∧
      searched.references on = searched.references off := by
  intro on off
  have hon : on = off.map Symbol.qualified := m.symbols_qualifying q
  refine ⟨?_, ?_, searched.references_eq_of_targets ?_⟩
  · rw [hon, List.length_map]
  · rw [hon, List.forall₂_map_left_iff, List.forall₂_same]
    intro s hs
    exact ⟨s.qualified_eq_withName, Symbol.bareName_qualified (h s hs), s.kind_qualified⟩
  · rw [hon, List.map_map]
    refine List.map_congr_left fun s hs => ?_
    rw [Function.comp_apply, Symbol.target, Symbol.bareName_qualified (h s hs), s.kind_qualified]
    rfl

/-- A class with a method, read as plain text. -/
def classWithMethod : PlainSource := ⟨"a.py", .python, "class A:\n  def m(self):\n    pass\n", ""⟩

def methodCall : PlainSource := ⟨"b.py", .python, "x = A()\nx.m()\n", ""⟩

def namedM : Query := { name := some "m" }

theorem symbols_classWithMethod (q : Query) : classWithMethod.symbols q =
    ((Symbol.dropNested (Symbol.dropRepeats classWithMethod.declared)).filter q.matches).map
      q.present := by
  have hsort : Symbol.sort classWithMethod.declared = classWithMethod.declared :=
    List.mergeSort_of_pairwise (by decide +kernel)
  rw [PlainSource.symbols, Query.list, hsort]

theorem references_qualified_methodCall :
    (∀ s ∈ classWithMethod.symbols { namedM with qualifyMethods := false }, ¬s.NamesItsClass) ∧
    (classWithMethod.symbols { namedM with qualifyMethods := true }).map (·.name) = ["A.m"] ∧
    methodCall.references (classWithMethod.symbols { namedM with qualifyMethods := true }) =
      [⟨"m", 2, none, .call⟩] := by
  have hnames : ∀ s ∈ classWithMethod.symbols { namedM with qualifyMethods := false },
      ¬s.NamesItsClass := by
    have hdots : ∀ s ∈ classWithMethod.symbols { namedM with qualifyMethods := false },
        '.' ∉ s.name.toList := by
      rw [symbols_classWithMethod]
      decide +kernel
    rintro s hs ⟨-, cls, -, hbegins⟩
    exact hdots s hs (hbegins.mem (by simp))
  have hreferences :=
    (references_qualified (.plain classWithMethod) (.plain methodCall) namedM hnames).2.2
  refine ⟨hnames, ?_, hreferences.trans ?_⟩
  · rw [symbols_classWithMethod]
    decide +kernel
  · change methodCall.references (classWithMethod.symbols _) = _
    rw [symbols_classWithMethod]
    decide +kernel

end SourceModel
end SymbolHistory
