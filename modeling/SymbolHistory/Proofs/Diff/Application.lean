import Mathlib.Data.List.InsertIdx
import SymbolHistory.Proofs.Diff.Patch

namespace SymbolHistory.Diff

/-- A change that names a line, counted from one, and carries its text. -/
structure LineChange.Addresses (c : LineChange) (lines : List String) : Prop where
  pos : 1 ≤ c.line
  le_length : c.line ≤ lines.length
  content_eq : lines[c.line - 1]? = some c.content

/-- The lines whose numbers, counted from `first`, are not among the given ones. -/
def linesOutside (numbers : List Nat) (first : Nat) : List String → List String
  | [] => []
  | l :: ls =>
    if first ∈ numbers then linesOutside numbers (first + 1) ls
    else l :: linesOutside numbers (first + 1) ls

/-- The lines after some changes: the deleted ones are taken out from the last to the first, then
the added ones are put in from the first to the last. -/
def applyChanges (changes : List LineChange) (lines : List String) : List String :=
  (ofKind .add changes).foldl (fun ls c => ls.insertIdx (c.line - 1) c.content)
    ((ofKind .delete changes).foldr (fun c ls => ls.eraseIdx (c.line - 1)) lines)

theorem linesOutside_cons_of_lt {n first : Nat} (h : n < first) (numbers : List Nat)
    (lines : List String) :
    linesOutside (n :: numbers) first lines = linesOutside numbers first lines := by
  induction lines generalizing first with
  | nil => rfl
  | cons l ls ih =>
    have hne : first ≠ n := by omega
    simp only [linesOutside, List.mem_cons, hne, false_or, ih (Nat.lt_succ_of_lt h)]

def LineChange.reversed (c : LineChange) : LineChange :=
  { c with kind := match c.kind with
      | .add => .delete
      | .delete => .add }

theorem ofKind_reversed (cs : List LineChange) :
    ofKind .add (cs.map LineChange.reversed) = (ofKind .delete cs).map LineChange.reversed ∧
      ofKind .delete (cs.map LineChange.reversed) = (ofKind .add cs).map LineChange.reversed := by
  induction cs with
  | nil => exact ⟨rfl, rfl⟩
  | cons c cs ih =>
    cases hk : c.kind <;> simp [LineChange.reversed, hk, ih]

namespace IsPatch

variable {key : String → String} {i j : Nat} {xs ys : List String} {cs : List LineChange}

theorem reversed (h : IsPatch key i j xs ys cs) :
    IsPatch key j i ys xs (cs.map LineChange.reversed) := by
  induction h with
  | nil i j => exact .nil j i
  | keep hk _ ih => exact .keep hk.symm ih
  | delete _ ih => exact .add ih
  | add _ ih => exact .delete ih

theorem deleted_address (h : IsPatch key i j xs ys cs) :
    ∀ c ∈ ofKind .delete cs, i ≤ c.line ∧ xs[c.line - i]? = some c.content := by
  induction h with
  | nil => simp
  | @keep i j x y xs ys cs _ _ ih =>
    intro c hc
    obtain ⟨hle, hget⟩ := ih c hc
    refine ⟨Nat.le_of_succ_le hle, ?_⟩
    rwa [show c.line - i = c.line - (i + 1) + 1 by omega, List.getElem?_cons_succ]
  | @delete i j x xs ys cs _ ih =>
    rw [ofKind_cons, if_pos rfl]
    rintro c (_ | ⟨_, hc⟩)
    · simp
    · obtain ⟨hle, hget⟩ := ih c hc
      refine ⟨Nat.le_of_succ_le hle, ?_⟩
      rwa [show c.line - i = c.line - (i + 1) + 1 by omega, List.getElem?_cons_succ]
  | add _ ih => exact ih

theorem deleted_addresses (h : IsPatch key 1 1 xs ys cs) :
    ∀ c ∈ ofKind .delete cs, c.Addresses xs := by
  intro c hc
  obtain ⟨hpos, hget⟩ := h.deleted_address c hc
  have hlt := (List.getElem?_eq_some_iff.mp hget).1
  exact ⟨hpos, by omega, hget⟩

theorem added_addresses (h : IsPatch key 1 1 xs ys cs) :
    ∀ c ∈ ofKind .add cs, c.Addresses ys := by
  intro c hc
  have hrev : c.reversed ∈ ofKind .delete (cs.map LineChange.reversed) := by
    rw [(ofKind_reversed cs).2]
    exact List.mem_map_of_mem hc
  obtain ⟨hpos, hle, hget⟩ := h.reversed.deleted_addresses _ hrev
  exact ⟨hpos, hle, hget⟩

/-- Without the changed lines both sides have the same keys. -/
theorem linesOutside_keys (h : IsPatch key i j xs ys cs) :
    (linesOutside ((ofKind .delete cs).map (·.line)) i xs).map key =
      (linesOutside ((ofKind .add cs).map (·.line)) j ys).map key := by
  induction h with
  | nil => rfl
  | @keep i j x y xs ys cs hk hrest ih =>
    have hi : i ∉ (ofKind .delete cs).map (·.line) := by
      intro hmem
      obtain ⟨c, hc, hline⟩ := List.mem_map.mp hmem
      have := hrest.deleted_increasing.2 c hc
      omega
    have hj : j ∉ (ofKind .add cs).map (·.line) := by
      intro hmem
      obtain ⟨c, hc, hline⟩ := List.mem_map.mp hmem
      have := hrest.added_increasing.2 c hc
      omega
    simp only [linesOutside, hi, hj, if_false, List.map_cons, hk, ih]
  | @delete i j x xs ys cs _ ih =>
    simp only [ofKind_cons, reduceCtorEq, if_true, if_false, List.map_cons, linesOutside,
      List.mem_cons, true_or, linesOutside_cons_of_lt (Nat.lt_succ_self i), ih]
  | @add i j y xs ys cs _ ih =>
    simp only [ofKind_cons, reduceCtorEq, if_true, if_false, List.map_cons, linesOutside,
      List.mem_cons, true_or, linesOutside_cons_of_lt (Nat.lt_succ_self j), ih]

/-- Applying a patch leads to lines with the new keys. -/
theorem applyChanges_keys (h : IsPatch key 1 1 xs ys cs) :
    (applyChanges cs xs).map key = ys.map key := by
  have hundo := h.reversed.undo_eq
  rw [(ofKind_reversed cs).1, (ofKind_reversed cs).2, undo, List.foldl_map, List.foldr_map]
    at hundo
  -- Taking lines out and putting lines in do the same to the keys of the lines.
  rw [← hundo, applyChanges, ← List.foldl_hom (List.map key), ← List.foldr_hom (List.map key)]
  · intro c ls
    exact List.eraseIdx_map key ls (c.line - 1)
  · intro ls c
    exact (List.map_insertIdx key ls (c.line - 1) c.content).symm

end IsPatch

/-- The changes between two texts address the deleted lines of the old and the added lines of the
new one, in order; the other lines of both have equal keys in turn, and applied to the old lines the
changes give the new ones. -/
theorem lineDiff_applies (old new : String) (mode : LineComparison) :
    (∀ c ∈ ofKind .delete (lineDiff old new mode), c.Addresses (Text.linesOf old)) ∧
    (∀ c ∈ ofKind .add (lineDiff old new mode), c.Addresses (Text.linesOf new)) ∧
    (ofKind .delete (lineDiff old new mode)).Pairwise (·.line < ·.line) ∧
    (ofKind .add (lineDiff old new mode)).Pairwise (·.line < ·.line) ∧
    mode.keys (linesOutside ((ofKind .delete (lineDiff old new mode)).map (·.line)) 1
        (Text.linesOf old)) =
      mode.keys (linesOutside ((ofKind .add (lineDiff old new mode)).map (·.line)) 1
        (Text.linesOf new)) ∧
    mode.keys (applyChanges (lineDiff old new mode) (Text.linesOf old)) =
      mode.keys (Text.linesOf new) := by
  have h := lineDiff_isPatch old new mode
  simp only [← mode.map_key]
  exact ⟨h.deleted_addresses, h.added_addresses, h.deleted_increasing.1, h.added_increasing.1,
    h.linesOutside_keys, h.applyChanges_keys⟩

end SymbolHistory.Diff
