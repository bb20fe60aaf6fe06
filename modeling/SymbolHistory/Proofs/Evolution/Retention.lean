import SymbolHistory.Evolution.VersionChain
import SymbolHistory.Proofs.Diff.Patch

namespace SymbolHistory

open Diff (lineDiff)

/-- The lines of a version without their blank characters. -/
def Version.keyLines (v : Version) : List String :=
  (Text.linesOf v.content).map fun line =>
    String.ofList (line.toList.filter fun c => !Text.isBlank c)

theorem lineDiff_ne_nil {v w : Version} (h : v.keyLines ≠ w.keyLines) :
    lineDiff v.content w.content .ignoringBlanks ≠ [] :=
  fun hd => h (Diff.lineDiff_eq_nil.mp hd)

theorem lineDiff_eq_nil_iff {v w : Version} :
    lineDiff v.content w.content .ignoringBlanks = [] ↔ v.keyLines = w.keyLines :=
  Diff.lineDiff_eq_nil

theorem retained_cons_of_eq {anchor v : Version} (h : anchor.keyLines = v.keyLines)
    (rest : List Version) : retained anchor (v :: rest) = retained anchor rest := by
  rw [retained, lineDiff_eq_nil_iff.mpr h]

def Transition.between (v w : Version) : Transition :=
  ⟨v.commit.id, w.commit.id, lineDiff v.content w.content .ignoringBlanks⟩

theorem retained_cons_of_ne {anchor v : Version} (h : anchor.keyLines ≠ v.keyLines)
    (rest : List Version) :
    retained anchor (v :: rest) = (.between anchor v, v) :: retained v rest := by
  rw [retained]
  split
  · next hd => exact absurd hd (lineDiff_ne_nil h)
  · rfl

/-- The versions of a list that differ, blanks apart, from the version right before them. -/
def changedAfter (prev : Version) (rest : List Version) : List Version :=
  (((prev :: rest).zip rest).filter fun p => p.1.keyLines ≠ p.2.keyLines).map Prod.snd

theorem changedAfter_cons (prev v : Version) (rest : List Version) :
    changedAfter prev (v :: rest) =
      if prev.keyLines = v.keyLines then changedAfter v rest else v :: changedAfter v rest := by
  by_cases h : prev.keyLines = v.keyLines <;> simp [changedAfter, h]

/-- The versions that stay are those that differ from their predecessor. The anchor need only have
the lines of the predecessor, which holds again after a version that is dropped. -/
theorem map_snd_retained {anchor prev : Version} (h : anchor.keyLines = prev.keyLines)
    (rest : List Version) : (retained anchor rest).map Prod.snd = changedAfter prev rest := by
  induction rest generalizing anchor prev with
  | nil => rfl
  | cons v rest ih =>
    rw [changedAfter_cons, ← h]
    by_cases hv : anchor.keyLines = v.keyLines
    · -- The anchor stays, and the dropped version is what the next one is compared with.
      rw [retained_cons_of_eq hv, if_pos hv, ih hv]
    · rw [retained_cons_of_ne hv, if_neg hv, List.map_cons, ih rfl]

/-- A transition records the change from one version to another, and there is one. -/
structure Transition.Links (t : Transition) (v w : Version) : Prop where
  fromCommit_eq : t.fromCommit = v.commit.id
  toCommit_eq : t.toCommit = w.commit.id
  changes_eq : t.changes = lineDiff v.content w.content .ignoringBlanks
  changes_ne_nil : t.changes ≠ []

theorem Transition.between_links {v w : Version} (h : v.keyLines ≠ w.keyLines) :
    (Transition.between v w).Links v w := by
  have hc : (Transition.between v w).changes =
      lineDiff v.content w.content .ignoringBlanks := by rw [Transition.between]
  refine ⟨rfl, rfl, hc, ?_⟩
  rw [hc]
  exact lineDiff_ne_nil h

/-- Each transition leads from the version that stayed before to the one it stands with. -/
theorem retained_links (anchor : Version) (rest : List Version) (i : Nat) {t : Transition}
    {w : Version} (h : (retained anchor rest)[i]? = some (t, w)) :
    ∃ v, (anchor :: (retained anchor rest).map Prod.snd)[i]? = some v ∧ t.Links v w := by
  induction rest generalizing anchor i with
  | nil => simp [retained] at h
  | cons v rest ih =>
    by_cases hv : anchor.keyLines = v.keyLines
    · rw [retained_cons_of_eq hv] at h ⊢
      exact ih anchor i h
    · rw [retained_cons_of_ne hv] at h ⊢
      cases i with
      | zero =>
        obtain ⟨rfl, rfl⟩ : Transition.between anchor v = t ∧ v = w := by simpa using h
        exact ⟨anchor, rfl, Transition.between_links hv⟩
      | succ i =>
        rw [List.getElem?_cons_succ] at h
        rw [List.getElem?_cons_succ]
        exact ih v i h

namespace VersionChain

/-- There is one transition between any two neighbouring versions. -/
structure Linked (c : VersionChain) : Prop where
  length_eq : c.transitions.length + 1 = c.versions.length
  links : ∀ i t, c.transitions[i]? = some t →
    ∃ v w, c.versions[i]? = some v ∧ c.versions[i + 1]? = some w ∧ t.Links v w

theorem build?_linked {identity : SymbolIdentity} {candidates : List Version} {c : VersionChain}
    (h : build? identity candidates = some c) : c.Linked := by
  cases candidates with
  | nil => simp [build?] at h
  | cons first rest =>
    obtain rfl := Option.some.inj h
    refine ⟨by simp, ?_⟩
    intro i t ht
    obtain ⟨p, hp, rfl⟩ : ∃ p, (retained first rest)[i]? = some p ∧ p.1 = t := by
      simpa using ht
    obtain ⟨v, hv, hlink⟩ := retained_links first rest i hp
    exact ⟨v, p.2, hv, by simp [hp], hlink⟩

/-- A chain has the first candidate and every later one that differs, blanks apart, from the
candidate right before it; its transitions are the changes between neighbouring versions. -/
theorem build?_retains_changed (identity : SymbolIdentity) (first : Version)
    (rest : List Version) :
    ∃ chain, build? identity (first :: rest) = some chain ∧
      chain.identity = identity ∧
      chain.versions = first :: changedAfter first rest ∧
      chain.Linked := by
  have hb : build? identity (first :: rest) = some _ := rfl
  refine ⟨_, hb, rfl, ?_, build?_linked hb⟩
  rw [map_snd_retained rfl]

/-- A line, the same with other blanks in it, and another one. -/
def respaced : List Version :=
  [⟨⟨"1", "", 0, ""⟩, "a.py", 1, 1, "x = 1"⟩, ⟨⟨"2", "", 0, ""⟩, "a.py", 1, 1, "\tx=\u00a01 "⟩,
    ⟨⟨"3", "", 0, ""⟩, "a.py", 1, 1, "x = 2"⟩]

/-- An edit of blanks alone gives no version. -/
theorem build?_respaced : ∃ chain, build? ⟨"x", .global⟩ respaced = some chain ∧
    chain.versions.map (·.commit.id) = ["1", "3"] ∧ chain.transitions.length = 1 := by
  obtain ⟨chain, hb, -, hversions, hlinked⟩ := build?_retains_changed ⟨"x", .global⟩
    ⟨⟨"1", "", 0, ""⟩, "a.py", 1, 1, "x = 1"⟩ (respaced.drop 1)
  have hids : chain.versions.map (·.commit.id) = ["1", "3"] := by
    rw [hversions]
    decide +kernel
  have hlength : chain.versions.length = 2 := by simpa using congrArg List.length hids
  exact ⟨chain, hb, hids, by have := hlinked.length_eq; omega⟩

end VersionChain
end SymbolHistory
