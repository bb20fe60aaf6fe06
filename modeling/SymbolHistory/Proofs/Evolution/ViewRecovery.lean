import SymbolHistory.Evolution.CompressedView
import SymbolHistory.Proofs.Evolution.Retention

namespace SymbolHistory

open Diff (LineChange ChangeKind ofKind undo)

section Buckets

variable {α : Type} {line : α → Nat}

theorem filter_eq_append_filter_ne {n : Nat} {l : List α}
    (hl : l.Pairwise fun a b => line a ≤ line b) (hn : ∀ a ∈ l, n ≤ line a) :
    l.filter (line · == n) ++ l.filter (line · != n) = l := by
  induction l with
  | nil => rfl
  | cons a l ih =>
    obtain ⟨ha, hl⟩ := List.pairwise_cons.mp hl
    have hrest := ih hl fun b hb => hn b (List.mem_cons_of_mem a hb)
    by_cases h : line a = n
    · simpa [h] using hrest
    · -- No later element can be at `n` once one is above it.
      have hnone : l.filter (line · == n) = [] := by
        rw [List.filter_eq_nil_iff]
        intro b hb
        have h₁ := ha b hb
        have h₂ := hn a List.mem_cons_self
        simp only [beq_iff_eq]
        omega
      rw [hnone, List.nil_append] at hrest
      simp [h, hnone, hrest]

/-- Spreading sorted elements over buckets and collecting the buckets changes nothing. -/
theorem flatMap_buckets {lines : List Nat} {l : List α} (hs : lines.Pairwise (· < ·))
    (hl : l.Pairwise fun a b => line a ≤ line b) (hm : ∀ a ∈ l, line a ∈ lines) :
    (lines.flatMap fun n => l.filter (line · == n)) = l := by
  induction lines generalizing l with
  | nil =>
    cases l with
    | nil => rfl
    | cons a l => simpa using hm a List.mem_cons_self
  | cons n lines ih =>
    obtain ⟨hn, hs⟩ := List.pairwise_cons.mp hs
    have hle : ∀ a ∈ l, n ≤ line a := by
      intro a ha
      rcases List.mem_cons.mp (hm a ha) with h | h
      · exact Nat.le_of_eq h.symm
      · exact Nat.le_of_lt (hn _ h)
    have hrest := ih hs (hl.filter (line · != n)) fun a ha => by
      obtain ⟨ha, hne⟩ := List.mem_filter.mp ha
      exact (List.mem_cons.mp (hm a ha)).resolve_left (by simpa using hne)
    -- The later buckets do not see the elements at `n`.
    have hsame : ∀ m ∈ lines,
        (l.filter (line · != n)).filter (line · == m) = l.filter (line · == m) := by
      intro m hmem
      rw [List.filter_filter]
      apply List.filter_congr
      intro a _
      by_cases h : line a = m
      · simp [h, Nat.ne_of_gt (hn m hmem)]
      · simp [h]
    rw [List.flatMap_cons, ← List.flatMap_congr hsame, hrest, filter_eq_append_filter_ne hl hle]

theorem eraseDups_increasing {l : List Nat} (h : l.Pairwise (· ≤ ·)) :
    l.eraseDups.Pairwise (· < ·) := by
  match l, h with
  | [], _ => simp
  | a :: l, h =>
    obtain ⟨ha, hl⟩ := List.pairwise_cons.mp h
    rw [List.eraseDups_cons, List.pairwise_cons]
    constructor
    · intro b hb
      obtain ⟨hb, hne⟩ := List.mem_filter.mp (List.mem_eraseDups.mp hb)
      have hle := ha b hb
      have : b ≠ a := by simpa using hne
      omega
    · exact eraseDups_increasing (hl.filter _)
termination_by l.length
decreasing_by
  have := List.length_filter_le (fun b => !b == a) l
  simp only [List.length_cons]
  omega

end Buckets

theorem gatheredLines_increasing (changes : List TaggedChange) :
    ((changes.map (·.change.line)).mergeSort (· ≤ ·)).eraseDups.Pairwise (· < ·) := by
  have hsorted : ((changes.map (·.change.line)).mergeSort (· ≤ ·)).Pairwise
      fun a b => decide (a ≤ b) = true :=
    List.pairwise_mergeSort (by simp; omega) (by simp; omega) _
  exact eraseDups_increasing (by simpa using hsorted)

/-- Gathering by line only reorders, and not changes that already increase by line. -/
theorem filter_flatMap_gatherByLine {changes : List TaggedChange} {p : TaggedChange → Bool}
    (hs : (changes.filter p).Pairwise fun a b => a.change.line ≤ b.change.line) :
    ((gatherByLine changes).flatMap (·.changes)).filter p = changes.filter p := by
  have hlines := gatheredLines_increasing changes
  have hmem : ∀ c ∈ changes.filter p, c.change.line ∈
      ((changes.map (·.change.line)).mergeSort (· ≤ ·)).eraseDups := by
    intro c hc
    rw [List.mem_eraseDups, List.mem_mergeSort]
    exact List.mem_map_of_mem (List.mem_filter.mp hc).1
  have h := flatMap_buckets hlines hs hmem
  rw [gatherByLine, List.flatMap_map, List.filter_flatMap, ← h]
  apply List.flatMap_congr
  intro n _
  rw [List.filter_filter, List.filter_filter]
  apply List.filter_congr
  intro c _
  rw [Bool.and_comm]

def TaggedChange.isOf (transition : Nat) (kind : ChangeKind) (c : TaggedChange) : Bool :=
  c.transition == transition && decide (c.change.kind = kind)

theorem filter_taggedFrom_of_lt {first i : Nat} (h : i < first) (kind : ChangeKind)
    (ts : List Transition) : (taggedFrom first ts).filter (TaggedChange.isOf i kind) = [] := by
  induction ts generalizing first with
  | nil => rfl
  | cons t ts ih =>
    rw [taggedFrom, List.filter_append, ih (by omega), List.append_nil, List.filter_map,
      List.map_eq_nil_iff, List.filter_eq_nil_iff]
    intro c _
    have : first ≠ i := by omega
    simp [TaggedChange.isOf, this]

/-- A transition's changes can be told from those of the others. -/
theorem filter_taggedFrom {ts : List Transition} {t : Transition} {i : Nat}
    (h : ts[i]? = some t) (first : Nat) (kind : ChangeKind) :
    (taggedFrom first ts).filter (TaggedChange.isOf (first + i) kind) =
      (ofKind kind t.changes).map (⟨·, first + i⟩) := by
  induction ts generalizing first i with
  | nil => simp at h
  | cons u ts ih =>
    rw [taggedFrom, List.filter_append, List.filter_map]
    cases i with
    | zero =>
      obtain rfl : u = t := by simpa using h
      rw [Nat.add_zero, filter_taggedFrom_of_lt (Nat.lt_succ_self first), List.append_nil]
      congr 1
      apply List.filter_congr
      intro c _
      simp [TaggedChange.isOf]
    | succ i =>
      have hrest := ih (by simpa using h) (first + 1)
      rw [Nat.add_right_comm, Nat.add_assoc] at hrest
      have hnone : (u.changes.filter (TaggedChange.isOf (first + (i + 1)) kind ∘ (⟨·, first⟩)))
          = [] := by
        rw [List.filter_eq_nil_iff]
        intro c _
        simp [TaggedChange.isOf]
      rw [hnone, List.map_nil, List.nil_append, hrest]

namespace CompressedView

/-- The changes of one transition and kind, in order of their lines. -/
def changesOf (v : CompressedView) (transition : Nat) (kind : ChangeKind) : List LineChange :=
  ((v.changesByLine.flatMap (·.changes)).filter (TaggedChange.isOf transition kind)).map
    (·.change)

/-- The lines of the versions up to one, blanks apart, from those of that version: the transitions
before it are undone from the last to the first. -/
def recoveredTo (v : CompressedView) : Nat → List String → List (List String)
  | 0, keys => [keys]
  | n + 1, keys =>
    v.recoveredTo n (undo Diff.LineComparison.ignoringBlanks.key (v.changesOf n .delete)
      (v.changesOf n .add) keys) ++ [keys]

/-- The lines of all versions, blanks apart, as far as a view tells. -/
def recovered (v : CompressedView) : List (List String) :=
  v.recoveredTo v.transitionCount (v.finalLines.map Diff.LineComparison.ignoringBlanks.key)

theorem changesOf_ofChain {c : VersionChain} {t : Transition} {i : Nat} {kind : ChangeKind}
    (ht : c.transitions[i]? = some t)
    (hs : (ofKind kind t.changes).Pairwise (·.line < ·.line)) :
    (ofChain c).changesOf i kind = ofKind kind t.changes := by
  have hof := filter_taggedFrom ht 0 kind
  rw [Nat.zero_add] at hof
  have hsorted : ((taggedFrom 0 c.transitions).filter (TaggedChange.isOf i kind)).Pairwise
      fun a b => a.change.line ≤ b.change.line := by
    rw [hof, List.pairwise_map]
    exact hs.imp Nat.le_of_lt
  rw [changesOf, ofChain, filter_flatMap_gatherByLine hsorted, hof, List.map_map]
  exact List.map_id _

/-- One step back: the changes that the view holds for a transition undo it. -/
theorem undo_changesOf {c : VersionChain} {t : Transition} {v w : Version} {i : Nat}
    (ht : c.transitions[i]? = some t) (hl : t.Links v w) :
    undo Diff.LineComparison.ignoringBlanks.key ((ofChain c).changesOf i .delete)
      ((ofChain c).changesOf i .add) w.keyLines = v.keyLines := by
  have hp := Diff.lineDiff_isPatch v.content w.content .ignoringBlanks
  rw [← hl.changes_eq] at hp
  rw [changesOf_ofChain ht hp.deleted_increasing.1, changesOf_ofChain ht hp.added_increasing.1]
  exact hp.undo_eq

/-- From any version the view leads back to the first. -/
theorem recoveredTo_ofChain {c : VersionChain} (hc : c.Linked) {n : Nat} {w : Version}
    (hw : c.versions[n]? = some w) :
    (ofChain c).recoveredTo n w.keyLines = (c.versions.take (n + 1)).map Version.keyLines := by
  induction n generalizing w with
  | zero => simp [recoveredTo, List.take_one, List.head?_eq_getElem?, hw]
  | succ n ih =>
    have hn : n < c.transitions.length := by
      have := (List.getElem?_eq_some_iff.mp hw).1
      have := hc.length_eq
      omega
    -- The transition into this version leads back to the one before it.
    obtain ⟨v, w', hv, hw', hl⟩ := hc.links n _ (List.getElem?_eq_getElem hn)
    obtain rfl : w = w' := Option.some.inj (hw.symm.trans hw')
    have htake : c.versions.take (n + 1 + 1) = c.versions.take (n + 1) ++ [w] := by
      rw [List.take_add_one, hw]
      rfl
    rw [recoveredTo, undo_changesOf (List.getElem?_eq_getElem hn) hl, ih hv, htake,
      List.map_append]
    rfl

/-- A view tells the lines of every version, blanks apart. -/
theorem recovered_ofChain {c : VersionChain} (hc : c.Linked) :
    (ofChain c).recovered = c.versions.map Version.keyLines := by
  have hlen := hc.length_eq
  have hlast : c.transitions.length < c.versions.length := by omega
  have hw := List.getElem?_eq_getElem hlast
  have hfinal : c.final? = some c.versions[c.transitions.length] := by
    rw [VersionChain.final?, List.getLast?_eq_getElem?, ← hw]
    congr 1
    omega
  have hkeys : (ofChain c).finalLines.map Diff.LineComparison.ignoringBlanks.key =
      c.versions[c.transitions.length].keyLines := by
    simp only [ofChain, hfinal, Option.map_some, Option.getD_some]
    rfl
  have hcount : (ofChain c).transitionCount = c.transitions.length := rfl
  rw [recovered, hkeys, hcount, recoveredTo_ofChain hc hw, hlen, List.take_length]

/-- Chains with equal views have the same versions up to blanks, which the view itself gives by
undoing the transitions backwards from the final text. -/
theorem keyLines_eq_of_ofChain_eq {i j : SymbolIdentity} {vs ws : List Version}
    {c d : VersionChain} (hc : VersionChain.build? i vs = some c)
    (hd : VersionChain.build? j ws = some d) (h : ofChain c = ofChain d) :
    (ofChain c).recovered = c.versions.map Version.keyLines ∧
      c.versions.length = d.versions.length ∧
      c.versions.map Version.keyLines = d.versions.map Version.keyLines := by
  have hrc := recovered_ofChain (VersionChain.build?_linked hc)
  have hrd := recovered_ofChain (VersionChain.build?_linked hd)
  have heq : c.versions.map Version.keyLines = d.versions.map Version.keyLines := by
    rw [← hrc, h, hrd]
  have hlen := congrArg List.length heq
  rw [List.length_map, List.length_map] at hlen
  exact ⟨hrc, hlen, heq⟩

def twoTexts (path : String) : List Version :=
  [⟨⟨"1", "", 0, ""⟩, path, 1, 1, "x y"⟩, ⟨⟨"2", "", 0, ""⟩, path, 1, 1, "x z"⟩]

theorem build?_twoTexts (path : String) :
    VersionChain.build? ⟨"f", .function⟩ (twoTexts path) =
      some ⟨⟨"f", .function⟩, twoTexts path,
        [⟨"1", "2", Diff.lineDiff "x y" "x z" .ignoringBlanks⟩]⟩ := by
  have hne : Version.keyLines ⟨⟨"1", "", 0, ""⟩, path, 1, 1, "x y"⟩ ≠
      Version.keyLines ⟨⟨"2", "", 0, ""⟩, path, 1, 1, "x z"⟩ := by
    simp only [Version.keyLines]
    decide +kernel
  rw [twoTexts, VersionChain.build?, retained_cons_of_ne hne]
  rfl

/-- Views do not tell the paths of versions, which may differ where the lines do not. -/
theorem ofChain_twoTexts :
    ∃ c d : VersionChain, VersionChain.build? ⟨"f", .function⟩ (twoTexts "a.py") = some c ∧
      VersionChain.build? ⟨"f", .function⟩ (twoTexts "b.py") = some d ∧
      c.versions ≠ d.versions ∧ ofChain c = ofChain d ∧
      c.versions.map Version.keyLines = d.versions.map Version.keyLines := by
  have hc := build?_twoTexts "a.py"
  have hd := build?_twoTexts "b.py"
  exact ⟨_, _, hc, hd, by decide, rfl, (keyLines_eq_of_ofChain_eq hc hd rfl).2.2⟩

end CompressedView
end SymbolHistory
