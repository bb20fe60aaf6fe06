import Mathlib.Data.List.Induction
import SymbolHistory.History.Memory

namespace SymbolHistory

/-- The last `limit` elements, or all of them without a limit. -/
def lastOf {α : Type} (limit : Option Nat) (l : List α) : List α :=
  match limit with
  | some n => l.drop (l.length - n)
  | none => l

theorem lastOf_map {α β : Type} (f : α → β) (limit : Option Nat) (l : List α) :
    lastOf limit (l.map f) = (lastOf limit l).map f := by
  cases limit <;> simp [lastOf]

theorem lastOf_suffix_of_le {α : Type} {n m : Nat} (h : n ≤ m) (l : List α) :
    lastOf (some n) l <:+ lastOf (some m) l := by
  have hdrop : l.drop (l.length - n) =
      (l.drop (l.length - m)).drop (l.length - n - (l.length - m)) := by
    rw [List.drop_drop]
    congr 1
    omega
  simp only [lastOf]
  rw [hdrop]
  exact List.drop_suffix _ _

namespace MemoryHistory

def recordAll (cs : List RecordedCommit) : MemoryHistory := cs.foldl record {}

def commitsOf (cs : List RecordedCommit) (path : String) : List RecordedCommit :=
  cs.filter (·.path = path)

/-- The content most recently recorded for a commit id and a path. -/
def latestContent? (cs : List RecordedCommit) (id path : String) : Option String :=
  (((commitsOf cs path).filter (·.commit.id = id)).filterMap (·.content)).getLast?

/-- The snapshots to expect of a path: its last commits, the oldest first, each with the content
most recently recorded for it, without those for which there is none. -/
def recordedSnapshots (cs : List RecordedCommit) (path : String) (limit : Option Nat) :
    List Snapshot :=
  (lastOf limit (commitsOf cs path)).filterMap fun c =>
    (latestContent? cs c.commit.id path).map fun content => ⟨c.commit, path, content⟩

/-- The tables hold what has been recorded. -/
structure Holds (h : MemoryHistory) (cs : List RecordedCommit) : Prop where
  revisionsOf_eq : ∀ path, h.revisionsOf.getD path [] =
    (commitsOf cs path).map fun c => ⟨c.commit, path⟩
  contents_eq : ∀ id path, h.contents[(id, path)]? = latestContent? cs id path

theorem holds_nil : Holds {} [] :=
  ⟨fun _ => Std.HashMap.getD_empty, fun _ _ => Std.HashMap.getElem?_empty⟩

theorem commitsOf_append (cs : List RecordedCommit) (c : RecordedCommit) (path : String) :
    commitsOf (cs ++ [c]) path = commitsOf cs path ++ if c.path = path then [c] else [] := by
  by_cases h : c.path = path <;> simp [commitsOf, h]

theorem latestContent?_append (cs : List RecordedCommit) (c : RecordedCommit)
    (id path : String) :
    latestContent? (cs ++ [c]) id path =
      if c.path = path ∧ c.commit.id = id then c.content.or (latestContent? cs id path)
      else latestContent? cs id path := by
  simp only [latestContent?, commitsOf_append]
  by_cases hp : c.path = path
  · by_cases hi : c.commit.id = id
    · cases hc : c.content <;> simp [hp, hi, hc]
    · simp [hp, hi]
  · simp [hp]

theorem Holds.record {h : MemoryHistory} {cs : List RecordedCommit} (hh : Holds h cs)
    (c : RecordedCommit) : Holds (h.record c) (cs ++ [c]) := by
  constructor
  · intro path
    rw [MemoryHistory.record, Std.HashMap.getD_insert, commitsOf_append]
    by_cases hp : c.path = path
    · subst hp
      simp [hh.revisionsOf_eq]
    · simp [hp, hh.revisionsOf_eq]
  · intro id path
    rw [latestContent?_append, ← hh.contents_eq]
    cases hc : c.content with
    | none => simp [MemoryHistory.record, hc]
    | some content =>
      simp only [MemoryHistory.record, hc, Std.HashMap.getElem?_insert, Option.some_or]
      by_cases hp : c.path = path <;> by_cases hi : c.commit.id = id <;> simp [hp, hi]

theorem recordAll_append (cs : List RecordedCommit) (c : RecordedCommit) :
    recordAll (cs ++ [c]) = (recordAll cs).record c := by
  simp [recordAll]

/-- After any sequence of recordings the tables are up to date. -/
theorem holds_recordAll (cs : List RecordedCommit) : Holds (recordAll cs) cs := by
  induction cs using List.reverseRecOn with
  | nil => exact holds_nil
  | append_singleton cs c ih =>
    rw [recordAll_append]
    exact ih.record c

theorem revisions_source (h : MemoryHistory) (path : String) :
    h.source.revisions path = pure (.ok (h.revisions path)) := rfl

theorem contentAt_source (h : MemoryHistory) (commit path : String) :
    h.source.contentAt commit path = pure (match h.contents[(commit, path)]? with
      | some content => .ok content
      | none => .error (.missingSnapshot commit path)) := rfl

/-- Reading leaves out the revisions whose content is missing, and never fails. -/
theorem snapshotsOf_source (h : MemoryHistory) (rs : List Revision) :
    h.source.snapshotsOf rs = pure (.ok (rs.filterMap fun r =>
      h.contents[(r.commit.id, r.path)]?.map fun content => ⟨r.commit, r.path, content⟩)) := by
  induction rs with
  | nil => rfl
  | cons r rs ih =>
    rw [HistorySource.snapshotsOf, ih, contentAt_source, pure_bind, List.filterMap_cons]
    cases h.contents[(r.commit.id, r.path)]? with
    | none => rfl
    | some content => rfl

theorem Holds.snapshots_eq {h : MemoryHistory} {cs : List RecordedCommit} (hh : Holds h cs)
    (path : String) (limit : Option Nat) :
    h.source.snapshots path limit = pure (.ok (recordedSnapshots cs path limit)) := by
  have hread : h.source.snapshots path limit = h.source.snapshotsOf
      (lastOf limit (h.revisionsOf.getD path [])) := by
    rw [HistorySource.snapshots, revisions_source, pure_bind]
    cases limit with
    | none => simp only [revisions, List.reverse_reverse, lastOf]
    | some n => simp only [revisions, List.take_reverse, List.reverse_reverse, lastOf]
  rw [hread, hh.revisionsOf_eq, lastOf_map, snapshotsOf_source, List.filterMap_map]
  simp only [hh.contents_eq]
  rfl

theorem commitsOf_commitsOf (cs : List RecordedCommit) (path : String) :
    commitsOf (commitsOf cs path) path = commitsOf cs path := by
  simp [commitsOf]

theorem recordedSnapshots_commitsOf (cs : List RecordedCommit) (path : String)
    (limit : Option Nat) :
    recordedSnapshots (commitsOf cs path) path limit = recordedSnapshots cs path limit := by
  simp only [recordedSnapshots, latestContent?, commitsOf_commitsOf]

/-- Whatever has been recorded, reading the snapshots of a path gives its last commits, the oldest
first, with the content most recently recorded for each; the commits of other paths play no part,
and a smaller limit gives the end of what a larger one gives. -/
theorem snapshots_recordAll (cs : List RecordedCommit) (path : String) :
    (∀ limit, (recordAll cs).source.snapshots path limit =
      pure (.ok (recordedSnapshots cs path limit))) ∧
    (∀ limit, (recordAll cs).source.snapshots path limit =
      (recordAll (commitsOf cs path)).source.snapshots path limit) ∧
    (∀ n k, recordedSnapshots cs path (some n) <:+ recordedSnapshots cs path (some (n + k))) ∧
    ∀ n, recordedSnapshots cs path (some n) <:+ recordedSnapshots cs path none := by
  refine ⟨(holds_recordAll cs).snapshots_eq path, ?_, ?_, ?_⟩
  · intro limit
    rw [(holds_recordAll cs).snapshots_eq, (holds_recordAll _).snapshots_eq,
      recordedSnapshots_commitsOf]
  · intro n k
    exact (lastOf_suffix_of_le (Nat.le_add_right n k) _).filterMap _
  · intro n
    exact (List.drop_suffix _ _).filterMap _

end MemoryHistory
end SymbolHistory
