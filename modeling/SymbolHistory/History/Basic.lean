import SymbolHistory.Error
import SymbolHistory.Text.Utf8

namespace SymbolHistory

structure Commit where
  id : String
  author : String
  /-- Author time in seconds since the start of 1970. -/
  timestamp : Int
  message : String
  deriving DecidableEq, Repr

def bytePrefix? : List Char → Nat → Option (List Char)
  | _, 0 => some []
  | [], _ + 1 => none
  | c :: rest, n + 1 =>
    if c.utf8Size ≤ n + 1 then (bytePrefix? rest (n + 1 - c.utf8Size)).map (c :: ·) else none

/-- The first eight bytes of an id, or the whole id where they are no text. -/
def shortId (id : String) : String :=
  ((bytePrefix? id.toList 8).map String.ofList).getD id

structure Revision where
  commit : Commit
  path : String
  deriving DecidableEq, Repr

structure Snapshot where
  commit : Commit
  path : String
  content : String
  deriving DecidableEq, Repr

structure HistorySource (m : Type → Type) where
  /-- The commits that touched a path, the newest first. -/
  revisions : String → m (Except Error (List Revision))
  /-- The content of a path at a commit. -/
  contentAt : (commit path : String) → m (Except Error String)

namespace HistorySource

variable {m : Type → Type} [Monad m]

/-- The snapshots of a list of revisions. A missing snapshot is left out; any other error ends the
reading. -/
def snapshotsOf (source : HistorySource m) : List Revision → m (Except Error (List Snapshot))
  | [] => pure (.ok [])
  | r :: rest => do
    match ← source.contentAt r.commit.id r.path with
    | .ok content =>
      match ← source.snapshotsOf rest with
      | .ok more => pure (.ok (⟨r.commit, r.path, content⟩ :: more))
      | .error e => pure (.error e)
    | .error e =>
      if e.isMissingSnapshot then source.snapshotsOf rest else pure (.error e)

/-- The snapshots of a file, the oldest first, at most `limit` of the newest commits. -/
def snapshots (source : HistorySource m) (path : String) (limit : Option Nat) :
    m (Except Error (List Snapshot)) := do
  match ← source.revisions path with
  | .error e => pure (.error e)
  | .ok revisions =>
    let kept := match limit with
      | some n => revisions.take n
      | none => revisions
    source.snapshotsOf kept.reverse

end HistorySource
end SymbolHistory
