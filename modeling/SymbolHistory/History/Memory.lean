import Std.Data.HashMap
import SymbolHistory.History.Basic

namespace SymbolHistory

/-- One recorded commit of a path. Without content the file cannot be read at that commit. -/
structure RecordedCommit where
  path : String
  commit : Commit
  content : Option String
  deriving DecidableEq, Repr

/-- Contents are kept apart from revisions, because a commit may have none and an id may be recorded
again. -/
structure MemoryHistory where
  /-- The revisions of each path, the oldest first. -/
  revisionsOf : Std.HashMap String (List Revision) := {}
  /-- The content last recorded for each commit id and path. -/
  contents : Std.HashMap (String × String) String := {}

namespace MemoryHistory

def record (h : MemoryHistory) (c : RecordedCommit) : MemoryHistory where
  revisionsOf :=
    h.revisionsOf.insert c.path (h.revisionsOf.getD c.path [] ++ [⟨c.commit, c.path⟩])
  contents :=
    match c.content with
    | some content => h.contents.insert (c.commit.id, c.path) content
    | none => h.contents

def revisions (h : MemoryHistory) (path : String) : List Revision :=
  (h.revisionsOf.getD path []).reverse

def source (h : MemoryHistory) : HistorySource Id where
  revisions path := .ok (h.revisions path)
  contentAt commit path :=
    match h.contents[(commit, path)]? with
    | some content => .ok content
    | none => .error (.missingSnapshot commit path)

end MemoryHistory
end SymbolHistory
