import SymbolHistory.History.Log
import SymbolHistory.Workspace

namespace SymbolHistory

structure CommandReply where
  output : Bytes := []
  complaint : Bytes := []
  succeeded : Bool := true

/-- Runs git in a directory. A fault means that it could not be started there. -/
abbrev GitRunner (m : Type → Type) :=
  (directory : String) → (arguments : List String) → m (Except ReadFault CommandReply)

namespace GitRunner

variable {m : Type → Type} [Monad m]

def ask (run : GitRunner m) (directory : String) (arguments : List String) :
    m (Except Error Bytes) := do
  match ← run directory arguments with
  | .error fault => return .error (.repository (.notStarted fault))
  | .ok reply =>
    if reply.succeeded then return .ok reply.output
    else
      let complaint := Text.trimmed (Text.decodeLossy reply.complaint)
      return .error (.repository (.failed arguments complaint))

end GitRunner

structure GitRepository where
  root : String

namespace GitRepository

variable {m : Type → Type} [Monad m]

def directoryOf (w : Workspace) (path : String) : String :=
  if w.isDirectory path then path
  else
    match Path.parent? path with
    | some parent => if parent.isEmpty then "." else parent
    | none => "."

def discover (w : Workspace) (run : GitRunner m) (path : String) :
    m (Except Error GitRepository) := do
  let reply ← run.ask (directoryOf w path) ["rev-parse", "--show-toplevel"]
  return reply.map fun output => ⟨Text.trimmed (Text.decodeLossy output)⟩

def relativePath (w : Workspace) (g : GitRepository) (path : String) : Except Error String := do
  let file ← (w.resolve path).mapError .read
  let root ← (w.resolve g.root).mapError .read
  match Path.relativeTo? root file with
  | some rel => .ok rel
  | none => .error (.repository (.outside file root))

/-- The fields of a commit in the log, each after its mark. -/
def logFormat : String := "--format=%x1e%H%x1f%an%x1f%at%x1f%s"

def revisions (g : GitRepository) (run : GitRunner m) (path : String) :
    m (Except Error (List Revision)) := do
  let reply ← run.ask g.root ["log", "--follow", "--name-only", logFormat, "--", path]
  return reply.map fun output => Log.parse (Text.decodeLossy output) path

/-- The content of a path at a commit; it is missing where git does not show it. -/
def contentAt (g : GitRepository) (run : GitRunner m) (commit path : String) :
    m (Except Error String) := do
  match ← run g.root ["show", commit ++ ":" ++ path] with
  | .error fault => return .error (.read fault)
  | .ok reply =>
    if reply.succeeded then return .ok (Text.decodeLossy reply.output)
    else return .error (.missingSnapshot commit path)

def source (g : GitRepository) (run : GitRunner m) : HistorySource m where
  revisions := g.revisions run
  contentAt := g.contentAt run

end GitRepository
end SymbolHistory
