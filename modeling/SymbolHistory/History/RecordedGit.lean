import SymbolHistory.History.Git

namespace SymbolHistory

structure GitCall where
  directory : String
  arguments : List String
  deriving DecidableEq, Repr

structure RecordedGit where
  toplevel : Option CommandReply := none
  log : Option CommandReply := none
  /-- Contents by commit and path, with a colon between them. -/
  contents : List (String × CommandReply) := []

namespace RecordedGit

/-- The answer to a command; what was not recorded fails without a word. -/
def reply (g : RecordedGit) (arguments : List String) : CommandReply :=
  let recorded := match arguments with
    | "rev-parse" :: _ => g.toplevel
    | "log" :: _ => g.log
    | ["show", spec] => g.contents.lookup spec
    | _ => none
  recorded.getD { succeeded := false }

/-- Where a command is started: in a directory that exists, and without a zero in what it is
given. -/
def startedIn (w : Workspace) (directory : String) (arguments : List String) :
    Except ReadFault String :=
  if (directory :: arguments).any fun s => s.toList.contains '\x00' then .error .zeroInArgument
  else do
    let t ← w.find directory
    if t.isDirectory then w.resolve directory else .error .notDirectory

def runner (g : RecordedGit) (w : Workspace) : GitRunner (StateM (List GitCall)) :=
  fun directory arguments => do
    match startedIn w directory arguments with
    | .error fault => return .error fault
    | .ok directory =>
      modify (· ++ [⟨directory, arguments⟩])
      return .ok (g.reply arguments)

end RecordedGit
end SymbolHistory
