import SymbolHistory.Evolution.VersionChain
import SymbolHistory.SourceModel

namespace SymbolHistory

structure Timeline where
  path : String
  language : Language
  /-- How many snapshots were examined. -/
  snapshotCount : Nat
  /-- By identity. -/
  chains : List VersionChain
  deriving DecidableEq, Repr

def Snapshot.version (s : Snapshot) (symbol : Symbol) : Version where
  commit := s.commit
  path := s.path
  startLine := symbol.startLine
  endLine := symbol.endLine
  content := symbol.content s.content

namespace Timeline

/-- How the symbols of a text are found. -/
structure Reader where
  parser : Grammar.Parser
  language : Language
  query : Query
  tolerance : Binary64

/-- The versions that a snapshot contributes, one for each identity. -/
def versionsIn (r : Reader) (s : Snapshot) : List (SymbolIdentity × Version) :=
  let model := SourceModel.read r.parser r.language s.path (Text.encode s.content) r.tolerance
  distinctBy Prod.fst
    ((model.symbols r.query).map fun symbol => (symbol.identity, s.version symbol))

def versions (r : Reader) (snapshots : List Snapshot) : List (SymbolIdentity × Version) :=
  snapshots.flatMap (versionsIn r)

def identities (vs : List (SymbolIdentity × Version)) : List SymbolIdentity :=
  distinctBy id ((vs.map Prod.fst).mergeSort fun a b => (SymbolIdentity.order a b).isLE)

def versionsOf (identity : SymbolIdentity) (vs : List (SymbolIdentity × Version)) : List Version :=
  (vs.filter (·.1 == identity)).map Prod.snd

def chainsOf (vs : List (SymbolIdentity × Version)) : List VersionChain :=
  (identities vs).filterMap fun i => VersionChain.build? i (versionsOf i vs)

def build (r : Reader) (path : String) (snapshots : List Snapshot) : Timeline where
  path := path
  language := r.language
  snapshotCount := snapshots.length
  chains := chainsOf (versions r snapshots)

def chainsNamed (t : Timeline) (name : String) : List VersionChain :=
  t.chains.filter (·.identity.name == name)

end Timeline
end SymbolHistory
