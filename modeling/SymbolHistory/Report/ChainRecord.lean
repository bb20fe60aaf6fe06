import SymbolHistory.Json.Basic
import SymbolHistory.Report.ViewLine

namespace SymbolHistory.Report

structure VersionRecord where
  version : Version
  /-- The changes that led to the version; absent on the oldest. -/
  changes : Option (List Diff.LineChange)
  /-- The shade of the transition that led to the version. -/
  shade : Option Nat
  deriving DecidableEq, Repr

structure ChainRecord where
  identity : SymbolIdentity
  versionCount : Nat
  versions : List VersionRecord
  compressed : CompressedView
  deriving DecidableEq, Repr

/-- The records of versions from position `i` on, `count` being the number of transitions. -/
def versionRecordsFrom (count shades i : Nat) :
    List (Version × Option Transition) → List VersionRecord
  | [] => []
  | (v, t) :: rest =>
    ⟨v, t.map (·.changes), if i = 0 then none else some (shadeOf (i - 1) count shades)⟩
      :: versionRecordsFrom count shades (i + 1) rest

def chainRecord (c : VersionChain) (newestFirst : Bool) (shades : Nat) : ChainRecord :=
  let versions := versionRecordsFrom c.transitions.length shades 0 c.steps
  { identity := c.identity
    versionCount := c.versions.length
    versions := if newestFirst then versions.reverse else versions
    compressed := .ofChain c }

def commitFields (c : Commit) : List (String × Json) :=
  [("commitId", .str c.id), ("author", .str c.author), ("timestamp", .int c.timestamp),
    ("message", .str c.message)]

def changeFields (c : Diff.LineChange) : List (String × Json) :=
  [("kind", .str c.kind.name), ("line", .ofNat c.line), ("content", .str c.content)]

def changeJson (c : Diff.LineChange) : Json := .obj (changeFields c)

def taggedJson (c : TaggedChange) : Json :=
  .obj (changeFields c.change ++ [("transition", .ofNat c.transition)])

def identityFields (i : SymbolIdentity) : List (String × Json) :=
  [("name", .str i.name), ("kind", .str i.kind.name)]

def viewJson (v : CompressedView) : Json :=
  .obj [
    ("finalLines", .strings v.finalLines),
    ("changesByLine",
      .obj (v.changesByLine.map fun h => (toString h.line, .arr (h.changes.map taggedJson)))),
    ("transitionCount", .ofNat v.transitionCount)]

def versionFields (v : Version) : List (String × Json) :=
  [("path", .str v.path), ("startLine", .ofNat v.startLine), ("endLine", .ofNat v.endLine),
    ("content", .str v.content)]

def VersionRecord.toJson (r : VersionRecord) : Json :=
  .obj (commitFields r.version.commit ++ versionFields r.version
    ++ (r.changes.map fun cs => ("changes", Json.arr (cs.map changeJson))).toList
    ++ (r.shade.map fun s => ("shade", Json.ofNat s)).toList)

def ChainRecord.toJson (r : ChainRecord) : Json :=
  .obj (identityFields r.identity ++ [
    ("versionCount", .ofNat r.versionCount),
    ("versions", .arr (r.versions.map VersionRecord.toJson)),
    ("compressed", viewJson r.compressed)])

def sideStepJson : Diff.SideStep → Json
  | .unchanged i j text =>
    .obj [("op", .str "unchanged"), ("oldLine", .ofNat i), ("newLine", .ofNat j),
      ("text", .str text)]
  | .added j text => .obj [("op", .str "added"), ("newLine", .ofNat j), ("text", .str text)]
  | .removed i text => .obj [("op", .str "removed"), ("oldLine", .ofNat i), ("text", .str text)]
  | .modified i j old new =>
    .obj [("op", .str "modified"), ("oldLine", .ofNat i), ("newLine", .ofNat j),
      ("old", .str old), ("new", .str new)]

end SymbolHistory.Report
