import SymbolHistory.Diff.Greedy
import SymbolHistory.Diff.Hunk
import SymbolHistory.History.Basic
import SymbolHistory.Number.Decimal
import SymbolHistory.Symbol

namespace SymbolHistory

structure Version where
  commit : Commit
  path : String
  startLine : Nat
  endLine : Nat
  content : String
  deriving DecidableEq, Repr

/-- The line changes from one retained version to the next, in the versions' own line numbers. -/
structure Transition where
  fromCommit : String
  toCommit : String
  changes : List Diff.LineChange
  deriving DecidableEq, Repr

/-- The retained versions of a symbol, the oldest first, and the transition to each but the
first. -/
structure VersionChain where
  identity : SymbolIdentity
  versions : List Version
  transitions : List Transition
  deriving DecidableEq, Repr

/-- The versions that stay after `anchor`, each with the transition that leads to it. -/
def retained (anchor : Version) : List Version → List (Transition × Version)
  | [] => []
  | v :: rest =>
    match Diff.lineDiff anchor.content v.content .ignoringBlanks with
    | [] => retained anchor rest
    | changes => (⟨anchor.commit.id, v.commit.id, changes⟩, v) :: retained v rest

namespace VersionChain

def build? (identity : SymbolIdentity) : List Version → Option VersionChain
  | [] => none
  | first :: rest =>
    let later := retained first rest
    some ⟨identity, first :: later.map (·.2), later.map (·.1)⟩

def final? (c : VersionChain) : Option Version := c.versions.getLast?

def steps (c : VersionChain) : List (Version × Option Transition) :=
  c.versions.zip (none :: c.transitions.map some)

def newestFirst (c : VersionChain) : List (Version × Option Transition) := c.steps.reverse

/-- The position of a version named by a prefix of its commit id, else by its number from one. -/
def find? (c : VersionChain) (selector : String) : Option Nat :=
  let s := Text.trim selector.toList
  if s.isEmpty then none
  else
    (c.versions.findIdx? fun v => s.isPrefixOf v.commit.id.toList).or
      (((Decimal.naturalBelow? (Decimal.wordLimit 64) s).filter fun n =>
        1 ≤ n && n ≤ c.versions.length).map (· - 1))

def compare? (c : VersionChain) (i j : Nat) : Option (List Diff.SideStep) := do
  let old ← c.versions[i]?
  let new ← c.versions[j]?
  return Diff.greedyTexts old.content new.content

end VersionChain
end SymbolHistory
