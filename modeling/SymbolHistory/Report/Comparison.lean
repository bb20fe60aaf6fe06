import SymbolHistory.Report.ChainRecord

namespace SymbolHistory.Report

structure Comparison where
  identity : SymbolIdentity
  old : Version
  new : Version
  steps : List Diff.SideStep
  deriving DecidableEq, Repr

def comparison? (c : VersionChain) (i j : Nat) : Option Comparison := do
  let old ← c.versions[i]?
  let new ← c.versions[j]?
  let steps ← c.compare? i j
  return ⟨c.identity, old, new, steps⟩

def Comparison.toJson (c : Comparison) : Json :=
  .obj (identityFields c.identity ++ [("fromCommit", .str c.old.commit.id),
    ("toCommit", .str c.new.commit.id), ("ops", .arr (c.steps.map sideStepJson))])

end SymbolHistory.Report
