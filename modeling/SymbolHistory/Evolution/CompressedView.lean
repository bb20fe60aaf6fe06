import SymbolHistory.Evolution.VersionChain

namespace SymbolHistory

structure TaggedChange where
  change : Diff.LineChange
  transition : Nat
  deriving DecidableEq, Repr

structure LineHistory where
  line : Nat
  changes : List TaggedChange
  deriving DecidableEq, Repr

/-- The final text of a chain with every change, gathered at the line number that the change's own
transition gave it. Numbers are not carried over, so changes at one line may come from different
places. -/
structure CompressedView where
  finalLines : List String
  /-- Increasing by line; no entry is empty. -/
  changesByLine : List LineHistory
  transitionCount : Nat
  deriving DecidableEq, Repr

structure ViewRow where
  line : Nat
  text : Option String
  changes : List TaggedChange
  deriving DecidableEq, Repr

/-- Changes gathered by line, in order of lines; at one line their order stays. -/
def gatherByLine (changes : List TaggedChange) : List LineHistory :=
  let lines := ((changes.map (·.change.line)).mergeSort (· ≤ ·)).eraseDups
  lines.map fun n => ⟨n, changes.filter (·.change.line == n)⟩

def taggedFrom (first : Nat) : List Transition → List TaggedChange
  | [] => []
  | t :: rest => t.changes.map (⟨·, first⟩) ++ taggedFrom (first + 1) rest

namespace CompressedView

def ofChain (c : VersionChain) : CompressedView where
  finalLines := (c.final?.map fun v => Text.linesOf v.content).getD []
  changesByLine := gatherByLine (taggedFrom 0 c.transitions)
  transitionCount := c.transitions.length

def changesAt (v : CompressedView) (line : Nat) : List TaggedChange :=
  ((v.changesByLine.find? (·.line == line)).map (·.changes)).getD []

/-- The last line of the view: the final length, or the highest changed line if that is more. -/
def span (v : CompressedView) : Nat :=
  max v.finalLines.length ((v.changesByLine.getLast?.map (·.line)).getD 0)

def row? (v : CompressedView) (line : Nat) : Option ViewRow :=
  let text := v.finalLines[line - 1]?
  let changes := v.changesAt line
  if text.isNone && changes.isEmpty then none else some ⟨line, text, changes⟩

def rows (v : CompressedView) : List ViewRow := (List.range' 1 v.span).filterMap v.row?

end CompressedView
end SymbolHistory
