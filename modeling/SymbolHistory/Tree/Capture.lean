import SymbolHistory.Tree.Visit

namespace SymbolHistory

structure CaptureStep where
  kind : String
  /-- The field the child has to stand in; none for any. -/
  field : Option String := none

/-- A node kind to start from and the steps down to the captured node. -/
structure CapturePath where
  root : String
  steps : List CaptureStep

namespace CapturePath

def follow : List CaptureStep → Node → List Node
  | [], n => [n]
  | s :: rest, n =>
    (n.namedChildren.filter fun c =>
      c.kind == s.kind && (s.field.map (c.field == ·)).getD true).flatMap (follow rest)

def captures (p : CapturePath) (root : Node) : List Nat :=
  ((root.subtree.filter (·.kind == p.root)).flatMap (follow p.steps)).map (·.id)

end CapturePath
end SymbolHistory
