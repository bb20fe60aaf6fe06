import SymbolHistory.Tree.Node

namespace SymbolHistory

/-- A node with the nodes around it; a walk goes through named children only, in preorder. -/
structure Visit where
  node : Node
  /-- The enclosing nodes, the innermost first. -/
  ancestors : List Node

mutual

/-- The visits of a node and of all below it. -/
def visitsUnder (ancestors : List Node) : Node → List Visit
  | ⟨id, kind, field, start, stop, named, missing, error, hasError, children⟩ =>
    let n : Node := ⟨id, kind, field, start, stop, named, missing, error, hasError, children⟩
    ⟨n, ancestors⟩ :: visitsOfNamed (n :: ancestors) children

def visitsOfNamed (ancestors : List Node) : List Node → List Visit
  | [] => []
  | n :: rest =>
    (if n.isNamed then visitsUnder ancestors n else []) ++ visitsOfNamed ancestors rest

end

mutual

def Node.subtree : Node → List Node
  | ⟨id, kind, field, start, stop, named, missing, error, hasError, children⟩ =>
    ⟨id, kind, field, start, stop, named, missing, error, hasError, children⟩
      :: subtrees children

def subtrees : List Node → List Node
  | [] => []
  | n :: rest => n.subtree ++ subtrees rest

end

def Node.visits (root : Node) : List Visit := visitsUnder [] root

namespace Visit

def parent? (v : Visit) : Option Node := v.ancestors.head?

def grandparent? (v : Visit) : Option Node := v.ancestors[1]?

def nearest? (v : Visit) (kinds : List String) : Option Node :=
  v.ancestors.find? fun a => kinds.contains a.kind

def isWithin (v : Visit) (kinds : List String) : Bool := (v.nearest? kinds).isSome

/-- Whether the node stands first in a field of its parent, which has this kind. -/
def isField (v : Visit) (kind field : String) : Bool :=
  match v.parent? with
  | some p => p.kind == kind && v.node.isIn field p
  | none => false

end Visit
end SymbolHistory
