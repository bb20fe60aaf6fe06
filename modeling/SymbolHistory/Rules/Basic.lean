import SymbolHistory.Reference
import SymbolHistory.Tree.Capture
import SymbolHistory.Tree.Visit

namespace SymbolHistory

/-- A declaration found at a node. -/
structure Declaration where
  name : String
  kind : SymbolKind
  /-- The node whose range the declaration covers. -/
  span : Node
  parent : Option String := none
  base : Option String := none

inductive Verdict where
  | declaration
  | use (usage : Usage)
  /-- Something that only looks like the name. -/
  | ignored
  deriving DecidableEq, Repr

/-- What a node adds to the context of what it encloses. -/
inductive Frame where
  | function (name : String)
  | «class» (name : String)
  deriving DecidableEq, Repr

structure Rules where
  /-- The declarations at a node. -/
  declarations : Bytes → Visit → List Declaration
  /-- Whether nodes of a kind open a class or function scope. -/
  opensScope : String → Bool
  /-- Whether nodes of a kind carry a name. -/
  isNameKind : String → Bool
  /-- The name that such a node carries. -/
  nameOf : Bytes → Node → String := fun source n => n.text source
  /-- What an occurrence of the name of a symbol of some kind is. -/
  verdict : Bytes → SymbolKind → Visit → Verdict
  /-- The frame of a node, given the node around it. -/
  frame? : Bytes → Node → Option Node → Option Frame
  /-- Where imported names stand. -/
  imports : List CapturePath := []

def SymbolKind.callUsage (k : SymbolKind) : Usage :=
  if k.isConstructible then .instantiation else .call

end SymbolHistory
