import SymbolHistory.Text.Utf8

namespace SymbolHistory

structure Node where
  /-- The position in the preorder listing of the tree; it tells nodes apart. -/
  id : Nat
  kind : String
  /-- The field in the parent, empty for none. -/
  field : String
  startByte : Nat
  endByte : Nat
  isNamed : Bool
  /-- Inserted by the parser where the source has nothing. -/
  isMissing : Bool
  /-- Source that the grammar could not read. -/
  isError : Bool
  /-- Whether the node or something in it is missing or an error. -/
  hasError : Bool
  children : List Node
  deriving Repr

namespace Node

def same (a b : Node) : Bool := a.id == b.id

def namedChildren (n : Node) : List Node := n.children.filter (·.isNamed)

def child? (n : Node) (field : String) : Option Node := n.children.find? (·.field == field)

def isIn (n : Node) (field : String) (parent : Node) : Bool :=
  ((parent.child? field).map n.same).getD false

def childOfKind? (n : Node) (kind : String) : Option Node :=
  n.namedChildren.find? (·.kind == kind)

def childrenOfKind (n : Node) (kind : String) : List Node :=
  n.namedChildren.filter (·.kind == kind)

/-- The source text of a node, empty where it is no text. -/
def text (source : Bytes) (n : Node) : String :=
  (Text.decode? ((source.drop n.startByte).take (n.endByte - n.startByte))).getD ""

def fieldText? (source : Bytes) (n : Node) (field : String) : Option String :=
  (n.child? field).map (text source)

end Node

/-- The line, from one, on which a byte of a source stands. -/
def lineAt (source : Bytes) (byte : Nat) : Nat := (source.take byte).count 10 + 1

end SymbolHistory
