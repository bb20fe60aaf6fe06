import SymbolHistory.Tree.Node

namespace SymbolHistory

structure NodeRow where
  kind : String
  field : String
  startByte : Nat
  endByte : Nat
  isNamed : Bool
  isMissing : Bool
  isError : Bool
  hasError : Bool
  childCount : Nat

def NodeRow.toNode (row : NodeRow) (id : Nat) (children : List Node) : Node where
  id := id
  kind := row.kind
  field := row.field
  startByte := row.startByte
  endByte := row.endByte
  isNamed := row.isNamed
  isMissing := row.isMissing
  isError := row.isError
  hasError := row.hasError
  children := children

/-- Reads `count` siblings with all below them, the first row having number `id`. -/
def siblings? : Nat → Nat → Nat → List NodeRow → Option (List Node × Nat × List NodeRow)
  | _, 0, id, rows => some ([], id, rows)
  | 0, _ + 1, _, _ => none
  | _ + 1, _ + 1, _, [] => none
  | fuel + 1, count + 1, id, row :: rows => do
    let (children, id', rows) ← siblings? fuel row.childCount (id + 1) rows
    let (more, id', rows) ← siblings? fuel count id' rows
    return (row.toNode id children :: more, id', rows)

def Node.ofRows? (rows : List NodeRow) : Option Node :=
  match siblings? (2 * rows.length) 1 0 rows with
  | some ([root], _, []) => some root
  | _ => none

end SymbolHistory
