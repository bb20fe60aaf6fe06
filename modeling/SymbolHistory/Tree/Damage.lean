import SymbolHistory.Number.Binary64
import SymbolHistory.Tree.Node

namespace SymbolHistory

mutual

/-- Damaged bytes of a node. An error counts with all its bytes and nothing in it is counted again;
a subtree without the flag has no damage. -/
def Node.damagedBytes : Node → Nat
  | ⟨_, _, _, start, stop, _, missing, error, hasError, children⟩ =>
    if error then stop - start
    else if missing then 1
    else if !hasError then 0
    else damagedBytesOf children

def damagedBytesOf : List Node → Nat
  | [] => 0
  | n :: rest => n.damagedBytes + damagedBytesOf rest

end

def Node.damage (root : Node) : Binary64 :=
  let share := Binary64.ofRatio false root.damagedBytes (max (root.endByte - root.startByte) 1)
  if Binary64.le share .one then share else .one

end SymbolHistory
