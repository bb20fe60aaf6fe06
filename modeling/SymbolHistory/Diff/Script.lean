import SymbolHistory.Diff.Compaction
import SymbolHistory.Diff.MiddleSnake

namespace SymbolHistory.Diff

variable {α : Type} [DecidableEq α]

def pendingChange : Option Block → Option Block → List Block
  | some d, some i => [.replace d.oldStart d.oldLen i.newStart i.newLen]
  | some d, none => [d]
  | none, some i => [i]
  | none, none => []

def extend (pending : Option Block) (b : Block) : Option Block :=
  match pending with
  | some p => some (p.absorb b)
  | none => some b

def joinFrom (eq del ins : Option Block) : List Block → List Block
  | [] => eq.toList ++ pendingChange del ins
  | b :: rest =>
    match b.tag with
    | .equal => pendingChange del ins ++ joinFrom (extend eq b) none none rest
    | .insert => eq.toList ++ joinFrom none del (extend ins b) rest
    | _ => eq.toList ++ joinFrom none (extend del b) ins rest

/-- Joins neighbouring blocks: between two equal blocks there is one change. -/
def joinBlocks (bs : List Block) : List Block := joinFrom none none none bs

def script (old new : List α) : List Block := joinBlocks (compact old new (blocks old new))

def tailOf (b : Block) : Block := b.cutStart b.oldLen

def headOf (b : Block) : Block := b.cutEnd b.oldLen

def cutFirst : List Block → List Block
  | b :: rest => if b.tag = .equal then tailOf b :: rest else b :: rest
  | [] => []

def cutLast : List Block → List Block
  | [] => []
  | [b] => if b.tag = .equal then [headOf b] else [b]
  | b :: c :: rest => b :: cutLast (c :: rest)

def groupFrom (group : List Block) : List Block → List (List Block)
  | [] =>
    match group with
    | [] => []
    | [b] => if b.tag = .equal then [] else [[b]]
    | bs => [bs.reverse]
  | b :: rest =>
    if b.tag = .equal ∧ 0 < b.oldLen then
      (headOf b :: group).reverse :: groupFrom [tailOf b] rest
    else groupFrom (b :: group) rest

/-- The groups of changes of a script: its maximal stretches of changes, with an equal block of
length zero on either side where one stood. -/
def groups (bs : List Block) : List (List Block) := groupFrom [] (cutLast (cutFirst bs))

end SymbolHistory.Diff
