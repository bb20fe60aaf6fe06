import SymbolHistory.Diff.CommonRun

namespace SymbolHistory.Diff

inductive BlockTag where
  | equal
  | delete
  | insert
  | replace
  deriving DecidableEq, Repr

/-- A range of the old list beside a range of the new one: a deletion has an empty new range, an
insertion an empty old one. -/
structure Block where
  tag : BlockTag
  oldStart : Nat
  oldLen : Nat
  newStart : Nat
  newLen : Nat
  deriving DecidableEq, Repr

namespace Block

def equal (oldStart newStart len : Nat) : Block := ⟨.equal, oldStart, len, newStart, len⟩

def delete (oldStart oldLen newStart : Nat) : Block := ⟨.delete, oldStart, oldLen, newStart, 0⟩

def insert (oldStart newStart newLen : Nat) : Block := ⟨.insert, oldStart, 0, newStart, newLen⟩

def replace (oldStart oldLen newStart newLen : Nat) : Block :=
  ⟨.replace, oldStart, oldLen, newStart, newLen⟩

def oldEnd (b : Block) : Nat := b.oldStart + b.oldLen

def newEnd (b : Block) : Nat := b.newStart + b.newLen

def isEmpty (b : Block) : Bool := b.oldLen == 0 && b.newLen == 0

def oldOf {α : Type} (b : Block) (old : List α) : List α := (old.drop b.oldStart).take b.oldLen

def newOf {α : Type} (b : Block) (new : List α) : List α := (new.drop b.newStart).take b.newLen

theorem length_oldOf_le {α : Type} (b : Block) (old : List α) :
    (b.oldOf old).length ≤ b.oldLen := by
  simp only [oldOf, List.length_take]
  omega

def moveUp (b : Block) (n : Nat) : Block :=
  { b with oldStart := b.oldStart - n, newStart := b.newStart - n }

def moveDown (b : Block) (n : Nat) : Block :=
  { b with oldStart := b.oldStart + n, newStart := b.newStart + n }

def cutEnd (b : Block) (n : Nat) : Block :=
  { b with oldLen := b.oldLen - n, newLen := b.newLen - n }

def cutStart (b : Block) (n : Nat) : Block :=
  { b with
    oldStart := b.oldStart + n, newStart := b.newStart + n
    oldLen := b.oldLen - n, newLen := b.newLen - n }

def growEnd (b : Block) (n : Nat) : Block :=
  { b with oldLen := b.oldLen + n, newLen := b.newLen + n }

def growStart (b : Block) (n : Nat) : Block :=
  { b with
    oldStart := b.oldStart - n, newStart := b.newStart - n
    oldLen := b.oldLen + n, newLen := b.newLen + n }

/-- A deletion or insertion extended by the lengths of one of the same kind. -/
def absorb (b c : Block) : Block :=
  { b with oldLen := b.oldLen + c.oldLen, newLen := b.newLen + c.newLen }

/-- Lines and one more, so that removing or shortening a block makes a list of blocks lighter. -/
def weight (b : Block) : Nat := b.oldLen + b.newLen + 1

end Block

def weigh : List Block → Nat
  | [] => 0
  | b :: bs => b.weight + weigh bs

@[simp] theorem weigh_cons (b : Block) (bs : List Block) :
    weigh (b :: bs) = b.weight + weigh bs := rfl

end SymbolHistory.Diff
