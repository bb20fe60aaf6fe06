import SymbolHistory.Diff.Script
import SymbolHistory.Text.Blank
import SymbolHistory.Text.Lines

namespace SymbolHistory.Diff

inductive LineComparison where
  | exact
  | ignoringBlanks
  deriving DecidableEq, Repr

/-- Lines are equal when their keys are. -/
def LineComparison.key : LineComparison → String → String
  | exact, line => line
  | ignoringBlanks, line => String.ofList (Text.withoutBlanks line.toList)

inductive HunkLine where
  | context (text : String)
  | removed (text : String)
  | added (text : String)
  deriving DecidableEq, Repr

def HunkLine.isContext : HunkLine → Bool
  | context _ => true
  | _ => false

structure Hunk where
  oldStart : Nat
  oldCount : Nat
  newStart : Nat
  newCount : Nat
  lines : List HunkLine
  deriving DecidableEq, Repr

def Hunk.header (h : Hunk) : String :=
  "@@ -" ++ toString h.oldStart ++ "," ++ toString h.oldCount ++ " +" ++ toString h.newStart ++ ","
    ++ toString h.newCount ++ " @@"

inductive ChangeKind where
  | add
  | delete
  deriving DecidableEq, Repr

def ChangeKind.name : ChangeKind → String
  | add => "add"
  | delete => "delete"

/-- One added or deleted line. A deletion carries its old line number, an addition its new one. -/
structure LineChange where
  kind : ChangeKind
  line : Nat
  content : String
  deriving DecidableEq, Repr

def blockLines (old new : List String) (b : Block) : List HunkLine :=
  match b.tag with
  | .equal => (b.oldOf old).map .context
  | .delete => (b.oldOf old).map .removed
  | .insert => (b.newOf new).map .added
  | .replace => (b.oldOf old).map .removed ++ (b.newOf new).map .added

/-- The hunk of a group of blocks: from the start of the first to the end of the last. A group
without a changed line gives none. -/
def hunkOfGroup (old new : List String) (group : List Block) : Option Hunk :=
  match group.head?, group.getLast? with
  | some first, some last =>
    let lines := group.flatMap (blockLines old new)
    if lines.all HunkLine.isContext then none
    else
      some {
        oldStart := first.oldStart + 1, oldCount := last.oldEnd - first.oldStart
        newStart := first.newStart + 1, newCount := last.newEnd - first.newStart
        lines }
  | _, _ => none

def hunksOfLines (mode : LineComparison) (old new : List String) : List Hunk :=
  (groups (script (old.map mode.key) (new.map mode.key))).filterMap (hunkOfGroup old new)

def hunks (old new : String) (mode : LineComparison) : List Hunk :=
  hunksOfLines mode (Text.linesOf old) (Text.linesOf new)

/-- The changes of a hunk body whose next lines are `oldLine` and `newLine`. -/
def changesFrom (oldLine newLine : Nat) : List HunkLine → List LineChange
  | [] => []
  | .removed t :: rest => ⟨.delete, oldLine, t⟩ :: changesFrom (oldLine + 1) newLine rest
  | .added t :: rest => ⟨.add, newLine, t⟩ :: changesFrom oldLine (newLine + 1) rest
  | .context _ :: rest => changesFrom (oldLine + 1) (newLine + 1) rest

def lineChanges (hs : List Hunk) : List LineChange :=
  hs.flatMap fun h => changesFrom h.oldStart h.newStart h.lines

def lineDiff (old new : String) (mode : LineComparison) : List LineChange :=
  lineChanges (hunks old new mode)

end SymbolHistory.Diff
