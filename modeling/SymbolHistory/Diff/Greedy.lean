import SymbolHistory.Text.Lines

namespace SymbolHistory.Diff

def lookahead : Nat := 5

/-- One step of a side-by-side comparison. Line numbers count from one. -/
inductive SideStep where
  | unchanged (oldLine newLine : Nat) (text : String)
  | added (newLine : Nat) (text : String)
  | removed (oldLine : Nat) (text : String)
  | modified (oldLine newLine : Nat) (old new : String)
  deriving DecidableEq, Repr

def SideStep.isUnchanged : SideStep → Bool
  | unchanged .. => true
  | _ => false

def addedFrom : Nat → List String → List SideStep
  | _, [] => []
  | line, t :: rest => .added line t :: addedFrom (line + 1) rest

def removedFrom : Nat → List String → List SideStep
  | _, [] => []
  | line, t :: rest => .removed line t :: removedFrom (line + 1) rest

/-- How many of the lines ahead come before the first one equal to `needle`. -/
def linesAhead? (needle : String) (ahead : List String) : Option Nat :=
  (ahead.take lookahead).findIdx? (· == needle)

def greedyFrom (i j : Nat) (old new : List String) : List SideStep :=
  match old, new with
  | [], new => addedFrom j new
  | old, [] => removedFrom i old
  | o :: os, n :: ns =>
    if o = n then .unchanged i j o :: greedyFrom (i + 1) (j + 1) os ns
    else
      match linesAhead? o ns with
      | some d =>
        addedFrom j (n :: ns.take d) ++
          .unchanged i (j + 1 + d) o :: greedyFrom (i + 1) (j + d + 2) os (ns.drop (d + 1))
      | none =>
        match linesAhead? n os with
        | some d =>
          removedFrom i (o :: os.take d) ++
            .unchanged (i + 1 + d) j n :: greedyFrom (i + d + 2) (j + 1) (os.drop (d + 1)) ns
        | none => .modified i j o n :: greedyFrom (i + 1) (j + 1) os ns
termination_by old.length + new.length
decreasing_by all_goals simp_wf; omega

/-- The side-by-side script of two lists of lines. Where they disagree, the nearest equal line
within the lookahead decides which side is skipped, so the script is local and not minimal. -/
def greedy (old new : List String) : List SideStep := greedyFrom 1 1 old new

def greedyTexts (old new : String) : List SideStep :=
  greedy (Text.linesOf old) (Text.linesOf new)

end SymbolHistory.Diff
