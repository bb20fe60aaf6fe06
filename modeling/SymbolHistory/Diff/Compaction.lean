import SymbolHistory.Diff.Block

namespace SymbolHistory.Diff

variable {α : Type} [DecidableEq α]

/-- The equal lines that an insertion leaves behind below itself. -/
def leaveBelow (prev moving : Block) (s : Nat) : List Block → List Block
  | next :: after =>
    if next.tag = .equal then next.growStart s :: after
    else .equal (prev.oldEnd - s) (moving.newEnd - s) s :: next :: after
  | [] => [.equal (prev.oldEnd - s) (moving.newEnd - s) s]

def moveUpThrough (old new : List α) (before : List Block) (moving : Block)
    (after : List Block) : List Block × Block × List Block :=
  match before with
  | [] => ([], moving, after)
  | prev :: rest =>
    if prev.tag = .equal then
      let s := commonSuffix (prev.oldOf old) (moving.newOf new)
      have : s ≤ prev.oldLen :=
        Nat.le_trans (commonSuffix_le_left _ _) (prev.length_oldOf_le old)
      if s = 0 then
        if prev.isEmpty then moveUpThrough old new rest moving after
        else (prev :: rest, moving, after)
      else
        let after' := leaveBelow prev moving s after
        if (prev.cutEnd s).isEmpty then moveUpThrough old new rest (moving.moveUp s) after'
        else moveUpThrough old new (prev.cutEnd s :: rest) (moving.moveUp s) after'
    else if prev.tag = moving.tag then moveUpThrough old new rest (prev.absorb moving) after
    else moveUpThrough old new rest moving (prev :: after)
termination_by weigh before
decreasing_by
  all_goals simp_wf
  all_goals simp only [Block.weight, Block.cutEnd] at *
  all_goals omega

def leaveAbove (next moving : Block) (p : Nat) : List Block → List Block
  | prev :: before =>
    if prev.tag = .equal then prev.growEnd p :: before
    else .equal next.oldStart moving.newStart p :: prev :: before
  | [] => [.equal next.oldStart moving.newStart p]

def moveDownThrough (old new : List α) (before : List Block) (moving : Block)
    (after : List Block) : List Block × Block × List Block :=
  match after with
  | [] => (before, moving, [])
  | next :: rest =>
    if next.tag = .equal then
      let p := commonPrefix (next.oldOf old) (moving.newOf new)
      have : p ≤ next.oldLen :=
        Nat.le_trans (commonPrefix_le_left _ _) (next.length_oldOf_le old)
      if p = 0 then
        if next.isEmpty then moveDownThrough old new before moving rest
        else (before, moving, next :: rest)
      else
        let before' := leaveAbove next moving p before
        if (next.cutStart p).isEmpty then moveDownThrough old new before' (moving.moveDown p) rest
        else moveDownThrough old new before' (moving.moveDown p) (next.cutStart p :: rest)
    else if next.tag = moving.tag then moveDownThrough old new before (moving.absorb next) rest
    else moveDownThrough old new (next :: before) moving rest
termination_by weigh after
decreasing_by
  all_goals simp_wf
  all_goals simp only [Block.weight, Block.cutStart] at *
  all_goals omega

def settle (tag : BlockTag) (old new : List α) (before after : List Block) : Nat → List Block
  | 0 => before.reverse ++ after
  | fuel + 1 =>
    match after with
    | [] => before.reverse
    | b :: rest =>
      if b.tag = tag then
        let (before₁, b₁, after₁) := moveUpThrough old new before b rest
        let (before₂, b₂, after₂) := moveDownThrough old new before₁ b₁ after₁
        settle tag old new (b₂ :: before₂) after₂ fuel
      else settle tag old new (b :: before) rest fuel

/-- The script with its deletions and then its insertions moved as far up as they go and then as far
down. Blocks that pass each other keep their starts. -/
def compact (old new : List α) (bs : List Block) : List Block :=
  let bs₁ := settle .delete old new [] bs (weigh bs * weigh bs + 1)
  settle .insert old new [] bs₁ (weigh bs₁ * weigh bs₁ + 1)

end SymbolHistory.Diff
