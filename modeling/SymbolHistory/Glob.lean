import SymbolHistory.Text.Lines
import SymbolHistory.Text.Utf8

namespace SymbolHistory

/-- One part of a pattern. Wildcards match bytes, and slashes too. -/
inductive GlobPart where
  | literal (c : Char)
  | anyByte
  | anyRun
  /-- Nothing, a slash, or whole directories. -/
  | leading
  /-- A slash and whatever follows. -/
  | trailing
  /-- A slash, or whole directories between two slashes. -/
  | between
  | oneOf (negated : Bool) (ranges : List (Char × Char))
  | choice (branches : List (List GlobPart))

abbrev Glob := List GlobPart

namespace GlobPart

def slash : UInt8 := 0x2f

/-- The byte ranges of a range of characters: a dash joins the bytes next to it. -/
def byteRanges (r : Char × Char) : List (UInt8 × UInt8) :=
  let single (bs : Bytes) := bs.map fun b => (b, b)
  let low := String.utf8EncodeChar r.1
  let high := String.utf8EncodeChar r.2
  if r.1 = r.2 then single low
  else
    match low.getLast?, high with
    | some a, b :: more => single low.dropLast ++ (a, b) :: single more
    | _, _ => []

def inRanges (ranges : List (Char × Char)) (b : UInt8) : Bool :=
  (ranges.flatMap byteRanges).any fun (low, high) => low ≤ b && b ≤ high

structure Rest where
  size : Nat
  bytes : Bytes

def Rest.of (s : Bytes) : Rest := ⟨s.length, s⟩

def Rest.tail (r : Rest) : Rest := ⟨r.size - 1, r.bytes.tail⟩

def tailsFrom (size : Nat) : Bytes → List Rest
  | [] => [⟨size, []⟩]
  | b :: rest => ⟨size, b :: rest⟩ :: tailsFrom (size - 1) rest

def Rest.tails (r : Rest) : List Rest := tailsFrom r.size r.bytes

def Rest.afterSlashes (r : Rest) : List Rest :=
  (r.tails.filter (·.bytes.head? == some slash)).map Rest.tail

/-- The rests of two lists, the longest first and each once. -/
def union : List Rest → List Rest → List Rest
  | [], bs => bs
  | as, [] => as
  | a :: as, b :: bs =>
    if b.size < a.size then a :: union as (b :: bs)
    else if a.size < b.size then b :: union (a :: as) bs
    else a :: union as bs
termination_by as bs => as.length + bs.length

mutual

def isBlank : GlobPart → Bool
  | choice branches => allBlank branches
  | _ => false

def areBlank : List GlobPart → Bool
  | [] => true
  | p :: rest => p.isBlank && areBlank rest

def allBlank : List (List GlobPart) → Bool
  | [] => true
  | b :: rest => areBlank b && allBlank rest

end

mutual

/-- What may be left after a part has matched the beginning of one of some rests, which come the
longest first and each once, as do those that are left. Blank branches of a choice do not count. -/
def rests : GlobPart → List Rest → List Rest
  | literal c, rs =>
    let bytes := String.utf8EncodeChar c
    (rs.filter fun r => bytes.isPrefixOf r.bytes).map fun r =>
      ⟨r.size - bytes.length, r.bytes.drop bytes.length⟩
  | anyByte, rs => (rs.filter fun r => !r.bytes.isEmpty).map Rest.tail
  | anyRun, rs => (rs.head?.map Rest.tails).getD []
  | leading, rs => union rs ((rs.head?.map Rest.afterSlashes).getD [])
  | trailing, rs =>
    ((rs.find? (·.bytes.head? == some slash)).map fun r => r.tail.tails).getD []
  | between, rs =>
    let after := (rs.filter (·.bytes.head? == some slash)).map Rest.tail
    union after ((after.head?.map Rest.afterSlashes).getD [])
  | oneOf negated ranges, rs =>
    (rs.filter fun r =>
      match r.bytes with
      | b :: _ => inRanges ranges b != negated
      | [] => false).map Rest.tail
  | choice branches, rs => if allBlank branches then rs else restsOfAny branches rs

def restsAfter : List GlobPart → List Rest → List Rest
  | [], rs => rs
  | p :: more, rs => restsAfter more (p.rests rs)

def restsOfAny : List (List GlobPart) → List Rest → List Rest
  | [], _ => []
  | b :: more, rs =>
    let here := if areBlank b then [] else restsAfter b rs
    union here (restsOfAny more rs)

end

def elementCount : GlobPart → Nat
  | literal c => (String.utf8EncodeChar c).length
  | trailing => 2
  | choice branches => if allBlank branches then 0 else 1
  | _ => 1

def filledCount (branches : List (List GlobPart)) : Nat := (branches.filter (!areBlank ·)).length

mutual

def depth : GlobPart → Nat
  | literal _ | anyByte => 0
  | anyRun | trailing => 1
  | leading | between => 4
  | oneOf _ ranges => if 1 < (ranges.flatMap byteRanges).length then 2 else 1
  | choice branches =>
    if allBlank branches then 0
    else (if 1 < filledCount branches then 2 else 1) + depthOfAny branches

def depthOf : List GlobPart → Nat
  | [] => 0
  | p :: rest => max p.depth (depthOf rest)

/-- How deep the deepest of some branches nests; several elements side by side are a level. -/
def depthOfAny : List (List GlobPart) → Nat
  | [] => 0
  | b :: rest =>
    let side := if 1 < b.foldl (fun n p => n + p.elementCount) 0 then 1 else 0
    max (if areBlank b then 0 else side + depthOf b) (depthOfAny rest)

end

def literal? : GlobPart → Option Char
  | literal c => some c
  | _ => none

end GlobPart

namespace Glob

def literals? (g : Glob) : Option (List Char) := g.mapM GlobPart.literal?

/-- Whether patterns of this form ask for the last characters of a path, whatever its names are. -/
def asksSuffix : Glob → Bool
  | .leading :: .anyRun :: rest | .anyRun :: rest =>
    match literals? rest with
    | some cs => cs ≠ ['.']
    | none => false
  | .leading :: rest =>
    match literals? rest with
    | some cs => cs.contains '/'
    | none => false
  | _ => false

def asksFinalDot (g : Glob) : Bool :=
  g.getLast?.bind GlobPart.literal? == some '.' && (literals? g).isNone && !g.asksSuffix

/-- Whether the last part of a path is `..`, which is no file name. -/
def endsUpward (path : String) : Bool := (Text.pieces '/' path.toList).getLast? == some ['.', '.']

def maxDepth : Nat := 250

def isTooDeep (g : Glob) : Bool := maxDepth < 1 + GlobPart.depthOf g

end Glob

/-- Whether a pattern matches a whole path. Leading directories alone match every path. -/
def Glob.matches (g : Glob) (path : String) : Bool :=
  match g with
  | [.leading] => true
  | _ =>
    !(g.asksFinalDot && endsUpward path)
      && (GlobPart.restsAfter g [.of (Text.encode path)]).any (·.bytes.isEmpty)

end SymbolHistory
