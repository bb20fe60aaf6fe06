import SymbolHistory.Diff.Block

namespace SymbolHistory.Diff

variable {α : Type} [DecidableEq α]

/-- Where diagonal `k` is entered, given the furthest points on `k + 1` and `k - 1` in the round
before; `none` where that round had no such diagonal. -/
def entry : Option Nat → Option Nat → Nat
  | some above, some below => if below < above then above else below + 1
  | some above, none => above
  | none, some below => below + 1
  | none, none => 0

def advance (xs ys : Array α) (k : Int) (x : Nat) : Nat :=
  let y := (x : Int) - k
  if 0 ≤ y then x + runFrom xs ys x y.toNat else x

structure Reach where
  diagonal : Int
  entered : Nat
  furthest : Nat

def roundFrom (xs ys : Array α) (k : Int) : List (Option Nat) → List (Option Nat) → List Reach
  | a :: above, b :: below =>
    let x := entry a b
    ⟨k, x, advance xs ys k x⟩ :: roundFrom xs ys (k - 2) above below
  | _, _ => []

/-- The points of round `d`: for each diagonal `d, d - 2, …, -d` the furthest one that `d` edits
reach. Before round zero one virtual point stands at the origin's upper diagonal. -/
def round (xs ys : Array α) (d : Nat) (previous : List Nat) : List Reach :=
  let known := previous.map some
  if d = 0 then roundFrom xs ys 0 known [none]
  else roundFrom xs ys d (none :: known) (known ++ [none])

def furthestOn (d : Nat) (points : Array Nat) (k : Int) : Nat :=
  points.getD ((d - k) / 2).toNat 0

/-- Whether a front of round `d` met the opposite one of round `e` on this diagonal, in lists of
lengths differing by `delta` of which the first has `n` elements. -/
def meets (n : Nat) (delta : Int) (e : Nat) (opposite : Array Nat) (r : Reach) : Bool :=
  (r.diagonal - delta).natAbs ≤ e
    && n ≤ r.furthest + furthestOn e opposite (delta - r.diagonal)

/-- The first meeting point from round `d` on, looking at most `fuel` rounds ahead. `forth` and
`back` are the fronts of the round before, and `sx` and `sy` the arrays in reverse. -/
def meetingFrom (xs ys sx sy : Array α) (d : Nat) (forth back : List Nat) :
    Nat → Option (Nat × Nat)
  | 0 => none
  | fuel + 1 =>
    let n := xs.size
    let m := ys.size
    let delta : Int := (n : Int) - m
    let odd := delta % 2 != 0
    let forthNow := round xs ys d forth
    match if odd && d != 0 then forthNow.find? (meets n delta (d - 1) back.toArray) else none with
    | some r => some (r.entered, ((r.entered : Int) - r.diagonal).toNat)
    | none =>
      let forth' := forthNow.map (·.furthest)
      let backNow := round sx sy d back
      match if odd then none else backNow.find? (meets n delta d forth'.toArray) with
      | some r => some (n - r.furthest, (m - ((r.furthest : Int) - r.diagonal)).toNat)
      | none => meetingFrom xs ys sx sy (d + 1) forth' (backNow.map (·.furthest)) fuel

def meeting (xs ys : List α) : Option (Nat × Nat) :=
  meetingFrom xs.toArray ys.toArray xs.reverse.toArray ys.reverse.toArray 0 [0] [0]
    ((xs.length + ys.length + 1) / 2 + 1)

def splitBlocks (i j : Nat) (xs ys : List α) : Nat → List Block
  | 0 => [.delete i xs.length j, .insert i j ys.length]
  | fuel + 1 =>
    let p := commonPrefix xs ys
    let xs₁ := xs.drop p
    let ys₁ := ys.drop p
    let s := commonSuffix xs₁ ys₁
    let xs₂ := xs₁.take (xs₁.length - s)
    let ys₂ := ys₁.take (ys₁.length - s)
    let i₁ := i + p
    let j₁ := j + p
    let inner :=
      if xs₂.isEmpty && ys₂.isEmpty then []
      else if ys₂.isEmpty then [.delete i₁ xs₂.length j₁]
      else if xs₂.isEmpty then [.insert i₁ j₁ ys₂.length]
      else
        match meeting xs₂ ys₂ with
        | some (x, y) =>
          splitBlocks i₁ j₁ (xs₂.take x) (ys₂.take y) fuel
            ++ splitBlocks (i₁ + x) (j₁ + y) (xs₂.drop x) (ys₂.drop y) fuel
        | none => [.delete i₁ xs₂.length j₁, .insert i₁ j₁ ys₂.length]
    (if p = 0 then [] else [.equal i j p]) ++ inner
      ++ (if s = 0 then [] else [.equal (i₁ + xs₂.length) (j₁ + ys₂.length) s])

def blocks (xs ys : List α) : List Block :=
  splitBlocks 0 0 xs ys (xs.length + ys.length + 1)

end SymbolHistory.Diff
