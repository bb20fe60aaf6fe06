import SymbolHistory.Json.Parser
import SymbolHistory.Yaml.Place

namespace SymbolHistory.Yaml

inductive ScalarStyle where
  | plain
  | quoted
  | literal
  | folded
  deriving DecidableEq, Repr

abbrev Backward := List Char

def Backward.push (read : Backward) (s : List Char) : Backward := s.reverseAux read

structure Gap where
  /-- The blanks, the last first, where the line has not ended. -/
  blanks : Backward := []
  /-- The first line break, where there is one; an escaped one is empty. -/
  lineEnd : Option (List Char) := none
  /-- The breaks of further lines, the last first. -/
  breaks : Backward := []

namespace Gap

def crossesLine (g : Gap) : Bool := g.lineEnd.isSome

/-- What white space stands for: one line break is a space, and more are one break less. -/
def text (g : Gap) : List Char :=
  match g.lineEnd with
  | none => g.blanks.reverse
  | some ['\n'] => if g.breaks.isEmpty then [' '] else g.breaks.reverse
  | some s => s ++ g.breaks.reverse

/-- Reads white space on. None where a tab stands before the column `indent` of a further line. -/
def read? (indent : Nat) : Nat → Gap → Place → Option (Gap × Place)
  | 0, g, p => some (g, p)
  | fuel + 1, g, p =>
    match p.next? with
    | none => some (g, p)
    | some c =>
      if isBlank c then
        if g.crossesLine then
          if c == '\t' && p.column < indent then none else read? indent fuel g p.skip
        else read? indent fuel { g with blanks := c :: g.blanks } p.skip
      else if isBreak c then
        let (s, p) := p.takeBreak
        if g.crossesLine then read? indent fuel { g with breaks := g.breaks.push s } p
        else read? indent fuel { g with lineEnd := some s } p
      else some (g, p)

end Gap

def isFlowMark (c : Char) : Bool := [',', '[', ']', '\x7b', '\x7d'].contains c

/-- The characters of a plain scalar up to white space or a mark. In a flow collection a colon may
not stand before a mark. -/
def plainWord? (flow : Bool) : List Char → Option (List Char)
  | [] => some []
  | c :: rest =>
    if isBlank c || isBreak c then some []
    else if flow && c == ':' && (rest.head?.map fun d => isFlowMark d || d == '?').getD false then
      none
    else if (c == ':' && endsWord rest) || (flow && isFlowMark c) then some []
    else (plainWord? flow rest).map (c :: ·)

/-- Reads a plain scalar on whose further lines begin at `indent` or deeper. Yields also whether
the scalar ended on an earlier line. -/
def plainFrom? (flow : Bool) (indent : Nat) :
    Nat → Backward → Gap → Place → Option (List Char × Bool × Place)
  | 0, _, _, _ => none
  | fuel + 1, read, gap, p =>
    if p.isAtMarker || p.next? == some '#' then some (read.reverse, gap.crossesLine, p)
    else do
      let word ← plainWord? flow p.rest
      let (read, gap) :=
        if word.isEmpty then (read, gap) else ((read.push gap.text).push word, {})
      let p := p.skipMany word.length
      if p.isAtBlank || p.isAtBreak then
        let (gap, p) ← gap.read? indent fuel p
        if !flow && p.column < indent then some (read.reverse, gap.crossesLine, p)
        else plainFrom? flow indent fuel read gap p
      else some (read.reverse, gap.crossesLine, p)

def plain? (fuel : Nat) (flow : Bool) (indent : Nat) (p : Place) :
    Option (List Char × Bool × Place) :=
  plainFrom? flow indent fuel [] {} p

def escaped? : Char → Option Char
  | '0' => some '\x00'
  | 'a' => some '\x07'
  | 'b' => some '\x08'
  | 't' => some '\t'
  | '\t' => some '\t'
  | 'n' => some '\n'
  | 'v' => some '\x0b'
  | 'f' => some '\x0c'
  | 'r' => some '\r'
  | 'e' => some '\x1b'
  | ' ' => some ' '
  | '"' => some '"'
  | '/' => some '/'
  | '\\' => some '\\'
  | 'N' => some '\u0085'
  | '_' => some '\u00a0'
  | 'L' => some '\u2028'
  | 'P' => some '\u2029'
  | _ => none

def escapeWidth? : Char → Option Nat
  | 'x' => some 2
  | 'u' => some 4
  | 'U' => some 8
  | _ => none

def hexNumber? (digits : List Char) : Option Nat :=
  digits.foldl (fun acc c => do
    let n ← acc
    let d ← Json.hexValue? c
    return n * 16 + d) (some 0)

def charOf? (code : Nat) : Option Char := if code.isValidChar then some (Char.ofNat code) else none

def escape? : List Char → Option (Char × Nat)
  | [] => none
  | e :: rest =>
    match escapeWidth? e with
    | some width => do
      let digits := rest.take width
      if digits.length < width then none
      else return (← charOf? (← hexNumber? digits), width + 1)
    | none => (escaped? e).map (·, 1)

/-- Reads the characters of a quoted scalar up to white space or its quote, with escapes in double
quotes. Yields also whether an escaped line break was passed, which ends the characters. -/
def quotedWord? (double : Bool) : Nat → Backward → Place → Option (Backward × Bool × Place)
  | 0, _, _ => none
  | fuel + 1, read, p =>
    match p.rest with
    | [] => some (read, false, p)
    | c :: rest =>
      if isBlank c || isBreak c then some (read, false, p)
      else if double then
        if c == '"' then some (read, false, p)
        else if c == '\\' then
          if (rest.head?.map isBreak).getD false then some (read, true, p.skip.takeBreak.2)
          else do
            let (d, size) ← escape? rest
            quotedWord? double fuel (d :: read) (p.skipMany (size + 1))
        else quotedWord? double fuel (c :: read) p.skip
      else if c == '\'' then
        if rest.head? == some '\'' then quotedWord? double fuel (c :: read) (p.skipMany 2)
        else some (read, false, p)
      else quotedWord? double fuel (c :: read) p.skip

def quotedFrom? (double : Bool) : Nat → Backward → Place → Option (List Char × Place)
  | 0, _, _ => none
  | fuel + 1, read, p =>
    if p.isAtMarker || p.isAtEnd then none
    else do
      let (read, escaped, p) ← quotedWord? double (fuel + 1) read p
      if p.next? == some (if double then '"' else '\'') then some (read.reverse, p.skip)
      else
        let gap : Gap := { lineEnd := if escaped then some [] else none }
        let (gap, p) ← gap.read? 0 fuel p
        quotedFrom? double fuel (read.push gap.text) p

def quoted? (fuel : Nat) (p : Place) : Option (List Char × Place) :=
  quotedFrom? (p.next? == some '"') fuel [] p.skip

inductive Chomping where
  | strip
  | clip
  | keep
  deriving DecidableEq, Repr

def chomping? : Char → Option Chomping
  | '-' => some .strip
  | '+' => some .keep
  | _ => none

def increment? (c : Char) : Option Nat :=
  if '1' ≤ c && c ≤ '9' then some (c.toNat - '0'.toNat) else none

def blockMarks (s : List Char) : Chomping × Option Nat × Nat :=
  match s.head?.bind chomping?, s.head?.bind increment? with
  | some chomping, _ =>
    match s.tail.head?.bind increment? with
    | some n => (chomping, some n, 2)
    | none => (chomping, none, 1)
  | none, some n =>
    match s.tail.head?.bind chomping? with
    | some chomping => (chomping, some n, 2)
    | none => (.clip, some n, 1)
  | none, none => (.clip, none, 0)

/-- Reads empty lines up to a line with text. Yields their breaks, the deepest column reached and
the place. Spaces are passed up to the column `indent`, where it is known, and no tab may stand
before it. -/
def emptyLines? (indent : Option Nat) :
    Nat → Backward → Nat → Place → Option (Backward × Nat × Place)
  | 0, _, _, _ => none
  | fuel + 1, breaks, deepest, p =>
    let spaces := (p.rest.takeWhile (· == ' ')).length
    let p := p.skipMany ((indent.map fun n => min spaces (n - p.column)).getD spaces)
    let deepest := max deepest p.column
    if p.next? == some '\t' && (indent.map fun n => decide (p.column < n)).getD true then none
    else if p.isAtBreak then
      let (s, p) := p.takeBreak
      emptyLines? indent fuel (breaks.push s) deepest p
    else some (breaks, deepest, p)

/-- Text of a block scalar: the lines so far, the break after the last of them and the breaks of
the empty lines that follow, the last character first in each. -/
structure BlockText where
  lines : Backward := []
  lineEnd : List Char := []
  breaks : Backward := []
  /-- Whether the last line begins with a blank. -/
  isBlank : Bool := false

/-- The text with a further line. In folded text a break between two lines that begin without a
blank is a space, or nothing where empty lines lie between. -/
def BlockText.add (t : BlockText) (folded : Bool) (line : List Char) : BlockText :=
  let blank := (line.head?.map Yaml.isBlank).getD false
  let joint :=
    if folded && t.lineEnd == ['\n'] && !t.isBlank && !blank then
      if t.breaks.isEmpty then [' '] else []
    else t.lineEnd
  { lines := ((t.lines.push joint).push t.breaks.reverse).push line, isBlank := blank }

def BlockText.text (t : BlockText) (chomping : Chomping) : List Char :=
  let kept := if chomping = .strip then t.lines else t.lines.push t.lineEnd
  (if chomping = .keep then kept.push t.breaks.reverse else kept).reverse

def blockLines? (folded : Bool) (indent : Nat) :
    Nat → BlockText → Place → Option (BlockText × Place)
  | 0, _, _ => none
  | fuel + 1, t, p =>
    if p.column ≠ indent || p.isAtEnd then some (t, p)
    else do
      let (line, p) := p.takeWhile (!isBreak ·)
      let (lineEnd, p) := p.takeBreak
      let (breaks, _, p) ← emptyLines? (some indent) (fuel + 1) [] 0 p
      blockLines? folded indent fuel { t.add folded line with lineEnd, breaks } p

/-- A block scalar at its sign, in a collection at the column `parent`. Where no mark gives the
depth of its lines, they are as deep as the deepest of the empty lines and the line after them. -/
def block? (fuel : Nat) (parent : Option Nat) (p : Place) : Option (List Char × Place) := do
  let folded := p.next? == some '>'
  let (chomping, increment, size) := blockMarks p.rest.tail
  let p ← (p.skipMany (size + 1)).nextLine?
  let given := increment.map (parent.getD 0 + ·)
  let (breaks, deepest, p) ← emptyLines? given fuel [] 0 p
  let indent := given.getD (max deepest (max ((parent.map (· + 1)).getD 0) 1))
  let (t, p) ← blockLines? folded indent fuel { breaks } p
  return (t.text chomping, p)

end SymbolHistory.Yaml
