namespace SymbolHistory.Yaml

def isPrintable (c : Char) : Bool :=
  c == '\t' || c == '\n' || c == '\r' || (' ' ≤ c && c ≤ '~') || c == '\u0085'
    || ('\u00a0' ≤ c && c ≤ '\ufffd') || '\uffff' < c

def isBlank (c : Char) : Bool := c == ' ' || c == '\t'

def isBreak (c : Char) : Bool :=
  c == '\n' || c == '\r' || c == '\u0085' || c == '\u2028' || c == '\u2029'

def endsWord : List Char → Bool
  | [] => true
  | c :: _ => isBlank c || isBreak c

def byteOrderMark : Char := '\ufeff'

structure Place where
  rest : List Char
  /-- Bytes passed. -/
  offset : Nat := 0
  line : Nat := 0
  column : Nat := 0

namespace Place

def next? (p : Place) : Option Char := p.rest.head?

def isAtEnd (p : Place) : Bool := p.rest.isEmpty

def isAtBlank (p : Place) : Bool := (p.next?.map isBlank).getD false

def isAtBreak (p : Place) : Bool := (p.next?.map isBreak).getD false

def skip (p : Place) : Place :=
  match p.rest with
  | [] => p
  | c :: rest => { p with rest, offset := p.offset + c.utf8Size, column := p.column + 1 }

def skipMany : Nat → Place → Place
  | 0, p => p
  | n + 1, p => skipMany n p.skip

def takeWhile (p : Place) (f : Char → Bool) : List Char × Place :=
  let run := p.rest.takeWhile f
  (run, p.skipMany run.length)

def skipWhile (p : Place) (f : Char → Bool) : Place := (p.takeWhile f).2

/-- What a line break stands for in a text, and the place on the next line. -/
def takeBreak (p : Place) : List Char × Place :=
  match p.rest with
  | '\r' :: '\n' :: rest => (['\n'], ⟨rest, p.offset + 2, p.line + 1, 0⟩)
  | c :: rest =>
    if isBreak c then
      ([if c == '\u2028' || c == '\u2029' then c else '\n'],
        ⟨rest, p.offset + c.utf8Size, p.line + 1, 0⟩)
    else ([], p)
  | [] => ([], p)

def isAtMarker (p : Place) : Bool :=
  p.column == 0 && (["---", "..."].any fun m => m.toList.isPrefixOf p.rest)
    && endsWord (p.rest.drop 3)

/-- Past the blanks and the comment at the end of a line, and past the line; none where anything
else stands there. -/
def nextLine? (p : Place) : Option Place :=
  let p := p.skipWhile isBlank
  let p := if p.next? == some '#' then p.skipWhile (!isBreak ·) else p
  if p.isAtEnd || p.isAtBreak then some p.takeBreak.2 else none

/-- The next place that is neither blank nor comment, and whether a key may begin there. A new line
outside of flow collections may begin with a key. Where one may, tabs are no blanks. -/
def toToken (flow : Bool) : Nat → Bool → Place → Bool × Place
  | 0, keyAllowed, p => (keyAllowed, p)
  | fuel + 1, keyAllowed, p =>
    let p := if p.column == 0 && p.next? == some byteOrderMark then p.skip else p
    let p := p.skipWhile fun c => c == ' ' || (c == '\t' && (flow || !keyAllowed))
    let p := if p.next? == some '#' then p.skipWhile (!isBreak ·) else p
    if p.isAtBreak then toToken flow fuel (keyAllowed || !flow) p.takeBreak.2
    else (keyAllowed, p)

end Place
end SymbolHistory.Yaml
