import SymbolHistory.Language
import SymbolHistory.Text.Blank
import SymbolHistory.Text.Lines
import SymbolHistory.Text.Utf8

namespace SymbolHistory

structure PlainSource where
  path : String
  language : Language
  text : String
  /-- Why there is no syntax tree. -/
  reason : String
  deriving DecidableEq, Repr

/-- A line without its final carriage return, and where it lies in the text, in bytes. -/
structure SourceLine where
  text : List Char
  startByte : Nat
  endByte : Nat
  deriving DecidableEq, Repr

def sourceLinesFrom (offset : Nat) : List (List Char) → List SourceLine
  | [] => []
  | part :: rest =>
    ⟨Text.dropFinal '\r' part, offset, offset + Text.byteLength part⟩
      :: sourceLinesFrom (offset + Text.byteLength part + 1) rest

/-- The parts between line feeds, the last one included even if it is empty. -/
def PlainSource.lines (p : PlainSource) : List SourceLine :=
  sourceLinesFrom 0 (Text.pieces '\n' p.text.toList)

def indentation (line : List Char) : Nat := Text.byteLength (line.takeWhile Text.isBlank)

/-- The end of a block by braces, from line `i` on. The block that begins on line `start` ends
where as many braces are closed as opened; without an opening brace on its first line or the next
it is a single line. -/
def braceEndFrom (start i : Nat) (depth : Int) (opened : Bool) : List SourceLine → Nat
  | [] => i - 1
  | l :: rest =>
    let depth' := depth + l.text.count '\x7b' - l.text.count '\x7d'
    let opened' := opened || l.text.contains '\x7b'
    if opened' && depth' ≤ 0 then i
    else if !opened' && start < i then start
    else braceEndFrom start (i + 1) depth' opened' rest

/-- The end of a block by indentation, `last` being the last line known to be in it. Blank lines
decide nothing. -/
def indentEndFrom (base last i : Nat) : List SourceLine → Nat
  | [] => last
  | l :: rest =>
    if (Text.trim l.text).isEmpty then indentEndFrom base last (i + 1) rest
    else if indentation l.text ≤ base then last
    else indentEndFrom base i (i + 1) rest

def blockEnd (language : Language) (i : Nat) (lines : List SourceLine) : Nat :=
  match language, lines with
  | .python, l :: rest => indentEndFrom (indentation l.text) i (i + 1) rest
  | _, lines => braceEndFrom i i 0 false lines

end SymbolHistory
