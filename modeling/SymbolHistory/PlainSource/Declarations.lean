import SymbolHistory.Listing
import SymbolHistory.PlainSource.Forms

namespace SymbolHistory.PlainSource

/-- A class or function seen so far, with its first and last line from zero. -/
structure OpenBlock where
  name : String
  first : Nat
  last : Nat
  deriving DecidableEq, Repr

def OpenBlock.covers (b : OpenBlock) (i : Nat) : Bool := b.first < i && i ≤ b.last

/-- The classes and functions seen so far, the latest first. -/
structure Seen where
  classes : List OpenBlock := []
  functions : List OpenBlock := []
  deriving DecidableEq, Repr

/-- The class around a line that was opened last. -/
def Seen.classAround? (s : Seen) (i : Nat) : Option String :=
  (s.classes.find? (·.covers i)).map (·.name)

def Seen.isNested (s : Seen) (i : Nat) : Bool :=
  s.classes.any (·.covers i) || s.functions.any (·.covers i)

def Seen.after (s : Seen) (i last : Nat) : Option LineForm → Seen
  | some (.class name _) => { s with classes := ⟨name, i, last⟩ :: s.classes }
  | some (.routine _ name _ true) => { s with functions := ⟨name, i, last⟩ :: s.functions }
  | _ => s

/-- The end of the last of lines `i` to `last`, `lines` being those from `i` on. -/
def endByteOf (i last : Nat) (lines : List SourceLine) : Nat :=
  ((lines[last - i]?).map (·.endByte)).getD 0

def symbolAt (language : Language) (i last : Nat) (lines : List SourceLine) (nested : Bool)
    (name : String) (kind : SymbolKind) (parent base : Option String) : Symbol where
  name := name
  kind := kind
  startLine := i + 1
  endLine := last + 1
  language := language
  parent := parent
  base := base
  startByte := (lines.head?.map (·.startByte)).getD 0
  endByte := endByteOf i last lines
  topLevel := !nested

def symbolsOf (language : Language) (i : Nat) (lines : List SourceLine) (nested : Bool) :
    Option LineForm → List Symbol
  | some (.class name base) =>
    [symbolAt language i (blockEnd language i lines) lines nested name .class none base]
  | some (.routine kind name parent _) =>
    [symbolAt language i (blockEnd language i lines) lines nested name kind parent none]
  | some (.names kind names) =>
    names.map fun name => symbolAt language i i lines nested name kind none none
  | none => []

def declaredFrom (language : Language) (i : Nat) (seen : Seen) : List SourceLine → List Symbol
  | [] => []
  | l :: rest =>
    let nested := seen.isNested i
    let form := formOf language nested (seen.classAround? i) l.text
    symbolsOf language i (l :: rest) nested form
      ++ declaredFrom language (i + 1) (seen.after i (blockEnd language i (l :: rest)) form) rest

def declared (p : PlainSource) : List Symbol := declaredFrom p.language 0 {} p.lines

def symbols (p : PlainSource) (q : Query) : List Symbol := q.list p.declared

end SymbolHistory.PlainSource
