import SymbolHistory.Language
import SymbolHistory.Text.Blank
import SymbolHistory.Text.Lines

namespace SymbolHistory

inductive SymbolKind where
  | «class»
  | function
  | method
  | constant
  | global
  | export
  | interface
  | field
  | constructor
  deriving DecidableEq, Repr

namespace SymbolKind

def all : List SymbolKind :=
  [«class», function, method, constant, global, «export», interface, field, constructor]

def rank : SymbolKind → Nat
  | «class» => 0
  | function => 1
  | method => 2
  | constant => 3
  | global => 4
  | «export» => 5
  | interface => 6
  | field => 7
  | constructor => 8

theorem rank_injective {a b : SymbolKind} (h : a.rank = b.rank) : a = b := by
  cases a <;> cases b <;> first | rfl | (simp [rank] at h)

def name : SymbolKind → String
  | «class» => "class"
  | function => "function"
  | method => "method"
  | constant => "constant"
  | global => "global"
  | «export» => "export"
  | interface => "interface"
  | field => "field"
  | constructor => "constructor"

def ofName? : String → Option SymbolKind
  | "class" => some «class»
  | "function" | "func" => some function
  | "method" => some method
  | "constant" | "const" => some constant
  | "global" => some global
  | "export" => some «export»
  | "interface" => some interface
  | "field" => some field
  | "constructor" => some constructor
  | _ => none

def before? (suffix s : List Char) : Option String :=
  if suffix.isSuffixOf s then some (String.ofList (s.take (s.length - suffix.length))) else none

/-- Reads a kind, singular or plural, in any case and with surrounding blanks. -/
def parse? (s : String) : Option SymbolKind :=
  let lower := Text.lowerAscii (Text.trim s.toList)
  ((ofName? (String.ofList lower)).or ((before? ['e', 's'] lower).bind ofName?)).or
    ((before? ['s'] lower).bind ofName?)

/-- Kinds that stay in a listing even inside another symbol. A global binds at module scope
wherever its declaring statement stands. -/
def outlivesNesting : SymbolKind → Bool
  | method | «export» | global => true
  | _ => false

def isConstructible (k : SymbolKind) : Bool := k == «class»

end SymbolKind

/-- A named element of a source file. Lines count from one, bytes from zero. -/
structure Symbol where
  name : String
  kind : SymbolKind
  startLine : Nat
  endLine : Nat
  language : Language
  /-- The enclosing class of a method. -/
  parent : Option String := none
  /-- The base class, where the declaration names one. -/
  base : Option String := none
  startByte : Nat
  endByte : Nat
  /-- Not nested in a class or function. -/
  topLevel : Bool := true
  deriving DecidableEq, Repr

/-- What makes two declarations versions of one symbol. -/
structure SymbolIdentity where
  name : String
  kind : SymbolKind
  deriving DecidableEq, Repr

namespace SymbolIdentity

def order : SymbolIdentity → SymbolIdentity → Ordering :=
  compareLex (compareOn name) (compareOn fun i => i.kind.rank)

instance : Std.TransCmp order := by
  unfold order
  infer_instance

theorem eq_of_order_eq {a b : SymbolIdentity} (h : order a b = .eq) : a = b := by
  obtain ⟨hname, hkind⟩ := compareLex_eq_eq.mp h
  have hname : a.name = b.name := Std.LawfulEqOrd.eq_of_compare hname
  have hkind : a.kind.rank = b.kind.rank := Std.LawfulEqOrd.eq_of_compare hkind
  cases a
  cases b
  cases hname
  cases SymbolKind.rank_injective hkind
  rfl

def describe (i : SymbolIdentity) : String := i.kind.name ++ " " ++ i.name

end SymbolIdentity

namespace Symbol

def identity (s : Symbol) : SymbolIdentity := ⟨s.name, s.kind⟩

def after? (start s : List Char) : Option (List Char) :=
  if start.isPrefixOf s then some (s.drop start.length) else none

/-- The name without a leading `Parent.`. -/
def bareName (s : Symbol) : String :=
  match s.parent with
  | none => s.name
  | some p =>
    match after? (p.toList ++ ['.']) s.name.toList with
    | some rest => String.ofList rest
    | none => s.name

def lineCount (s : Symbol) : Nat := s.endLine - s.startLine + 1

/-- Whether the byte span of `s` lies inside that of `t`, the two not being equal. -/
def isInside (s t : Symbol) : Bool :=
  !(s.startByte == t.startByte && s.endByte == t.endByte)
    && t.startByte ≤ s.startByte && s.endByte ≤ t.endByte

/-- The lines of a source that a span covers, joined by line feeds. -/
def content (s : Symbol) (source : String) : String :=
  Text.joinWith "\n" (((Text.linesOf source).drop (s.startLine - 1)).take s.lineCount)

def order : Symbol → Symbol → Ordering :=
  compareLex (compareOn startLine) <|
  compareLex (compareOn startByte) <|
  compareLex (compareOn endByte) <|
  compareLex (compareOn fun s => s.kind.rank) (compareOn name)

end Symbol
end SymbolHistory
