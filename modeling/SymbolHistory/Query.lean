import SymbolHistory.Symbol

namespace SymbolHistory

structure Query where
  /-- Kinds to keep; none listed means every kind. -/
  kinds : List SymbolKind := []
  /-- Kinds to leave out even if they are listed. -/
  exclusions : List SymbolKind := []
  /-- The exact name of a symbol. -/
  name : Option String := none
  /-- The name of a class: keeps classes of that name and members of it. -/
  className : Option String := none
  /-- The name of a base class. -/
  base : Option String := none
  topLevelOnly : Bool := false
  /-- Whether methods are renamed to `Parent.name`. -/
  qualifyMethods : Bool := false
  deriving DecidableEq, Repr

namespace Query

def everything : Query := {}

def wantsKind (q : Query) (k : SymbolKind) : Bool :=
  (q.kinds.isEmpty || q.kinds.contains k) && !q.exclusions.contains k

def matchesName (q : Query) (s : Symbol) : Bool :=
  match q.name with
  | some n => s.bareName == n || s.name == n
  | none => true

def matchesClass (q : Query) (s : Symbol) : Bool :=
  match q.className with
  | some c => (s.kind == .class && s.name == c) || s.parent == some c
  | none => true

def matchesBase (q : Query) (s : Symbol) : Bool :=
  match q.base with
  | some b => s.base == some b
  | none => true

def «matches» (q : Query) (s : Symbol) : Bool :=
  q.wantsKind s.kind && (!q.topLevelOnly || s.topLevel) && q.matchesName s && q.matchesClass s
    && q.matchesBase s

/-- The symbol as the query wants it named. -/
def present (q : Query) (s : Symbol) : Symbol :=
  match s.parent with
  | some p =>
    if q.qualifyMethods && s.kind == .method then { s with name := p ++ "." ++ s.name } else s
  | none => s

end Query
end SymbolHistory
