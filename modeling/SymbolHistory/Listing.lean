import SymbolHistory.Query

namespace SymbolHistory

namespace Symbol

def sort (symbols : List Symbol) : List Symbol :=
  symbols.mergeSort fun a b => (Symbol.order a b).isLE

def isRepeat (a b : Symbol) : Bool :=
  a.kind == b.kind && a.name == b.name && a.startByte == b.startByte

def dropRepeatsAfter (last : Symbol) : List Symbol → List Symbol
  | [] => []
  | s :: rest =>
    if s.isRepeat last then dropRepeatsAfter last rest else s :: dropRepeatsAfter s rest

def dropRepeats : List Symbol → List Symbol
  | [] => []
  | s :: rest => s :: dropRepeatsAfter s rest

/-- Drops symbols inside another one. An export wraps what it exports, so being inside an export
does not count. -/
def dropNested (symbols : List Symbol) : List Symbol :=
  symbols.filter fun s =>
    s.kind.outlivesNesting || !symbols.any fun t => t.kind != .export && s.isInside t

end Symbol

def Query.list (q : Query) (symbols : List Symbol) : List Symbol :=
  ((Symbol.dropNested (Symbol.dropRepeats (Symbol.sort symbols))).filter q.matches).map q.present

end SymbolHistory
