import SymbolHistory.Distinct
import SymbolHistory.ParsedSource

namespace SymbolHistory

structure Target where
  name : String
  kind : SymbolKind
  deriving DecidableEq, Repr

def Symbol.target (s : Symbol) : Target := ⟨s.bareName, s.kind⟩

def targets (symbols : List Symbol) : List Target := distinctBy id (symbols.map Symbol.target)

def Language.nameKey (l : Language) (name : String) : String :=
  if l.ignoresCase then Text.loweredAscii name else name

/-- The context of a use, from the nodes around it. The innermost function gives the name; the
first class outside it qualifies that name. Outside every function, and in a class that comes before
every function, there is no context. -/
def contextFrom (frame? : Node → Option Node → Option Frame) (function : Option String) :
    List Node → Option String
  | [] => function
  | a :: rest =>
    match frame? a rest.head? with
    | some (.class c) => function.map fun f => c ++ "." ++ f
    | some (.function f) => contextFrom frame? (function.or (some f)) rest
    | none => contextFrom frame? function rest

inductive Occurrence where
  | declared (symbol : String) (line : Nat)
  | used (r : Reference)
  deriving DecidableEq, Repr

def Occurrence.use? : Occurrence → Option Reference
  | used r => some r
  | declared .. => none

namespace ParsedSource

def contextOf (p : ParsedSource) (v : Visit) : Option String :=
  contextFrom (p.language.rules.frame? p.source) none v.ancestors

def importedNames (p : ParsedSource) : List Nat :=
  p.language.rules.imports.flatMap (·.captures p.tree)

def verdict (p : ParsedSource) (imported : List Nat) (v : Visit) (t : Target) : Verdict :=
  if imported.contains v.node.id then .use .import
  else p.language.rules.verdict p.source t.kind v

def occurrence? (p : ParsedSource) (imported : List Nat) (v : Visit) (t : Target) :
    Option Occurrence :=
  let line := lineAt p.source v.node.startByte
  match p.verdict imported v t with
  | .declaration => some (.declared t.name line)
  | .use usage => some (.used ⟨t.name, line, p.contextOf v, usage⟩)
  | .ignored => none

def named (p : ParsedSource) (ts : List Target) (v : Visit) : List Target :=
  if p.language.rules.isNameKind v.node.kind then
    let key := p.language.nameKey (p.language.rules.nameOf p.source v.node)
    ts.filter fun t => p.language.nameKey t.name == key
  else []

def occurrences (p : ParsedSource) (ts : List Target) : List Occurrence :=
  let imported := p.importedNames
  p.tree.visits.flatMap fun v => (p.named ts v).filterMap (p.occurrence? imported v)

/-- The references to a list of symbols: one for each symbol, line and usage, in listing order. -/
def references (p : ParsedSource) (symbols : List Symbol) : List Reference :=
  let found := p.occurrences (targets symbols)
  let uses := (found.filterMap Occurrence.use?).filter fun r =>
    !found.contains (.declared r.symbol r.line)
  (distinctBy (fun r => (r.symbol, r.line, r.usage)) uses).mergeSort fun a b =>
    (Reference.order a b).isLE

end ParsedSource
end SymbolHistory
