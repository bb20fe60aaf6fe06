import SymbolHistory.Distinct
import SymbolHistory.PlainSource.Declarations
import SymbolHistory.Reference

namespace SymbolHistory.PlainSource

def isNameChar (c : Char) : Bool := Text.isWordChar c || c == '$'

def isBoundary (c : Option Char) : Bool := (c.map fun c => !isNameChar c).getD true

def afterName? (same : Char → Char → Bool) : List Char → List Char → Option (List Char)
  | [], rest => some rest
  | _ :: _, [] => none
  | n :: name, c :: rest => if same n c then afterName? same name rest else none

/-- The text after a name that stands whole between `before`, in reverse, and what follows it. -/
def wholeAt? (same : Char → Char → Bool) (name before rest : List Char) : Option (List Char) :=
  (afterName? same name rest).filter fun after =>
    isBoundary before.head? && isBoundary after.head?

def wholeWordFrom? (same : Char → Char → Bool) (name before : List Char) :
    List Char → Option (List Char × List Char)
  | [] => (wholeAt? same name before []).map (before, ·)
  | c :: rest =>
    match wholeAt? same name before (c :: rest) with
    | some after => some (before, after)
    | none => wholeWordFrom? same name (c :: before) rest

def sameChar (language : Language) : Char → Char → Bool :=
  if language.ignoresCase then Text.eqFolded else (· == ·)

/-- The first whole occurrence of a name in a line: the text before it and after it. A name of any
length is searched for; there is no limit on its size, as a compiled pattern would have. -/
def wholeWord? (language : Language) (name line : List Char) : Option (List Char × List Char) :=
  (wholeWordFrom? (sameChar language) name [] line).map fun (before, after) =>
    (before.reverse, after)

def endsWith (s : List Char) (suffix : String) : Bool := suffix.toList.isSuffixOf s

def startsWith (s : List Char) (start : String) : Bool := start.toList.isPrefixOf s

def usageOf (kind : SymbolKind) (line before after : List Char) : Usage :=
  let before := Text.lowerAscii (Text.trimEnd before)
  let isClassHeader := startsWith (Text.lowerAscii (Text.trimStart line)) "class"
  if importForm.matchesStart line then .import
  else if endsWith before "new" || endsWith before "new-object" then .instantiation
  else if endsWith before "extends"
      || (isClassHeader && (endsWith before "(" || endsWith before ":")) then .inheritance
  else if startsWith (Text.trimStart after) "(" then
    if kind.isConstructible then .instantiation else .call
  else .plain

/-- The later of two declarations, the second on equal lines. -/
def laterOf (best : Option Symbol) (s : Symbol) : Option Symbol :=
  match best with
  | some b => if b.startLine ≤ s.startLine then some s else some b
  | none => some s

def contextAt (declared : List Symbol) (line : Nat) : Option String :=
  let around := declared.filter fun s =>
    (s.kind == .function || s.kind == .method) && s.startLine < line && line ≤ s.endLine
  (around.foldl laterOf none).map fun s =>
    match s.parent with
    | some p => p ++ "." ++ s.name
    | none => s.name

def sameName (language : Language) (a b : String) : Bool :=
  if language.ignoresCase then Text.sameIgnoringAsciiCase a b else a == b

def referenceOn? (language : Language) (declared : List Symbol) (name : String) (kind : SymbolKind)
    (number : Nat) (line : List Char) : Option Reference :=
  (wholeWord? language name.toList line).bind fun (before, after) =>
    if declared.any fun d => d.startLine == number && sameName language d.bareName name then none
    else some ⟨name, number, contextAt declared number, usageOf kind line before after⟩

def referencesFrom (language : Language) (declared : List Symbol) (name : String)
    (kind : SymbolKind) (number : Nat) : List SourceLine → List Reference
  | [] => []
  | l :: rest =>
    (referenceOn? language declared name kind number l.text).toList
      ++ referencesFrom language declared name kind (number + 1) rest

/-- The names of a list of symbols, each once, with the first of its kinds in listing order. -/
def namesOf (symbols : List Symbol) : List (String × SymbolKind) :=
  let identities := symbols.map fun s => (⟨s.bareName, s.kind⟩ : SymbolIdentity)
  (distinctBy SymbolIdentity.name
    (identities.mergeSort fun a b => (SymbolIdentity.order a b).isLE)).map fun i => (i.name, i.kind)

def references (p : PlainSource) (symbols : List Symbol) : List Reference :=
  let declared := p.declared
  let found := (namesOf symbols).flatMap fun (name, kind) =>
    referencesFrom p.language declared name kind 1 p.lines
  found.mergeSort fun a b => (Reference.order a b).isLE

end SymbolHistory.PlainSource
