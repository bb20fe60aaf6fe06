import SymbolHistory.Config
import SymbolHistory.Workspace

namespace SymbolHistory

structure Project where
  workspace : Workspace
  parser : Grammar.Parser
  config : Config
  excluded : List Glob
  /-- The directory of the project, absolute. -/
  base : String

structure FileSymbols where
  /-- As seen from the project. -/
  path : String
  language : Language
  symbols : List Symbol
  source : String
  /-- Whether the file was read as plain text. -/
  isPlain : Bool

structure ProjectReference where
  file : String
  reference : Reference
  deriving DecidableEq, Repr

def ProjectReference.order : ProjectReference → ProjectReference → Ordering :=
  compareLex (compareOn file) <|
  compareLex (compareOn fun r => r.reference.line) (compareOn fun r => r.reference.symbol)

namespace Project

def «open» (w : Workspace) (parser : Grammar.Parser) (config : Config) (base : String) :
    Except Error Project :=
  match config.excluded with
  | .ok excluded => .ok ⟨w, parser, config, excluded, base⟩
  | .error fault => .error (.config fault)

/-- A path as seen from the project; one outside it stays as it is. -/
def relative (p : Project) (path : String) : String := (Path.relativeTo? p.base path).getD path

def languageOf (p : Project) (path : String) : Except Error Language :=
  match p.config.languageFor? path with
  | some l => .ok l
  | none => .error (.unsupportedLanguage path)

def model (p : Project) (l : Language) (path : String) (source : Bytes) : SourceModel :=
  SourceModel.read p.parser l path source p.config.tolerance

def symbolsOfText (p : Project) (l : Language) (path source : String) (q : Query) : List Symbol :=
  (p.model l path (Text.encode source)).symbols q

def symbolsIn (p : Project) (path : String) (q : Query) : Except Error FileSymbols := do
  let file := Path.under p.base path
  let l ← p.languageOf file
  let rel := p.relative file
  let source ← (p.workspace.readText file).mapError fun f => .extraction rel f.message
  let m := p.model l rel (Text.encode source)
  return ⟨rel, l, m.symbols q, source, m.isPlain⟩

def referencesIn (p : Project) (path : String) (symbols : List Symbol) :
    Except Error (List Reference) := do
  let file := Path.under p.base path
  let l ← p.languageOf file
  let rel := p.relative file
  let source ← (p.workspace.readBytes file).mapError fun f => .extraction rel f.message
  return (p.model l rel source).references symbols

def skippedDirectories : List String := ["node_modules", "vendor", "__pycache__", "target", "dist"]

def scans (p : Project) (name : String) (t : FileTree) : Bool :=
  (p.config.scansHidden || name.toList.head? != some '.')
    && !(t.isDirectory && skippedDirectories.contains name)

def isExcluded (p : Project) (path : String) : Bool := p.excluded.any (·.matches path)

def hasFamily (p : Project) (l : Language) (path : String) : Bool :=
  match p.config.languageFor? path with
  | some l' => l'.family == l.family
  | none => false

def absolute (p : Project) (rel : String) : String :=
  if rel.isEmpty then p.base else Path.under p.base rel

def files (p : Project) (l : Language) : List String :=
  match p.workspace.locate p.base with
  | .error _ => []
  | .ok (_, t) =>
    ((t.filesBelow p.scans).map (Text.joinWith "/")).filter fun rel =>
      !p.isExcluded rel && p.hasFamily l (p.absolute rel)

/-- The references of one scanned file; a file that cannot be read has none. -/
def fileReferences (p : Project) (symbols : List Symbol) (rel : String) : List ProjectReference :=
  match p.referencesIn (p.absolute rel) symbols with
  | .ok references => references.map (⟨rel, ·⟩)
  | .error _ => []

def referencesAmong (p : Project) (symbols : List Symbol) (files : List String) :
    List ProjectReference :=
  (files.flatMap (p.fileReferences symbols)).mergeSort fun a b =>
    (ProjectReference.order a b).isLE

def references (p : Project) (symbols : List Symbol) (l : Language) : List ProjectReference :=
  p.referencesAmong symbols (p.files l)

end Project
end SymbolHistory
