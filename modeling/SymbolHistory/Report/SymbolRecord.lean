import SymbolHistory.Json.Basic
import SymbolHistory.Project

namespace SymbolHistory.Report

def symbolJson (source : String) (s : Symbol) : Json :=
  .record [("type", some (.str s.kind.name)), ("name", some (.str s.name)),
    ("startLine", some (.ofNat s.startLine)), ("endLine", some (.ofNat s.endLine)),
    ("content", some (.str (s.content source))), ("parent", s.parent.map .str),
    ("extends", s.base.map .str), ("lineCount", some (.ofNat s.lineCount))]

def symbolsJson (f : FileSymbols) : Json := .arr (f.symbols.map (symbolJson f.source))

def referenceFields (r : Reference) : List (String × Option Json) :=
  [("symbol", some (.str r.symbol)), ("line", some (.ofNat r.line)),
    ("context", r.context.map .str), ("usage", some (.str r.usage.name))]

def projectReferenceJson (r : ProjectReference) : Json :=
  .record (("file", some (.str r.file)) :: referenceFields r.reference)

def referencesJson (references : List ProjectReference) : Json :=
  .arr (references.map projectReferenceJson)

end SymbolHistory.Report
