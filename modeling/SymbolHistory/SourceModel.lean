import SymbolHistory.Error
import SymbolHistory.ParsedSource.References
import SymbolHistory.PlainSource.References
import SymbolHistory.Tree.Damage

namespace SymbolHistory

inductive SourceModel where
  | parsed (p : ParsedSource)
  | plain (p : PlainSource)

def defaultTolerance : Binary64 := .ofRatio false 1 4

/-- The least damaged of some trees, the earliest among equals. -/
def leastDamaged (best : Grammar × Node) : List (Grammar × Node) → Grammar × Node
  | [] => best
  | t :: rest => leastDamaged (if Binary64.lt t.2.damage best.2.damage then t else best) rest

def damageReason (damage tolerance : Binary64) : String :=
  "syntax errors cover " ++ String.ofList (damage.percent.fixed 0) ++ "% of the file (tolerance "
    ++ String.ofList (tolerance.percent.fixed 0) ++ "%)"

namespace SourceModel

def isPlain : SourceModel → Bool
  | plain _ => true
  | parsed _ => false

def ofReason (language : Language) (path : String) (source : Bytes) (reason : String) :
    SourceModel :=
  .plain ⟨path, language, Text.decodeLossy source, (Error.parse path reason).message⟩

/-- The first tree without damage; else the least damaged one, if its damage is tolerated; else the
plain text. -/
def ofTrees (language : Language) (path : String) (source : Bytes) (tolerance : Binary64)
    (trees : List (Grammar × Node)) : SourceModel :=
  match trees.find? fun t => !t.2.hasError, trees with
  | some (g, t), _ => .parsed ⟨t, source, path, language, g, false⟩
  | none, [] => ofReason language path source "no grammar variant produced a tree"
  | none, first :: rest =>
    let (g, t) := leastDamaged first rest
    if Binary64.le t.damage tolerance then .parsed ⟨t, source, path, language, g, true⟩
    else ofReason language path source (damageReason t.damage tolerance)

def read (parser : Grammar.Parser) (language : Language) (path : String) (source : Bytes)
    (tolerance : Binary64) : SourceModel :=
  ofTrees language path source tolerance
    (language.grammars.filterMap fun g => (parser g source).map (g, ·))

def symbols : SourceModel → Query → List Symbol
  | parsed p, q => p.symbols q
  | plain p, q => p.symbols q

def references : SourceModel → List Symbol → List Reference
  | parsed p, symbols => p.references symbols
  | plain p, symbols => p.references symbols

end SourceModel
end SymbolHistory
