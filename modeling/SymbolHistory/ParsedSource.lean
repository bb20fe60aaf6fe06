import SymbolHistory.Grammar
import SymbolHistory.Listing
import SymbolHistory.Rules.OfLanguage

namespace SymbolHistory

structure ParsedSource where
  tree : Node
  source : Bytes
  path : String
  language : Language
  grammar : Grammar
  /-- Whether the tree has damage that was tolerated. -/
  recovered : Bool

def Declaration.toSymbol (d : Declaration) (source : Bytes) (language : Language)
    (topLevel : Bool) : Symbol where
  name := d.name
  kind := d.kind
  startLine := lineAt source d.span.startByte
  endLine := lineAt source d.span.endByte
  language := language
  parent := d.parent
  base := d.base
  startByte := d.span.startByte
  endByte := d.span.endByte
  topLevel := topLevel

namespace ParsedSource

/-- The symbols declared at one visit. A declaration is at top level when nothing around its node
opens a scope. -/
def declaredAt (p : ParsedSource) (v : Visit) : List Symbol :=
  let topLevel := !v.ancestors.any fun a => p.language.rules.opensScope a.kind
  (p.language.rules.declarations p.source v).map (·.toSymbol p.source p.language topLevel)

def declared (p : ParsedSource) : List Symbol := p.tree.visits.flatMap p.declaredAt

def symbols (p : ParsedSource) (q : Query) : List Symbol := q.list p.declared

end ParsedSource
end SymbolHistory
