import SymbolHistory.Language
import SymbolHistory.Tree.Node

namespace SymbolHistory

inductive Grammar where
  | javascript
  | typescript
  | tsx
  | python
  | bash
  | powershell
  | r
  deriving DecidableEq, Repr

namespace Grammar

def name : Grammar → String
  | javascript => "javascript"
  | typescript => "typescript"
  | tsx => "tsx"
  | python => "python"
  | bash => "bash"
  | powershell => "powershell"
  | r => "r"

/-- A parser for every grammar; none where it yields no tree. -/
abbrev Parser := Grammar → Bytes → Option Node

end Grammar

/-- The grammars of a language in the order they are tried. The two script languages share theirs,
so a file of one that uses the syntax of the other still gets a tree. -/
def Language.grammars : Language → List Grammar
  | .javaScript => [.javascript, .typescript, .tsx]
  | .typeScript => [.typescript, .tsx, .javascript]
  | .python => [.python]
  | .shell => [.bash]
  | .powerShell => [.powershell]
  | .r => [.r]

end SymbolHistory
