import SymbolHistory.Rules.JavaScript
import SymbolHistory.Rules.PowerShell
import SymbolHistory.Rules.Python
import SymbolHistory.Rules.R
import SymbolHistory.Rules.Shell

namespace SymbolHistory

def Language.rules : Language → Rules
  | .javaScript | .typeScript => Rules.javaScript
  | .python => Rules.python
  | .shell => Rules.shell
  | .powerShell => Rules.powerShell
  | .r => Rules.r

end SymbolHistory
