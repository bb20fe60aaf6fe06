import SymbolHistory.Text.LetterCase

namespace SymbolHistory

def scratchNames : List String := ["i", "j", "k", "idx", "index", "temp", "tmp"]

/-- Whether a name is too noisy to be reported as a constant. -/
def isNoiseName (name : String) : Bool :=
  let cs := name.toList
  cs.isEmpty || cs.head? == some '_'
    || scratchNames.any (Text.sameIgnoringAsciiCase · name)
    || (cs.length == 1 && cs.all Text.isLowercase)
    || (cs.length ≤ 2 && cs.any fun c => !Text.isUppercase c)

end SymbolHistory
