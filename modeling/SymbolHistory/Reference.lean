import SymbolHistory.Symbol

namespace SymbolHistory

inductive Usage where
  | call
  | instantiation
  | «import»
  | inheritance
  | plain
  deriving DecidableEq, Repr

namespace Usage

def rank : Usage → Nat
  | call => 0
  | instantiation => 1
  | «import» => 2
  | inheritance => 3
  | plain => 4

def name : Usage → String
  | call => "call"
  | instantiation => "instantiation"
  | «import» => "import"
  | inheritance => "inheritance"
  | plain => "reference"

end Usage

structure Reference where
  symbol : String
  line : Nat
  /-- The enclosing `Class.method` or function; absent at module level. -/
  context : Option String
  usage : Usage
  deriving DecidableEq, Repr

namespace Reference

/-- Listing order: by line, then by symbol, then by usage. -/
def order : Reference → Reference → Ordering :=
  compareLex (compareOn line) <|
  compareLex (compareOn symbol) (compareOn fun r => r.usage.rank)

end Reference
end SymbolHistory
