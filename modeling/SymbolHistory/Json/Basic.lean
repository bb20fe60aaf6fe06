import SymbolHistory.Number.Decimal

namespace SymbolHistory

/-- Numbers written without a point and an exponent are whole; any other keeps its decimal digits.
Objects keep the order and the repetitions of their keys. -/
inductive Json where
  | null
  | bool (b : Bool)
  | int (n : Int)
  | real (d : Decimal)
  | str (s : String)
  /-- A string, or an object with a key, whose escapes hold an unpaired surrogate: well-formed
  JSON that has no text. -/
  | unpaired
  | arr (items : List Json)
  | obj (fields : List (String × Json))
  deriving Repr

namespace Json

def field? (key : String) : Json → Option Json
  | obj fields => (fields.find? (·.1 == key)).map (·.2)
  | _ => none

def ofNat (n : Nat) : Json := .int n

def ofOption {α : Type} (f : α → Json) : Option α → Json
  | some a => f a
  | none => .null

def strings (ss : List String) : Json := .arr (ss.map .str)

/-- An object whose absent fields are left out. -/
def record (fields : List (String × Option Json)) : Json :=
  .obj (fields.filterMap fun (k, v) => v.map (k, ·))

end Json
end SymbolHistory
