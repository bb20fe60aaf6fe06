import SymbolHistory.Json.Parser
import SymbolHistory.Text.Utf8

namespace SymbolHistory.Json

def string? : Json → Option String
  | str s => some s
  | _ => none

def bool? : Json → Option Bool
  | bool b => some b
  | _ => none

def nat? : Json → Option Nat
  | int n => if 0 ≤ n then some n.toNat else none
  | _ => none

def items : Json → List Json
  | arr vs => vs
  | _ => []

def members : Json → List (String × Json)
  | obj fields => fields
  | _ => []

/-- The value of a key that is there and not null. -/
def present? (key : String) (j : Json) : Option Json :=
  match j.field? key with
  | some null => none
  | v => v

def text? (key : String) (j : Json) : Option String := (j.present? key).bind string?

def textOr (key fallback : String) (j : Json) : String := (j.text? key).getD fallback

def natOr (key : String) (fallback : Nat) (j : Json) : Nat :=
  ((j.present? key).bind nat?).getD fallback

def boolOr (key : String) (fallback : Bool) (j : Json) : Bool :=
  ((j.present? key).bind bool?).getD fallback

def itemsAt (key : String) (j : Json) : List Json := ((j.present? key).map items).getD []

def textsAt (key : String) (j : Json) : List String := (j.itemsAt key).filterMap string?

def hexBytes : List Char → Bytes
  | a :: b :: rest =>
    UInt8.ofNat ((hexValue? a).getD 0 * 16 + (hexValue? b).getD 0) :: hexBytes rest
  | _ => []

/-- Bytes given under `hex` by hexadecimal digits, or else under `text`. -/
def bytes (j : Json) : Bytes :=
  match j.text? "hex" with
  | some digits => hexBytes digits.toList
  | none => Text.encode (j.textOr "text" "")

end SymbolHistory.Json
