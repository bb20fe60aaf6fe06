import SymbolHistory.Json.Basic
import SymbolHistory.Text.Lines

namespace SymbolHistory.Json

def hexDigit (n : Nat) : Char := (Nat.toDigits 16 n).headD '0'

def escapeChar (c : Char) : List Char :=
  match c with
  | '"' => ['\\', '"']
  | '\\' => ['\\', '\\']
  | '\n' => ['\\', 'n']
  | '\r' => ['\\', 'r']
  | '\t' => ['\\', 't']
  | '\x08' => ['\\', 'b']
  | '\x0c' => ['\\', 'f']
  | c =>
    if c.toNat < 0x20 then
      ['\\', 'u', '0', '0', hexDigit (c.toNat / 16), hexDigit (c.toNat % 16)]
    else [c]

def quote (s : String) : List Char := '"' :: s.toList.flatMap escapeChar ++ ['"']

def realText (d : Decimal) : List Char :=
  (if d.negative then ['-'] else []) ++ Decimal.digits d.coefficient ++ 'e' ::
    (toString d.exponent).toList

def scalarText : Json → List Char
  | null => ['n', 'u', 'l', 'l']
  | bool true => ['t', 'r', 'u', 'e']
  | bool false => ['f', 'a', 'l', 's', 'e']
  | int n => (toString n).toList
  | real d => realText d
  | str s => quote s
  | unpaired => quote "\ufffd"
  | arr _ => ['[', ']']
  | obj _ => ['\x7b', '\x7d']

mutual

def compact : Json → List Char
  | arr items => '[' :: Text.join [','] (compactItems items) ++ [']']
  | obj fields => '\x7b' :: Text.join [','] (compactFields fields) ++ ['\x7d']
  | v => scalarText v

def compactItems : List Json → List (List Char)
  | [] => []
  | v :: rest => compact v :: compactItems rest

def compactFields : List (String × Json) → List (List Char)
  | [] => []
  | (k, v) :: rest => (quote k ++ ':' :: compact v) :: compactFields rest

end

def newLine (depth : Nat) : List Char := '\n' :: List.replicate (2 * depth) ' '

def bracketed (opening closing : Char) (depth : Nat) (members : List (List Char)) : List Char :=
  opening :: newLine (depth + 1) ++ Text.join (',' :: newLine (depth + 1)) members
    ++ newLine depth ++ [closing]

mutual

/-- The value over several lines, the first at `depth`. -/
def indented (depth : Nat) : Json → List Char
  | arr (v :: vs) => bracketed '[' ']' depth (indentedItems (depth + 1) (v :: vs))
  | obj (f :: fs) => bracketed '\x7b' '\x7d' depth (indentedFields (depth + 1) (f :: fs))
  | v => scalarText v

def indentedItems (depth : Nat) : List Json → List (List Char)
  | [] => []
  | v :: rest => indented depth v :: indentedItems depth rest

def indentedFields (depth : Nat) : List (String × Json) → List (List Char)
  | [] => []
  | (k, v) :: rest => (quote k ++ ':' :: ' ' :: indented depth v) :: indentedFields depth rest

end

def render (v : Json) : String := String.ofList (compact v)

def pretty (v : Json) : String := String.ofList (indented 0 v)

end SymbolHistory.Json
