import SymbolHistory.Json.Basic

namespace SymbolHistory.Json

def isSpace (c : Char) : Bool := c == ' ' || c == '\n' || c == '\t' || c == '\r'

def skipSpace (s : List Char) : List Char := s.dropWhile isSpace

def hexValue? (c : Char) : Option Nat :=
  if '0' ≤ c ∧ c ≤ '9' then some (c.toNat - 48)
  else if 'a' ≤ c ∧ c ≤ 'f' then some (c.toNat - 87)
  else if 'A' ≤ c ∧ c ≤ 'F' then some (c.toNat - 55)
  else none

def hex4? (a b c d : Char) : Option Nat := do
  let a ← hexValue? a
  let b ← hexValue? b
  let c ← hexValue? c
  let d ← hexValue? d
  return ((a * 16 + b) * 16 + c) * 16 + d

/-- A unit of a string: a character, or half of a pair. -/
inductive StringUnit where
  | char (c : Char)
  | half (code : Nat)

def shortEscape? : Char → Option Char
  | '"' => some '"'
  | '\\' => some '\\'
  | '/' => some '/'
  | 'b' => some '\x08'
  | 'f' => some '\x0c'
  | 'n' => some '\n'
  | 'r' => some '\r'
  | 't' => some '\t'
  | _ => none

def unitOfCode (code : Nat) : StringUnit :=
  if 0xd800 ≤ code ∧ code < 0xe000 then .half code else .char (Char.ofNat code)

def units? : List Char → Option (List StringUnit × List Char)
  | [] => none
  | '"' :: rest => some ([], rest)
  | '\\' :: 'u' :: a :: b :: c :: d :: rest => do
    let code ← hex4? a b c d
    let (us, rest) ← units? rest
    return (unitOfCode code :: us, rest)
  | '\\' :: e :: rest => do
    let c ← shortEscape? e
    let (us, rest) ← units? rest
    return (.char c :: us, rest)
  | c :: rest =>
    if c.toNat < 0x20 || c == '\\' then none
    else do
      let (us, rest) ← units? rest
      return (.char c :: us, rest)

/-- The text of a list of units; none when a half stands alone. -/
def textOfUnits? : List StringUnit → Option (List Char)
  | [] => some []
  | .char c :: rest => (textOfUnits? rest).map (c :: ·)
  | .half hi :: .half lo :: rest =>
    if hi < 0xdc00 ∧ 0xdc00 ≤ lo then
      (textOfUnits? rest).map
        (Char.ofNat (0x10000 + (hi - 0xd800) * 0x400 + (lo - 0xdc00)) :: ·)
    else none
  | .half _ :: _ => none

def literal? (word : String) (v : Json) (s : List Char) : Option (Json × List Char) :=
  if word.toList.isPrefixOf s then some (v, s.drop word.length) else none

def fraction? : List Char → Option (List Char × List Char)
  | '.' :: rest =>
    let ds := rest.takeWhile Char.isDigit
    if ds.isEmpty then none else some (ds, rest.dropWhile Char.isDigit)
  | rest => some ([], rest)

def exponent? : List Char → Option (Option Int × List Char)
  | c :: rest =>
    if c == 'e' || c == 'E' then
      let (negative, rest) := match rest with
        | '-' :: r => (true, r)
        | '+' :: r => (false, r)
        | r => (false, r)
      let ds := rest.takeWhile Char.isDigit
      if ds.isEmpty then none
      else
        let n : Int := Decimal.ofDigits ds
        some (some (if negative then -n else n), rest.dropWhile Char.isDigit)
    else some (none, c :: rest)
  | [] => some (none, [])

def unsignedNumber? (negative : Bool) (s : List Char) : Option (Json × List Char) := do
  let ds := s.takeWhile Char.isDigit
  if ds.isEmpty || (ds.head? == some '0' && ds.length != 1) then none
  else
    let (frac, rest) ← fraction? (s.dropWhile Char.isDigit)
    let (exp, rest) ← exponent? rest
    if frac.isEmpty && exp.isNone && !(negative && ds == ['0']) then
      let n : Int := Decimal.ofDigits ds
      return (.int (if negative then -n else n), rest)
    else
      return (.real ⟨negative, Decimal.ofDigits (ds ++ frac), exp.getD 0 - frac.length⟩, rest)

def number? : List Char → Option (Json × List Char)
  | '-' :: rest => unsignedNumber? true rest
  | rest => unsignedNumber? false rest

def ofFields (fields : List (Option String × Json)) : Json :=
  match fields.mapM fun (k, v) => k.map (·, v) with
  | some fs => .obj fs
  | none => .unpaired

mutual

/-- A value at the start of the text. Each call consumes a character, so the length of the text
bounds the recursion. -/
def value? : Nat → List Char → Option (Json × List Char)
  | 0, _ => none
  | fuel + 1, s =>
    match s with
    | '\x7b' :: rest =>
      match skipSpace rest with
      | '\x7d' :: rest => some (.obj [], rest)
      | rest => (members? fuel rest).map fun (fs, rest) => (ofFields fs, rest)
    | '[' :: rest =>
      match skipSpace rest with
      | ']' :: rest => some (.arr [], rest)
      | rest => (items? fuel rest).map fun (vs, rest) => (.arr vs, rest)
    | '"' :: rest => do
      let (us, rest) ← units? rest
      return (((textOfUnits? us).map fun t => .str (String.ofList t)).getD .unpaired, rest)
    | 't' :: _ => literal? "true" (.bool true) s
    | 'f' :: _ => literal? "false" (.bool false) s
    | 'n' :: _ => literal? "null" .null s
    | s => number? s

def items? : Nat → List Char → Option (List Json × List Char)
  | 0, _ => none
  | fuel + 1, s => do
    let (v, rest) ← value? fuel (skipSpace s)
    match skipSpace rest with
    | ',' :: rest =>
      let (vs, rest) ← items? fuel rest
      return (v :: vs, rest)
    | ']' :: rest => return ([v], rest)
    | _ => none

def members? : Nat → List Char → Option (List (Option String × Json) × List Char)
  | 0, _ => none
  | fuel + 1, s => do
    match skipSpace s with
    | '"' :: rest =>
      let (us, rest) ← units? rest
      let key := (textOfUnits? us).map String.ofList
      match skipSpace rest with
      | ':' :: rest =>
        let (v, rest) ← value? fuel (skipSpace rest)
        match skipSpace rest with
        | ',' :: rest =>
          let (fs, rest) ← members? fuel rest
          return ((key, v) :: fs, rest)
        | '\x7d' :: rest => return ([(key, v)], rest)
        | _ => none
      | _ => none
    | _ => none

end

def parse? (text : String) : Option Json := do
  let s := text.toList
  let (v, rest) ← value? (2 * s.length + 1) (skipSpace s)
  if (skipSpace rest).isEmpty then some v else none

end SymbolHistory.Json
