import SymbolHistory.Config
import SymbolHistory.Yaml.Document

namespace SymbolHistory

namespace Yaml

namespace Scalar

def isNothing (s : Scalar) : Bool := s.style = .plain && s.text.isEmpty

def typeTag (name : String) : Bytes := Text.encode ("tag:yaml.org,2002:" ++ name)

def isNullWord (s : Scalar) : Bool := ["~", "null", "Null", "NULL"].contains s.text

/-- Whether a scalar stands for a setting that is left out. Only a plain one can; one that is tagged
as such has to spell it. -/
def isNull? (s : Scalar) : Option Bool :=
  if s.style ≠ .plain then some false
  else
    match s.tag with
    | some t =>
      if t == typeTag "null" then if s.isNullWord then some true else none else some false
    | none => some (s.isNothing || s.isNullWord)

/-- The text of a scalar that can be of a type: a plain one, or literal lines tagged with it. -/
def typedText? (s : Scalar) (type : String) : Option String :=
  if s.style = .plain || (s.style = .literal && s.tag == some (typeTag type)) then some s.text
  else none

def bool? (s : Scalar) : Option Bool := do
  let text ← s.typedText? "bool"
  if ["true", "True", "TRUE"].contains text then some true
  else if ["false", "False", "FALSE"].contains text then some false
  else none

def radixNumber? (base : Nat) (digits : List Char) : Option Nat :=
  if digits.isEmpty then none
  else
    digits.foldl (fun acc c => do
      let n ← acc
      let d ← Json.hexValue? c
      if d < base then some (n * base + d) else none) (some 0)

/-- A whole number in decimal digits, which do not begin with a zero, or after a mark of its
base. -/
def natural? (s : Scalar) : Option Nat := do
  let text ← s.typedText? "int"
  let digits := match text.toList with
    | '+' :: rest => rest
    | rest => rest
  let n ← match digits with
    | '0' :: 'x' :: rest => radixNumber? 16 rest
    | '0' :: 'o' :: rest => radixNumber? 8 rest
    | '0' :: 'b' :: rest => radixNumber? 2 rest
    | '0' :: _ :: _ => none
    | rest => Decimal.natural? rest
  if n < Decimal.wordLimit 64 then some n else none

/-- A double precision number; one too large to be finite is none, but infinity has a name. -/
def real? (s : Scalar) : Option Binary64 := do
  let text ← s.typedText? "float"
  let unsigned ← match text.toList with
    | '+' :: '+' :: _ | '+' :: '-' :: _ => none
    | '+' :: rest => some (String.ofList rest)
    | _ => some text
  if [".inf", ".Inf", ".INF"].contains unsigned then some (.infinite false)
  else if ["-.inf", "-.Inf", "-.INF"].contains text then some (.infinite true)
  else if [".nan", ".NaN", ".NAN"].contains text then some .nan
  else
    match (Decimal.read? unsigned.toList).map Binary64.ofDecimal with
    | some (.finite s u) => some (.finite s u)
    | _ => none

end Scalar

namespace Document

variable (d : Document)

def scalar? (v : Node) : Option Scalar :=
  match d.follow? v with
  | some (.scalar s) => some s
  | _ => none

def text? (v : Node) : Option String := (d.scalar? v).map (·.text)

def entries? (v : Node) : Option (List (Node × Node)) :=
  match d.follow? v with
  | some (.mapping entries) => some entries
  | some (.scalar s) => if s.isNothing then some [] else none
  | _ => none

def items? (v : Node) : Option (List Node) :=
  match d.follow? v with
  | some (.sequence items) => some items
  | some (.scalar s) => if s.isNothing then some [] else none
  | _ => none

/-- The value under each of some known keys; other keys are passed over. Every key is a scalar, and
a known key stands there once at most. -/
def fields? (known : List String) (v : Node) : Option (String → Option Node) := do
  let entries ← d.entries? v
  let named ← entries.mapM fun (k, v) => (d.text? k).map fun key => (key, v)
  if known.all fun key => (named.filter (·.1 == key)).length ≤ 1 then
    some fun key => named.lookup key
  else none

def optional? {α : Type} (read : Node → Option α) : Option Node → Option (Option α)
  | none => some none
  | some v => do
    let isNull ← match d.scalar? v with
      | some s => s.isNull?
      | none => some false
    if isNull then some none else (read v).map some

def listed? {α : Type} (read : Node → Option (List α)) : Option Node → Option (List α)
  | none => some []
  | some v => read v

def texts? (v : Node) : Option (List String) := do (← d.items? v).mapM d.text?

def textPairs? (v : Node) : Option (List (String × String)) := do
  (← d.entries? v).mapM fun (k, v) => do return (← d.text? k, ← d.text? v)

def bool? (v : Node) : Option Bool := (d.scalar? v).bind Scalar.bool?

def natural? (v : Node) : Option Nat := (d.scalar? v).bind Scalar.natural?

def real? (v : Node) : Option Binary64 := (d.scalar? v).bind Scalar.real?

end Document
end Yaml

namespace Config

/-- Pairs in the order of their keys; of several pairs with one key the last stays. -/
def byKey (pairs : List (String × String)) : List (String × String) :=
  (distinctBy Prod.fst pairs.reverse).mergeSort fun a b => (compare a.1 b.1).isLE

def ofDocument? (d : Yaml.Document) : Option Config := do
  let top ← d.fields?
    ["excluded_paths", "include_hidden", "max_commits", "extensions", "parse", "report"] d.root
  let excludedPaths ← Yaml.Document.listed? d.texts? (top "excluded_paths")
  let includeHidden ← d.optional? d.bool? (top "include_hidden")
  let maxCommits ← d.optional? d.natural? (top "max_commits")
  let extensions ← Yaml.Document.listed? d.textPairs? (top "extensions")
  let parsing ← d.optional? (d.fields? ["error_tolerance"]) (top "parse")
  let reporting ← d.optional? (d.fields? ["shades", "newest_first"]) (top "report")
  let errorTolerance ← d.optional? d.real? (parsing.bind (· "error_tolerance"))
  let shades ← d.optional? d.natural? (reporting.bind (· "shades"))
  let newestFirst ← d.optional? d.bool? (reporting.bind (· "newest_first"))
  return {
    excludedPaths, includeHidden, maxCommits, extensions := byKey extensions
    errorTolerance, shades, newestFirst }

def parse (text : String) : Except ConfigFault Config :=
  match (Yaml.Document.parse? text).bind ofDocument? with
  | some c => c.check
  | none => .error .malformed

end Config
end SymbolHistory
