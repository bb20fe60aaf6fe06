import SymbolHistory.Error
import SymbolHistory.Json.Access
import SymbolHistory.Json.Parser
import SymbolHistory.Query

namespace SymbolHistory

namespace Json

/-- The values of the named fields of a record, in the order of the names. -/
def recordFields? (names : List String) : Json → Option (List (Option Json))
  | obj fields =>
    names.mapM fun n =>
      match fields.filter (·.1 == n) with
      | [] => some none
      | [(_, v)] => some (some v)
      | _ => none
  | arr items =>
    if names.length < items.length then none
    else some (items.map some ++ List.replicate (names.length - items.length) none)
  | _ => none

def stringList? : Json → Option (List String)
  | arr items => items.mapM string?
  | _ => none

def nullable? {α : Type} (read : Json → Option α) : Json → Option (Option α)
  | null => some none
  | v => (read v).map some

def fieldOr {α : Type} (default : α) (read : Json → Option α) : Option Json → Option α
  | none => some default
  | some v => read v

end Json

namespace Query

/-- A query as it is written, before its names are looked up. -/
structure Written where
  elements : List String := []
  exclusions : List String := []
  functionName : Option String := none
  className : Option String := none
  «extends» : Option String := none
  scope : Option String := none
  preserveContext : Bool := false

def filters? (v : Json) : Option (Option String × Option String × Option String) :=
  match Json.recordFields? ["FunctionName", "ClassName", "Extends"] v with
  | some [f, c, e] => do
    let f ← Json.fieldOr none (Json.nullable? Json.string?) f
    let c ← Json.fieldOr none (Json.nullable? Json.string?) c
    let e ← Json.fieldOr none (Json.nullable? Json.string?) e
    return (f, c, e)
  | _ => none

def written? (v : Json) : Option Written :=
  let names := ["Elements", "Exclusions", "Filters", "ScopeFilter", "PreserveContext"]
  match Json.recordFields? names v with
  | some [elements, exclusions, filters, scope, preserve] => do
    let elements ← Json.fieldOr [] Json.stringList? elements
    let exclusions ← Json.fieldOr [] Json.stringList? exclusions
    let (f, c, e) ← Json.fieldOr (none, none, none) filters? filters
    let scope ← Json.fieldOr none (Json.nullable? Json.string?) scope
    let preserve ← Json.fieldOr false Json.bool? preserve
    return ⟨elements, exclusions, f, c, e, scope, preserve⟩
  | _ => none

def kindsOf (names : List String) : Except QueryFault (List SymbolKind) :=
  names.mapM fun n =>
    match SymbolKind.parse? n with
    | some k => .ok k
    | none => .error (.unknownElement n)

def topLevelOnly? : Option String → Except QueryFault Bool
  | none | some "" => .ok false
  | some "top-level" | some "toplevel" | some "top_level" => .ok true
  | some other => .error (.unknownScope other)

def filterText (s : Option String) : Option String := s.filter (!·.isEmpty)

def ofWritten (w : Written) : Except QueryFault Query := do
  let topLevelOnly ← topLevelOnly? w.scope
  let wanted ← kindsOf w.elements
  let exclusions ← kindsOf w.exclusions
  return {
    kinds := wanted
    exclusions
    name := filterText w.functionName
    className := filterText w.className
    base := filterText w.extends
    topLevelOnly
    qualifyMethods := w.preserveContext }

def parse (text : String) : Except Error Query :=
  match (Json.parse? text).bind written? with
  | none => .error (.query .malformed)
  | some w =>
    match ofWritten w with
    | .ok q => .ok q
    | .error fault => .error (.query fault)

end Query
end SymbolHistory
