import SymbolHistory.ConstantName
import SymbolHistory.Rules.Basic

namespace SymbolHistory.Rules.Shell

/-- The kind of the names that a declaration command declares. -/
def declaredKind? (source : Bytes) (n : Node) : Option SymbolKind := do
  let keyword ← n.children.head?
  let flags := ((n.childrenOfKind "word").map fun w => (w.text source).toList).filter
    fun t => t.head? == some '-'
  let hasFlag (c : Char) := flags.any (·.contains c)
  match keyword.kind with
  | "readonly" => some .constant
  | "export" => some .global
  | "declare" | "typeset" =>
    if hasFlag 'r' then some .constant
    else if hasFlag 'x' || hasFlag 'g' then some .global
    else none
  | _ => none

def declaredName? (source : Bytes) (part : Node) : Option String :=
  match part.kind with
  | "variable_assignment" => part.fieldText? source "name"
  | "variable_name" => some (part.text source)
  | _ => none

def declarations (source : Bytes) (v : Visit) : List Declaration :=
  let n := v.node
  match n.kind with
  | "function_definition" =>
    ((n.fieldText? source "name").map fun name => ⟨name, .function, n, none, none⟩).toList
  | "declaration_command" =>
    match declaredKind? source n with
    | some kind =>
      if kind == .constant && v.isWithin ["function_definition"] then []
      else
        let names := n.namedChildren.filterMap (declaredName? source)
        (names.filter fun name => !(kind == .constant && isNoiseName name)).map fun name =>
          ⟨name, kind, n, none, none⟩
    | none => []
  | _ => []

def verdict (_ : Bytes) (_ : SymbolKind) (v : Visit) : Verdict :=
  match v.parent? with
  | none => .ignored
  | some p =>
    if v.isField "function_definition" "name" then .declaration
    else if v.node.kind == "word" then
      -- Words elsewhere are arguments and parts of strings.
      if p.kind == "command_name" then .use .call else .ignored
    else if p.kind == "declaration_command" then .declaration
    else if v.isField "variable_assignment" "name"
        && (v.grandparent?.map (·.kind == "declaration_command")).getD false then .declaration
    else .use .plain

def frame? (source : Bytes) (n : Node) (_ : Option Node) : Option Frame :=
  if n.kind == "function_definition" then (n.fieldText? source "name").map .function else none

end Shell

def shell : Rules where
  declarations := Shell.declarations
  opensScope kind := kind == "function_definition"
  isNameKind kind := kind == "word" || kind == "variable_name"
  verdict := Shell.verdict
  frame? := Shell.frame?

end SymbolHistory.Rules
