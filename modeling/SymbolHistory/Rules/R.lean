import SymbolHistory.ConstantName
import SymbolHistory.Rules.Basic

namespace SymbolHistory.Rules.R

/-- An assignment by an arrow, which points at the assigned name, or by an equals sign. -/
structure Assignment where
  name : Node
  value : Node
  /-- Whether it assigns outside the current function. -/
  outward : Bool

def assignment? (n : Node) : Option Assignment :=
  if n.kind != "binary_operator" then none
  else do
    let operator ← n.child? "operator"
    let lhs ← n.child? "lhs"
    let rhs ← n.child? "rhs"
    match operator.kind with
    | "<-" | "=" | ":=" => some ⟨lhs, rhs, false⟩
    | "<<-" => some ⟨lhs, rhs, true⟩
    | "->" => some ⟨rhs, lhs, false⟩
    | "->>" => some ⟨rhs, lhs, true⟩
    | _ => none

def assignedByCall? (source : Bytes) (n : Node) : Option String := do
  let function ← n.child? "function"
  if function.text source != "assign" then none
  else
    let arguments ← n.child? "arguments"
    let first ← arguments.childOfKind? "argument"
    let value ← first.child? "value"
    if value.kind != "string" then none
    else
      some (String.ofList (Text.trimBy (fun c => c == '"' || c == '\'') (value.text source).toList))

def isConstantName (name : String) : Bool :=
  match name.toList with
  | [] => false
  | c :: rest => c.isUpper && rest.all fun d => d.isUpper || d.isDigit || d == '_' || d == '.'

def declarations (source : Bytes) (v : Visit) : List Declaration :=
  let n := v.node
  match n.kind with
  | "binary_operator" =>
    match assignment? n with
    | some a =>
      if a.name.kind != "identifier" then []
      else
        let name := a.name.text source
        if a.value.kind == "function_definition" then [⟨name, .function, n, none, none⟩]
        else if a.outward then [⟨name, .global, n, none, none⟩]
        else if isConstantName name && !isNoiseName name && !v.isWithin ["function_definition"] then
          [⟨name, .constant, n, none, none⟩]
        else []
    | none => []
  | "call" =>
    ((assignedByCall? source n).map fun name => ⟨name, .global, n, none, none⟩).toList
  | _ => []

def verdict (_ : Bytes) (kind : SymbolKind) (v : Visit) : Verdict :=
  match v.parent? with
  | none => .use .plain
  | some p =>
    match (assignment? p).filter (·.name.same v.node) with
    | some a =>
      if !v.isWithin ["function_definition"] || a.outward then .declaration else .use .plain
    | none =>
      if v.isField "call" "function" then .use kind.callUsage
      else if v.isField "namespace_operator" "rhs" then
        match v.grandparent? with
        | some g =>
          if g.kind == "call" && p.isIn "function" g then .use kind.callUsage else .use .plain
        | none => .use .plain
      else if v.isField "argument" "name" || v.isField "parameter" "name" then .ignored
      else .use .plain

/-- A function is named by the assignment it is the value of. -/
def frame? (source : Bytes) (n : Node) (outer : Option Node) : Option Frame :=
  if n.kind != "function_definition" then none
  else
    ((outer.bind assignment?).filter (·.value.same n)).map fun a =>
      .function (a.name.text source)

end R

def r : Rules where
  declarations := R.declarations
  opensScope kind := kind == "function_definition"
  isNameKind kind := kind == "identifier"
  verdict := R.verdict
  frame? := R.frame?

end SymbolHistory.Rules
