import SymbolHistory.ConstantName
import SymbolHistory.Distinct
import SymbolHistory.Rules.Basic

namespace SymbolHistory.Rules.Python

def scopeKinds : List String := ["class_definition", "function_definition"]

/-- A definition covers the decorators around it. -/
def spanOf (v : Visit) : Node :=
  (v.parent?.filter (·.kind == "decorated_definition")).getD v.node

/-- The first positional argument of a class definition. -/
def baseOf (source : Bytes) (cls : Node) : Option String := do
  let list ← cls.child? "superclasses"
  let first ← list.namedChildren.find? fun n =>
    n.kind != "keyword_argument" && n.kind != "comment"
  return first.text source

def isConstantName (name : String) : Bool :=
  match name.toList with
  | [] => false
  | c :: rest => c.isUpper && rest.all fun d => d.isUpper || d.isDigit || d == '_'

def globalsAt (source : Bytes) (v : Visit) : List (String × Node) :=
  if v.node.kind == "global_statement" then
    (v.node.childrenOfKind "identifier").map fun i => (i.text source, v.node)
  else []

/-- An assignment to a plain name outside every class and function, with the statement it is. -/
def assignmentAt (source : Bytes) (v : Visit) : Option (String × Node) :=
  if v.node.kind == "assignment" && !v.isWithin scopeKinds then
    ((v.node.child? "left").filter (·.kind == "identifier")).map fun left =>
      (left.text source, (v.parent?.filter (·.kind == "expression_statement")).getD v.node)
  else none

/-- Constants and globals of a module. A name of a global statement is declared where the module
assigns it; without such an assignment, by the first global statement that lists it. -/
def moduleDeclarations (source : Bytes) (module : Node) : List Declaration :=
  let visits := module.visits
  let globals := distinctBy Prod.fst (visits.flatMap (globalsAt source))
  let assignments := visits.filterMap (assignmentAt source)
  let isGlobal (name : String) := globals.any (·.1 == name)
  let isAssigned (name : String) := assignments.any (·.1 == name)
  assignments.filterMap (fun (name, span) =>
      if isGlobal name then some ⟨name, .global, span, none, none⟩
      else if isConstantName name && !isNoiseName name then
        some ⟨name, .constant, span, none, none⟩
      else none)
    ++ (globals.filter fun g => !isAssigned g.1).map fun (name, statement) =>
      ⟨name, .global, statement, none, none⟩

def declarations (source : Bytes) (v : Visit) : List Declaration :=
  let n := v.node
  match n.kind with
  | "class_definition" =>
    ((n.fieldText? source "name").map fun name =>
      ⟨name, .class, spanOf v, none, baseOf source n⟩).toList
  | "function_definition" =>
    ((n.fieldText? source "name").map fun name =>
      match (v.nearest? scopeKinds).filter (·.kind == "class_definition") with
      | some cls => ⟨name, .method, spanOf v, cls.fieldText? source "name", none⟩
      | none => ⟨name, .function, spanOf v, none, none⟩).toList
  | "module" => moduleDeclarations source n
  | _ => []

def isBaseList (list owner : Option Node) : Bool :=
  match list, owner with
  | some l, some o =>
    l.kind == "argument_list" && o.kind == "class_definition" && l.isIn "superclasses" o
  | _, _ => false

def attributeVerdict (kind : SymbolKind) (v : Visit) (access : Node) : Verdict :=
  let isCalled := match v.grandparent? with
    | some g => g.kind == "call" && access.isIn "function" g
    | none => false
  if isCalled then .use kind.callUsage
  else if isBaseList v.grandparent? v.ancestors[2]? then .use .inheritance
  else .use .plain

def verdict (_ : Bytes) (kind : SymbolKind) (v : Visit) : Verdict :=
  match v.parent? with
  | none => .use .plain
  | some p =>
    if v.isField "function_definition" "name" || v.isField "class_definition" "name" then
      .declaration
    else if v.isField "assignment" "left" then
      if !v.isWithin scopeKinds && (kind == .constant || kind == .global) then .declaration
      else .use .plain
    else if v.isField "call" "function" then .use kind.callUsage
    else if v.isField "attribute" "attribute" then attributeVerdict kind v p
    else if p.kind == "argument_list" && isBaseList (some p) v.grandparent? then .use .inheritance
    else if p.kind == "dotted_name" && (v.grandparent?.map fun g =>
        ["import_from_statement", "import_statement", "aliased_import"].contains g.kind).getD false
      then .use .import
    else if v.isField "keyword_argument" "name" then .ignored
    else if p.kind == "global_statement" then
      if kind == .global then .declaration else .ignored
    else if p.kind == "nonlocal_statement" then .ignored
    else .use .plain

def frame? (source : Bytes) (n : Node) (_ : Option Node) : Option Frame :=
  match n.kind with
  | "function_definition" => (n.fieldText? source "name").map .function
  | "class_definition" => (n.fieldText? source "name").map .class
  | _ => none

end Python

def python : Rules where
  declarations := Python.declarations
  opensScope kind := Python.scopeKinds.contains kind
  isNameKind kind := kind == "identifier"
  verdict := Python.verdict
  frame? := Python.frame?
  imports := [
    ⟨"import_from_statement",
      [{ kind := "dotted_name", field := some "name" }, { kind := "identifier" }]⟩,
    ⟨"import_from_statement",
      [{ kind := "aliased_import", field := some "name" },
        { kind := "dotted_name", field := some "name" }, { kind := "identifier" }]⟩]

end SymbolHistory.Rules
