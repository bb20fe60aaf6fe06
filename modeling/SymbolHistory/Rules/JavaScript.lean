import SymbolHistory.ConstantName
import SymbolHistory.Rules.Basic

namespace SymbolHistory.Rules.JavaScript

def classKinds : List String := ["class_declaration", "abstract_class_declaration", "class"]

def functionKinds : List String :=
  ["function_declaration", "generator_function_declaration", "function_expression", "function",
    "generator_function", "arrow_function", "method_definition"]

def declaringKinds : List String :=
  ["class_declaration", "abstract_class_declaration", "class", "function_declaration",
    "generator_function_declaration", "function_expression", "function", "method_definition",
    "variable_declarator", "interface_declaration", "type_alias_declaration", "enum_declaration",
    "export_specifier"]

def globalObjects : List String := ["window", "global", "globalThis"]

def functionValueKinds : List String :=
  ["arrow_function", "function_expression", "function", "generator_function"]

/-- The base class of a class: its superclass field, else the first clause of its heritage. -/
def baseOf (source : Bytes) (cls : Node) : Option String :=
  match cls.child? "superclass" with
  | some s => some (s.text source)
  | none => do
    let heritage ← cls.childOfKind? "class_heritage"
    let clause ← heritage.namedChildren.head?
    match clause.kind with
    | "extends_clause" =>
      ((clause.child? "value").or clause.namedChildren.head?).map (·.text source)
    | "implements_clause" => none
    | _ => some (clause.text source)

/-- The name of a class, else of the variable it is assigned to. -/
def classNameOf (source : Bytes) (cls : Node) (outer : Option Node) : Option String :=
  (cls.fieldText? source "name").or
    ((outer.filter (·.kind == "variable_declarator")).bind (·.fieldText? source "name"))

def enclosingClass? : List Node → Option (Node × Option Node)
  | [] => none
  | a :: rest => if classKinds.contains a.kind then some (a, rest.head?) else enclosingClass? rest

def exportedNames (source : Bytes) (declaration : Node) : List String :=
  match declaration.kind with
  | "lexical_declaration" | "variable_declaration" =>
    (((declaration.childrenOfKind "variable_declarator").filterMap (·.child? "name")).filter
      (·.kind == "identifier")).map (·.text source)
  | _ => (declaration.fieldText? source "name").toList

def exportNames (source : Bytes) (n : Node) : List String :=
  match n.child? "declaration", n.child? "value" with
  | some d, _ => exportedNames source d
  | none, some v =>
    if v.kind == "identifier" then [v.text source] else (v.fieldText? source "name").toList
  | none, none =>
    ((n.childrenOfKind "export_clause").flatMap (·.childrenOfKind "export_specifier")).filterMap
      (·.fieldText? source "name")

def constantAt (source : Bytes) (span declarator : Node) : Option Declaration := do
  let nameNode ← declarator.child? "name"
  if nameNode.kind != "identifier" then none
  else
    let name := nameNode.text source
    let isFunction :=
      ((declarator.child? "value").map fun v => functionValueKinds.contains v.kind).getD false
    if isFunction then some ⟨name, .function, span, none, none⟩
    else if isNoiseName name then none
    else some ⟨name, .constant, span, none, none⟩

/-- Constants outside functions. A single declarator stands for its whole statement. -/
def constants (source : Bytes) (v : Visit) : List Declaration :=
  let isConst := (v.node.children.head?.map (·.kind == "const")).getD false
  if !isConst || v.isWithin functionKinds then []
  else
    match v.node.childrenOfKind "variable_declarator" with
    | [d] => (constantAt source v.node d).toList
    | ds => ds.filterMap fun d => constantAt source d d

def isGlobalMember (source : Bytes) (n : Node) : Bool :=
  n.kind == "member_expression" &&
    ((n.child? "object").map fun o =>
      o.kind == "identifier" && globalObjects.contains (o.text source)).getD false

def globalAt (source : Bytes) (v : Visit) : Option Declaration := do
  let left ← v.node.child? "left"
  if !isGlobalMember source left then none
  else
    let property ← left.child? "property"
    let span := (v.parent?.filter (·.kind == "expression_statement")).getD v.node
    some ⟨property.text source, .global, span, none, none⟩

def namedAs (source : Bytes) (kind : SymbolKind) (n : Node) : List Declaration :=
  ((n.fieldText? source "name").map fun name => ⟨name, kind, n, none, none⟩).toList

def declarations (source : Bytes) (v : Visit) : List Declaration :=
  let n := v.node
  match n.kind with
  | "class_declaration" | "abstract_class_declaration" =>
    (namedAs source .class n).map fun d => { d with base := baseOf source n }
  | "function_declaration" | "generator_function_declaration" => namedAs source .function n
  | "method_definition" =>
    let parent := (enclosingClass? v.ancestors).bind fun (c, outer) => classNameOf source c outer
    (namedAs source .method n).map fun d => { d with parent }
  | "lexical_declaration" => constants source v
  | "assignment_expression" => (globalAt source v).toList
  | "export_statement" =>
    (exportNames source n).map fun name => ⟨name, .export, n, none, none⟩
  | "interface_declaration" => namedAs source .interface n
  | _ => []

def isNameKind (kind : String) : Bool :=
  ["identifier", "property_identifier", "type_identifier", "shorthand_property_identifier",
    "shorthand_property_identifier_pattern"].contains kind

/-- The verdict on the property of a member expression, from the node around that expression. -/
def memberVerdict (source : Bytes) (member : Node) : Option Node → Verdict
  | some g =>
    if g.kind == "assignment_expression" && member.isIn "left" g
        && isGlobalMember source member then .declaration
    else if g.kind == "call_expression" && member.isIn "function" g then .use .call
    else if g.kind == "new_expression" && member.isIn "constructor" g then .use .instantiation
    else if g.kind == "class_heritage" || g.kind == "extends_clause" then .use .inheritance
    else .use .plain
  | none => .use .plain

def verdict (source : Bytes) (_ : SymbolKind) (v : Visit) : Verdict :=
  match v.parent? with
  | none => .use .plain
  | some p =>
    if declaringKinds.contains p.kind && v.node.isIn "name" p then .declaration
    else if v.isField "call_expression" "function" then .use .call
    else if v.isField "new_expression" "constructor" then .use .instantiation
    else if v.isField "member_expression" "property" then memberVerdict source p v.grandparent?
    else if ["class_heritage", "extends_clause", "implements_clause",
        "extends_type_clause"].contains p.kind then .use .inheritance
    else if ["import_specifier", "import_clause", "namespace_import"].contains p.kind then
      .use .import
    else if v.isField "pair" "key" then .ignored
    else if p.kind == "generic_type"
        && (v.grandparent?.map (·.kind == "extends_clause")).getD false then .use .inheritance
    else .use .plain

/-- The name of a function without one, from what it is assigned to. -/
def assignedName? (source : Bytes) (outer : Node) : Option String :=
  match outer.kind with
  | "variable_declarator" => outer.fieldText? source "name"
  | "pair" => outer.fieldText? source "key"
  | "assignment_expression" =>
    (outer.child? "left").map fun left =>
      (left.fieldText? source "property").getD (left.text source)
  | _ => none

def frame? (source : Bytes) (n : Node) (outer : Option Node) : Option Frame :=
  if classKinds.contains n.kind then (classNameOf source n outer).map .class
  else if functionKinds.contains n.kind then
    ((n.fieldText? source "name").or (outer.bind (assignedName? source))).map .function
  else none

end JavaScript

def javaScript : Rules where
  declarations := JavaScript.declarations
  opensScope kind := JavaScript.classKinds.contains kind || JavaScript.functionKinds.contains kind
  isNameKind := JavaScript.isNameKind
  verdict := JavaScript.verdict
  frame? := JavaScript.frame?
  imports := [
    ⟨"import_specifier", [{ kind := "identifier", field := some "name" }]⟩,
    ⟨"import_clause", [{ kind := "identifier" }]⟩,
    ⟨"namespace_import", [{ kind := "identifier" }]⟩]

end SymbolHistory.Rules
