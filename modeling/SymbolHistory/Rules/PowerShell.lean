import SymbolHistory.ConstantName
import SymbolHistory.Pattern
import SymbolHistory.Rules.Basic

namespace SymbolHistory.Rules.PowerShell

def scopeKinds : List String :=
  ["function_statement", "class_statement", "class_method_definition", "method_definition"]

def methodKinds : List String := ["class_method_definition", "method_definition"]

def scopePrefixes : List String := ["global:", "script:", "local:", "private:", "env:"]

def readOnlyOption : Pattern :=
  .folded "-Option" ++ .gap ++ .opt (.anyOf ['\'', '"'])
    ++ .run (fun c => Text.isWordChar c || c == ',' || Text.isBlank c)
    ++ .wordEdge ++ .foldeds ["ReadOnly", "Constant"] ++ .wordEdge

/-- Letters A to Z in either case, what folds to one of them, and the underscore. -/
def isNameStart (c : Char) : Bool :=
  let f := Text.foldCase c
  ('a' ≤ f && f ≤ 'z') || c == '_'

def nameArgument : Pattern :=
  .folded "-Name" ++ .gap ++ .opt (.anyOf ['\'', '"'])
    ++ .group 1 (.one isNameStart ++ .wordRun)

def afterScope? (scope : String) (s : List Char) : Option (List Char) :=
  let head := s.take scope.length
  if Text.eqIgnoringAsciiCase head scope.toList then some (s.drop scope.length) else none

/-- The name of a variable without its sign, braces and scope. -/
def variableName (text : String) : String :=
  let bare := Text.dropEndWhile (· == '\x7d')
    ((text.toList.dropWhile (· == '$')).dropWhile (· == '\x7b'))
  String.ofList ((scopePrefixes.findSome? (afterScope? · bare)).getD bare)

/-- Whether a variable is scoped to the session or the script. -/
def isGlobalVariable (text : String) : Bool :=
  let bare := (text.toList.dropWhile (· == '$')).dropWhile (· == '\x7b')
  ["global:", "script:"].any fun s => (afterScope? s bare).isSome

def nameOr (source : Bytes) (kind : String) (n : Node) : Option String :=
  (n.fieldText? source "name").or ((n.childOfKind? kind).map (·.text source))

def functionName (source : Bytes) (n : Node) : Option String := nameOr source "function_name" n

def simpleName (source : Bytes) (n : Node) : Option String := nameOr source "simple_name" n

def baseOf (source : Bytes) (cls : Node) : Option String :=
  ((cls.child? "base_class").or (cls.childrenOfKind "simple_name")[1]?).map (·.text source)

def commandName (source : Bytes) (n : Node) : Option String :=
  ((n.child? "command_name").or (n.childOfKind? "command_name")).map (·.text source)

def isQuote (c : Char) : Bool := c == '"' || c == '\''

def setsVariable (command : String) : Bool :=
  ["Set-Variable", "New-Variable"].any (Text.sameIgnoringAsciiCase command)

/-- The first word that is neither an option nor the value of one. -/
def positional? : List (List Char) → Option (List Char)
  | [] => none
  | w :: rest =>
    if w.head? == some '-' then
      match rest with
      | [] => none
      | _ :: rest => positional? rest
    else some w

def readOnlyName? (source : Bytes) (n : Node) : Option String := do
  let command ← commandName source n
  let text := (n.text source).toList
  if !setsVariable command || !readOnlyOption.occurs text then none
  else
    match (nameArgument.search? text).bind (·.captured? 1) with
    | some name => some name
    | none =>
      (positional? ((Text.words text).drop 1)).map fun w => String.ofList (Text.trimBy isQuote w)

def declarations (source : Bytes) (v : Visit) : List Declaration :=
  let n := v.node
  match n.kind with
  | "function_statement" =>
    ((functionName source n).map fun name => ⟨name, .function, n, none, none⟩).toList
  | "class_statement" =>
    ((simpleName source n).map fun name => ⟨name, .class, n, none, baseOf source n⟩).toList
  | "class_method_definition" | "method_definition" =>
    let parent := (v.nearest? ["class_statement"]).bind (simpleName source)
    ((simpleName source n).map fun name => ⟨name, .method, n, parent, none⟩).toList
  | "command" =>
    if v.isWithin scopeKinds then []
    else
      (((readOnlyName? source n).filter fun name => !isNoiseName name).map fun name =>
        ⟨name, .constant, n, none, none⟩).toList
  | "assignment_expression" =>
    match n.namedChildren.head? with
    | some left =>
      let text := Text.trimmed (left.text source)
      if text.toList.head? == some '$' && isGlobalVariable text then
        [⟨variableName text, .global, n, none, none⟩]
      else []
    | none => []
  | _ => []

def isNameKind (kind : String) : Bool :=
  ["function_name", "command_name", "simple_name", "variable", "type_name", "type_identifier",
    "generic_token"].contains kind

def nameOf (source : Bytes) (n : Node) : String :=
  let text := n.text source
  match n.kind with
  | "variable" => variableName text
  | "generic_token" => String.ofList (Text.trimBy isQuote text.toList)
  | _ => text

def simpleNameVerdict (v : Visit) : Verdict :=
  match v.parent? with
  | some p =>
    if p.kind == "class_statement" then
      if ((p.childOfKind? "simple_name").map v.node.same).getD false then .declaration
      else .use .inheritance
    else if methodKinds.contains p.kind then .declaration
    else if p.kind == "member_name"
        && (v.grandparent?.map (·.kind == "invokation_expression")).getD false then .use .call
    else .use .plain
  | none => .use .plain

def isConstruction (source : Bytes) (n : Node) : Bool :=
  n.kind == "invokation_expression" &&
    ((n.childOfKind? "member_name").map fun m =>
      Text.sameIgnoringAsciiCase (m.text source) "new").getD false

def typeVerdict (source : Bytes) (v : Visit) : Verdict :=
  if (v.ancestors.take 6).any (isConstruction source) then .use .instantiation
  else if v.isWithin ["class_statement"] && !v.isWithin methodKinds then .use .inheritance
  else .use .plain

def tokenVerdict (source : Bytes) (v : Visit) : Verdict :=
  match (v.nearest? ["command"]).bind (commandName source) with
  | some c =>
    if Text.sameIgnoringAsciiCase c "New-Object" then .use .instantiation
    else if setsVariable c && !v.isWithin scopeKinds then .declaration
    else .ignored
  | none => .ignored

def variableVerdict (source : Bytes) (kind : SymbolKind) (v : Visit) : Verdict :=
  let target := (v.nearest? ["assignment_expression"]).bind fun a =>
    (a.childOfKind? "left_assignment_expression").or a.namedChildren.head?
  let isAssigned := (target.map fun l =>
    l.startByte ≤ v.node.startByte && v.node.endByte ≤ l.endByte).getD false
  if isAssigned && (kind == .global || kind == .constant)
      && (!v.isWithin scopeKinds || isGlobalVariable (v.node.text source)) then .declaration
  else .use .plain

def verdict (source : Bytes) (kind : SymbolKind) (v : Visit) : Verdict :=
  match v.node.kind with
  | "function_name" => .declaration
  | "command_name" => .use .call
  | "simple_name" => simpleNameVerdict v
  | "type_name" | "type_identifier" => typeVerdict source v
  | "generic_token" => tokenVerdict source v
  | "variable" => variableVerdict source kind v
  | _ => .use .plain

def frame? (source : Bytes) (n : Node) (_ : Option Node) : Option Frame :=
  match n.kind with
  | "function_statement" => (functionName source n).map .function
  | "class_method_definition" | "method_definition" => (simpleName source n).map .function
  | "class_statement" => (simpleName source n).map .class
  | _ => none

end PowerShell

def powerShell : Rules where
  declarations := PowerShell.declarations
  opensScope kind := PowerShell.scopeKinds.contains kind
  isNameKind := PowerShell.isNameKind
  nameOf := PowerShell.nameOf
  verdict := PowerShell.verdict
  frame? := PowerShell.frame?

end SymbolHistory.Rules
