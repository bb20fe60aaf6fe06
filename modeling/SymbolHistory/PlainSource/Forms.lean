import SymbolHistory.ConstantName
import SymbolHistory.Pattern
import SymbolHistory.PlainSource
import SymbolHistory.Symbol

namespace SymbolHistory.PlainSource

open Pattern

inductive LineForm where
  /-- A class, with its base. -/
  | «class» (name : String) (base : Option String)
  /-- A function or method with a block. -/
  | routine (kind : SymbolKind) (name : String) (parent : Option String) (opensScope : Bool)
  /-- Names declared by the line alone. -/
  | names (kind : SymbolKind) (names : List String)
  deriving DecidableEq, Repr

/-- Names that open a block without being methods. -/
def controlWords : List String :=
  ["if", "for", "while", "switch", "catch", "function", "return", "foreach", "elseif", "until"]

def isLetter (c : Char) : Bool := c.isAlpha

def plainName : Pattern := one (fun c => isLetter c || c == '_') ++ wordRun

/-- A capital, then capitals, digits and the listed characters. -/
def capitalName (extra : List Char) : Pattern :=
  one Char.isUpper ++ run fun c => c.isUpper || c.isDigit || extra.contains c

namespace JavaScript

def nameStart : Pattern := one fun c => isLetter c || c == '_' || c == '$'

def name : Pattern := nameStart ++ run fun c => Text.isWordChar c || c == '$'

def dottedName : Pattern :=
  nameStart ++ run fun c => Text.isWordChar c || c == '$' || c == '.'

def modifier (w : String) : Pattern := opt (lit w ++ gap)

def classForm : Pattern :=
  blanks ++ modifier "export" ++ modifier "default" ++ modifier "abstract" ++ lit "class" ++ gap
    ++ group 1 name ++ opt (gap ++ lit "extends" ++ gap ++ group 2 dottedName)

def functionForm : Pattern :=
  blanks ++ modifier "export" ++ modifier "default" ++ modifier "async" ++ lit "function" ++ blanks
    ++ opt (lit "*" ++ blanks) ++ group 1 name ++ blanks ++ lit "("

def constStart : Pattern :=
  modifier "export" ++ lit "const" ++ gap ++ group 1 name ++ blanks ++ lit "="

def arrowForm : Pattern :=
  constStart ++ blanks ++ modifier "async" ++ oneOf [
    lit "function" ++ wordEdge,
    lit "(" ++ others ')' ++ lit ")" ++ blanks ++ lit "=>",
    name ++ blanks ++ lit "=>"]

def globalForm : Pattern :=
  blanks ++ lits ["window", "global", "globalThis"] ++ lit "." ++ group 1 name ++ blanks ++ lit "="

def methodForm : Pattern :=
  gap ++ many (lits ["static", "async", "get", "set", "public", "private", "protected", "readonly"]
      ++ gap)
    ++ opt (lit "#") ++ group 1 name ++ blanks ++ lit "(" ++ others ')' ++ lit ")"
    ++ blanks ++ opt (lit ":" ++ others1 '\x7b') ++ lit "\x7b"

end JavaScript

namespace Python

def classForm : Pattern :=
  blanks ++ lit "class" ++ gap ++ group 1 plainName ++ blanks
    ++ opt (lit "(" ++ blanks
      ++ group 2 (one (fun c => isLetter c || c == '_')
        ++ run fun c => Text.isWordChar c || c == '.'))

def defForm : Pattern :=
  blanks ++ opt (lit "async" ++ gap) ++ lit "def" ++ gap ++ group 1 plainName ++ blanks ++ lit "("

def constantForm : Pattern :=
  group 1 (capitalName ['_']) ++ blanks ++ opt (lit ":" ++ others1 '=') ++ lit "="
    ++ other '='

def globalForm : Pattern :=
  blanks ++ lit "global" ++ gap ++ group 1 (others1 '\n') ++ finish

end Python

namespace Shell

def functionName : Pattern :=
  run1 fun c => Text.isWordChar c || c == '.' || c == ':' || c == '-'

def emptyParentheses : Pattern := blanks ++ lit "(" ++ blanks ++ lit ")"

def functionForm : Pattern :=
  blanks ++ alt (lit "function" ++ gap ++ group 1 functionName ++ opt emptyParentheses)
    (group 2 functionName ++ emptyParentheses)

def options : Pattern := many (lit "-" ++ word ++ gap)

/-- A declaring keyword with an option that holds an `r`. -/
def withReadOnlyOption (keyword : String) : Pattern :=
  lit keyword ++ gap ++ lit "-" ++ run (fun c => Text.isWordChar c && c != 'r') ++ lit "r"
    ++ wordRun

def readOnlyForm : Pattern :=
  blanks
    ++ oneOf [lit "readonly", withReadOnlyOption "declare", withReadOnlyOption "typeset"]
    ++ gap ++ options ++ group 1 plainName

def exportForm : Pattern := blanks ++ lit "export" ++ gap ++ options ++ group 1 plainName

end Shell

namespace PowerShell

def functionForm : Pattern :=
  blanks ++ foldeds ["function", "filter", "workflow"] ++ gap
    ++ group 1 (run1 fun c => Text.isWordChar c || c == '-')

def classForm : Pattern :=
  blanks ++ folded "class" ++ gap ++ group 1 word
    ++ opt (blanks ++ lit ":" ++ blanks ++ group 2 word)

def methodForm : Pattern :=
  gap ++ many (lit "[" ++ others ']' ++ lit "]" ++ blanks) ++ group 1 word
    ++ blanks ++ lit "(" ++ others ')' ++ lit ")" ++ blanks ++ lit "\x7b"

def readOnlyForm : Pattern :=
  blanks ++ foldeds ["Set", "New"] ++ folded "-Variable" ++ wordEdge
    ++ others '\n' ++ folded "-Option" ++ gap ++ foldeds ["ReadOnly", "Constant"]

def variableName : Pattern :=
  folded "-Name" ++ gap ++ opt (anyOf ['\'', '"']) ++ group 1 word

def globalForm : Pattern :=
  blanks ++ lit "$" ++ foldeds ["global", "script"] ++ lit ":" ++ group 1 word ++ blanks
    ++ lit "="

end PowerShell

namespace R

def name : Pattern :=
  one (fun c => isLetter c || c == '.') ++ run fun c => Text.isWordChar c || c == '.'

def arrow : Pattern := lits ["<-", "="]

def functionForm : Pattern :=
  blanks ++ group 1 name ++ blanks ++ arrow ++ blanks ++ lit "function" ++ wordEdge

def constantForm : Pattern := group 1 (capitalName ['_', '.']) ++ blanks ++ arrow

def outwardForm : Pattern := blanks ++ group 1 name ++ blanks ++ lit "<<-"

def assignForm : Pattern :=
  wordEdge ++ lit "assign(" ++ blanks ++ anyOf ['"', '\'']
    ++ group 1 (run1 fun c => Text.isWordChar c || c == '.') ++ anyOf ['"', '\'']

end R

def importForm : Pattern :=
  blanks ++ oneOf [
    lit "import" ++ wordEdge,
    lit "from" ++ gap ++ nonBlanks ++ gap ++ lit "import" ++ wordEdge,
    lit "using" ++ gap ++ lit "module" ++ wordEdge,
    lit "Import-Module" ++ wordEdge,
    lit "library(",
    lit "require(",
    lit "source" ++ wordEdge,
    lit "." ++ gap ++ nonBlank]

/-- The name captured first by a form at the start of a line, with its cursor. -/
def start? (form : Pattern) (line : List Char) : Option (String × Cursor) :=
  (form.matchStart? line).bind fun c => (c.captured? 1).map (·, c)

def constantLine (name : String) : LineForm :=
  .names .constant (if isNoiseName name then [] else [name])

def classLine (form : Pattern) (line : List Char) : Option LineForm :=
  (start? form line).map fun (name, c) => .class name (c.captured? 2)

def functionLine (form : Pattern) (line : List Char) : Option LineForm :=
  (start? form line).map fun (name, _) => .routine .function name none true

def globalLine (form : Pattern) (line : List Char) : Option LineForm :=
  (start? form line).map fun (name, _) => .names .global [name]

def methodLine (form : Pattern) (isControl : String → Bool) (around : Option String)
    (line : List Char) : Option LineForm := do
  let cls ← around
  let (name, _) ← start? form line
  if isControl name then none else return .routine .method name (some cls) false

def listedNames (s : String) : List String :=
  (((Text.pieces ',' s.toList).map Text.trim).filter (!·.isEmpty)).map String.ofList

def shellFunctionLine (line : List Char) : Option LineForm :=
  (Shell.functionForm.matchStart? line).bind fun c =>
    ((c.captured? 1).or (c.captured? 2)).map fun name => .routine .function name none true

/-- A command that makes a variable read-only. In a class or function it declares nothing. -/
def readOnlyLine (nested : Bool) (line : List Char) : Option LineForm :=
  if PowerShell.readOnlyForm.matchesStart line then
    match (PowerShell.variableName.search? line).bind (·.captured? 1) with
    | some name => some (if nested then .names .constant [] else constantLine name)
    | none => some (.names .constant [])
  else none

/-- What a line declares. `nested` says whether it lies in a class or function, `around` names the
innermost class around it. -/
def formOf (language : Language) (nested : Bool) (around : Option String) (line : List Char) :
    Option LineForm :=
  match language with
  | .javaScript | .typeScript =>
    classLine JavaScript.classForm line
      <|> functionLine JavaScript.functionForm line
      <|> functionLine JavaScript.arrowForm line
      <|> (start? JavaScript.constStart line).map (fun (name, _) => constantLine name)
      <|> globalLine JavaScript.globalForm line
      <|> methodLine JavaScript.methodForm controlWords.contains around line
  | .python =>
    classLine Python.classForm line
      <|> (start? Python.defForm line).map (fun (name, _) =>
        .routine (if around.isSome then .method else .function) name around true)
      <|> (start? Python.constantForm line).map (fun (name, _) => constantLine name)
      <|> (start? Python.globalForm line).map fun (list, _) => .names .global (listedNames list)
  | .shell =>
    shellFunctionLine line
      <|> (start? Shell.readOnlyForm line).map (fun (name, _) =>
        if nested then .names .constant [] else constantLine name)
      <|> globalLine Shell.exportForm line
  | .powerShell =>
    classLine PowerShell.classForm line
      <|> functionLine PowerShell.functionForm line
      <|> readOnlyLine nested line
      <|> globalLine PowerShell.globalForm line
      <|> methodLine PowerShell.methodForm
        (fun name => controlWords.any (Text.sameIgnoringAsciiCase name)) around line
  | .r =>
    functionLine R.functionForm line
      <|> globalLine R.outwardForm line
      <|> ((R.assignForm.search? line).bind (·.captured? 1)).map (fun name =>
        .names .global [name])
      <|> (start? R.constantForm line).map fun (name, _) => constantLine name

end SymbolHistory.PlainSource
