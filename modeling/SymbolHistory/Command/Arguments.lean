import SymbolHistory.Command
import SymbolHistory.Number.Decimal

namespace SymbolHistory

namespace Arguments

/-- What an argument sets. -/
inductive Slot where
  | verbose
  | help
  | version
  | query
  | format
  | config
  | symbol
  | maxCommits
  | oldestFirst
  | operand (index : Nat)
  deriving DecidableEq, Repr

inductive ValueForm where
  | text
  | path
  | format
  | count
  deriving DecidableEq, Repr

def format? : String → Option OutputFormat
  | "pretty" => some .pretty
  | "json" => some .json
  | _ => none

def count? (s : String) : Option Nat := Decimal.naturalBelow? (Decimal.wordLimit 64) s.toList

def ValueForm.fault? : ValueForm → String → Option UsageFault
  | text, _ => none
  | path, v => if v.isEmpty then some .invalidValue else none
  | format, v => if (format? v).isNone then some .invalidValue else none
  | count, v => if (count? v).isNone then some .unreadableValue else none

structure OptionSpec where
  slot : Slot
  long : String
  short : Option Char
  /-- The form of its value; an option without one is a flag. -/
  form : Option ValueForm

def verboseFlag : OptionSpec := ⟨.verbose, "verbose", some 'v', none⟩

def helpFlag : OptionSpec := ⟨.help, "help", some 'h', none⟩

def versionFlag : OptionSpec := ⟨.version, "version", some 'V', none⟩

def globalOptions : List OptionSpec := [verboseFlag, helpFlag, versionFlag]

def commonOptions : List OptionSpec :=
  [verboseFlag, helpFlag, ⟨.query, "query", some 'q', some .text⟩,
    ⟨.format, "format", some 'f', some .format⟩, ⟨.config, "config", some 'c', some .path⟩]

def maxCommitsOption : OptionSpec := ⟨.maxCommits, "max-commits", some 'n', some .count⟩

inductive CommandName where
  | symbols
  | references
  | evolution
  | compare
  deriving DecidableEq, Repr

namespace CommandName

def ofWord? : String → Option CommandName
  | "symbols" => some symbols
  | "references" | "refs" => some references
  | "evolution" | "history" => some evolution
  | "compare" => some compare
  | _ => none

def options : CommandName → List OptionSpec
  | symbols => commonOptions
  | references => ⟨.symbol, "symbol", some 's', some .text⟩ :: commonOptions
  | evolution => maxCommitsOption :: ⟨.oldestFirst, "oldest-first", none, none⟩ :: commonOptions
  | compare => maxCommitsOption :: commonOptions

def operands : CommandName → List ValueForm
  | symbols => [.path]
  | references => [.path, .path]
  | evolution => [.path]
  | compare => [.path, .text, .text, .text]

end CommandName

/-- A slot whose value has still to be looked at, or to come. -/
structure Pending where
  slot : Slot
  form : ValueForm
  value : Option String

structure Reading where
  given : List (Slot × String) := []
  pending : Option Pending := none
  operandCount : Nat := 0

namespace Reading

def value? (r : Reading) (s : Slot) : Option String := r.given.lookup s

def has (r : Reading) (s : Slot) : Bool := (r.value? s).isSome

def set (r : Reading) (s : Slot) (value : String) : Except UsageFault Reading :=
  if r.has s then .error .repeatedOption else .ok { r with given := r.given ++ [(s, value)] }

def setValue (r : Reading) (s : Slot) (form : ValueForm) (value : String) :
    Except UsageFault Reading := do
  let r' ← r.set s value
  match form.fault? value with
  | some fault => .error fault
  | none => .ok r'

/-- Looks at the pending value. That is put off until the next option or operand begins, or the end,
so an unknown argument is reported before the value in front of it. -/
def settle (r : Reading) : Except UsageFault Reading :=
  match r.pending with
  | none => .ok r
  | some ⟨_, _, none⟩ => .error .invalidValue
  | some ⟨s, form, some value⟩ => { r with pending := none }.setValue s form value

def flag (r : Reading) (s : Slot) : Except UsageFault Reading := do
  let r ← r.settle
  match s with
  | .help => .error .help
  | .version => .error .version
  | s => r.set s ""

def option (r : Reading) (s : Slot) (form : ValueForm) (value : Option String) :
    Except UsageFault Reading := do
  let r ← r.settle
  match value with
  | some v => r.setValue s form v
  | none => .ok { r with pending := some ⟨s, form, none⟩ }

def word (r : Reading) (forms : List ValueForm) (onlyOperands : Bool) (value : String) :
    Except UsageFault Reading :=
  match r.pending, onlyOperands with
  | some ⟨s, form, none⟩, false => .ok { r with pending := some ⟨s, form, some value⟩ }
  | _, _ =>
    match forms[r.operandCount]? with
    | none => .error .unknownArgument
    | some form => do
      let r ← r.settle
      return { r with
        pending := some ⟨.operand r.operandCount, form, some value⟩
        operandCount := r.operandCount + 1 }

end Reading

def readLong (specs : List OptionSpec) (r : Reading) (text : List Char) :
    Except UsageFault Reading :=
  let name := String.ofList (text.takeWhile (· != '='))
  let value := match text.dropWhile (· != '=') with
    | [] => none
    | _ :: v => some (String.ofList v)
  match specs.find? (·.long == name) with
  | none => .error .unknownArgument
  | some spec =>
    match spec.form, value with
    | some form, _ => r.option spec.slot form value
    | none, some _ => .error .unexpectedValue
    | none, none => r.flag spec.slot

/-- Short options after their dash. What follows one that takes a value is its value. -/
def readShorts (specs : List OptionSpec) (r : Reading) : List Char → Except UsageFault Reading
  | [] => .ok r
  | c :: rest =>
    match specs.find? (·.short == some c) with
    | none => .error .unknownArgument
    | some spec =>
      match spec.form with
      | none => do
        let r ← r.flag spec.slot
        readShorts specs r rest
      | some form =>
        match rest with
        | [] => r.option spec.slot form none
        | '=' :: v => r.option spec.slot form (some (String.ofList v))
        | v => r.option spec.slot form (some (String.ofList v))

/-- Options in one argument; none where it is a word. -/
def readOption? (specs : List OptionSpec) (r : Reading) (arg : String) :
    Option (Except UsageFault Reading) :=
  match arg.toList with
  | '-' :: '-' :: text => some (readLong specs r text)
  | '-' :: c :: rest => some (readShorts specs r (c :: rest))
  | _ => none

/-- Reads the arguments of a command. After two dashes all are operands. -/
def readFrom (name : CommandName) (onlyOperands : Bool) (r : Reading) :
    List String → Except UsageFault Reading
  | [] => r.settle
  | arg :: rest =>
    if onlyOperands then do
      let r ← r.word name.operands true arg
      readFrom name true r rest
    else if arg = "--" then readFrom name true r rest
    else
      match readOption? name.options r arg with
      | some (.ok r) => readFrom name false r rest
      | some (.error fault) => .error fault
      | none => do
        let r ← r.word name.operands false arg
        readFrom name false r rest

def Reading.common (r : Reading) : CommonOptions where
  query := r.value? .query
  format := ((r.value? .format).bind format?).getD .pretty
  config := r.value? .config

def Reading.maxCommits (r : Reading) : Option Nat := (r.value? .maxCommits).bind count?

def Reading.operand (r : Reading) (i : Nat) : String := (r.value? (.operand i)).getD ""

def Reading.command (r : Reading) : CommandName → Command
  | .symbols => .symbols (r.operand 0) r.common
  | .references => .references (r.operand 0) (r.operand 1) (r.value? .symbol) r.common
  | .evolution => .evolution (r.operand 0) r.maxCommits (r.has .oldestFirst) r.common
  | .compare =>
    .compare (r.operand 0) (r.operand 1) (r.operand 2) (r.operand 3) r.maxCommits r.common

def readCommand (name : CommandName) (args : List String) : Except UsageFault Command := do
  let r ← readFrom name false {} args
  if r.operandCount < name.operands.length then .error .missingOperand else .ok (r.command name)

def isCommandWord (word : String) : Bool := (CommandName.ofWord? word).isSome || word == "help"

/-- What the command for help answers. -/
def helpFault : List String → UsageFault
  | [] => .help
  | [word] => if isCommandWord word then .help else .unknownCommand
  | _ => .unknownCommand

def readProgram (onlyOperands : Bool) (r : Reading) : List String → Except UsageFault Command
  | [] => .error (if r.given.isEmpty then .noArguments else .noCommand)
  | arg :: rest =>
    if onlyOperands then
      .error (if isCommandWord arg then .unknownArgument else .unknownCommand)
    else if arg = "help" then .error (helpFault rest)
    else
      match CommandName.ofWord? arg with
      | some name => readCommand name rest
      | none =>
        if arg = "--" then readProgram true r rest
        else
          match readOption? globalOptions r arg with
          | some (.ok r) => readProgram false r rest
          | some (.error fault) => .error fault
          | none => .error .unknownCommand

end Arguments

def Command.ofArguments (args : List String) : Except UsageFault Command :=
  Arguments.readProgram false {} args

end SymbolHistory
