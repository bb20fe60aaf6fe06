namespace SymbolHistory

inductive OutputFormat where
  | pretty
  | json
  deriving DecidableEq, Repr

structure CommonOptions where
  /-- A query, or the name of a file that holds one after an at sign. -/
  query : Option String := none
  format : OutputFormat := .pretty
  config : Option String := none
  deriving DecidableEq, Repr

inductive Command where
  /-- Lists the symbols of a file. -/
  | symbols (file : String) (options : CommonOptions)
  /-- Finds the uses of a file's symbols in a project. -/
  | references (file project : String) (symbol : Option String) (options : CommonOptions)
  /-- Traces every symbol of a file through its history. -/
  | evolution (file : String) (maxCommits : Option Nat) (oldestFirst : Bool)
      (options : CommonOptions)
  /-- Compares two versions of a symbol. -/
  | compare (file symbol old new : String) (maxCommits : Option Nat) (options : CommonOptions)
  deriving DecidableEq, Repr

/-- Why arguments name no command to run. -/
inductive UsageFault where
  /-- Help was asked for. -/
  | help
  /-- The version was asked for. -/
  | version
  | noArguments
  | noCommand
  | unknownCommand
  | missingOperand
  | unknownArgument
  /-- A value is missing or not among those allowed. -/
  | invalidValue
  /-- A value is no number of the right kind. -/
  | unreadableValue
  /-- A value stands after an option that takes none. -/
  | unexpectedValue
  | repeatedOption
  deriving DecidableEq, Repr

end SymbolHistory
