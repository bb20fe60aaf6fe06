import SymbolHistory.Error
import SymbolHistory.Glob.Parser
import SymbolHistory.Language
import SymbolHistory.Number.Binary64
import SymbolHistory.Report.Shade
import SymbolHistory.SourceModel

namespace SymbolHistory

structure Config where
  /-- Patterns of paths that a scan passes over. -/
  excludedPaths : List String := []
  includeHidden : Option Bool := none
  maxCommits : Option Nat := none
  /-- Languages of further file extensions, in the order of the extensions. -/
  extensions : List (String × String) := []
  errorTolerance : Option Binary64 := none
  shades : Option Nat := none
  newestFirst : Option Bool := none
  deriving Repr

namespace Config

def scansHidden (c : Config) : Bool := c.includeHidden.getD false

def tolerance (c : Config) : Binary64 := c.errorTolerance.getD defaultTolerance

def shadeCount (c : Config) : Nat := Report.clampShades (c.shades.getD Report.maxShades)

def listsNewestFirst (c : Config) : Bool := c.newestFirst.getD true

/-- The language of a file; the configured extensions come before the listed ones. -/
def languageFor? (c : Config) (path : String) : Option Language :=
  (Path.extension? path).bind fun ext =>
    ((c.extensions.lookup ext).bind Language.ofId?).or (Language.ofExtension? ext)

def globsOf : List String → Except ConfigFault (List Glob)
  | [] => .ok []
  | pattern :: rest =>
    match Glob.parse? pattern with
    | none => .error (.badPattern pattern)
    | some g => (globsOf rest).map (g :: ·)

/-- The patterns of the excluded paths, when they can be used. -/
def excluded (c : Config) : Except ConfigFault (List Glob) := do
  let globs ← globsOf c.excludedPaths
  if globs.any Glob.isTooDeep then .error .tooDeepPattern else .ok globs

def unknownLanguage? (c : Config) : Option ConfigFault :=
  (c.extensions.find? fun e => (Language.ofId? e.2).isNone).map fun e => .unknownLanguage e.1 e.2

def isShare (x : Binary64) : Bool := Binary64.le .zero x && Binary64.le x .one

/-- The configuration itself, when its values are in order. Patterns are looked at before
extensions and these before the tolerance. -/
def check (c : Config) : Except ConfigFault Config := do
  let _ ← globsOf c.excludedPaths
  match c.unknownLanguage? with
  | some fault => .error fault
  | none =>
    match c.errorTolerance with
    | some x =>
      if isShare x then .ok c else .error (.toleranceOutOfRange (String.ofList x.shortest))
    | none => .ok c

end Config
end SymbolHistory
