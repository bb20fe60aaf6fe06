import SymbolHistory.Command
import SymbolHistory.Config.Decode
import SymbolHistory.History.Git
import SymbolHistory.Json.Printer
import SymbolHistory.Query.Decode
import SymbolHistory.Report.Page

namespace SymbolHistory

/-- What a command works with. -/
structure Surroundings (m : Type → Type) where
  workspace : Workspace
  git : GitRunner m
  parser : Grammar.Parser
  /-- Whether styles are shown. -/
  styled : Bool

/-- What a command printed and how it ended: with zero, with one where it found nothing to report
on, with two after an error. -/
structure Outcome where
  code : Nat
  output : String := ""
  complaint : String := ""
  error : Option Error := none

namespace Command

def configName : String := "codelineage.yaml"

def configPath? (w : Workspace) (named : Option String) : Option String :=
  let here := Path.under w.directory configName
  named.or
    (if w.isFile here then some here
    else if w.isFile w.userConfig then some w.userConfig
    else none)

def loadConfig (w : Workspace) (o : CommonOptions) : Except Error Config :=
  match configPath? w o.config with
  | none => .ok {}
  | some path => do
    let text ← (w.readText path).mapError .read
    (Config.parse text).mapError fun fault => .config (.inFile path fault)

/-- The query of a command; after an at sign it stands in a file. -/
def loadQuery (w : Workspace) (o : CommonOptions) : Except Error Query :=
  match o.query with
  | none => .ok Query.everything
  | some text =>
    match text.toList with
    | '@' :: path => do
      let text ← (w.readText (String.ofList path)).mapError fun fault => .command fault.message
      Query.parse text
    | _ => Query.parse text

def resolveFile (w : Workspace) (path : String) : Except Error String :=
  (w.resolve path).mapError fun fault =>
    .command ("cannot access " ++ path ++ ": " ++ fault.message)

def present (o : CommonOptions) (json : Json) (page : List String) : Outcome :=
  match o.format with
  | .json => { code := 0, output := json.pretty ++ "\n" }
  | .pretty => { code := 0, output := Report.pageText page }

variable {m : Type → Type} [Monad m]

def runSymbols (s : Surroundings m) (path : String) (o : CommonOptions) : Except Error Outcome := do
  let config ← loadConfig s.workspace o
  let query ← loadQuery s.workspace o
  let file ← resolveFile s.workspace path
  let base := (Path.parent? file).getD "."
  let project ← Project.open s.workspace s.parser config base
  let found ← project.symbolsIn file query
  return present o (Report.symbolsJson found) (Report.symbolsPage s.styled found)

def runReferences (s : Surroundings m) (path directory : String) (symbol : Option String)
    (o : CommonOptions) : Except Error Outcome := do
  let config ← loadConfig s.workspace o
  let query ← loadQuery s.workspace o
  let file ← resolveFile s.workspace path
  let base ← resolveFile s.workspace directory
  let project ← Project.open s.workspace s.parser config base
  let declared ← project.symbolsIn file query
  let targets := declared.symbols.filter fun t =>
    match symbol with
    | some name => t.name == name || t.bareName == name
    | none => true
  if targets.isEmpty then
    return { code := 1, complaint := "Warning: no matching symbols in " ++ path ++ "\n" }
  else
    let found := project.references targets declared.language
    return present o (Report.referencesJson found) (Report.referencesPage s.styled path found)

def loadTimeline (s : Surroundings m) (config : Config) (query : Query) (file : String)
    (maxCommits : Option Nat) : ExceptT Error m Timeline := do
  let language ← match config.languageFor? file with
    | some l => pure l
    | none => throw (.unsupportedLanguage file)
  let repository ← ExceptT.mk (GitRepository.discover s.workspace s.git file)
  let path ← liftExcept (repository.relativePath s.workspace file)
  let limit := maxCommits.or config.maxCommits
  let snapshots ← ExceptT.mk ((repository.source s.git).snapshots path limit)
  if snapshots.isEmpty then throw (.command ("no history for " ++ path))
  else return Timeline.build ⟨s.parser, language, query, config.tolerance⟩ path snapshots

def runEvolution (s : Surroundings m) (path : String) (maxCommits : Option Nat)
    (oldestFirst : Bool) (o : CommonOptions) : ExceptT Error m Outcome := do
  let config ← liftExcept (loadConfig s.workspace o)
  let query ← liftExcept (loadQuery s.workspace o)
  let file ← liftExcept (resolveFile s.workspace path)
  let timeline ← loadTimeline s config query file maxCommits
  let newestFirst := !oldestFirst && config.listsNewestFirst
  let report := Report.timelineReport timeline newestFirst config.shadeCount
  return present o report.toJson (Report.timelinePage s.styled config.shadeCount report)

/-- The comparison of two versions of the first symbol with a name. -/
def compareIn (s : Surroundings m) (timeline : Timeline) (symbol old new : String)
    (o : CommonOptions) : Outcome :=
  match timeline.chainsNamed symbol with
  | [] =>
    { code := 1
      complaint := "Error: symbol " ++ Text.quoted symbol ++ " not found in the history of "
        ++ timeline.path ++ "\n" }
  | chain :: _ =>
    match chain.find? old, chain.find? new with
    | some i, some j =>
      match Report.comparison? chain i j with
      | some c => present o c.toJson (Report.comparisonPage s.styled c)
      | none => { code := 2, error := some (.command "version out of range") }
    | _, _ =>
      { code := 1
        complaint := "Error: unknown version; " ++ chain.identity.describe ++ " has "
          ++ toString chain.versions.length ++ " retained versions\n" }

def runCompare (s : Surroundings m) (path symbol old new : String) (maxCommits : Option Nat)
    (o : CommonOptions) : ExceptT Error m Outcome := do
  let config ← liftExcept (loadConfig s.workspace o)
  let query ← liftExcept (loadQuery s.workspace o)
  let file ← liftExcept (resolveFile s.workspace path)
  let timeline ← loadTimeline s config query file maxCommits
  return compareIn s timeline symbol old new o

def run (s : Surroundings m) (c : Command) : m Outcome := do
  let result ← (match c with
    | symbols file o => pure (runSymbols s file o)
    | references file project symbol o => pure (runReferences s file project symbol o)
    | evolution file n oldestFirst o => (runEvolution s file n oldestFirst o).run
    | compare file symbol old new n o => (runCompare s file symbol old new n o).run)
  match result with
  | .ok outcome => return outcome
  | .error e => return { code := 2, error := some e }

end Command
end SymbolHistory
