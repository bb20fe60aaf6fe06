import SymbolHistory.Report.Comparison
import SymbolHistory.Report.Style
import SymbolHistory.Report.SymbolRecord
import SymbolHistory.Report.TimelineReport
import SymbolHistory.Text.Pad

namespace SymbolHistory.Report

def header (shown : Bool) (title subject : String) : List String :=
  let name := Style.paint shown { bold := true, colour := some .cyan } "codelineage"
  ["", "  " ++ name ++ " v" ++ programVersion, "",
    "  " ++ dimStyle.paint shown (Text.padEnd 10 title) ++ subject, ""]

def counted (shown : Bool) (title : String) (n : Nat) : String :=
  "  " ++ boldStyle.paint shown title ++ " (" ++ toString n ++ "):"

def symbolLine (shown : Bool) (s : Symbol) : String :=
  let range := ":" ++ toString s.startLine ++ "-" ++ toString s.endLine
  let base := match s.base with
    | some b => "  " ++ dimStyle.paint shown ("extends " ++ b)
    | none => ""
  "    " ++ dimStyle.paintPadded (Text.padEnd 10) shown s.kind.name
    ++ (inColour .blue).paint shown s.name ++ dimStyle.paint shown range ++ base

def symbolsPage (shown : Bool) (f : FileSymbols) : List String :=
  let warning := if f.isPlain then
      ["  " ++ (inColour .yellow).paint shown "(best-effort extraction, parse failed)", ""]
    else []
  let body := if f.symbols.isEmpty then ["  " ++ dimStyle.paint shown "No symbols found", ""]
    else
      counted shown "Symbols" f.symbols.length :: "" :: f.symbols.map (symbolLine shown) ++ [""]
  header shown "Symbols:" f.path ++ warning ++ body

def referenceLine (shown : Bool) (r : Reference) : String :=
  let context := match r.context with
    | some c => "  " ++ dimStyle.paint shown ("in " ++ c)
    | none => ""
  "      " ++ dimStyle.paintPadded (Text.padEnd 6) shown (toString r.line)
    ++ Text.padEnd 14 r.usage.name ++ boldStyle.paint shown r.symbol ++ context

/-- References with a line for each file where its references begin. -/
def referenceLines (shown : Bool) (file : Option String) : List ProjectReference → List String
  | [] => []
  | r :: rest =>
    let heading := if file = some r.file then []
      else ["", "    " ++ (inColour .blue).paint shown r.file]
    heading ++ referenceLine shown r.reference :: referenceLines shown (some r.file) rest

def referencesPage (shown : Bool) (target : String) (references : List ProjectReference) :
    List String :=
  let body := if references.isEmpty then ["  " ++ dimStyle.paint shown "No references found"]
    else
      counted shown "References" references.length :: referenceLines shown none references
  header shown "Target:" target ++ body ++ [""]

def changeCounts (shown : Bool) (changes : List Diff.LineChange) : String :=
  let added := (changes.filter (·.kind == .add)).length
  let deleted := changes.length - added
  "  " ++ (inColour .green).paint shown ("+" ++ toString added)
    ++ " " ++ (inColour .red).paint shown ("-" ++ toString deleted)

def versionLine (shown : Bool) (r : VersionRecord) : String :=
  let id := shortId r.version.commit.id
  let tag := match r.shade with
    | some s => (shadeStyle s).paint shown id
    | none => id
  "    " ++ tag ++ "  " ++ dimStyle.paintPadded (Text.padEnd 16) shown r.version.commit.author
    ++ r.version.commit.message ++ (r.changes.map (changeCounts shown)).getD ""

def viewLine (shown : Bool) (l : ViewLine) : String :=
  let number := dimStyle.paint shown ("    L" ++ Text.padEnd 5 (toString l.line ++ ":"))
  match l.marker, l.shade with
  | .added, some s => number ++ (shadeStyle s).paint shown ("+ " ++ l.text)
  | .deleted, some s =>
    number ++ Style.paint shown { shadeStyle s with struck := true } ("- " ++ l.text)
  | _, _ => number ++ "  " ++ l.text

def chainLines (shown : Bool) (shades : Nat) (r : ChainRecord) : List String :=
  let ending := if r.versionCount = 1 then "" else "s"
  let title := "  " ++ dimStyle.paint shown r.identity.kind.name ++ " "
    ++ boldStyle.paint shown r.identity.name ++ "  "
    ++ dimStyle.paint shown ("(" ++ toString r.versionCount ++ " version" ++ ending ++ ")")
  title :: r.versions.map (versionLine shown) ++ "" ::
    (viewLines r.compressed shades).map (viewLine shown) ++ [""]

def timelinePage (shown : Bool) (shades : Nat) (r : TimelineReport) : List String :=
  let counts := toString r.snapshotCount ++ " snapshots, " ++ toString r.chains.length ++ " symbols"
  let summary := "  " ++ dimStyle.paint shown counts
  header shown "History:" r.path ++ summary :: "" :: r.chains.flatMap (chainLines shown shades)

/-- A step with the number of its new line, or of its old line in brackets. -/
def stepLines (shown : Bool) : Diff.SideStep → List String
  | .unchanged _ j text => ["    " ++ Text.padStart 5 (toString j) ++ "   " ++ text]
  | .added j text =>
    ["    " ++ Text.padStart 5 (toString j) ++ " " ++ (inColour .green).paint shown ("+ " ++ text)]
  | .removed i text =>
    let number := dimStyle.paintPadded (Text.padStart 5) shown ("(" ++ toString i ++ ")")
    ["    " ++ number ++ " " ++ (inColour .red).paint shown ("- " ++ text)]
  | .modified _ j old new =>
    ["    " ++ Text.padStart 5 "" ++ " " ++ (inColour .red).paint shown ("- " ++ old),
      "    " ++ Text.padStart 5 (toString j) ++ " " ++ (inColour .green).paint shown ("+ " ++ new)]

def comparisonPage (shown : Bool) (c : Comparison) : List String :=
  let between := "  " ++ dimStyle.paint shown (shortId c.old.commit.id) ++ " "
    ++ dimStyle.paint shown "→" ++ " " ++ shortId c.new.commit.id
  header shown "Compare:" c.identity.describe ++ between :: "" ::
    c.steps.flatMap (stepLines shown) ++ [""]

def pageText (lines : List String) : String := String.join (lines.map (· ++ "\n"))

end SymbolHistory.Report
