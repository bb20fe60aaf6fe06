import SymbolHistory.History.Basic
import SymbolHistory.Number.Decimal
import SymbolHistory.Text.Blank

namespace SymbolHistory.Log

def recordMark : Char := Char.ofNat 0x1e

def fieldMark : Char := Char.ofNat 0x1f

/-- The commit that the first line of a record describes. Field marks in the message become
spaces. -/
def commitOf? (header : List Char) : Option Commit :=
  match Text.pieces fieldMark header with
  | id :: author :: time :: message =>
    (Decimal.integer64? (Text.trim time)).map fun timestamp =>
      ⟨String.ofList (Text.trim id), String.ofList author, timestamp,
        String.ofList (Text.join [' '] message)⟩
  | _ => none

def lastLine? (lines : List (List Char)) : Option (List Char) :=
  ((lines.map Text.trim).filter (· ≠ [])).getLast?

/-- The revision of a record; without a path it has the path that was asked for. -/
def revisionOf? (path : String) (record : List Char) : Option Revision :=
  match Text.lines record with
  | [] => none
  | header :: rest =>
    (commitOf? header).map fun commit =>
      ⟨commit, ((lastLine? rest).map String.ofList).getD path⟩

/-- The revisions of a log of `path`: a record begins with its mark, the first line holds the fields
of the commit, and the last line that is not blank is the path there. Records that are blank or
malformed are passed over. -/
def parse (log path : String) : List Revision :=
  ((Text.pieces recordMark log.toList).filter fun r => Text.trim r ≠ []).filterMap
    (revisionOf? path)

def timeText (t : Int) : List Char :=
  if t < 0 then '-' :: Decimal.digits t.natAbs else Decimal.digits t.natAbs

def record (commit : Commit) (path : Option String) : List Char :=
  let header := Text.join [fieldMark]
    [commit.id.toList, commit.author.toList, timeText commit.timestamp, commit.message.toList]
  let pathLine := match path with
    | some p => '\n' :: p.toList ++ ['\n']
    | none => []
  recordMark :: header ++ '\n' :: pathLine

def print (revisions : List (Commit × Option String)) : List Char :=
  revisions.flatMap fun (commit, path) => record commit path

end SymbolHistory.Log
