import SymbolHistory.Error
import SymbolHistory.Path
import SymbolHistory.Text.Utf8

namespace SymbolHistory

inductive FileTree where
  | file (content : Bytes)
  | directory (entries : List (String × FileTree))

namespace FileTree

def empty : FileTree := .directory []

def isDirectory : FileTree → Bool
  | directory _ => true
  | file _ => false

def entries : FileTree → List (String × FileTree)
  | directory es => es
  | file _ => []

def maxNameSize : Nat := 255

/-- Follows the parts of a path. `above` holds the way from the root, the last step first: the name
of each step and the directory it was taken in. -/
def follow (above : List (String × FileTree)) (t : FileTree) :
    List (List Char) → Except ReadFault (List String × FileTree)
  | [] => .ok ((above.map Prod.fst).reverse, t)
  | part :: parts =>
    if !t.isDirectory then .error .notDirectory
    else if Path.isIdle part then follow above t parts
    else if part = ['.', '.'] then
      match above with
      | [] => follow [] t parts
      | (_, up) :: rest => follow rest up parts
    else if maxNameSize < (String.ofList part).utf8ByteSize then .error .tooLong
    else
      match t.entries.lookup (String.ofList part) with
      | none => .error .missing
      | some next => follow ((String.ofList part, t) :: above) next parts

def locate (root : FileTree) (path : String) : Except ReadFault (List String × FileTree) :=
  if path.isEmpty then .error .missing else follow [] root (Text.pieces '/' path.toList)

def content : FileTree → Except ReadFault Bytes
  | file bytes => .ok bytes
  | directory _ => .error .isDirectory

def setEntry (name : String) (t : FileTree) : List (String × FileTree) → List (String × FileTree)
  | [] => [(name, t)]
  | e :: rest => if e.1 = name then (name, t) :: rest else e :: setEntry name t rest

/-- Changes what stands at a path given by its names; missing directories are made. -/
def update (change : Option FileTree → FileTree) : List String → Option FileTree → FileTree
  | [], t => change t
  | name :: rest, t =>
    let es := (t.map entries).getD []
    .directory (setEntry name (update change rest (es.lookup name)) es)

def put (t : FileTree) (names : List String) (content : Bytes) : FileTree :=
  update (fun _ => .file content) names (some t)

def makeDirectory (t : FileTree) (names : List String) : FileTree :=
  update (fun t => .directory ((t.map entries).getD [])) names (some t)

mutual

/-- The files of a tree by the names on the way to them. Entries are passed over, with all that is
in them, where `keep` says so. -/
def filesBelow (keep : String → FileTree → Bool) : FileTree → List (List String)
  | file _ => [[]]
  | directory es => filesOfEntries keep es

def filesOfEntries (keep : String → FileTree → Bool) :
    List (String × FileTree) → List (List String)
  | [] => []
  | (name, t) :: rest =>
    let here := if keep name t then (filesBelow keep t).map (name :: ·) else []
    here ++ filesOfEntries keep rest

end

end FileTree
end SymbolHistory
