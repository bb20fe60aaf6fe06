import SymbolHistory.Text.Lines

namespace SymbolHistory

inductive PathStep where
  | root
  | here
  | up
  | name (s : String)
  deriving DecidableEq, Repr

namespace Path

def stepOf (part : List Char) : PathStep :=
  if part = ['.', '.'] then .up else .name (String.ofList part)

/-- The steps of a path. A `.` counts only where it begins a relative path. -/
def steps (path : String) : List PathStep :=
  let parts := Text.pieces '/' path.toList
  let inner := (parts.filter fun p => p ≠ [] ∧ p ≠ ['.']).map stepOf
  if path.toList.head? = some '/' then .root :: inner
  else if parts.head? = some ['.'] then .here :: inner
  else inner

def isAbsolute (path : String) : Bool := path.toList.head? == some '/'

def fileName? (path : String) : Option String :=
  match (steps path).getLast? with
  | some (.name s) => some s
  | _ => none

/-- The part of a file name after its last dot; a name whose only dot is its first character has
no extension. -/
def extensionOfName? (name : List Char) : Option (List Char) :=
  match (Text.pieces '.' name).reverse with
  | last :: before :: more => if more = [] ∧ before = [] then none else some last
  | _ => none

def extension? (path : String) : Option String :=
  (fileName? path).bind fun n => (extensionOfName? n.toList).map String.ofList

def under (base path : String) : String :=
  if isAbsolute path then path
  else if base.isEmpty then path
  else if base.toList.getLast? = some '/' then base ++ path
  else base ++ "/" ++ path

/-- Parts that are no step of their own: nothing between two slashes, and a `.`. -/
def isIdle (part : List Char) : Bool := part == [] || part == ['.']

def partsAfter? : List PathStep → List (List Char) → Option (List (List Char))
  | [], parts => some parts
  | _ :: _, [] => none
  | s :: steps, p :: parts =>
    if isIdle p then partsAfter? (s :: steps) parts
    else if stepOf p = s then partsAfter? steps parts
    else none

def trimParts (parts : List (List Char)) : List (List Char) :=
  ((parts.dropWhile isIdle).reverse.dropWhile isIdle).reverse

/-- The absolute `path` as seen from the absolute `base`, when it lies there. Idle parts between
two names stay as they were written. -/
def relativeTo? (base path : String) : Option String :=
  if isAbsolute base && isAbsolute path then
    (partsAfter? ((steps base).drop 1) (Text.pieces '/' path.toList)).map fun parts =>
      String.ofList (Text.join ['/'] (trimParts parts))
  else none

/-- The path without its last step; an absolute root and an empty path have none. -/
def parent? (path : String) : Option String :=
  match ((Text.pieces '/' path.toList).reverse.dropWhile isIdle) with
  | [] => none
  | _ :: before =>
    let kept := (before.dropWhile isIdle).reverse
    let body := String.ofList (Text.join ['/'] kept)
    if isAbsolute path && kept.isEmpty then some "/" else some body

def resolve (dir path : String) : List String :=
  (steps (under dir path)).foldl (fun acc step =>
    match step with
    | .root => []
    | .here => acc
    | .up => acc.dropLast
    | .name s => acc ++ [s]) []

def absolute (names : List String) : String := "/" ++ Text.joinWith "/" names

end Path
end SymbolHistory
