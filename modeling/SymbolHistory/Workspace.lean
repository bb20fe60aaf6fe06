import SymbolHistory.FileTree

namespace SymbolHistory

structure Workspace where
  /-- All files, from the root. -/
  files : FileTree
  /-- The working directory, absolute. -/
  directory : String
  /-- The configuration file of the user, which need not exist. -/
  userConfig : String

namespace Workspace

def locate (w : Workspace) (path : String) : Except ReadFault (List String × FileTree) :=
  if path.toList.contains '\x00' then .error .zeroInPath
  else if path.isEmpty then .error .missing
  else w.files.locate (Path.under w.directory path)

def maxPathSize : Nat := 4095

/-- What a path names, when it is followed in one go. -/
def find (w : Workspace) (path : String) : Except ReadFault FileTree :=
  if path.toList.contains '\x00' then .error .zeroInPath
  else if maxPathSize < path.utf8ByteSize then .error .tooLong
  else (w.locate path).map Prod.snd

/-- The absolute path of what `path` names, without detours. It is found part by part, so that only
the parts have a greatest size. -/
def resolve (w : Workspace) (path : String) : Except ReadFault String :=
  (w.locate path).map fun (names, _) => Path.absolute names

def isDirectory (w : Workspace) (path : String) : Bool :=
  match w.find path with
  | .ok t => t.isDirectory
  | .error _ => false

def isFile (w : Workspace) (path : String) : Bool :=
  match w.find path with
  | .ok t => !t.isDirectory
  | .error _ => false

def readBytes (w : Workspace) (path : String) : Except ReadFault Bytes := do
  let t ← w.find path
  t.content

def readText (w : Workspace) (path : String) : Except ReadFault String := do
  let bytes ← w.readBytes path
  match Text.decode? bytes with
  | some text => .ok text
  | none => .error .notText

end Workspace
end SymbolHistory
