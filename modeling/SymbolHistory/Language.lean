import SymbolHistory.Path
import SymbolHistory.Text.LetterCase

namespace SymbolHistory

inductive Language where
  | javaScript
  | typeScript
  | python
  | shell
  | powerShell
  | r
  deriving DecidableEq, Repr

namespace Language

def all : List Language := [javaScript, typeScript, python, shell, powerShell, r]

theorem mem_all (l : Language) : l ∈ all := by cases l <;> decide

def id : Language → String
  | javaScript => "javascript"
  | typeScript => "typescript"
  | python => "python"
  | shell => "shell"
  | powerShell => "powershell"
  | r => "r"

/-- Reads an identifier or one of the common short names, in any case. -/
def ofId? (s : String) : Option Language :=
  match Text.loweredAscii s with
  | "javascript" | "js" => some javaScript
  | "typescript" | "ts" => some typeScript
  | "python" | "py" => some python
  | "shell" | "bash" | "sh" => some shell
  | "powershell" | "ps1" | "pwsh" => some powerShell
  | "r" => some r
  | _ => none

def extensions : Language → List String
  | javaScript => ["js", "jsx", "mjs", "cjs"]
  | typeScript => ["ts", "tsx", "mts", "cts"]
  | python => ["py", "pyw"]
  | shell => ["sh", "bash", "zsh"]
  | powerShell => ["ps1", "psm1", "psd1"]
  | r => ["r", "R"]

def ofListedExtension? (ext : String) : Option Language :=
  all.find? fun l => l.extensions.contains ext

/-- The language of a file extension; an unlisted one is looked up again in lower case. -/
def ofExtension? (ext : String) : Option Language :=
  (ofListedExtension? ext).or (ofListedExtension? (Text.loweredAscii ext))

def ofPath? (path : String) : Option Language := (Path.extension? path).bind ofExtension?

/-- Languages of one family share their rules, so they refer to each other's symbols. -/
def family : Language → Language
  | typeScript => javaScript
  | l => l

def ignoresCase (l : Language) : Bool := l == powerShell

theorem family_family (l : Language) : l.family.family = l.family := by cases l <;> rfl

end Language
end SymbolHistory
