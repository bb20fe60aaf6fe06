import SymbolHistory.Command.Run
import SymbolHistory.History.RecordedGit
import SymbolHistory.Json.Access
import SymbolHistory.Tree.Preorder

namespace SymbolHistory.Recording

/-- A node of a tree: its kind, its field, where it starts and ends, its flags and the number of
its children. -/
def nodeRow? (j : Json) : Option NodeRow :=
  match j.items with
  | [.str kind, .str field, start, stop, flags, count] => do
    let flags ← flags.nat?
    return {
      kind, field, startByte := ← start.nat?, endByte := ← stop.nat?
      isNamed := flags.testBit 0, isMissing := flags.testBit 1
      isError := flags.testBit 2, hasError := flags.testBit 3
      childCount := ← count.nat? }
  | _ => none

def tree? (j : Json) : Option Node := do
  let rows ← j.items.mapM nodeRow?
  Node.ofRows? rows

def parser (trees : List Json) : Grammar.Parser :=
  let sources := trees.map fun t =>
    (t.bytes, (((t.present? "grammars").map Json.members).getD []).map fun (g, rows) =>
      (g, tree? rows))
  fun g source => do
    let (_, grammars) ← sources.find? (·.1 == source)
    let tree ← grammars.lookup g.name
    tree

/-- What git answered; it succeeded unless another exit code is recorded. -/
def reply (j : Json) : CommandReply where
  output := j.bytes
  complaint := Text.encode (j.textOr "err" "")
  succeeded := match j.present? "rc" with
    | some (.int code) => code == 0
    | _ => true

def git (j : Json) : RecordedGit where
  toplevel := (j.present? "toplevel").map reply
  log := (j.present? "log").map reply
  contents := (((j.present? "show").map Json.members).getD []).map fun (spec, r) => (spec, reply r)

def files (base : String) (j : Json) : FileTree :=
  let names (path : String) := Path.resolve base path
  let t := FileTree.empty.makeDirectory (names "")
  let t := (j.itemsAt "files").foldl (fun t f => t.put (names (f.textOr "path" "")) f.bytes) t
  (j.textsAt "dirs").foldl (fun t d => t.makeDirectory (names d)) t

def userConfig : String := "/user/codelineage.yaml"

/-- The recorded workspace below a base directory, with a working directory in it. -/
def workspace (base : String) (j : Json) : Workspace :=
  let t := files base j
  let t := match j.text? "user_config" with
    | some text => t.put (Path.resolve "/" userConfig) (Text.encode text)
    | none => t
  ⟨t, Path.absolute (Path.resolve base (j.textOr "cwd" "")), userConfig⟩

def surroundings (base : String) (j : Json) : Surroundings (StateM (List GitCall)) :=
  let w := workspace base j
  { workspace := w
    git := (git ((j.present? "git").getD .null)).runner w
    parser := parser (j.itemsAt "trees")
    styled := j.boolOr "color" false }

end SymbolHistory.Recording
