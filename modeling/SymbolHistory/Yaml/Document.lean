import SymbolHistory.Yaml.Node

namespace SymbolHistory.Yaml

namespace Node

mutual

def anchors : Node → List (Nat × Node)
  | scalar _ | aliasTo _ => []
  | sequence items => anchorsOfItems items
  | mapping entries => anchorsOfEntries entries
  | anchored n node => (n, node) :: anchors node

def anchorsOfItems : List Node → List (Nat × Node)
  | [] => []
  | v :: rest => anchors v ++ anchorsOfItems rest

def anchorsOfEntries : List (Node × Node) → List (Nat × Node)
  | [] => []
  | (k, v) :: rest => anchors k ++ anchors v ++ anchorsOfEntries rest

end

end Node

/-- A node and the nodes its aliases stand for. An anchor may stand around its own alias, so aliases
are followed only when they are looked at. -/
structure Document where
  root : Node
  /-- What each number stands for, the latest first. -/
  targets : List (Nat × Node) := []

namespace Document

def follow? (d : Document) : Node → Option Node
  | .aliasTo n => d.targets.lookup n
  | .anchored _ node => some node
  | node => some node

def commonHandles : Node.Handles :=
  [(['!'], Text.encode "!"), (['!', '!'], Text.encode "tag:yaml.org,2002:")]

/-- Whether the versions are known, and neither a version nor the meaning of a handle is given
twice. -/
def areSound (ds : List Directive) : Bool :=
  let versions := ds.filterMap fun
    | .version major minor => some (major, minor)
    | .tag .. => none
  let handles := ds.filterMap fun
    | .tag handle _ => some handle
    | .version .. => none
  versions.length ≤ 1 && versions.all (fun v => v == (1, 1) || v == (1, 2))
    && handles.eraseDups.length == handles.length

def handlesOf (ds : List Directive) : Node.Handles :=
  (ds.filterMap fun
    | .tag handle meaning => some (handle, meaning)
    | .version .. => none) ++ commonHandles

def isDirective : Token → Bool
  | .directive _ => true
  | _ => false

def directivesIn (ts : List Token) : List Directive :=
  ts.filterMap fun
    | .directive d => some d
    | _ => none

def isOutside : List Token → Bool
  | [] | .documentStart :: _ | .documentEnd :: _ | .directive _ :: _ => true
  | _ => false

def node? (handles : Node.Handles) (ts : List Token) : Option (Node × List Token) :=
  (Node.read? handles true false (4 * ts.length + 8) { tokens := ts }).map fun (v, f) =>
    (v, f.tokens)

/-- The first document and the tokens after it. Its start is marked after directives, and need not
be elsewhere. -/
def first? (ts : List Token) : Option (Node × List Token) :=
  match ts with
  | .directive _ :: _ | .documentStart :: _ => do
    let directives := directivesIn (ts.takeWhile isDirective)
    let rest := ts.dropWhile isDirective
    if areSound directives && rest.head? == some .documentStart then
      if isOutside rest.tail then some (.nothing, rest.tail)
      else node? (handlesOf directives) rest.tail
    else none
  | _ => node? commonHandles ts

def parse? (text : String) : Option Document := do
  let ts ← tokens? text.toList
  if ts.isEmpty then return ⟨.nothing, []⟩
  else
    let (root, rest) ← first? ts
    if rest.all (· == .documentEnd) then return ⟨root, root.anchors.reverse⟩ else none

end Document
end SymbolHistory.Yaml
