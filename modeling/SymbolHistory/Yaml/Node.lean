import SymbolHistory.Yaml.Token

namespace SymbolHistory.Yaml

structure Scalar where
  style : ScalarStyle
  text : String
  tag : Option Bytes := none
  deriving DecidableEq, Repr

inductive Node where
  | scalar (s : Scalar)
  | sequence (items : List Node)
  | mapping (entries : List (Node × Node))
  | aliasTo (number : Nat)
  | anchored (number : Nat) (node : Node)
  deriving Repr

namespace Node

def nothing : Node := .scalar ⟨.plain, "", none⟩

/-- Tokens that have not been used, and the numbers of the names so far. -/
structure Feed where
  tokens : List Token
  /-- Names of anchors with their numbers, the latest first. -/
  names : List (String × Nat) := []
  /-- How many different names there are. -/
  count : Nat := 0

abbrev Handles := List (List Char × Bytes)

abbrev Reader (α : Type) := Feed → Option (α × Feed)

namespace Feed

def next? (f : Feed) : Option Token := f.tokens.head?

def skip (f : Feed) : Feed := { f with tokens := f.tokens.tail }

/-- Gives a name its number: an anchor gets that of the different names before it, an alias that of
the last anchor of its name. -/
def name (f : Feed) (name : String) : Nat × Feed :=
  (f.count, { f with
    names := (name, f.count) :: f.names
    count := if (f.names.lookup name).isSome then f.count else f.count + 1 })

end Feed

structure Properties where
  anchor : Option String := none
  tag : Option Tag := none

/-- Reads at most one anchor and one tag, in either order. -/
def properties (f : Feed) : Properties × Feed :=
  match f.tokens with
  | .anchor a :: .tag t :: _ | .tag t :: .anchor a :: _ => (⟨some a, some t⟩, f.skip.skip)
  | .anchor a :: _ => (⟨some a, none⟩, f.skip)
  | .tag t :: _ => (⟨none, some t⟩, f.skip)
  | _ => ({}, f)

def fullTag? (handles : Handles) (t : Tag) : Option Bytes :=
  if t.handle.isEmpty then some t.name else (handles.lookup t.handle).map (· ++ t.name)

def comes (f : Feed) (ts : List Token) : Bool := (f.next?.map ts.contains).getD false

def orNothing (ts : List Token) (read : Reader Node) : Reader Node := fun f =>
  if comes f ts then some (nothing, f) else read f

mutual

/-- Reads a node. Block collections count only where `block` says so, and entries without a deeper
indentation only where `entries` says so. -/
def read? (handles : Handles) (block entries : Bool) : Nat → Reader Node
  | 0, _ => none
  | fuel + 1, f =>
    match f.next? with
    | some (.aliasTo name) => (f.names.lookup name).map fun n => (.aliasTo n, f.skip)
    | _ => do
      let (ps, f) := properties f
      let tag ← match ps.tag with
        | some t => (fullTag? handles t).map some
        | none => some none
      let (number, f) := match ps.anchor with
        | some a => let (n, f) := f.name a; (some n, f)
        | none => (none, f)
      let (node, f) ← content? handles block entries (ps.anchor.isSome || tag.isSome) tag fuel f
      return (match number with
        | some n => .anchored n node
        | none => node, f)

def content? (handles : Handles) (block entries hasProperties : Bool) (tag : Option Bytes) :
    Nat → Reader Node
  | 0, _ => none
  | fuel + 1, f =>
    match f.next? with
    | some (.scalar style text) => some (.scalar ⟨style, text, tag⟩, f.skip)
    | some .flowSequenceStart => do
      let (items, f) ← flowItems? handles true fuel f.skip
      return (.sequence items, f)
    | some .flowMappingStart => do
      let (es, f) ← flowEntries? handles true fuel f.skip
      return (.mapping es, f)
    | t =>
      if entries && t == some .blockEntry then do
        let (items, f) ← looseItems? handles fuel f
        return (.sequence items, f)
      else if block && t == some .blockSequenceStart then do
        let (items, f) ← blockItems? handles fuel f.skip
        return (.sequence items, f)
      else if block && t == some .blockMappingStart then do
        let (es, f) ← blockEntries? handles fuel f.skip
        return (.mapping es, f)
      else if hasProperties then some (.scalar ⟨.plain, "", tag⟩, f)
      else none

def blockItems? (handles : Handles) : Nat → Reader (List Node)
  | 0, _ => none
  | fuel + 1, f =>
    match f.next? with
    | some .blockEntry => do
      let (item, f) ← orNothing [.blockEntry, .blockEnd] (read? handles true false fuel) f.skip
      let (items, f) ← blockItems? handles fuel f
      return (item :: items, f)
    | some .blockEnd => some ([], f.skip)
    | _ => none

/-- The items of a sequence that is not deeper than the mapping around it. -/
def looseItems? (handles : Handles) : Nat → Reader (List Node)
  | 0, _ => none
  | fuel + 1, f =>
    match f.next? with
    | some .blockEntry => do
      let (item, f) ←
        orNothing [.blockEntry, .key, .value, .blockEnd] (read? handles true false fuel) f.skip
      let (items, f) ← looseItems? handles fuel f
      return (item :: items, f)
    | _ => some ([], f)

def blockEntries? (handles : Handles) : Nat → Reader (List (Node × Node))
  | 0, _ => none
  | fuel + 1, f =>
    match f.next? with
    | some .key => do
      let (k, f) ← orNothing [.key, .value, .blockEnd] (read? handles true true fuel) f.skip
      let (v, f) ← blockValue? handles fuel f
      let (es, f) ← blockEntries? handles fuel f
      return ((k, v) :: es, f)
    | some .blockEnd => some ([], f.skip)
    | _ => none

def blockValue? (handles : Handles) : Nat → Reader Node
  | 0, _ => none
  | fuel + 1, f =>
    match f.next? with
    | some .value => orNothing [.key, .value, .blockEnd] (read? handles true true fuel) f.skip
    | _ => some (nothing, f)

def flowItems? (handles : Handles) (first : Bool) : Nat → Reader (List Node)
  | 0, _ => none
  | fuel + 1, f =>
    if f.next? == some .flowSequenceEnd then some ([], f.skip)
    else if !first && f.next? != some .flowEntry then none
    else
      let f := if first then f else f.skip
      match f.next? with
      | some .flowSequenceEnd => some ([], f.skip)
      | some .key => do
        let (item, f) ← flowPair? handles fuel f.skip
        let (items, f) ← flowItems? handles false fuel f
        return (item :: items, f)
      | _ => do
        let (item, f) ← read? handles false false fuel f
        let (items, f) ← flowItems? handles false fuel f
        return (item :: items, f)

/-- A mapping of one entry in a flow sequence, after the sign of its key. A token that shows that
the key is left out is used up by it. -/
def flowPair? (handles : Handles) : Nat → Reader Node
  | 0, _ => none
  | fuel + 1, f => do
    let (k, f) ←
      if comes f [.value, .flowEntry, .flowSequenceEnd] then some (nothing, f.skip)
      else read? handles false false fuel f
    let (v, f) ← flowValue? handles .flowSequenceEnd fuel f
    return (.mapping [(k, v)], f)

def flowValue? (handles : Handles) (last : Token) : Nat → Reader Node
  | 0, _ => none
  | fuel + 1, f =>
    match f.next? with
    | some .value => orNothing [.flowEntry, last] (read? handles false false fuel) f.skip
    | _ => some (nothing, f)

def flowEntries? (handles : Handles) (first : Bool) : Nat → Reader (List (Node × Node))
  | 0, _ => none
  | fuel + 1, f =>
    if f.next? == some .flowMappingEnd then some ([], f.skip)
    else if !first && f.next? != some .flowEntry then none
    else
      let f := if first then f else f.skip
      match f.next? with
      | some .flowMappingEnd => some ([], f.skip)
      | some .key => do
        let (k, f) ←
          orNothing [.value, .flowEntry, .flowMappingEnd] (read? handles false false fuel) f.skip
        let (v, f) ← flowValue? handles .flowMappingEnd fuel f
        let (es, f) ← flowEntries? handles false fuel f
        return ((k, v) :: es, f)
      | _ => do
        let (k, f) ← read? handles false false fuel f
        let (es, f) ← flowEntries? handles false fuel f
        return ((k, nothing) :: es, f)

end

end Node
end SymbolHistory.Yaml
