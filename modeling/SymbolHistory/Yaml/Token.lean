import SymbolHistory.Yaml.Tag

namespace SymbolHistory.Yaml

inductive Token where
  | directive (d : Directive)
  | documentStart
  | documentEnd
  | blockSequenceStart
  | blockMappingStart
  | blockEnd
  | flowSequenceStart
  | flowSequenceEnd
  | flowMappingStart
  | flowMappingEnd
  | blockEntry
  | flowEntry
  | key
  | value
  | aliasTo (name : String)
  | anchor (name : String)
  | tag (t : Tag)
  | scalar (style : ScalarStyle) (text : String)
  deriving DecidableEq, Repr

/-- Where a key may have begun. That it was one shows only at the colon after it. -/
structure PossibleKey where
  /-- Whether nothing but a key can stand there. -/
  isRequired : Bool
  /-- The number of tokens before it. -/
  before : Nat
  offset : Nat
  line : Nat
  column : Nat

def maxKeySize : Nat := 1024

structure Reading where
  place : Place
  /-- The tokens so far, the last first. -/
  tokens : List Token := []
  size : Nat := 0
  /-- Where a key may have begun outside of flow collections. -/
  blockKey : Option PossibleKey := none
  /-- Where a key may have begun in each open flow collection, the innermost first. -/
  flowKeys : List (Option PossibleKey) := []
  /-- Whether a key may begin here. -/
  keyAllowed : Bool := true
  /-- The columns of the open block collections, the innermost first. -/
  indents : List Nat := []

namespace Reading

def inFlow (r : Reading) : Bool := !r.flowKeys.isEmpty

def innerColumn (r : Reading) : Nat := (r.indents.head?.map (· + 1)).getD 0

def add (r : Reading) (t : Token) : Reading :=
  { r with tokens := t :: r.tokens, size := r.size + 1 }

def insert (r : Reading) (n : Nat) (t : Token) : Reading :=
  let after := r.size - n
  { r with tokens := r.tokens.take after ++ t :: r.tokens.drop after, size := r.size + 1 }

/-- Begins a block collection at a column that is deeper than those around it. Its token comes
after the first `n` ones. -/
def openBlock (r : Reading) (column n : Nat) (t : Token) : Reading :=
  if !r.inFlow && r.innerColumn ≤ column then
    { r.insert n t with indents := column :: r.indents }
  else r

def closeBlocks (r : Reading) (column : Nat) : Reading :=
  if r.inFlow then r
  else
    let closed := (r.indents.takeWhile (column < ·)).length
    { r with
      tokens := List.replicate closed .blockEnd ++ r.tokens
      size := r.size + closed
      indents := r.indents.drop closed }

def closeAllBlocks (r : Reading) : Reading :=
  if r.inFlow then r
  else
    { r with
      tokens := List.replicate r.indents.length .blockEnd ++ r.tokens
      size := r.size + r.indents.length
      indents := [] }

/-- Gives up the innermost possible key; none where it had to be one. -/
def dropKey? (r : Reading) : Option Reading :=
  match r.flowKeys, r.blockKey with
  | _ :: rest, _ => some { r with flowKeys := none :: rest }
  | [], some k => if k.isRequired then none else some { r with blockKey := none }
  | [], none => some r

def markKey? (r : Reading) : Option Reading :=
  if r.keyAllowed then do
    let r ← r.dropKey?
    let k : PossibleKey := {
      isRequired := !r.inFlow && r.indents.head? == some r.place.column
      before := r.size, offset := r.place.offset, line := r.place.line, column := r.place.column }
    return match r.flowKeys with
      | _ :: rest => { r with flowKeys := some k :: rest }
      | [] => { r with blockKey := some k }
  else some r

/-- Whether a key that may have begun at `k` can still end at a place: it is on one line and not
too long. -/
def reaches (k : PossibleKey) (p : Place) : Bool :=
  k.line == p.line && p.offset ≤ k.offset + maxKeySize

/-- Whether something that had to be a key can no longer be one. Only outside of flow collections
has something to be a key. -/
def lacksKey (r : Reading) : Bool :=
  match r.blockKey with
  | some k => k.isRequired && !reaches k r.place
  | none => false

def key? (r : Reading) : Option PossibleKey :=
  (r.flowKeys.head?.getD r.blockKey).filter (reaches · r.place)

def mark (r : Reading) (t : Token) : Reading := { r.add t with place := r.place.skip }

def endDocument? (r : Reading) : Option Reading :=
  r.closeAllBlocks.dropKey?.map ({ · with keyAllowed := false })

def directiveToken? (r : Reading) : Option Reading := do
  let r ← r.endDocument?
  let (d, place) ← directive? r.place
  return { r.add (.directive d) with place }

def markerToken? (r : Reading) : Option Reading := do
  let r ← r.endDocument?
  let t := if r.place.next? == some '-' then Token.documentStart else .documentEnd
  return { r.add t with place := r.place.skipMany 3 }

def openFlow? (r : Reading) (t : Token) : Option Reading := do
  let r ← r.markKey?
  return { r.mark t with flowKeys := none :: r.flowKeys, keyAllowed := true }

def closeFlow? (r : Reading) (t : Token) : Option Reading := do
  let r ← r.dropKey?
  return { r.mark t with flowKeys := r.flowKeys.tail, keyAllowed := false }

def flowEntry? (r : Reading) : Option Reading := do
  let r ← r.dropKey?
  return { r.mark .flowEntry with keyAllowed := true }

def blockEntry? (r : Reading) : Option Reading := do
  if r.inFlow || r.keyAllowed then
    let r ← (r.openBlock r.place.column r.size .blockSequenceStart).dropKey?
    return { r.mark .blockEntry with keyAllowed := true }
  else none

def explicitKey? (r : Reading) : Option Reading := do
  if r.inFlow || r.keyAllowed then
    let r ← (r.openBlock r.place.column r.size .blockMappingStart).dropKey?
    return { r.mark .key with keyAllowed := !r.inFlow }
  else none

/-- A colon. Where a key may have begun, that was one; else the colon stands alone. -/
def value? (r : Reading) : Option Reading :=
  match r.key? with
  | some k =>
    let r := (r.insert k.before .key).openBlock k.column k.before .blockMappingStart
    some { r.mark .value with
      blockKey := if r.inFlow then r.blockKey else none
      flowKeys := if r.inFlow then none :: r.flowKeys.tail else []
      keyAllowed := false }
  | none =>
    if r.inFlow || r.keyAllowed then
      let r := r.openBlock r.place.column r.size .blockMappingStart
      some { r.mark .value with keyAllowed := !r.inFlow }
    else none

def nameToken? (r : Reading) (t : String → Token) : Option Reading := do
  let r ← r.markKey?
  let (name, place) ← anchorName? r.place.skip
  return { r.add (t name) with place, keyAllowed := false }

def tagToken? (r : Reading) : Option Reading := do
  let r ← r.markKey?
  let (tag, place) ← tag? r.inFlow r.place
  return { r.add (.tag tag) with place, keyAllowed := false }

def blockToken? (fuel : Nat) (r : Reading) : Option Reading := do
  let r ← r.dropKey?
  let style := if r.place.next? == some '|' then ScalarStyle.literal else .folded
  let (text, place) ← block? fuel r.indents.head? r.place
  return { r.add (.scalar style (String.ofList text)) with place, keyAllowed := true }

def quotedToken? (fuel : Nat) (r : Reading) : Option Reading := do
  let r ← r.markKey?
  let (text, place) ← quoted? fuel r.place
  return { r.add (.scalar .quoted (String.ofList text)) with place, keyAllowed := false }

/-- A plain scalar; where it ended on an earlier line, a key may follow. -/
def plainToken? (fuel : Nat) (r : Reading) : Option Reading := do
  let r ← r.markKey?
  let (text, keyAllowed, place) ← plain? fuel r.inFlow r.innerColumn r.place
  return { r.add (.scalar .plain (String.ofList text)) with place, keyAllowed }

def startsPlain (flow : Bool) (c : Char) (rest : List Char) : Bool :=
  if c == '-' then !(rest.head?.map isBlank).getD false
  else if c == '?' || c == ':' then !flow && !endsWord rest
  else !(isFlowMark c || isBlank c || isBreak c
    || ['#', '&', '*', '!', '|', '>', '\'', '"', '%', '@', '\x60'].contains c)

def tokenAt? (fuel : Nat) (r : Reading) (c : Char) (rest : List Char) : Option Reading :=
  let alone := endsWord rest
  if r.place.column == 0 && c == '%' then r.directiveToken?
  else if r.place.isAtMarker then r.markerToken?
  else if c == '[' then r.openFlow? .flowSequenceStart
  else if c == '\x7b' then r.openFlow? .flowMappingStart
  else if c == ']' then r.closeFlow? .flowSequenceEnd
  else if c == '\x7d' then r.closeFlow? .flowMappingEnd
  else if c == ',' then r.flowEntry?
  else if c == '-' && alone then r.blockEntry?
  else if c == '?' && (r.inFlow || alone) then r.explicitKey?
  else if c == ':' && (r.inFlow || alone) then r.value?
  else if c == '*' then r.nameToken? .aliasTo
  else if c == '&' then r.nameToken? .anchor
  else if c == '!' then r.tagToken?
  else if (c == '|' || c == '>') && !r.inFlow then r.blockToken? fuel
  else if c == '\'' || c == '"' then r.quotedToken? fuel
  else if startsPlain r.inFlow c rest then r.plainToken? fuel
  else none

def toEnd? : Nat → Reading → Option Reading
  | 0, _ => none
  | fuel + 1, r => do
    let (keyAllowed, place) := Place.toToken r.inFlow (fuel + 1) r.keyAllowed r.place
    let r := { r with keyAllowed, place }
    if r.lacksKey then none
    else
      let r := r.closeBlocks place.column
      match place.rest with
      | [] => r.endDocument?
      | c :: rest => toEnd? fuel (← r.tokenAt? (fuel + 1) c rest)

end Reading

def tokens? (text : List Char) : Option (List Token) :=
  if text.all isPrintable then
    (Reading.toEnd? (text.length + 1) { place := { rest := text } }).map (·.tokens.reverse)
  else none

end SymbolHistory.Yaml
