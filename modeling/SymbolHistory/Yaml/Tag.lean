import SymbolHistory.Text.Utf8
import SymbolHistory.Yaml.Scalar

namespace SymbolHistory.Yaml

def isNameChar (c : Char) : Bool := c.isAlphanum || c == '_' || c == '-'

def anchorName? (p : Place) : Option (String × Place) :=
  let (name, p) := p.takeWhile isNameChar
  let ended := endsWord p.rest
    || (p.next?.map fun c => ['?', ':', ',', ']', '\x7d', '%', '@', '\x60'].contains c).getD false
  if name.isEmpty || !ended then none else some (String.ofList name, p)

/-- Characters of tags; inside of angle brackets and in directives there are more. -/
def isTagChar (wide : Bool) (c : Char) : Bool :=
  isNameChar c || ";/?:@&=+$.!~*'()%".toList.contains c || (wide && [',', '[', ']'].contains c)

def tagByte? : List Char → Option UInt8
  | '%' :: a :: b :: _ => do return (16 * (← Json.hexValue? a) + (← Json.hexValue? b)).toUInt8
  | _ => none

def sequenceSize? (b : UInt8) : Option Nat :=
  if b < 0x80 then some 1
  else if b &&& 0xe0 == 0xc0 then some 2
  else if b &&& 0xf0 == 0xe0 then some 3
  else if b &&& 0xf8 == 0xf0 then some 4
  else none

def furtherBytes? : Nat → Bytes → Place → Option (Bytes × Place)
  | 0, read, p => some (read, p)
  | n + 1, read, p => do
    let b ← tagByte? p.rest
    if b &&& 0xc0 == 0x80 then furtherBytes? n (b :: read) (p.skipMany 3) else none

/-- Reads the characters of a tag on; `read` holds its bytes, the last first. -/
def tagBytesFrom? (wide : Bool) : Nat → Bytes → Place → Option (Bytes × Place)
  | 0, _, _ => none
  | fuel + 1, read, p =>
    match p.next? with
    | some c =>
      if !isTagChar wide c then some (read.reverse, p)
      else if c == '%' then do
        let b ← tagByte? p.rest
        let size ← sequenceSize? b
        let (read, p) ← furtherBytes? (size - 1) (b :: read) (p.skipMany 3)
        tagBytesFrom? wide fuel read p
      else tagBytesFrom? wide fuel (c.toUInt8 :: read) p.skip
    | none => some (read.reverse, p)

/-- A name in a tag: the characters `before`, which were read as a handle, and those that follow. It
ends before a zero, and is not empty unless a lone sign was read. -/
def tagName? (wide : Bool) (before : Option (List Char)) (p : Place) : Option (Bytes × Place) := do
  let start := (before.getD []).drop 1
  let fuel := (p.rest.takeWhile (isTagChar wide)).length + 1
  let (bytes, q) ← tagBytesFrom? wide fuel (start.map Char.toUInt8).reverse p
  if before.isNone && bytes.isEmpty then none else some (bytes.takeWhile (· != 0), q)

/-- A handle: a sign, and a name that may end with another sign. -/
def handle? (p : Place) : Option (List Char × Place) :=
  if p.next? == some '!' then
    let (name, p) := p.skip.takeWhile isNameChar
    if p.next? == some '!' then some ('!' :: name ++ ['!'], p.skip) else some ('!' :: name, p)
  else none

structure Tag where
  handle : List Char
  name : Bytes
  deriving DecidableEq, Repr

def isWholeHandle (handle : List Char) : Bool := 1 < handle.length && handle.getLast? == some '!'

def Tag.lone : Tag := ⟨[], Text.encode "!"⟩

def bracketedTag? (p : Place) : Option (Tag × Place) := do
  let (name, p) ← tagName? true none p.skip
  if p.next? == some '>' then some (⟨[], name⟩, p.skip) else none

def handledTag? (p : Place) : Option (Tag × Place) := do
  let (handle, p) ← handle? p
  if isWholeHandle handle then
    let (name, p) ← tagName? false none p
    return (⟨handle, name⟩, p)
  else
    let (name, p) ← tagName? false (some handle) p
    return (if name.isEmpty then .lone else ⟨['!'], name⟩, p)

def tag? (flow : Bool) (p : Place) : Option (Tag × Place) := do
  let (tag, p) ← if p.rest.tail.head? == some '<' then bracketedTag? p.skip else handledTag? p
  if endsWord p.rest || (flow && p.next? == some ',') then some (tag, p) else none

inductive Directive where
  | version (major minor : Nat)
  /-- What a handle stands for. -/
  | tag (handle : List Char) (meaning : Bytes)
  deriving DecidableEq, Repr

def versionNumber? (p : Place) : Option (Nat × Place) :=
  let (digits, p) := p.takeWhile Char.isDigit
  if digits.length ≤ 9 then (Decimal.natural? digits).map (·, p) else none

def version? (p : Place) : Option (Directive × Place) := do
  let (major, p) ← versionNumber? (p.skipWhile isBlank)
  if p.next? == some '.' then
    let (minor, p) ← versionNumber? p.skip
    return (.version major minor, p)
  else none

def tagMeaning? (p : Place) : Option (Directive × Place) := do
  let (handle, p) ← handle? (p.skipWhile isBlank)
  if (isWholeHandle handle || handle.length == 1) && p.isAtBlank then
    let (meaning, p) ← tagName? true none (p.skipWhile isBlank)
    if endsWord p.rest then some (.tag handle meaning, p) else none
  else none

def directive? (p : Place) : Option (Directive × Place) := do
  let (name, p) := p.skip.takeWhile isNameChar
  if !endsWord p.rest then none
  else
    let (d, p) ←
      if name == "YAML".toList then version? p
      else if name == "TAG".toList then tagMeaning? p
      else none
    return (d, ← p.nextLine?)

end SymbolHistory.Yaml
