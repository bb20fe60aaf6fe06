namespace SymbolHistory

abbrev Bytes := List UInt8

namespace Text

/-- A character begun: its bits so far, how many bytes are owed, and the range of the next byte. -/
structure Begun where
  bits : Nat
  owed : Nat
  low : Nat
  high : Nat

inductive FirstByte where
  | whole (c : Char)
  | lead (b : Begun)
  | malformed

def firstByte (b : UInt8) : FirstByte :=
  let n := b.toNat
  if n < 0x80 then .whole (Char.ofNat n)
  else if n < 0xc2 then .malformed
  else if n < 0xe0 then .lead ⟨n - 0xc0, 1, 0x80, 0xbf⟩
  else if n = 0xe0 then .lead ⟨0, 2, 0xa0, 0xbf⟩
  else if n = 0xed then .lead ⟨0xd, 2, 0x80, 0x9f⟩
  else if n < 0xf0 then .lead ⟨n - 0xe0, 2, 0x80, 0xbf⟩
  else if n = 0xf0 then .lead ⟨0, 3, 0x90, 0xbf⟩
  else if n < 0xf4 then .lead ⟨n - 0xf0, 3, 0x80, 0xbf⟩
  else if n = 0xf4 then .lead ⟨4, 3, 0x80, 0x8f⟩
  else .malformed

/-- The yield of a byte between characters, and the character it begins. `none` is a malformed
run. -/
def readFirst (b : UInt8) : List (Option Char) × Option Begun :=
  match firstByte b with
  | .whole c => ([some c], none)
  | .lead g => ([], some g)
  | .malformed => ([none], none)

def readByte (state : Option Begun) (b : UInt8) : List (Option Char) × Option Begun :=
  match state with
  | none => readFirst b
  | some g =>
    let n := b.toNat
    if g.low ≤ n && n ≤ g.high then
      let bits := g.bits * 64 + (n - 0x80)
      if g.owed ≤ 1 then ([some (Char.ofNat bits)], none)
      else ([], some ⟨bits, g.owed - 1, 0x80, 0xbf⟩)
    else
      let (out, state') := readFirst b
      (none :: out, state')

def readBytes : Option Begun → Bytes → List (Option Char)
  | none, [] => []
  | some _, [] => [none]
  | state, b :: rest => (readByte state b).1 ++ readBytes (readByte state b).2 rest

/-- The text of a byte sequence with U+FFFD for each malformed run, which is a longest beginning of
a character that the next byte cannot continue, or one byte that begins none. -/
def decodeLossy (bytes : Bytes) : String :=
  String.ofList ((readBytes none bytes).map (·.getD (Char.ofNat 0xfffd)))

def decode? (bytes : Bytes) : Option String :=
  ((readBytes none bytes).mapM id).map String.ofList

def encode (s : String) : Bytes := s.toList.flatMap String.utf8EncodeChar

def byteLength (s : List Char) : Nat := s.foldl (fun n c => n + c.utf8Size) 0

theorem foldl_utf8Size (s : List Char) (n : Nat) :
    s.foldl (fun n c => n + c.utf8Size) n = n + byteLength s := by
  induction s generalizing n with
  | nil => rfl
  | cons c s ih =>
    rw [byteLength, List.foldl_cons, List.foldl_cons, ih, ih (0 + c.utf8Size)]
    omega

@[simp] theorem byteLength_nil : byteLength [] = 0 := rfl

@[simp] theorem byteLength_cons (c : Char) (s : List Char) :
    byteLength (c :: s) = c.utf8Size + byteLength s := by
  rw [byteLength, List.foldl_cons, foldl_utf8Size, Nat.zero_add]

@[simp] theorem byteLength_append (s t : List Char) :
    byteLength (s ++ t) = byteLength s + byteLength t := by
  rw [byteLength, List.foldl_append, foldl_utf8Size]
  rfl

theorem length_flatMap_utf8EncodeChar (s : List Char) :
    (s.flatMap String.utf8EncodeChar).length = byteLength s := by
  induction s with
  | nil => rfl
  | cons c s ih => simp [ih]

theorem length_encode (s : String) : (encode s).length = byteLength s.toList :=
  length_flatMap_utf8EncodeChar s.toList

end Text
end SymbolHistory
