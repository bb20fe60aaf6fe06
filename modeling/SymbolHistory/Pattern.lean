import SymbolHistory.Text.Blank
import SymbolHistory.Text.CaseFolding
import SymbolHistory.Text.WordChar

namespace SymbolHistory

inductive Pattern where
  /-- One character of a class. -/
  | one (p : Char → Bool)
  | empty
  | seq (a b : Pattern)
  | alt (a b : Pattern)
  /-- Any number of characters of a class, as many as possible first. -/
  | run (p : Char → Bool)
  /-- Any number of repetitions that each pass something, as many as possible first. -/
  | many (a : Pattern)
  /-- A match whose text is kept under a number. -/
  | group (n : Nat) (a : Pattern)
  /-- Between a word character and another or none. -/
  | wordEdge
  | finish

namespace Pattern

/-- A captured text: the first `size` characters of `source`. -/
structure Capture where
  number : Nat
  source : List Char
  size : Nat

structure Cursor where
  /-- The number of characters passed. -/
  position : Nat
  /-- The character just passed. -/
  passed : Option Char
  rest : List Char
  /-- The texts captured so far, the latest first. -/
  captures : List Capture

def Cursor.advance (c : Cursor) (x : Char) (rest : List Char) : Cursor :=
  ⟨c.position + 1, some x, rest, c.captures⟩

def Cursor.capture (n : Nat) (c d : Cursor) : Cursor :=
  { d with captures := ⟨n, c.rest, d.position - c.position⟩ :: d.captures }

/-- The places along a run of characters of a class, the farthest first, and then those of
`back`. -/
def runEnds (p : Char → Bool) (position : Nat) (passed : Option Char) (captures : List Capture) :
    List Char → List Cursor → List Cursor
  | [], back => ⟨position, passed, [], captures⟩ :: back
  | x :: rest, back =>
    let here := ⟨position, passed, x :: rest, captures⟩ :: back
    if p x then runEnds p (position + 1) (some x) captures rest here else here

/-- The ends of at most `fuel` repetitions of a step that each pass something. -/
def repeatEnds (step : Cursor → List Cursor) : Nat → Cursor → List Cursor
  | 0, c => [c]
  | fuel + 1, c =>
    ((step c).filter fun d => c.position < d.position).flatMap (repeatEnds step fuel) ++ [c]

def isWordAt (c : Option Char) : Bool := (c.map Text.isWordChar).getD false

def Cursor.atWordEdge (c : Cursor) : Bool := isWordAt c.passed != isWordAt c.rest.head?

/-- The ends of a pattern from a place, the preferred one first: of two alternatives those of the
left, of repetitions the longer. -/
def ends : Pattern → Cursor → List Cursor
  | one p, c =>
    match c.rest with
    | x :: rest => if p x then [c.advance x rest] else []
    | [] => []
  | empty, c => [c]
  | seq a b, c => (a.ends c).flatMap b.ends
  | alt a b, c => a.ends c ++ b.ends c
  | run p, c => runEnds p c.position c.passed c.captures c.rest []
  | many a, c => repeatEnds a.ends c.rest.length c
  | group n a, c => (a.ends c).map (c.capture n)
  | wordEdge, c => if c.atWordEdge then [c] else []
  | finish, c => if c.rest.isEmpty then [c] else []

def repeatFirst? {α : Type} (step : Cursor → (Cursor → Option α) → Option α)
    (k : Cursor → Option α) : Nat → Cursor → Option α
  | 0, c => k c
  | fuel + 1, c =>
    match step c fun d => if c.position < d.position then repeatFirst? step k fuel d else none with
    | some a => some a
    | none => k c

/-- What comes of the preferred end of a pattern that something comes of. -/
def first? {α : Type} : Pattern → Cursor → (Cursor → Option α) → Option α
  | one p, c, k =>
    match c.rest with
    | x :: rest => if p x then k (c.advance x rest) else none
    | [] => none
  | empty, c, k => k c
  | seq a b, c, k => a.first? c fun d => b.first? d k
  | alt a b, c, k =>
    match a.first? c k with
    | some r => some r
    | none => b.first? c k
  | run p, c, k => (runEnds p c.position c.passed c.captures c.rest []).findSome? k
  | many a, c, k => repeatFirst? a.first? k c.rest.length c
  | group n a, c, k => a.first? c fun d => k (c.capture n d)
  | wordEdge, c, k => if c.atWordEdge then k c else none
  | finish, c, k => if c.rest.isEmpty then k c else none

theorem findSome?_flatMap {α β γ : Type} (xs : List α) (f : α → List β) (k : β → Option γ) :
    (xs.flatMap f).findSome? k = xs.findSome? fun x => (f x).findSome? k := by
  induction xs with
  | nil => rfl
  | cons x xs ih =>
    simp only [List.flatMap_cons, List.findSome?_append, ih, List.findSome?_cons]
    cases (f x).findSome? k <;> rfl

theorem findSome?_filter {α γ : Type} (xs : List α) (p : α → Bool) (k : α → Option γ) :
    (xs.filter p).findSome? k = xs.findSome? fun x => if p x then k x else none := by
  induction xs with
  | nil => rfl
  | cons x xs ih => cases h : p x <;> simp [List.findSome?_cons, h, ih]

theorem repeatFirst?_eq {α : Type} {step : Cursor → List Cursor}
    {step? : Cursor → (Cursor → Option α) → Option α}
    (h : ∀ c k, step? c k = (step c).findSome? k) (k : Cursor → Option α) (fuel : Nat)
    (c : Cursor) : repeatFirst? step? k fuel c = (repeatEnds step fuel c).findSome? k := by
  induction fuel generalizing c with
  | zero => simp [repeatFirst?, repeatEnds]
  | succ fuel ih =>
    rw [repeatFirst?, repeatEnds, h, List.findSome?_append, findSome?_flatMap, findSome?_filter]
    simp only [ih, decide_eq_true_eq, List.findSome?_singleton]
    cases (step c).findSome? _ <;> rfl

theorem first?_eq {α : Type} (p : Pattern) (c : Cursor) (k : Cursor → Option α) :
    p.first? c k = (p.ends c).findSome? k := by
  induction p generalizing c k with
  | one p =>
    rw [first?, ends]
    cases c.rest with
    | nil => rfl
    | cons x rest => dsimp only; split <;> simp
  | empty => simp [first?, ends]
  | seq a b iha ihb => simp only [first?, ends, iha, ihb, findSome?_flatMap]
  | alt a b iha ihb =>
    simp only [first?, ends, iha, ihb, List.findSome?_append]
    cases (a.ends c).findSome? k <;> rfl
  | run p => rw [first?, ends]
  | many a ih => exact repeatFirst?_eq ih k _ c
  | group n a ih => simp only [first?, ends, ih, List.findSome?_map]; rfl
  | wordEdge => rw [first?, ends]; split <;> simp
  | finish => rw [first?, ends]; split <;> simp

instance : Append Pattern := ⟨seq⟩

def opt (a : Pattern) : Pattern := alt a empty

def run1 (p : Char → Bool) : Pattern := seq (one p) (run p)

def lit (s : String) : Pattern := s.toList.foldr (fun c p => seq (one (· == c)) p) empty

/-- This text, up to simple case folding. -/
def folded (s : String) : Pattern := s.toList.foldr (fun c p => seq (one (Text.eqFolded c)) p) empty

def oneOf : List Pattern → Pattern
  | [] => one fun _ => false
  | [a] => a
  | a :: b :: rest => alt a (oneOf (b :: rest))

def lits (ss : List String) : Pattern := oneOf (ss.map lit)

def foldeds (ss : List String) : Pattern := oneOf (ss.map folded)

def anyOf (cs : List Char) : Pattern := one cs.contains

def other (c : Char) : Pattern := one (· != c)

def others (c : Char) : Pattern := run (· != c)

def others1 (c : Char) : Pattern := run1 (· != c)

def nonBlank : Pattern := one fun c => !Text.isBlank c

def nonBlanks : Pattern := run1 fun c => !Text.isBlank c

def wordRun : Pattern := run Text.isWordChar

def word : Pattern := run1 Text.isWordChar

def blanks : Pattern := run Text.isBlank

def gap : Pattern := run1 Text.isBlank

def start (line : List Char) : Cursor := ⟨0, none, line, []⟩

def matchStart? (p : Pattern) (line : List Char) : Option Cursor := p.first? (start line) some

theorem matchStart?_eq (p : Pattern) (line : List Char) :
    p.matchStart? line = (p.ends (start line)).head? := by
  rw [matchStart?, first?_eq]
  cases p.ends (start line) <;> rfl

def searchFrom? (p : Pattern) (passed : Option Char) (rest : List Char) : Option Cursor :=
  match p.first? ⟨0, passed, rest, []⟩ some, rest with
  | some c, _ => some c
  | none, [] => none
  | none, x :: more => searchFrom? p (some x) more

def search? (p : Pattern) (line : List Char) : Option Cursor := searchFrom? p none line

def matchesStart (p : Pattern) (line : List Char) : Bool := (p.matchStart? line).isSome

def occurs (p : Pattern) (line : List Char) : Bool := (p.search? line).isSome

def Capture.text (c : Capture) : List Char := c.source.take c.size

def Cursor.captured? (c : Cursor) (n : Nat) : Option String :=
  (c.captures.find? (·.number == n)).map fun g => String.ofList g.text

end Pattern
end SymbolHistory
