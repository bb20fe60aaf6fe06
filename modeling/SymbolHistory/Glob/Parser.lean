import SymbolHistory.Glob

namespace SymbolHistory.Glob

/-- The finished branches of an open group and the parts of its last branch, the last part first. -/
structure Branches where
  finished : List Glob := []
  current : List GlobPart := []

/-- The group being read and the groups around it, the innermost first. -/
structure Draft where
  top : Branches := {}
  outer : List Branches := []

namespace Draft

def inGroup (d : Draft) : Bool := !d.outer.isEmpty

def add (d : Draft) (p : GlobPart) : Draft :=
  { d with top := { d.top with current := p :: d.top.current } }

def openGroup (d : Draft) : Draft := ⟨{}, d.top :: d.outer⟩

def nextBranch (d : Draft) : Draft :=
  { d with top := ⟨d.top.finished ++ [d.top.current.reverse], []⟩ }

def closeGroup? (d : Draft) : Option Draft :=
  match d.outer with
  | [] => none
  | around :: more =>
    some (Draft.add ⟨around, more⟩ (.choice (d.top.finished ++ [d.top.current.reverse])))

def finish? (d : Draft) : Option Glob :=
  if d.inGroup then none else some d.top.current.reverse

def addStars (d : Draft) : Draft := (d.add .anyRun).add .anyRun

/-- Puts directories in place of the last part; directories that already stand there stay where
they lead or trail. -/
def putDirectories (d : Draft) (p : GlobPart) : Draft :=
  match d.top.current with
  | .leading :: _ | .trailing :: _ => d
  | _ :: before => { d with top := { d.top with current := p :: before } }
  | [] => d.add p

def beginsComponent (d : Draft) (previous : Option Char) : Bool :=
  previous == some '/' || (d.inGroup && (previous == some ',' || previous == some '\x7b'))

def endsBranch (d : Draft) : List Char → Bool
  | [] => true
  | c :: _ => d.inGroup && (c == ',' || c == '\x7d')

end Draft

/-- The ranges of a class, the last first. A dash joins the range before it to the character after
it; first or last it stands for itself. -/
def classRanges? : List (Char × Char) → Bool → List Char → Option (List (Char × Char))
  | ranges, dashed, [] => some (if dashed then ('-', '-') :: ranges else ranges)
  | (a, _) :: ranges, true, c :: rest =>
    if a ≤ c then classRanges? ((a, c) :: ranges) false rest else none
  | [], true, _ :: _ => none
  | ranges, false, c :: rest =>
    if c = '-' ∧ ranges ≠ [] then classRanges? ranges true rest
    else classRanges? ((c, c) :: ranges) false rest

/-- The characters of a class up to its bracket, and the rest. A bracket that comes first stands for
itself. -/
def classBody? : List Char → Option (List Char × List Char)
  | [] => none
  | c :: rest =>
    match rest.dropWhile (· != ']') with
    | [] => none
    | _ :: after => some (c :: rest.takeWhile (· != ']'), after)

theorem length_lt_of_classBody? {s body after : List Char}
    (h : classBody? s = some (body, after)) : after.length < s.length := by
  cases s with
  | nil => simp [classBody?] at h
  | cons c rest =>
    rw [classBody?] at h
    split at h
    · simp at h
    · rename_i b after' heq
      have hle := (List.dropWhile_sublist (· != ']') (l := rest)).length_le
      simp only [Option.some.injEq, Prod.mk.injEq] at h
      rw [heq, h.2] at hle
      simp only [List.length_cons] at hle ⊢
      omega

def class? (s : List Char) : Option (GlobPart × { r : List Char // r.length ≤ s.length }) :=
  let negated := s.head? == some '!' || s.head? == some '^'
  let inner := if negated then s.tail else s
  match h : classBody? inner with
  | none => none
  | some (body, after) =>
    (classRanges? [] false body).map fun ranges =>
      (.oneOf negated ranges, ⟨after, by
        have hlt := length_lt_of_classBody? h
        have hle : inner.length ≤ s.length := by
          dsimp only [inner]
          split <;> simp
        omega⟩)

def readFrom (d : Draft) (previous : Option Char) : List Char → Option Glob
  | [] => d.finish?
  | '*' :: '*' :: rest =>
    if d.top.current.isEmpty then
      if rest.isEmpty || rest.head? == some '/' then
        readFrom (d.add .leading) (some '/') rest.tail
      else readFrom d.addStars (some '*') rest
    else if !d.beginsComponent previous then readFrom d.addStars (some '*') rest
    else if d.endsBranch rest then readFrom (d.putDirectories .trailing) (some '*') rest
    else if rest.head? == some '/' then
      readFrom (d.putDirectories .between) (some '/') rest.tail
    else readFrom d.addStars (some '*') rest
  | c :: rest =>
    match c with
    | '?' => readFrom (d.add .anyByte) (some c) rest
    | '*' => readFrom (d.add .anyRun) (some c) rest
    | '[' =>
      match class? rest with
      | none => none
      | some (p, ⟨after, _⟩) => readFrom (d.add p) (some ']') after
    | '\x7b' => readFrom d.openGroup (some c) rest
    | '\x7d' =>
      match d.closeGroup? with
      | none => none
      | some d' => readFrom d' (some c) rest
    | ',' => readFrom (if d.inGroup then d.nextBranch else d.add (.literal c)) (some c) rest
    | '\\' =>
      match rest with
      | [] => none
      | e :: more => readFrom (d.add (.literal e)) (some e) more
    | _ => readFrom (d.add (.literal c)) (some c) rest
termination_by s => s.length
decreasing_by all_goals simp only [List.length_cons, List.length_tail]; omega

/-- Reads a pattern. None where a class or a group is not closed, a group is closed that is not
open, a range runs backwards or nothing follows a backslash. -/
def parse? (text : String) : Option Glob := readFrom {} none text.toList

end SymbolHistory.Glob
