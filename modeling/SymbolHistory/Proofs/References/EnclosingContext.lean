import SymbolHistory.Proofs.References.OwnLine

namespace SymbolHistory

/-- The frames that nodes add, the innermost first. -/
def framesAlong (frame? : Node → Option Node → Option Frame) : List Node → List Frame
  | [] => []
  | a :: rest => (frame? a rest.head?).toList ++ framesAlong frame? rest

def Frame.className? : Frame → Option String
  | «class» name => some name
  | function _ => none

/-- The name of a function, qualified by the innermost class among the frames outside it. -/
def qualifiedBy (outer : List Frame) (f : String) : String :=
  match outer.findSome? Frame.className? with
  | some c => c ++ "." ++ f
  | none => f

section Frames

variable (frame? : Node → Option Node → Option Frame) (chain : List Node)

/-- Once a function is met, the frames further out can only qualify it. -/
theorem contextFrom_some (f : String) :
    contextFrom frame? (some f) chain = some (qualifiedBy (framesAlong frame? chain) f) := by
  induction chain with
  | nil => rfl
  | cons a rest ih =>
    rw [contextFrom, framesAlong]
    cases hframe : frame? a rest.head? with
    | none => exact ih
    | some frame =>
      cases frame with
      | function g => exact ih
      | «class» c => rfl

/-- The innermost frame decides whether there is a context. -/
theorem contextFrom_none : contextFrom frame? none chain =
    match framesAlong frame? chain with
    | .function f :: outer => some (qualifiedBy outer f)
    | _ => none := by
  induction chain with
  | nil => rfl
  | cons a rest ih =>
    rw [contextFrom, framesAlong]
    cases hframe : frame? a rest.head? with
    | none => exact ih
    | some frame =>
      cases frame with
      | function f => exact contextFrom_some frame? rest f
      | «class» c => rfl

/-- Without a function around it a use has no context. The innermost function around a use gives the
context, qualified by the innermost class outside the function, exactly where no class stands
between the two; where one does, there is no context. -/
theorem contextFrom_eq_of_frames :
    ((∀ f, Frame.function f ∉ framesAlong frame? chain) →
      contextFrom frame? none chain = none) ∧
    ∀ inner f outer, framesAlong frame? chain = inner ++ .function f :: outer →
      (∀ g, Frame.function g ∉ inner) →
      contextFrom frame? none chain = if inner = [] then some (qualifiedBy outer f) else none := by
  rw [contextFrom_none]
  constructor
  · intro h
    cases hframes : framesAlong frame? chain with
    | nil => rfl
    | cons frame outer =>
      cases frame with
      | function f =>
        rw [hframes] at h
        exact absurd List.mem_cons_self (h f)
      | «class» c => rfl
  · intro inner f outer hframes hinner
    rw [hframes]
    cases inner with
    | nil => rfl
    | cons frame inner =>
      cases frame with
      | function g => exact absurd List.mem_cons_self (hinner g)
      | «class» c => rfl

end Frames

namespace ParsedSource

def shapeClass : Node :=
  .branch 9 "class_definition" "" 16 42 [.token 10 "class" "" 16 21,
    .branch 11 "identifier" "name" 22 27 [], .token 12 ":" "" 27 28,
    .branch 13 "block" "body" 37 42 [.branch 14 "expression_statement" "" 37 42 [
      .branch 15 "call" "" 37 42 [.branch 16 "identifier" "function" 37 40 [],
        .branch 17 "argument_list" "arguments" 40 42
          [.token 18 "(" "" 40 41, .token 19 ")" "" 41 42]]]]]

def loadFunction : Node :=
  .branch 1 "function_definition" "" 0 42 [.token 2 "def" "" 0 3,
    .branch 3 "identifier" "name" 4 8 [],
    .branch 4 "parameters" "parameters" 8 10 [.token 5 "(" "" 8 9, .token 6 ")" "" 9 10],
    .token 7 ":" "" 10 11, .branch 8 "block" "body" 16 42 [shapeClass]]

/-- A module with a class in a function. -/
def classInFunction : ParsedSource where
  tree := .branch 0 "module" "" 0 43 [loadFunction]
  source := Text.encode "def load():\n    class Shape:\n        run()\n"
  path := "load.py"
  language := .python
  grammar := .python
  recovered := false

/-- A class between a use and its innermost function leaves nothing, and a class outside the
function qualifies it. -/
theorem contextFrom_shapeClass :
    let frame? := Rules.python.frame? classInFunction.source
    framesAlong frame? [shapeClass, loadFunction] = [.class "Shape"] ++ .function "load" :: [] ∧
      contextFrom frame? none [shapeClass, loadFunction] = none ∧
      contextFrom frame? none [loadFunction, shapeClass] = some "Shape.load" ∧
      contextFrom frame? none [shapeClass] = none := by
  intro frame?
  have hbetween : framesAlong frame? [shapeClass, loadFunction] =
      [.class "Shape"] ++ .function "load" :: [] := by decide +kernel
  have houtside : framesAlong frame? [loadFunction, shapeClass] =
      [] ++ .function "load" :: [.class "Shape"] := by decide +kernel
  have halone : framesAlong frame? [shapeClass] = [.class "Shape"] := by decide +kernel
  refine ⟨hbetween, ?_, ?_, ?_⟩
  · exact (contextFrom_eq_of_frames frame? _).2 _ _ _ hbetween (by simp)
  · exact (contextFrom_eq_of_frames frame? _).2 _ _ _ houtside (by simp)
  · exact (contextFrom_eq_of_frames frame? _).1 (by simp [halone])

/-- The call stands in a function and is reported without a context. -/
theorem classInFunction_withoutContext :
    SourceModel.read (fun _ _ => some classInFunction.tree) .python "load.py"
        classInFunction.source defaultTolerance = .parsed classInFunction ∧
    classInFunction.references [⟨"run", .function, 1, 1, .python, none, none, 0, 0, true⟩] =
      [⟨"run", 3, none, .call⟩] ∧
    ∃ v ∈ classInFunction.tree.visits, v.node.text classInFunction.source = "run" ∧
      framesAlong (classInFunction.language.rules.frame? classInFunction.source) v.ancestors =
        [.class "Shape"] ++ .function "load" :: [] ∧
      classInFunction.contextOf v ≠ some (qualifiedBy [] "load") := by
  refine ⟨rfl, ?_, ?_⟩
  · decide +kernel
  · decide +kernel

end ParsedSource
end SymbolHistory
