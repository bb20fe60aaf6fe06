import SymbolHistory.Text.Lines
import SymbolHistory.Report.Shade

namespace SymbolHistory.Report

inductive Colour where
  | red
  | green
  | yellow
  | blue
  | cyan
  | exact (red green blue : Nat)
  deriving DecidableEq, Repr

def Colour.codes : Colour → List Nat
  | red => [31]
  | green => [32]
  | yellow => [33]
  | blue => [34]
  | cyan => [36]
  | exact r g b => [38, 2, r, g, b]

structure Style where
  bold : Bool := false
  dimmed : Bool := false
  struck : Bool := false
  colour : Option Colour := none
  deriving DecidableEq, Repr

namespace Style

def codes (s : Style) : List Nat :=
  (if s.bold then [1] else []) ++ (if s.dimmed then [2] else []) ++ (if s.struck then [9] else [])
    ++ ((s.colour.map Colour.codes).getD [])

def start (s : Style) : List Char :=
  '\x1b' :: '[' :: (Text.joinWith ";" (s.codes.map toString)).toList ++ ['m']

def reset : List Char := ['\x1b', '[', '0', 'm']

/-- A text after whose own resets a style is switched on again. -/
def resume (start : List Char) : List Char → List Char
  | '\x1b' :: '[' :: '0' :: 'm' :: rest => reset ++ start ++ resume start rest
  | c :: rest => c :: resume start rest
  | [] => []

/-- A text in a style, where styles are shown. Padding is styled too. -/
def paintPadded (pad : String → String) (shown : Bool) (s : Style) (text : String) : String :=
  if shown && !s.codes.isEmpty then
    String.ofList
      (s.start ++ (pad (String.ofList (resume s.start text.toList))).toList ++ reset)
  else pad text

def paint (shown : Bool) (s : Style) (text : String) : String := paintPadded id shown s text

end Style

def boldStyle : Style := { bold := true }

def dimStyle : Style := { dimmed := true }

def inColour (c : Colour) : Style := { colour := some c }

def shadeColours : List Colour :=
  [.exact 198 219 239, .exact 170 201 230, .exact 140 182 220, .exact 110 162 210,
    .exact 85 142 200, .exact 62 120 188, .exact 44 100 172, .exact 30 80 152, .exact 20 60 130]

def shadeStyle (shade : Nat) : Style := { colour := shadeColours[clampShades shade - 1]? }

end SymbolHistory.Report
