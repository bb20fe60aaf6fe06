import SymbolHistory.Evolution.CompressedView
import SymbolHistory.Report.Shade

namespace SymbolHistory.Report

inductive Marker where
  | final
  | added
  | deleted
  deriving DecidableEq, Repr

def Marker.char : Marker → Char
  | final => ' '
  | added => '+'
  | deleted => '-'

def Marker.ofChange : Diff.ChangeKind → Marker
  | .add => .added
  | .delete => .deleted

structure ViewLine where
  line : Nat
  marker : Marker
  text : String
  shade : Option Nat
  deriving DecidableEq, Repr

def rowLines (transitionCount shades : Nat) (r : ViewRow) : List ViewLine :=
  (r.text.map fun t => ⟨r.line, .final, t, none⟩).toList
    ++ r.changes.map fun c =>
      ⟨r.line, Marker.ofChange c.change.kind, c.change.content,
        some (shadeOf c.transition transitionCount shades)⟩

/-- The lines of a view. -/
def viewLines (v : CompressedView) (shades : Nat) : List ViewLine :=
  v.rows.flatMap (rowLines v.transitionCount shades)

def ViewLine.plain (l : ViewLine) : String :=
  "L" ++ toString l.line ++ ": " ++ l.marker.char.toString ++ " " ++ l.text

def renderView (v : CompressedView) (shades : Nat) : String :=
  Text.joinWith "\n" ((viewLines v shades).map ViewLine.plain)

end SymbolHistory.Report
