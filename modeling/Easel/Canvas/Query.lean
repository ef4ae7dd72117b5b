import Easel.Canvas.Basic

/-!
# Questions about a canvas

What an expression can ask about the canvas while a program is carried out. The answers are 32-bit
integers.
-/

namespace Easel.Canvas

/-- The size of the canvas. -/
def sizeValue (c : Canvas) : Int32 := Int32.ofNat c.grid.size

/-- The column of the cursor. -/
def cursorX (c : Canvas) : Except Fault Int32 :=
  match c.cursor with
  | none => .error .cursorNotPlaced
  | some p => .ok (Int32.ofInt p.x)

/-- The row of the cursor. -/
def cursorY (c : Canvas) : Except Fault Int32 :=
  match c.cursor with
  | none => .error .cursorNotPlaced
  | some p => .ok (Int32.ofInt p.y)

/-- The number of cells of the named colour in the box between two points of the canvas, as far as
32 bits can tell it. It is zero if the name means no colour or a point lies beside the canvas. -/
def colorCount (c : Canvas) (name : String) (p q : Point) : Int32 :=
  match Color.ofName? name with
  | none => 0
  | some color =>
    if p ∈ c.grid ∧ q ∈ c.grid then Int32.ofNat (c.grid.count color (Box.ofCorners p q)) else 0

/-- The brush has the named colour. -/
def isBrushColor (c : Canvas) (name : String) : Bool := Color.ofName? name = some c.brush.color

/-- The cell at the given distance below and to the right of the cursor has the named colour. -/
def isCellColor (c : Canvas) (name : String) (down right : Int) : Except Fault Bool :=
  match c.cursor with
  | none => .error .cursorNotPlaced
  | some p =>
    .ok <| match Color.ofName? name with
      | none => false
      | some color => c.grid.get? ⟨p.x + right, p.y + down⟩ = some color

end Easel.Canvas
