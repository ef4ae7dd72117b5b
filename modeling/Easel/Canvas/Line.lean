import Easel.Canvas.Basic

/-!
# Lines

A line is walked step by step from the cursor, and the brush is set down at every point the walk
comes to. The walk ends at the edge of the canvas.
-/

namespace Easel

/-- The points that a walk comes to, in steps of `(dx, dy)` from `p` and no more than the given
number of them, before it would leave the grid. -/
def Grid.walk (g : Grid) (dx dy : Int) : Nat → Point → List Point
  | 0, _ => []
  | n + 1, p =>
    let q := p.shift dx dy 1
    if q ∈ g then q :: g.walk dx dy n q else []

namespace Canvas

/-- A step of a line goes to one of the eight points around, or nowhere. -/
def UnitStep (dx dy : Int) : Prop := -1 ≤ dx ∧ dx ≤ 1 ∧ -1 ≤ dy ∧ dy ≤ 1

instance (dx dy : Int) : Decidable (UnitStep dx dy) :=
  inferInstanceAs (Decidable (-1 ≤ dx ∧ dx ≤ 1 ∧ -1 ≤ dy ∧ dy ≤ 1))

/-- How many steps are walked. Of the steps that go nowhere one is as good as many. -/
def lineSteps (dx dy distance : Int) : Nat :=
  (if dx = 0 ∧ dy = 0 then min distance 1 else distance).toNat

/-- Draws a line of the given number of steps, and leaves the cursor at its end. -/
def line (dx dy distance : Int) : Draw Unit := fun c =>
  if ¬UnitStep dx dy then .error (.invalidDirection dx dy) c
  else match c.cursor with
    | none => .error .cursorNotPlaced c
    | some start =>
      let path := c.grid.walk dx dy (lineSteps dx dy distance) start
      moveTo (path.getLast?.getD start) (c.stampAll path)

end Canvas

end Easel
