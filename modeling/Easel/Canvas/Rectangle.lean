import Easel.Canvas.Basic

/-!
# Rectangles

The outline of a rectangle is drawn where it can be seen, also when its centre, where the cursor
is to go, lies beside the canvas.
-/

namespace Easel.Canvas

/-- The part of the stretch from `low` to `high` that matters on a canvas of which `last` is the
last row and column: what lies between `0` and `last`, or else the end nearest to it, from where a
broad brush may still reach the canvas. -/
def visibleStretch (low high last : Int) : List Int :=
  span (min (max low 0) high) (max (min high last) low)

/-- The points where the brush is set down for the outline of a box. -/
def outline (last : Int) (b : Box) : List Point :=
  ((visibleStretch b.left b.right last).flatMap fun x => [⟨x, b.bottom⟩, ⟨x, b.top⟩]) ++
    (visibleStretch b.top b.bottom last).flatMap fun y => [⟨b.left, y⟩, ⟨b.right, y⟩]

/-- The box about `centre` that reaches half the width and half the height to each side. -/
def boxAbout (centre : Point) (width height : Int) : Box where
  left := centre.x - width / 2
  right := centre.x + width / 2
  top := centre.y - height / 2
  bottom := centre.y + height / 2

/-- Draws the outline of a rectangle whose centre lies some steps away from the cursor, and moves
the cursor there. The outline stays if the cursor cannot go there. -/
def rectangle (dx dy distance width height : Int) : Draw Unit := fun c =>
  if width ≤ 0 ∨ height ≤ 0 then .error (.nonPositiveDimensions width height) c
  else match c.cursor with
    | none => .error .cursorNotPlaced c
    | some start =>
      let centre := start.shift dx dy distance
      moveTo centre (c.stampAll (outline c.grid.last (boxAbout centre width height)))

end Easel.Canvas
