import Easel.Canvas.Basic

/-!
# Circles

The points of a circle about the origin are found in one eighth of it, from the axis to the
diagonal, and reflected into the other seven. A decision value tells at each column whether the
circle has come down by a row. Two bounds keep the walk short on a small canvas: beyond the far
bound no point is near enough for the brush to touch the canvas, and within the near bound the
brush covers all of it.
-/

namespace Easel

/-- A state of the walk along an eighth of a circle. -/
structure Octant where
  /-- The column, counted from the axis. -/
  x : Int
  /-- The row. -/
  y : Int
  /-- The decision value: negative as long as the circle stays in its row. -/
  d : Int
  deriving DecidableEq

namespace Octant

/-- The walk begins where the circle of the given radius meets the axis. -/
def start (radius : Int) : Octant := ⟨0, radius, 3 - 2 * radius⟩

/-- One column further. -/
def next (o : Octant) : Octant :=
  if o.d < 0 then ⟨o.x + 1, o.y, o.d + (4 * o.x + 6)⟩
  else ⟨o.x + 1, o.y - 1, o.d + (4 * (o.x - o.y) + 10)⟩

theorem next_sub_lt (o : Octant) : o.next.y - o.next.x < o.y - o.x := by
  unfold next
  split <;> simp only <;> omega

/-- The states after `o` up to the diagonal, without those beyond the far bound and without those
that follow one within the near bound. They are put before `found`, the last one first. -/
def walk (near far : Int) (o : Octant) (found : List Octant) : List Octant :=
  if o.x ≤ o.y then
    let n := o.next
    if far < n.x then found
    else if far < n.y then walk near far n found
    else if max n.x n.y ≤ near then n :: found
    else walk near far n (n :: found)
  else found
termination_by (o.y - o.x + 1).toNat
decreasing_by
  all_goals
    have := o.next_sub_lt
    omega

/-- The eight points about `centre` that a state stands for. -/
def reflections (centre : Point) (o : Octant) : List Point :=
  [(o.x, o.y), (o.y, o.x)].flatMap fun (a, b) =>
    [⟨centre.x + a, centre.y + b⟩, ⟨centre.x - a, centre.y + b⟩,
      ⟨centre.x + a, centre.y - b⟩, ⟨centre.x - a, centre.y - b⟩]

end Octant

namespace Canvas

/-- The four points of a circle straight across from its centre. -/
def circleTips (centre : Point) (radius : Int) : List Point :=
  [⟨centre.x + radius, centre.y⟩, ⟨centre.x - radius, centre.y⟩,
    ⟨centre.x, centre.y + radius⟩, ⟨centre.x, centre.y - radius⟩]

/-- The points where the brush is set down for a circle about `centre`, on a grid of which `last`
is the last row and column, with a brush of the given reach. -/
def circlePoints (last reach : Int) (centre : Point) (radius : Int) : List Point :=
  circleTips centre radius ++
    (Octant.walk (reach - last) (last + reach) (.start radius) []).flatMap (·.reflections centre)

/-- Draws a circle whose centre lies one radius away from the cursor in the direction `(dx, dy)`,
and leaves the cursor at its centre. -/
def circle (dx dy radius : Int) : Draw Unit := fun c =>
  if radius ≤ 0 then .error (.nonPositiveRadius radius) c
  else match c.cursor with
    | none => .error .cursorNotPlaced c
    | some start =>
      let centre := start.shift dx dy radius
      if centre ∉ c.grid then .error (.outOfBounds centre) c
      else moveTo centre (c.stampAll (circlePoints c.grid.last c.brush.reach centre radius))

end Canvas

end Easel
