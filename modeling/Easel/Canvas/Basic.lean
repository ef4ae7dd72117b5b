import Easel.Fault

/-!
# Canvases

A canvas is a grid with a cursor and a brush. A drawing action changes a canvas and may stop with
a fault; what it did to the canvas before the fault stays.
-/

namespace Easel

/-! ### Brushes -/

/-- A brush: a square that is set down with its middle on a point. -/
structure Brush where
  /-- The colour it paints in. -/
  color : Color
  /-- The length of its side, an odd number. -/
  width : Nat
  deriving DecidableEq

namespace Brush

/-- The odd width nearest below the wanted one, and at least one. -/
def widthFor (wanted : Int) : Nat :=
  (max (if wanted % 2 = 0 then wanted - 1 else wanted) 1).toNat

/-- How far the brush reaches from its middle to each side. -/
def reach (b : Brush) : Int := (b.width / 2 : Nat)

/-- The part of the brush, with its middle on `p`, that lies on a grid of which `last` is the last
row and column. -/
def footprint (b : Brush) (last : Int) (p : Point) : Box where
  left := max (p.x - b.reach) 0
  right := min (p.x + b.reach) last
  top := max (p.y - b.reach) 0
  bottom := min (p.y + b.reach) last

end Brush

/-! ### Canvases -/

/-- A grid with a cursor and a brush. -/
structure Canvas where
  /-- The cells. -/
  grid : Grid
  /-- The point from which drawing goes on, once it is placed. -/
  cursor : Option Point
  /-- The brush. -/
  brush : Brush
  deriving DecidableEq

/-- An action on a canvas, which a fault can cut short. -/
abbrev Draw (α : Type) := EStateM Fault Canvas α

namespace Canvas

/-- The largest size of a canvas: every coordinate is a 32-bit integer. -/
def maxSize : Nat := Int32.maxValue.toInt.toNat

/-- A new canvas: all background, without a cursor, with a brush of width one. -/
def new (size : Nat) (color : Color) : Except Fault Canvas :=
  if 0 < size ∧ size ≤ maxSize then .ok ⟨.blank size, none, ⟨color, 1⟩⟩
  else .error (.invalidCanvasSize size)

/-- All background again, without a cursor. The brush is kept. -/
def clear (c : Canvas) : Canvas := { c with grid := .blank c.grid.size, cursor := none }

/-- Puts the cursor on a point of the canvas. -/
def moveTo (p : Point) : Draw Unit := fun c =>
  if p ∈ c.grid then .ok () { c with cursor := some p } else .error (.outOfBounds p) c

/-- Takes a brush of the named colour. -/
def takeColor (name : String) : Draw Unit := fun c =>
  match ColorName.ofString? name with
  | some (.solid color) => .ok () { c with brush := { c.brush with color } }
  | some .transparent => .error .transparentBrush c
  | none => .error (.unknownColor name) c

/-- Takes a brush of the width for the wanted one. -/
def takeWidth (wanted : Int) (c : Canvas) : Canvas :=
  { c with brush := { c.brush with width := Brush.widthFor wanted } }

/-- Sets the brush down on a point, which may lie beside the canvas. -/
def stamp (c : Canvas) (p : Point) : Canvas :=
  if c.brush.color = .unmarked then c
  else { c with grid := c.grid.paint c.brush.color (c.brush.footprint c.grid.last p).points }

@[simp] theorem size_stamp (c : Canvas) (p : Point) : (c.stamp p).grid.size = c.grid.size := by
  unfold stamp
  split
  · rfl
  · exact Grid.size_paint ..

/-- The brush colours the cells of the canvas that it covers, and no others. -/
theorem get?_stamp {c : Canvas} (h : c.grid.Square) (p q : Point) :
    (c.stamp p).grid.get? q =
      if c.brush.color ≠ .unmarked ∧ q ∈ c.grid ∧ q ∈ c.brush.footprint c.grid.last p
      then some c.brush.color else c.grid.get? q := by
  unfold stamp
  split
  · next hc => simp [hc]
  · next hc => simp [Grid.get?_paint h, hc, and_comm]

/-- Sets the brush down on one point after another. -/
def stampAll (c : Canvas) (ps : List Point) : Canvas := ps.foldl stamp c

end Canvas

end Easel
