import Easel.Canvas.Query
import Easel.Proofs.Canvas.Storage
import Easel.Proofs.Canvas.Words

/-!
# Drawing with words

The actions of a canvas as a machine carries them out: the coordinates are signed words of 64 bits,
indices and counts are unsigned ones, and the arguments are 32-bit integers. They follow the actions
over unbounded integers step by step, `Canvas.line64?` those of `Canvas.line` and so on. None of
them has an outcome if some result on the way does not fit, if a conversion would change a value, if
an index is beyond the cells, or if a loop never comes to an end.
-/

namespace Easel

open Word64

/-! ### Points -/

/-- A point with words for its coordinates. -/
structure Point64 where
  /-- The column. -/
  x : Int64
  /-- The row. -/
  y : Int64
  deriving DecidableEq

namespace Point64

/-- The point with the words for the given coordinates, if they fit. -/
def ofPoint? (p : Point) : Option Point64 := do
  return ⟨← ofInt? p.x, ← ofInt? p.y⟩

/-- The point some steps away in a direction. -/
def shift? (p : Point64) (dx dy n : Int64) : Option Point64 := do
  return ⟨← add? p.x (← mul? dx n), ← add? p.y (← mul? dy n)⟩

/-- The point one step away in a direction. -/
def step? (p : Point64) (dx dy : Int64) : Option Point64 := do
  return ⟨← add? p.x dx, ← add? p.y dy⟩

/-- The points to the right, to the left, below and above. -/
def neighbours? (p : Point64) : Option (List Point64) := do
  return [⟨← add? p.x (word 1), p.y⟩, ⟨← sub? p.x (word 1), p.y⟩,
    ⟨p.x, ← add? p.y (word 1)⟩, ⟨p.x, ← sub? p.y (word 1)⟩]

/-- The point with the values of the words. -/
def toPoint (p : Point64) : Point := ⟨p.x.toInt, p.y.toInt⟩

end Point64

/-- A box with words for its edges. -/
structure Box64 where
  /-- The first column. -/
  left : Int64
  /-- The last column. -/
  right : Int64
  /-- The first row. -/
  top : Int64
  /-- The last row. -/
  bottom : Int64
  deriving DecidableEq

/-! ### Grids -/

namespace Grid

/-- Whether a point lies on the grid. -/
def mem64? (g : Grid) (p : Point64) : Option Bool := do
  let size ← ofInt? g.size
  return word 0 ≤ p.x ∧ p.x < size ∧ word 0 ≤ p.y ∧ p.y < size

/-- Where the colour of a point is kept. -/
def index64? (g : Grid) (p : Point64) : Option UInt64 := do
  let row ← mulIndex? (← toIndex? p.y) (← index? g.size)
  addIndex? row (← toIndex? p.x)

/-- Where the colours of a row are kept, from one column to another. -/
def slice64? (g : Grid) (left right y : Int64) : Option Slice := do
  return ⟨(← g.index64? ⟨left, y⟩).toNat, (← g.index64? ⟨right, y⟩).toNat⟩

/-- The number of the last column and the last row. -/
def last64? (g : Grid) : Option Int64 := do
  sub? (← ofInt? g.size) (word 1)

/-- The points that a walk comes to before it would leave the grid. -/
def walk64? (g : Grid) (dx dy : Int64) : Nat → Point64 → Option (List Point64)
  | 0, _ => some []
  | n + 1, p => do
    let q ← p.step? dx dy
    if ← g.mem64? q then return q :: (← g.walk64? dx dy n q) else return []

/-- Recolours what can be reached from the pending points, as `Grid.flood` does. There is no result
either if this never comes to an end. -/
def flood64? (old new : Color) (g : Grid) (front back : List Point64) (painted : UInt64) :
    Option (Grid × UInt64) :=
  match front, back with
  | [], [] => some (g, painted)
  | [], q :: qs => g |>.flood64? old new (q :: qs).reverse [] painted
  | p :: ps, back => do
    if ← g.mem64? p then
      let i ← g.index64? p
      let color ← g.cells[i.toNat]?
      if color = old then
        let painted ← addIndex? painted 1
        let neighbours ← p.neighbours?
        let g : Grid := { g with cells := g.cells.setIfInBounds i.toNat new }
        g |>.flood64? old new ps (neighbours.reverse ++ back) painted
      else g |>.flood64? old new ps back painted
    else g |>.flood64? old new ps back painted
partial_fixpoint

end Grid

/-! ### Circles -/

/-- A state of the walk along an eighth of a circle, in words. -/
structure Octant64 where
  /-- The column. -/
  x : Int64
  /-- The row. -/
  y : Int64
  /-- The decision value. -/
  d : Int64
  deriving DecidableEq

namespace Octant64

/-- Where the walk begins. -/
def start? (radius : Int64) : Option Octant64 := do
  return ⟨word 0, radius, ← sub? (word 3) (← mul? (word 2) radius)⟩

/-- One column further. -/
def next? (o : Octant64) : Option Octant64 := do
  let x ← add? o.x (word 1)
  if o.d < word 0 then
    return ⟨x, o.y, ← add? o.d (← add? (← mul? (word 4) o.x) (word 6))⟩
  else
    let d ← add? o.d (← add? (← mul? (word 4) (← sub? o.x o.y)) (word 10))
    return ⟨x, ← sub? o.y (word 1), d⟩

/-- The states up to the diagonal, as `Octant.walk` finds them. There is no result either if this
never comes to an end. -/
def walk? (near far : Int64) (o : Octant64) (found : List Octant64) : Option (List Octant64) := do
  if o.x ≤ o.y then
    let n ← o.next?
    if far < n.x then return found
    else if far < n.y then n |>.walk? near far found
    else if max n.x n.y ≤ near then return n :: found
    else n |>.walk? near far (n :: found)
  else return found
partial_fixpoint

/-- The points at the given distances from `centre`, on both sides across and down. -/
def corners? (centre : Point64) (a b : Int64) : Option (List Point64) := do
  let right ← add? centre.x a
  let left ← sub? centre.x a
  let bottom ← add? centre.y b
  let top ← sub? centre.y b
  return [⟨right, bottom⟩, ⟨left, bottom⟩, ⟨right, top⟩, ⟨left, top⟩]

/-- The eight points about `centre` that a state stands for. -/
def reflections? (centre : Point64) (o : Octant64) : Option (List Point64) := do
  return (← corners? centre o.x o.y) ++ (← corners? centre o.y o.x)

end Octant64

/-! ### Drawing -/

namespace Canvas

/-- What a drawing action comes to. -/
abbrev Drawn (α : Type) := EStateM.Result Fault Canvas α

/-- How far the brush reaches to each side. -/
def reach64? (c : Canvas) : Option Int64 := ofInt? (c.brush.width / 2 : Nat)

/-- The part of the brush, with its middle on `p`, that lies on the grid. -/
def footprint64? (c : Canvas) (p : Point64) : Option Box64 := do
  let reach ← c.reach64?
  let last ← c.grid.last64?
  return {
    left := max (← sub? p.x reach) (word 0)
    right := min (← add? p.x reach) last
    top := max (← sub? p.y reach) (word 0)
    bottom := min (← add? p.y reach) last }

/-- The slices that the brush covers, one for each row. -/
def slices64? (c : Canvas) (p : Point64) : Option (List Slice) := do
  let box ← c.footprint64? p
  if box.right < box.left ∨ box.bottom < box.top then return []
  else (← span? box.top box.bottom).mapM (c.grid.slice64? box.left box.right)

/-- Sets the brush down on a point. -/
def stamp64? (c : Canvas) (p : Point64) : Option Canvas :=
  if c.brush.color = .unmarked then some c
  else do
    let cells ← (← c.slices64? p).foldlM (Slice.fill? c.brush.color) c.grid.cells
    return { c with grid := { c.grid with cells } }

/-- Sets the brush down on one point after another. -/
def stampAll64? (c : Canvas) (ps : List Point64) : Option Canvas := ps.foldlM stamp64? c

/-- Puts the cursor on a point of the canvas. -/
def moveTo64? (p : Point64) (c : Canvas) : Option (Drawn Unit) := do
  if ← c.grid.mem64? p then
    return .ok () { c with cursor := some ⟨(← toIndex? p.x).toNat, (← toIndex? p.y).toNat⟩ }
  else return .error (.outOfBounds p.toPoint) c

/-- Draws a line of the given number of steps. -/
def line64? (dx dy distance : Int32) (c : Canvas) : Option (Drawn Unit) :=
  if ¬(-1 ≤ dx ∧ dx ≤ 1 ∧ -1 ≤ dy ∧ dy ≤ 1) then
    some (.error (.invalidDirection dx.toInt dy.toInt) c)
  else match c.cursor with
    | none => some (.error .cursorNotPlaced c)
    | some start => do
      let steps := if dx = 0 ∧ dy = 0 then min distance 1 else distance
      let start ← Point64.ofPoint? start
      let path ← c.grid.walk64? dx.toInt64 dy.toInt64 (max steps 0).toInt.toNat start
      moveTo64? (path.getLast?.getD start) (← c.stampAll64? path)

/-- The four points of a circle straight across from its centre. -/
def circleTips64? (centre : Point64) (radius : Int64) : Option (List Point64) := do
  return [⟨← add? centre.x radius, centre.y⟩, ⟨← sub? centre.x radius, centre.y⟩,
    ⟨centre.x, ← add? centre.y radius⟩, ⟨centre.x, ← sub? centre.y radius⟩]

/-- The points where the brush is set down for a circle. -/
def circlePoints64? (c : Canvas) (centre : Point64) (radius : Int64) : Option (List Point64) := do
  let tips ← circleTips64? centre radius
  let reach ← c.reach64?
  let last ← c.grid.last64?
  let near ← sub? reach last
  let far ← add? last reach
  let states ← (← Octant64.start? radius).walk? near far []
  return tips ++ (← states.mapM (Octant64.reflections? centre)).flatten

/-- Draws a circle whose centre lies one radius away from the cursor. -/
def circle64? (dx dy radius : Int32) (c : Canvas) : Option (Drawn Unit) :=
  if radius ≤ 0 then some (.error (.nonPositiveRadius radius.toInt) c)
  else match c.cursor with
    | none => some (.error .cursorNotPlaced c)
    | some start => do
      let start ← Point64.ofPoint? start
      let centre ← start.shift? dx.toInt64 dy.toInt64 radius.toInt64
      if ← c.grid.mem64? centre then
        moveTo64? centre (← c.stampAll64? (← c.circlePoints64? centre radius.toInt64))
      else return .error (.outOfBounds centre.toPoint) c

/-- The part of a stretch that matters on a canvas of which `last` is the last row and column. -/
def visibleStretch64? (low high last : Int64) : Option (List Int64) :=
  span? (min (max low (word 0)) high) (max (min high last) low)

/-- The points where the brush is set down for the outline of a box. -/
def outline64? (c : Canvas) (b : Box64) : Option (List Point64) := do
  let last ← c.grid.last64?
  let columns ← visibleStretch64? b.left b.right last
  let rows ← visibleStretch64? b.top b.bottom last
  return (columns.flatMap fun x => [⟨x, b.bottom⟩, ⟨x, b.top⟩]) ++
    rows.flatMap fun y => [⟨b.left, y⟩, ⟨b.right, y⟩]

/-- The box about `centre` that reaches half the width and half the height to each side. -/
def boxAbout64? (centre : Point64) (width height : Int32) : Option Box64 := do
  let across := (width / 2).toInt64
  let down := (height / 2).toInt64
  return {
    left := ← sub? centre.x across
    right := ← add? centre.x across
    top := ← sub? centre.y down
    bottom := ← add? centre.y down }

/-- Draws the outline of a rectangle. -/
def rectangle64? (dx dy distance width height : Int32) (c : Canvas) : Option (Drawn Unit) :=
  if width ≤ 0 ∨ height ≤ 0 then
    some (.error (.nonPositiveDimensions width.toInt height.toInt) c)
  else match c.cursor with
    | none => some (.error .cursorNotPlaced c)
    | some start => do
      let start ← Point64.ofPoint? start
      let centre ← start.shift? dx.toInt64 dy.toInt64 distance.toInt64
      let box ← boxAbout64? centre width height
      moveTo64? centre (← c.stampAll64? (← c.outline64? box))

/-- Fills from the cursor with the colour of the brush. -/
def fill64? (c : Canvas) : Option (Drawn (Option Nat)) :=
  match c.cursor with
  | none => some (.error .cursorNotPlaced c)
  | some p => do
    let start ← Point64.ofPoint? p
    let old ← c.grid.cells[(← c.grid.index64? start).toNat]?
    if c.brush.color = old then return .ok none c
    else
      let (grid, painted) ← c.grid.flood64? old c.brush.color [start] [] 0
      return .ok (some painted.toNat) { c with grid }

/-- Whether the cell below and to the right of the cursor has the named colour. -/
def isCellColor64? (c : Canvas) (name : String) (down right : Int32) :
    Option (Except Fault Bool) :=
  match c.cursor with
  | none => some (.error .cursorNotPlaced)
  | some p =>
    match Color.ofName? name with
    | none => some (.ok false)
    | some color => do
      let start ← Point64.ofPoint? p
      let q ← start.step? right.toInt64 down.toInt64
      if ← c.grid.mem64? q then
        return .ok ((← c.grid.cells[(← c.grid.index64? q).toNat]?) = color)
      else return .ok false

end Canvas

end Easel
