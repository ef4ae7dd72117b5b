import Easel.Canvas.Basic

/-!
# Filling

Filling recolours the cell at the cursor and all cells that can be reached from it over cells of
the same colour, from each to those beside, above and below it.
-/

namespace Easel

/-- Recolours the cells of colour `old` among the pending points and those that can be reached from
them. The points wait in a queue: those of `front` come first, then those of `back`, the last one
first. Returns the grid and the number of cells recoloured, on top of `painted`. -/
def Grid.flood {old new : Color} (h : new ≠ old) (g : Grid) (front back : List Point)
    (painted : Nat) : Grid × Nat :=
  match front, back with
  | [], [] => (g, painted)
  | [], q :: qs => g.flood h (q :: qs).reverse [] painted
  | p :: ps, back =>
    if _hp : g.get? p = some old then
      (g.set p new).flood h ps (p.neighbours.reverse ++ back) (painted + 1)
    else g.flood h ps back painted
termination_by 9 * g.cells.count old + front.length + 2 * back.length
decreasing_by
  · simp only [List.length_reverse, List.length_cons, List.length_nil]
    omega
  · have := Grid.count_set_lt _hp h
    simp only [Point.neighbours, List.length_reverse, List.length_append, List.length_cons,
      List.length_nil]
    omega
  · simp only [List.length_cons]
    omega

/-- Fills from the cursor with the colour of the brush. Returns the number of cells recoloured, or
none if the cell at the cursor had that colour already. -/
def Canvas.fill : Draw (Option Nat) := fun c =>
  match c.cursor with
  | none => .error .cursorNotPlaced c
  | some p =>
    match c.grid.get? p with
    | none => .ok none c
    | some old =>
      if h : c.brush.color = old then .ok none c
      else
        let (grid, painted) := c.grid.flood h [p] [] 0
        .ok (some painted) { c with grid }

end Easel
