import Easel.Proofs.Canvas.Changes

/-!
# Drawing treats all edges and both axes alike

A square can be laid on itself so that left and right change places, or rows and columns
(`Symmetry`). Drawing on the canvas that is laid over so, with its directions laid over too, has the
image of what drawing has on the canvas itself: the same result, or the same fault with its points
and directions laid over, and the image of the canvas that is left (`Canvas.drawing_symmetric`).

Both ways are treated at once. They keep the grid, the reach of the brush and which cells are beside
each other (`Symmetry.point_mem`, `Symmetry.mem_footprint`, `Symmetry.beside`). A row of stamps is
known by its set of points, and what is filled by the paths to it; so the order of the points and of
the queue does not matter.
-/

namespace Easel

/-! ### Points -/

/-- The ways to lay a square on itself that are considered here. -/
inductive Symmetry where
  /-- Left and right change places. -/
  | mirror
  /-- Rows and columns change places. -/
  | transpose
  deriving DecidableEq

namespace Symmetry

variable {σ : Symmetry} {last : Int} {g : Grid} {p q : Point}

/-- Where a point comes to lie on a grid of which `last` is the last row and column. -/
def point (last : Int) : Symmetry → Point → Point
  | mirror, p => ⟨last - p.x, p.y⟩
  | transpose, p => ⟨p.y, p.x⟩

/-- How far the image of a direction goes to the right. -/
def across : Symmetry → (dx dy : Int) → Int
  | mirror, dx, _ => -dx
  | transpose, _, dy => dy

/-- How far the image of a direction goes down. -/
def down : Symmetry → (dx dy : Int) → Int
  | mirror, _, dy => dy
  | transpose, dx, _ => dx

/-- The width of the image of a rectangle. -/
def width : Symmetry → (width height : Int) → Int
  | mirror, width, _ => width
  | transpose, _, height => height

/-- The height of the image of a rectangle. -/
def height : Symmetry → (width height : Int) → Int
  | mirror, _, height => height
  | transpose, width, _ => width

@[simp] theorem point_point (σ : Symmetry) (last : Int) (p : Point) :
    σ.point last (σ.point last p) = p := by
  cases σ with
  | mirror =>
    simp only [point]
    exact Point.ext (by simp) rfl
  | transpose => rfl

theorem point_injective (σ : Symmetry) (last : Int) : Function.Injective (σ.point last) :=
  Function.LeftInverse.injective (σ.point_point last)

@[simp] theorem point_mem : σ.point g.last p ∈ g ↔ p ∈ g := by
  cases σ <;> simp only [Grid.mem_def, point, Grid.last] <;> omega

/-- What the brush covers is laid over with it. -/
theorem mem_footprint {b : Brush} :
    σ.point last q ∈ b.footprint last (σ.point last p) ↔ q ∈ b.footprint last p := by
  cases σ <;> simp only [Box.mem_def, Brush.footprint, point] <;> omega

theorem beside : (σ.point last p).Beside (σ.point last q) ↔ p.Beside q := by
  cases σ <;> simp only [Point.Beside, point] <;> omega

theorem point_shift (σ : Symmetry) (last : Int) (p : Point) (dx dy n : Int) :
    σ.point last (p.shift dx dy n) = (σ.point last p).shift (σ.across dx dy) (σ.down dx dy) n := by
  cases σ with
  | mirror =>
    simp only [point, Point.shift, across, down, Int.neg_mul, Point.mk.injEq, and_true]
    omega
  | transpose => rfl

theorem unitStep (dx dy : Int) :
    Canvas.UnitStep (σ.across dx dy) (σ.down dx dy) ↔ Canvas.UnitStep dx dy := by
  cases σ <;> simp only [Canvas.UnitStep, across, down] <;> omega

theorem lineSteps (dx dy distance : Int) :
    Canvas.lineSteps (σ.across dx dy) (σ.down dx dy) distance =
      Canvas.lineSteps dx dy distance := by
  cases σ with
  | mirror => simp only [Canvas.lineSteps, across, down, Int.neg_eq_zero]
  | transpose => simp only [Canvas.lineSteps, across, down, and_comm]

end Symmetry

/-! ### Grids and canvases -/

/-- The grid laid over: each point has the colour of the point that comes to lie on it. -/
def Grid.image (σ : Symmetry) (g : Grid) : Grid where
  size := g.size
  cells := Array.ofFn fun i : Fin (g.size * g.size) =>
    (g.get? (σ.point g.last (g.pointAt i))).getD .background

namespace Grid

variable {σ : Symmetry} {g : Grid} {p q : Point}

@[simp] theorem size_image : (g.image σ).size = g.size := rfl

theorem mem_image : p ∈ g.image σ ↔ p ∈ g := Iff.rfl

theorem square_image : (g.image σ).Square := Array.size_ofFn

theorem pointAt_index (h : g.Square) (hp : p ∈ g) : g.pointAt (g.index p) = p := by
  have hlt : g.index p < g.size * g.size := h ▸ index_lt h hp
  exact (index_inj (pointAt_mem hlt) hp).1 (index_pointAt g (g.index p))

/-- The colours of the image. -/
theorem get?_image (h : g.Square) (q : Point) :
    (g.image σ).get? q = g.get? (σ.point g.last q) := by
  by_cases hq : q ∈ g
  · have hmem : σ.point g.last q ∈ g := Symmetry.point_mem.2 hq
    obtain ⟨color, hcolor⟩ := h.exists_get? hmem
    have hlt : g.index q < g.size * g.size := h ▸ index_lt h hq
    have hindex : (g.image σ).index q = g.index q := rfl
    rw [get?, if_pos (mem_image.2 hq), hindex]
    simp [image, hlt, pointAt_index h hq, hcolor]
  · rw [get?_eq_none (fun hq' => hq (mem_image.1 hq')),
      get?_eq_none (fun hq' => hq (Symmetry.point_mem.1 hq'))]

end Grid

/-- The canvas laid over, with its cursor. -/
def Canvas.image (σ : Symmetry) (c : Canvas) : Canvas where
  grid := c.grid.image σ
  cursor := c.cursor.map (σ.point c.grid.last)
  brush := c.brush

/-- The fault, with its points and directions laid over. -/
def Fault.image (σ : Symmetry) (last : Int) : Fault → Fault
  | .outOfBounds p => .outOfBounds (σ.point last p)
  | .invalidDirection dx dy => .invalidDirection (σ.across dx dy) (σ.down dx dy)
  | .nonPositiveDimensions width height =>
    .nonPositiveDimensions (σ.width width height) (σ.height width height)
  | f => f

/-- What an action has come to, laid over: its canvas, and its fault if it has failed. -/
def Symmetry.result {α : Type} (σ : Symmetry) (last : Int) :
    EStateM.Result Fault Canvas α → EStateM.Result Fault Canvas α
  | .ok a c => .ok a (c.image σ)
  | .error f c => .error (f.image σ last) (c.image σ)

namespace Canvas

variable {σ : Symmetry} {c : Canvas} {ps ps' : List Point}

theorem WellFormed.image (hc : c.WellFormed) : (c.image σ).WellFormed where
  square := Grid.square_image
  cursor_mem q hq := by
    obtain ⟨p, hp, rfl⟩ := Option.map_eq_some_iff.1 hq
    exact Grid.mem_image.2 (Symmetry.point_mem.2 (hc.cursor_mem p hp))

theorem cursor_image_of_none (h : c.cursor = none) : (c.image σ).cursor = none := by
  simp only [image, h, Option.map_none]

theorem cursor_image_of_some {p : Point} (h : c.cursor = some p) :
    (c.image σ).cursor = some (σ.point c.grid.last p) := by
  simp only [image, h, Option.map_some]

theorem moveTo_image (σ : Symmetry) (c : Canvas) (p : Point) :
    moveTo (σ.point c.grid.last p) (c.image σ) = σ.result c.grid.last (moveTo p c) := by
  have hmem : σ.point c.grid.last p ∈ (c.image σ).grid ↔ p ∈ c.grid := Symmetry.point_mem
  by_cases hp : p ∈ c.grid
  · simp only [moveTo, hmem, hp, if_true]
    rfl
  · simp only [moveTo, hmem, hp, if_false]
    rfl

theorem touches_image (hps : ∀ p, σ.point c.grid.last p ∈ ps' ↔ p ∈ ps) (q : Point) :
    (c.image σ).Touches ps' q ↔ c.Touches ps (σ.point c.grid.last q) := by
  constructor
  · rintro ⟨p, hp, hq⟩
    refine ⟨σ.point c.grid.last p, (hps _).1 (by rwa [σ.point_point]), ?_⟩
    exact Symmetry.mem_footprint.2 hq
  · rintro ⟨p, hp, hq⟩
    have hq' : σ.point c.grid.last (σ.point c.grid.last q) ∈
        c.brush.footprint c.grid.last (σ.point c.grid.last p) := Symmetry.mem_footprint.2 hq
    rw [σ.point_point] at hq'
    exact ⟨σ.point c.grid.last p, (hps p).2 hp, hq'⟩

/-- Stamps on the images of the points leave the image of what stamps on the points leave. -/
theorem stampAll_image (h : c.grid.Square) (hps : ∀ p, σ.point c.grid.last p ∈ ps' ↔ p ∈ ps) :
    (c.image σ).stampAll ps' = (c.stampAll ps).image σ := by
  have hgrid : ((c.image σ).stampAll ps').grid = (c.stampAll ps).grid.image σ := by
    refine Grid.ext_get? (square_stampAll Grid.square_image ps') Grid.square_image ?_ fun q => ?_
    · rw [size_stampAll, Grid.size_image, size_stampAll]
      rfl
    · have hlast : (c.stampAll ps).grid.last = c.grid.last := by simp [Grid.last]
      have hmem : q ∈ (c.image σ).grid ↔ σ.point c.grid.last q ∈ c.grid :=
        Symmetry.point_mem.symm
      have hcell : (c.image σ).grid.get? q = c.grid.get? (σ.point c.grid.last q) :=
        Grid.get?_image h q
      rw [get?_stampAll Grid.square_image, Grid.get?_image (square_stampAll h ps), hlast,
        get?_stampAll h]
      simp only [hmem, touches_image hps, hcell]
      rfl
  rw [stampAll_eq, hgrid]
  simp only [image, cursor_stampAll, brush_stampAll, Grid.last, size_stampAll]

/-- The last step of drawing: to stamp, and then to move the cursor. -/
theorem moveTo_stampAll_image (h : c.grid.Square)
    (hps : ∀ p, σ.point c.grid.last p ∈ ps' ↔ p ∈ ps) (p : Point) :
    moveTo (σ.point c.grid.last p) ((c.image σ).stampAll ps') =
      σ.result c.grid.last (moveTo p (c.stampAll ps)) := by
  have hlast : (c.stampAll ps).grid.last = c.grid.last := by simp [Grid.last]
  rw [stampAll_image h hps, ← hlast]
  exact moveTo_image σ (c.stampAll ps) p

end Canvas

/-! ### Lines -/

/-- A walk in the image of a direction goes over the images of the points. -/
theorem Grid.walk_image (σ : Symmetry) (g : Grid) (dx dy : Int) (n : Nat) (p : Point) :
    (g.image σ).walk (σ.across dx dy) (σ.down dx dy) n (σ.point g.last p) =
      (g.walk dx dy n p).map (σ.point g.last) := by
  induction n generalizing p with
  | zero => rfl
  | succ n ih =>
    simp only [walk, ← σ.point_shift, mem_image, Symmetry.point_mem]
    split
    · rw [ih, List.map_cons]
    · rfl

namespace Canvas

variable {σ : Symmetry} {c : Canvas} {last : Int}

theorem line_image (σ : Symmetry) (h : c.grid.Square) (dx dy distance : Int) :
    line (σ.across dx dy) (σ.down dx dy) distance (c.image σ) =
      σ.result c.grid.last (line dx dy distance c) := by
  by_cases hstep : UnitStep dx dy
  · cases hstart : c.cursor with
    | none =>
      simp only [line, Symmetry.unitStep, hstep, not_true_eq_false, if_false, hstart,
        cursor_image_of_none hstart]
      rfl
    | some start =>
      simp only [line, Symmetry.unitStep, Symmetry.lineSteps, hstep, not_true_eq_false, if_false,
        hstart, cursor_image_of_some hstart]
      have hwalk := Grid.walk_image σ c.grid dx dy (lineSteps dx dy distance) start
      have hend : ((c.grid.walk dx dy (lineSteps dx dy distance) start).map
          (σ.point c.grid.last)).getLast?.getD (σ.point c.grid.last start) =
          σ.point c.grid.last
            ((c.grid.walk dx dy (lineSteps dx dy distance) start).getLast?.getD start) := by
        rw [List.getLast?_map, Option.getD_map]
      have hgrid : (c.image σ).grid = c.grid.image σ := rfl
      rw [hgrid, hwalk, hend]
      exact moveTo_stampAll_image h (fun p => List.mem_map_of_injective (σ.point_injective _)) _
  · simp only [line, Symmetry.unitStep, hstep, not_false_eq_true, if_true]
    rfl

/-! ### Circles -/

theorem mem_circleTips_image {centre p : Point} {radius : Int} :
    σ.point last p ∈ circleTips (σ.point last centre) radius ↔ p ∈ circleTips centre radius := by
  obtain ⟨x, y⟩ := p
  cases σ <;>
    simp only [circleTips, Symmetry.point, List.mem_cons, List.not_mem_nil, or_false,
      Point.mk.injEq] <;>
    omega

theorem mem_reflections_image {centre p : Point} {o : Octant} :
    σ.point last p ∈ o.reflections (σ.point last centre) ↔ p ∈ o.reflections centre := by
  simp only [Octant.mem_reflections]
  cases σ with
  | mirror =>
    simp only [Symmetry.point]
    refine exists_congr fun a => exists_congr fun b => ?_
    omega
  | transpose =>
    -- the column and the row of the state change places
    simp only [Symmetry.point]
    rw [exists_comm]
    refine exists_congr fun b => exists_congr fun a => ?_
    omega

/-- The points of a circle about the image of its centre are the images of its points. -/
theorem mem_circlePoints_image {reach radius : Int} {centre p : Point} :
    σ.point last p ∈ circlePoints last reach (σ.point last centre) radius ↔
      p ∈ circlePoints last reach centre radius := by
  simp only [circlePoints, List.mem_append, List.mem_flatMap, mem_circleTips_image,
    mem_reflections_image]

theorem circle_image (σ : Symmetry) (h : c.grid.Square) (dx dy radius : Int) :
    circle (σ.across dx dy) (σ.down dx dy) radius (c.image σ) =
      σ.result c.grid.last (circle dx dy radius c) := by
  by_cases hradius : radius ≤ 0
  · simp only [circle, hradius, if_true]
    rfl
  · cases hstart : c.cursor with
    | none =>
      simp only [circle, hradius, if_false, hstart, cursor_image_of_none hstart]
      rfl
    | some start =>
      have hmem : σ.point c.grid.last (start.shift dx dy radius) ∈ (c.image σ).grid ↔
          start.shift dx dy radius ∈ c.grid := Symmetry.point_mem
      simp only [circle, hradius, if_false, hstart, cursor_image_of_some hstart, ← σ.point_shift,
        hmem]
      split
      · rfl
      · exact moveTo_stampAll_image h (fun p => mem_circlePoints_image) _

/-! ### Rectangles -/

/-- The part of a stretch that matters at one edge is mirrored by the part that matters at the
other. -/
theorem mem_visibleStretch_mirror {low high x : Int} :
    last - x ∈ visibleStretch (last - high) (last - low) last ↔ x ∈ visibleStretch low high last := by
  simp only [visibleStretch, mem_span]
  omega

/-- The outline about the image of a centre consists of the images of the points of the outline. -/
theorem mem_outline_image {centre p : Point} {width height : Int} :
    σ.point last p ∈
        outline last (boxAbout (σ.point last centre) (σ.width width height)
          (σ.height width height)) ↔
      p ∈ outline last (boxAbout centre width height) := by
  simp only [mem_outline]
  cases σ with
  | mirror =>
    have hleft : last - centre.x - width / 2 = last - (centre.x + width / 2) := by omega
    have hright : last - centre.x + width / 2 = last - (centre.x - width / 2) := by omega
    have hside : ∀ x : Int, last - p.x = last - x ↔ p.x = x := by omega
    simp only [boxAbout, Symmetry.point, Symmetry.width, Symmetry.height, hleft, hright, hside,
      mem_visibleStretch_mirror]
    rw [or_comm (a := p.x = centre.x + width / 2)]
  | transpose =>
    -- the sides across and the sides down change places
    rw [or_comm]
    exact or_congr (and_congr_right fun _ => or_comm) (and_congr_right fun _ => or_comm)

theorem rectangle_image (σ : Symmetry) (h : c.grid.Square) (dx dy distance width height : Int) :
    rectangle (σ.across dx dy) (σ.down dx dy) distance (σ.width width height)
        (σ.height width height) (c.image σ) =
      σ.result c.grid.last (rectangle dx dy distance width height c) := by
  have hdimensions : (σ.width width height ≤ 0 ∨ σ.height width height ≤ 0) ↔
      (width ≤ 0 ∨ height ≤ 0) := by
    cases σ with
    | mirror => rfl
    | transpose => exact or_comm
  by_cases hpos : width ≤ 0 ∨ height ≤ 0
  · simp only [rectangle, hdimensions, hpos, if_true]
    rfl
  · cases hstart : c.cursor with
    | none =>
      simp only [rectangle, hdimensions, hpos, if_false, hstart, cursor_image_of_none hstart]
      rfl
    | some start =>
      simp only [rectangle, hdimensions, hpos, if_false, hstart, cursor_image_of_some hstart,
        ← σ.point_shift]
      exact moveTo_stampAll_image h (fun p => mem_outline_image) _

end Canvas

/-! ### Filling -/

namespace Grid

variable {σ : Symmetry} {g g' : Grid} {color old new : Color} {p q : Point}

/-- A path is carried over to another grid by a map that keeps what is beside and what has the
colour. -/
theorem Joined.map {f : Point → Point} (hbeside : ∀ p q, p.Beside q → (f p).Beside (f q))
    (hget : ∀ q, g.get? q = some color → g'.get? (f q) = some color) (h : g.Joined color p q) :
    g'.Joined color (f p) (f q) := by
  induction h with
  | here hp => exact .here (hget _ hp)
  | step _ hb hr ih => exact .step ih (hbeside _ _ hb) (hget _ hr)

theorem joined_image (h : g.Square) :
    (g.image σ).Joined color (σ.point g.last p) q ↔ g.Joined color p (σ.point g.last q) := by
  have hbeside : ∀ p q : Point, p.Beside q → (σ.point g.last p).Beside (σ.point g.last q) :=
    fun p q => Symmetry.beside.2
  constructor
  · intro hjoined
    have hmap : g.Joined color (σ.point g.last (σ.point g.last p)) (σ.point g.last q) :=
      hjoined.map hbeside fun r hr => by rwa [get?_image h] at hr
    rwa [σ.point_point] at hmap
  · intro hjoined
    have hmap : (g.image σ).Joined color (σ.point g.last p)
        (σ.point g.last (σ.point g.last q)) :=
      hjoined.map hbeside fun r hr => by rwa [get?_image h, σ.point_point]
    rwa [σ.point_point] at hmap

/-- What is flooded on the image is the image of what is flooded. -/
theorem Flooded.eq_image {flooded flooded' : Grid} (h : g.Square) (hsize : flooded.size = g.size)
    (hsize' : flooded'.size = g.size) (hsquare : flooded.Square) (hsquare' : flooded'.Square)
    (hflood : Flooded old new g [p] flooded)
    (hflood' : Flooded old new (g.image σ) [σ.point g.last p] flooded') :
    flooded' = flooded.image σ := by
  have hlast : flooded.last = g.last := by simp only [last, hsize]
  refine ext_get? hsquare' square_image (hsize'.trans hsize.symm) fun q => ?_
  rw [get?_image hsquare, hlast]
  have hreached : (g.image σ).Reached old [σ.point g.last p] q ↔
      g.Reached old [p] (σ.point g.last q) := by
    simp only [Reached, List.mem_singleton, exists_eq_left]
    exact joined_image h
  by_cases hq : g.Reached old [p] (σ.point g.last q)
  · rw [(hflood _).1 hq, (hflood' q).1 (hreached.2 hq)]
  · rw [(hflood _).2 hq, (hflood' q).2 (fun hq' => hq (hreached.1 hq')), get?_image h]

/-- As many points change on the images as on the grids. -/
theorem ncard_changes_image (h : g.Square) (h' : g'.Square) (hsize : g'.size = g.size) :
    ((g.image σ).changes (g'.image σ)).ncard = (g.changes g').ncard := by
  have hlast : g'.last = g.last := by simp only [last, hsize]
  have himage : (g.image σ).changes (g'.image σ) = σ.point g.last '' g.changes g' := by
    ext q
    simp only [changes, Set.mem_ofPred_eq, get?_image h, get?_image h', hlast, Set.mem_image]
    constructor
    · intro hq
      exact ⟨σ.point g.last q, hq, σ.point_point _ _⟩
    · rintro ⟨r, hr, rfl⟩
      rwa [σ.point_point]
  rw [himage, Set.ncard_image_of_injective _ (σ.point_injective _)]

end Grid

namespace Canvas

variable {σ : Symmetry} {c : Canvas}

theorem fill_image (σ : Symmetry) (hc : c.WellFormed) :
    fill (c.image σ) = σ.result c.grid.last (fill c) := by
  cases hp : c.cursor with
  | none =>
    simp only [fill, hp, cursor_image_of_none hp]
    rfl
  | some p =>
    obtain ⟨old, painted, grid, hold, hfill, hsize, hsquare, hsame, hdiff⟩ := fill_spec hc hp
    obtain ⟨old', painted', grid', hold', hfill', hsize', hsquare', hsame', hdiff'⟩ :=
      fill_spec hc.image (cursor_image_of_some hp)
    obtain rfl : old = old' := by
      have hcell : (c.image σ).grid.get? (σ.point c.grid.last p) = c.grid.get? p :=
        (Grid.get?_image hc.square _).trans (by rw [σ.point_point])
      exact Option.some.inj (hold.symm.trans (hcell.symm.trans hold'))
    have hlast : grid.last = c.grid.last := by simp only [Grid.last, hsize]
    -- the grids and the numbers of cells correspond, whether there is something to fill or not
    have hboth : painted' = painted ∧ grid' = grid.image σ := by
      by_cases hb : old = c.brush.color
      · obtain ⟨rfl, rfl⟩ := hsame hb
        exact hsame' hb
      · obtain ⟨hpainted, hflood⟩ := hdiff hb
        obtain ⟨hpainted', hflood'⟩ := hdiff' hb
        have hgrid : grid' = grid.image σ :=
          hflood.eq_image hc.square hsize hsize' hsquare hsquare' hflood'
        refine ⟨?_, hgrid⟩
        rw [hpainted, hpainted', hgrid]
        exact congrArg some (Grid.ncard_changes_image hc.square hsquare hsize)
    obtain ⟨rfl, rfl⟩ := hboth
    rw [hfill, hfill']
    simp only [Symmetry.result, image, hlast]

/-! ### Drawing -/

/-- **Drawing treats all edges and both axes alike.** Take a canvas laid over so that left and right
change places, or rows and columns. To place the cursor, draw a line, a circle or a rectangle, or
fill there, with the arguments laid over too, gives what it gives on the canvas itself, laid over. -/
theorem drawing_symmetric (σ : Symmetry) (hc : c.WellFormed) :
    (∀ q, (c.image σ).grid.get? (σ.point c.grid.last q) = c.grid.get? q) ∧
    (∀ p, moveTo (σ.point c.grid.last p) (c.image σ) = σ.result c.grid.last (moveTo p c)) ∧
    (∀ dx dy distance, line (σ.across dx dy) (σ.down dx dy) distance (c.image σ) =
      σ.result c.grid.last (line dx dy distance c)) ∧
    (∀ dx dy radius, circle (σ.across dx dy) (σ.down dx dy) radius (c.image σ) =
      σ.result c.grid.last (circle dx dy radius c)) ∧
    (∀ dx dy distance width height,
      rectangle (σ.across dx dy) (σ.down dx dy) distance (σ.width width height)
          (σ.height width height) (c.image σ) =
        σ.result c.grid.last (rectangle dx dy distance width height c)) ∧
    fill (c.image σ) = σ.result c.grid.last (fill c) := by
  refine ⟨fun q => ?_, moveTo_image σ c, line_image σ hc.square, circle_image σ hc.square,
    rectangle_image σ hc.square, fill_image σ hc⟩
  exact (Grid.get?_image hc.square _).trans (by rw [σ.point_point])

/-- The canvas `cornered` with its corner drawn over. -/
def overdrawn : Canvas :=
  { cornered with
    grid := ⟨3, #[.red, .white, .black, .white, .black, .white, .black, .white, .white]⟩ }

theorem drawing_symmetric_cornered :
    cornered.WellFormed ∧
      rectangle (-1) 0 1 3 1 cornered = .error (.outOfBounds ⟨-1, 0⟩) overdrawn ∧
      rectangle 1 0 1 3 1 (cornered.image .mirror) =
        .error (.outOfBounds ⟨3, 0⟩) (overdrawn.image .mirror) ∧
      (overdrawn.image .mirror).grid =
        ⟨3, #[.black, .white, .red, .white, .black, .white, .white, .white, .black]⟩ ∧
      rectangle 0 (-1) 1 1 3 (cornered.image .transpose) =
        .error (.outOfBounds ⟨0, -1⟩) (overdrawn.image .transpose) := by
  have hdraw : rectangle (-1) 0 1 3 1 cornered = .error (.outOfBounds ⟨-1, 0⟩) overdrawn := rfl
  obtain ⟨-, -, -, -, hmirror, -⟩ := drawing_symmetric .mirror wellFormed_cornered
  obtain ⟨-, -, -, -, htranspose, -⟩ := drawing_symmetric .transpose wellFormed_cornered
  have hright := hmirror (-1) 0 1 3 1
  have hup := htranspose (-1) 0 1 3 1
  rw [hdraw] at hright hup
  exact ⟨wellFormed_cornered, hdraw, hright, rfl, hup⟩

end Canvas

end Easel
