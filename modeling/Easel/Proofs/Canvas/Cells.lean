import Easel.Canvas.Basic
import Mathlib.Data.Set.Finite.List

/-!
# Canvases by their cells

A canvas is well formed if it has one colour for each cell and its cursor, once placed, stands on
the grid. The cells decide such a canvas: two grids of one size that agree at every point are the
same (`Grid.ext_get?`). So a row of stamps is known by the cells that it touches
(`Canvas.get?_stampAll`), and two rows that touch the same cells leave the same canvas
(`Canvas.stampAll_congr`).
-/

namespace Easel

/-! ### Grids -/

namespace Grid

/-- Every point of a grid has a colour. -/
theorem Square.exists_get? {g : Grid} (h : g.Square) {p : Point} (hp : p ∈ g) :
    ∃ c, g.get? p = some c := by
  have hi := index_lt h hp
  exact ⟨g.cells[g.index p], by simp [get?, hp, hi]⟩

/-- The point whose colour is kept at the given index. -/
def pointAt (g : Grid) (i : Nat) : Point := ⟨(i % g.size : Nat), (i / g.size : Nat)⟩

theorem pointAt_mem {g : Grid} {i : Nat} (hi : i < g.size * g.size) : g.pointAt i ∈ g := by
  have hpos : 0 < g.size := Nat.pos_of_mul_pos_right (Nat.zero_lt_of_lt hi)
  have hx : i % g.size < g.size := Nat.mod_lt _ hpos
  have hy : i / g.size < g.size := Nat.div_lt_of_lt_mul hi
  exact ⟨Int.natCast_nonneg _, Int.ofNat_lt.2 hx, Int.natCast_nonneg _, Int.ofNat_lt.2 hy⟩

theorem index_pointAt (g : Grid) (i : Nat) : g.index (g.pointAt i) = i := by
  simp only [index, pointAt, Int.toNat_natCast]
  rw [Nat.mul_comm]
  exact Nat.div_add_mod i g.size

/-- Grids of one size that agree at every point are the same. -/
theorem ext_get? {g g' : Grid} (h : g.Square) (h' : g'.Square) (hsize : g.size = g'.size)
    (hget : ∀ p, g.get? p = g'.get? p) : g = g' := by
  obtain ⟨size, cells⟩ := g
  obtain ⟨size', cells'⟩ := g'
  simp only at hsize
  subst hsize
  simp only [Square] at h h'
  have hcells : cells = cells' := by
    refine Array.ext (h.trans h'.symm) fun i hi hi' => ?_
    let g : Grid := ⟨size, cells⟩
    have hm : g.pointAt i ∈ g := pointAt_mem (h ▸ hi)
    have hm' : g.pointAt i ∈ (⟨size, cells'⟩ : Grid) := hm
    have hindex : g.index (g.pointAt i) = i := index_pointAt g i
    have hindex' : (⟨size, cells'⟩ : Grid).index (g.pointAt i) = i := index_pointAt g i
    have hi2 := hget (g.pointAt i)
    simpa only [get?, if_pos hm, if_pos hm', g, hindex, hindex', Array.getElem?_eq_getElem hi,
      Array.getElem?_eq_getElem hi', Option.some.injEq] using hi2
  rw [hcells]

/-- A grid has finitely many points. -/
theorem finite_mem (g : Grid) : {p | p ∈ g}.Finite := by
  refine (List.finite_toSet (Box.mk 0 g.last 0 g.last).points).subset fun p hp => ?_
  obtain ⟨h1, h2, h3, h4⟩ := hp
  simp only [Set.mem_ofPred_eq, Box.mem_points, Box.mem_def, last]
  omega

end Grid

/-! ### Well-formed canvases -/

/-- There is one colour for each cell, and the cursor, if it is placed, is on the grid. -/
structure Canvas.WellFormed (c : Canvas) : Prop where
  /-- The grid has a colour for each of its cells, and no others. -/
  square : c.grid.Square
  /-- The cursor is on the grid. -/
  cursor_mem : ∀ p, c.cursor = some p → p ∈ c.grid

theorem Canvas.WellFormed.of_placed {c : Canvas} {p : Point} (hsquare : c.grid.Square)
    (hcursor : c.cursor = some p) (hp : p ∈ c.grid) : c.WellFormed where
  square := hsquare
  cursor_mem q hq := by
    obtain rfl : p = q := Option.some.inj (hcursor.symm.trans hq)
    exact hp

/-! ### Stamps -/

namespace Brush

/-- The brush covers the points that are no further from its middle than it reaches, both across and
down. -/
theorem mem_footprint {b : Brush} {g : Grid} {p q : Point} (hq : q ∈ g) :
    q ∈ b.footprint g.last p ↔
      p.x - b.reach ≤ q.x ∧ q.x ≤ p.x + b.reach ∧ p.y - b.reach ≤ q.y ∧ q.y ≤ p.y + b.reach := by
  obtain ⟨h1, h2, h3, h4⟩ := hq
  simp only [Box.mem_def, footprint, Grid.last]
  omega

theorem reach_nonneg (b : Brush) : 0 ≤ b.reach := Int.natCast_nonneg _

end Brush

namespace Canvas

@[simp] theorem brush_stamp (c : Canvas) (p : Point) : (c.stamp p).brush = c.brush := by
  unfold stamp
  split <;> rfl

@[simp] theorem cursor_stamp (c : Canvas) (p : Point) : (c.stamp p).cursor = c.cursor := by
  unfold stamp
  split <;> rfl

theorem square_stamp {c : Canvas} (h : c.grid.Square) (p : Point) : (c.stamp p).grid.Square := by
  unfold stamp
  split
  · exact h
  · exact h.paint _ _

@[simp] theorem stampAll_nil (c : Canvas) : c.stampAll [] = c := rfl

@[simp] theorem stampAll_cons (c : Canvas) (p : Point) (ps : List Point) :
    c.stampAll (p :: ps) = (c.stamp p).stampAll ps := rfl

@[simp] theorem size_stampAll (c : Canvas) (ps : List Point) :
    (c.stampAll ps).grid.size = c.grid.size := by
  induction ps generalizing c with
  | nil => rfl
  | cons p ps ih => rw [stampAll_cons, ih, size_stamp]

@[simp] theorem brush_stampAll (c : Canvas) (ps : List Point) :
    (c.stampAll ps).brush = c.brush := by
  induction ps generalizing c with
  | nil => rfl
  | cons p ps ih => rw [stampAll_cons, ih, brush_stamp]

@[simp] theorem cursor_stampAll (c : Canvas) (ps : List Point) :
    (c.stampAll ps).cursor = c.cursor := by
  induction ps generalizing c with
  | nil => rfl
  | cons p ps ih => rw [stampAll_cons, ih, cursor_stamp]

theorem square_stampAll {c : Canvas} (h : c.grid.Square) (ps : List Point) :
    (c.stampAll ps).grid.Square := by
  induction ps generalizing c with
  | nil => exact h
  | cons p ps ih => exact ih (square_stamp h p)

/-- Stamps change no more than the grid. -/
theorem stampAll_eq (c : Canvas) (ps : List Point) :
    c.stampAll ps = { c with grid := (c.stampAll ps).grid } := by
  calc c.stampAll ps = ⟨(c.stampAll ps).grid, (c.stampAll ps).cursor, (c.stampAll ps).brush⟩ := rfl
    _ = { c with grid := (c.stampAll ps).grid } := by rw [cursor_stampAll, brush_stampAll]

/-- Stamps make no difference to where the cursor can go. -/
theorem moveTo_stampAll (c : Canvas) (ps : List Point) (p : Point) :
    moveTo p (c.stampAll ps) =
      if p ∈ c.grid then .ok () { c.stampAll ps with cursor := some p }
      else .error (.outOfBounds p) (c.stampAll ps) := by
  simp only [moveTo, Grid.mem_def, size_stampAll]

/-- The brush, set down on each of the points, touches the point `q`. -/
def Touches (c : Canvas) (ps : List Point) (q : Point) : Prop :=
  ∃ p ∈ ps, q ∈ c.brush.footprint c.grid.last p

instance (c : Canvas) (ps : List Point) (q : Point) : Decidable (c.Touches ps q) :=
  inferInstanceAs (Decidable (∃ p ∈ ps, q ∈ c.brush.footprint c.grid.last p))

theorem touches_cons {c : Canvas} {p q : Point} {ps : List Point} :
    c.Touches (p :: ps) q ↔ q ∈ c.brush.footprint c.grid.last p ∨ c.Touches ps q := by
  simp [Touches]

theorem touches_append {c : Canvas} {q : Point} {ps ps' : List Point} :
    c.Touches (ps ++ ps') q ↔ c.Touches ps q ∨ c.Touches ps' q := by
  simp only [Touches, List.mem_append, or_and_right, exists_or]

/-- What a stamp touches does not depend on the stamps before it. -/
theorem touches_stamp {c : Canvas} {p q : Point} {ps : List Point} :
    (c.stamp p).Touches ps q ↔ c.Touches ps q := by
  simp [Touches, Grid.last]

/-- A row of stamps colours the cells it touches, and no others. -/
theorem get?_stampAll {c : Canvas} (h : c.grid.Square) (ps : List Point) (q : Point) :
    (c.stampAll ps).grid.get? q =
      if c.brush.color ≠ .unmarked ∧ q ∈ c.grid ∧ c.Touches ps q
      then some c.brush.color else c.grid.get? q := by
  induction ps generalizing c with
  | nil => simp [Touches]
  | cons p ps ih =>
    have hmem : q ∈ (c.stamp p).grid ↔ q ∈ c.grid := by simp [Grid.mem_def]
    rw [stampAll_cons, ih (square_stamp h p), get?_stamp h]
    simp only [brush_stamp, hmem, touches_stamp, touches_cons]
    by_cases hps : c.Touches ps q
    · simp only [hps, or_true, and_true]
      split <;> rename_i hc
      · rfl
      · rw [if_neg fun hp => hc ⟨hp.1, hp.2.1⟩]
    · simp only [hps, or_false, and_false, if_false]

/-- A cell that no stamp touches keeps its colour, on any canvas. -/
theorem get?_stampAll_of_not_touches {c : Canvas} {ps : List Point} {q : Point}
    (h : ¬c.Touches ps q) : (c.stampAll ps).grid.get? q = c.grid.get? q := by
  induction ps generalizing c with
  | nil => rfl
  | cons p ps ih =>
    rw [touches_cons, not_or] at h
    rw [stampAll_cons, ih (mt touches_stamp.1 h.2), stamp]
    split
    · rfl
    · exact Grid.get?_paint_of_not_mem fun hq => h.1 (Box.mem_points.1 hq)

/-- A brush that leaves a mark marks the cells of the canvas on which it is set down. -/
theorem get?_stampAll_of_mem {c : Canvas} (hc : c.grid.Square)
    (hcolor : c.brush.color ≠ .unmarked) {ps : List Point} {q : Point} (hq : q ∈ c.grid)
    (hmem : q ∈ ps) : (c.stampAll ps).grid.get? q = some c.brush.color := by
  have htouch : c.Touches ps q := by
    refine ⟨q, hmem, (Brush.mem_footprint hq).2 ?_⟩
    have := c.brush.reach_nonneg
    omega
  rw [get?_stampAll hc, if_pos ⟨hcolor, hq, htouch⟩]

/-- Two rows of stamps that touch the same cells leave the same canvas. -/
theorem stampAll_congr {c : Canvas} (h : c.grid.Square) {ps ps' : List Point}
    (hps : ∀ q ∈ c.grid, c.Touches ps q ↔ c.Touches ps' q) : c.stampAll ps = c.stampAll ps' := by
  have hgrid : (c.stampAll ps).grid = (c.stampAll ps').grid := by
    refine Grid.ext_get? (square_stampAll h ps) (square_stampAll h ps') (by simp) fun q => ?_
    rw [get?_stampAll h, get?_stampAll h]
    by_cases hq : q ∈ c.grid
    · simp only [hps q hq]
    · simp only [hq, false_and, and_false, if_false]
  rw [stampAll_eq c ps, stampAll_eq c ps', hgrid]

/-- Neither the order of the stamps matters nor how often a point is stamped. -/
theorem stampAll_congr_mem {c : Canvas} (h : c.grid.Square) {ps ps' : List Point}
    (hps : ∀ p, p ∈ ps ↔ p ∈ ps') : c.stampAll ps = c.stampAll ps' :=
  stampAll_congr h fun q _ => by simp only [Touches, hps]

end Canvas

end Easel
