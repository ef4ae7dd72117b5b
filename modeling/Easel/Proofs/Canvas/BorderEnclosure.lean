import Easel.Proofs.Canvas.Border
import Easel.Proofs.Canvas.Flood

/-!
# A rectangle encloses its centre

The border of a box is as wide as a step, and its corners belong to it. So a single step that leaves
the interior ends on the border (`Box.mem_border_of_step_out`), and a drawn rectangle is a wall for
every filling that begins at its centre (`Canvas.fill_inside_rectangle`). A box so narrow that it
has no interior is all border, and its centre has the colour of the brush.
-/

namespace Easel

/-! ### The interior of a box -/

namespace Box

variable {b : Box} {p q : Point}

/-- The point lies in the box and on none of its sides. -/
def Interior (b : Box) (p : Point) : Prop :=
  b.left < p.x ∧ p.x < b.right ∧ b.top < p.y ∧ p.y < b.bottom

/-- What lies in a box is in its interior or on its border. -/
theorem interior_or_mem_border (hp : p ∈ b) : b.Interior p ∨ p ∈ b.border := by
  obtain ⟨hleft, hright, htop, hbottom⟩ := hp
  by_cases hside : p.x = b.left ∨ p.x = b.right ∨ p.y = b.top ∨ p.y = b.bottom
  · exact .inr (mem_border.2 ⟨⟨hleft, hright, htop, hbottom⟩, hside⟩)
  · refine .inl ?_
    unfold Interior
    omega

/-- A step out of the interior leads onto the border. -/
theorem mem_border_of_step_out (hp : b.Interior p) (hpq : p.Beside q) (hq : ¬b.Interior q) :
    q ∈ b.border := by
  have hmem : q ∈ b := by
    unfold Interior at hp
    unfold Point.Beside at hpq
    rw [mem_def]
    omega
  exact (interior_or_mem_border hmem).resolve_left hq

end Box

namespace Canvas

variable {c c₁ c₂ : Canvas} {centre : Point} {width height : Int}

theorem centre_mem_boxAbout (hwidth : 0 < width) (hheight : 0 < height) :
    centre ∈ boxAbout centre width height := by
  simp only [Box.mem_def, boxAbout]
  omega

theorem interior_boxAbout {q : Point} :
    (boxAbout centre width height).Interior q ↔
      |q.x - centre.x| < width / 2 ∧ |q.y - centre.y| < height / 2 := by
  simp only [Box.Interior, boxAbout, abs_lt]
  omega

/-! ### Rectangles as walls -/

/-- A rectangle that succeeds leaves its whole border, and the cursor at its centre. -/
theorem rectangle_eq_ok (hc : c.WellFormed) {start : Point} (hstart : c.cursor = some start)
    {dx dy distance : Int} (h : rectangle dx dy distance width height c = .ok () c₁) :
    0 < width ∧ 0 < height ∧ start.shift dx dy distance ∈ c.grid ∧
      c₁.grid = (c.stampAll (boxAbout (start.shift dx dy distance) width height).border).grid ∧
      c₁.cursor = some (start.shift dx dy distance) := by
  by_cases hpos : width ≤ 0 ∨ height ≤ 0
  · simp only [rectangle, if_pos hpos] at h
    cases h
  · have hwidth : 0 < width := by omega
    have hheight : 0 < height := by omega
    rw [rectangle_eq hc.square hstart dx dy distance hwidth hheight] at h
    split at h
    · next hmem =>
      cases h
      exact ⟨hwidth, hheight, hmem, rfl, rfl⟩
    · cases h

/-- **A drawn rectangle is a wall for filling.** Let a rectangle be drawn with a brush that leaves a
mark, on whatever was there before and however the edges clip it. If the cell at its centre does not
have the colour of the brush afterwards, then a filling, with that colour or with any other that is
taken next, changes only cells that are nearer to the centre than half the width across and than
half the height down, both rounded down. -/
theorem fill_inside_rectangle (hc : c.WellFormed) (hcolor : c.brush.color ≠ .white)
    {start : Point} (hstart : c.cursor = some start) {dx dy distance : Int}
    (hrectangle : rectangle dx dy distance width height c = .ok () c₁)
    (hcentre : centre = ⟨start.x + dx * distance, start.y + dy * distance⟩)
    (hopen : c₁.grid.get? centre ≠ some c.brush.color)
    (htake : c₂ = c₁ ∨ ∃ name, takeColor name c₁ = .ok () c₂) :
    ∃ painted c₃, fill c₂ = .ok painted c₃ ∧
      ∀ q, c₃.grid.get? q ≠ c₂.grid.get? q →
        |q.x - centre.x| < width / 2 ∧ |q.y - centre.y| < height / 2 := by
  obtain rfl : centre = start.shift dx dy distance := hcentre
  obtain ⟨hwidth, hheight, hmem, hgrid, hcursor⟩ := rectangle_eq_ok hc hstart hrectangle
  -- a centre on the border would have been marked
  have hin : (boxAbout (start.shift dx dy distance) width height).Interior
      (start.shift dx dy distance) := by
    refine (Box.interior_or_mem_border (centre_mem_boxAbout hwidth hheight)).resolve_right ?_
    intro hborder
    rw [hgrid] at hopen
    exact hopen (get?_stampAll_of_mem hc.square hcolor hmem hborder)
  obtain ⟨painted, c₃, hfill, hchanged⟩ :=
    fill_inside_stamps hc hcolor hmem hgrid hcursor hopen htake hin
      fun _ _ => Box.mem_border_of_step_out
  exact ⟨painted, c₃, hfill, fun q hq => interior_boxAbout.1 (hchanged q hq)⟩

/-- A canvas with some marks on it and the cursor in a corner. -/
def scribbled : Canvas where
  grid := ⟨4, #[.white, .black, .white, .white,
    .white, .white, .black, .white,
    .white, .white, .white, .white,
    .white, .black, .white, .white]⟩
  cursor := some ⟨0, 0⟩
  brush := ⟨.red, 1⟩

/-- The same canvas with a rectangle drawn on it that goes over its left and its upper edge. -/
def clippedScribble : Canvas where
  grid := ⟨4, #[.white, .black, .red, .white,
    .white, .white, .red, .white,
    .white, .white, .red, .white,
    .red, .red, .red, .white]⟩
  cursor := some ⟨0, 1⟩
  brush := ⟨.red, 1⟩

theorem wellFormed_scribbled : scribbled.WellFormed :=
  .of_placed rfl rfl (by decide)

theorem rectangle_scribbled : rectangle 0 1 1 5 4 scribbled = .ok () clippedScribble := by
  have hcentre : (⟨0, 0⟩ : Point).shift 0 1 1 ∈ scribbled.grid := by decide
  have hstamp :
      { scribbled.stampAll (boxAbout ⟨0, 1⟩ 5 4).border with cursor := some ⟨0, 1⟩ } =
        clippedScribble := by
    decide +kernel
  rw [rectangle_eq wellFormed_scribbled.square rfl 0 1 1 (by decide) (by decide), if_pos hcentre]
  exact congrArg _ hstamp

theorem takeColor_clippedScribble :
    takeColor "blue" clippedScribble = .ok () { clippedScribble with brush := ⟨.blue, 1⟩ } := by
  have hblue : ColorName.ofString? "blue" = some (.solid .blue) := by decide
  simp only [takeColor, hblue, clippedScribble]

/-- The filling begins in a clipped rectangle on marks that were there before it. -/
theorem fill_inside_rectangle_scribbled :
    scribbled.WellFormed ∧ scribbled.brush.color ≠ .white ∧
      rectangle 0 1 1 5 4 scribbled = .ok () clippedScribble ∧
      clippedScribble.grid.get? ⟨0, 1⟩ ≠ some scribbled.brush.color ∧
      takeColor "blue" clippedScribble = .ok () { clippedScribble with brush := ⟨.blue, 1⟩ } ∧
      ∃ painted c₃, fill { clippedScribble with brush := ⟨.blue, 1⟩ } = .ok painted c₃ ∧
        ∀ q, c₃.grid.get? q ≠ clippedScribble.grid.get? q →
          |q.x - 0| < 5 / 2 ∧ |q.y - 1| < 4 / 2 := by
  have hcolor : scribbled.brush.color ≠ .white := by decide
  have hopen : clippedScribble.grid.get? ⟨0, 1⟩ ≠ some scribbled.brush.color := by decide
  obtain ⟨painted, c₃, hfill, hinside⟩ :=
    fill_inside_rectangle wellFormed_scribbled hcolor rfl rectangle_scribbled rfl hopen
      (Or.inr ⟨"blue", takeColor_clippedScribble⟩)
  exact ⟨wellFormed_scribbled, hcolor, rectangle_scribbled, hopen, takeColor_clippedScribble,
    painted, c₃, hfill, hinside⟩

end Canvas

end Easel
