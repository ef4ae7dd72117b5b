import Easel.Canvas.Rectangle
import Easel.Proofs.Canvas.Cells

/-!
# The outline of a rectangle

Only the part of an outline near the canvas is drawn point by point. What is left out makes no
difference: a point beside the canvas touches no more of it than the nearest point of its side that
is drawn. So a rectangle leaves the canvas that comes of stamping the whole border of its box
(`Canvas.stampAll_outline`), which is to say its four sides from end to end
(`Canvas.stampAll_completeOutline`).
-/

namespace Easel

/-- The points of a box that lie on one of its sides. -/
def Box.border (b : Box) : List Point :=
  b.points.filter fun p => p.x = b.left ∨ p.x = b.right ∨ p.y = b.top ∨ p.y = b.bottom

theorem Box.mem_border {b : Box} {p : Point} :
    p ∈ b.border ↔ p ∈ b ∧ (p.x = b.left ∨ p.x = b.right ∨ p.y = b.top ∨ p.y = b.bottom) := by
  simp [border]

namespace Canvas

variable {c : Canvas} {b : Box}

/-- The part of a stretch that matters belongs to it. -/
theorem le_of_mem_visibleStretch {low high last x : Int} (hle : low ≤ high)
    (hx : x ∈ visibleStretch low high last) : low ≤ x ∧ x ≤ high := by
  rw [visibleStretch, mem_span] at hx
  omega

/-- What a brush touches between `0` and `last` from some place of a stretch, it touches from a
place in the part that matters. -/
theorem exists_mem_visibleStretch {low high last reach x q : Int} (hx : low ≤ x ∧ x ≤ high)
    (hq : 0 ≤ q ∧ q ≤ last) (h : x - reach ≤ q ∧ q ≤ x + reach) :
    ∃ y ∈ visibleStretch low high last, y - reach ≤ q ∧ q ≤ y + reach := by
  -- the place that is nearest to `x`
  refine ⟨max (min (max low 0) high) (min x (max (min high last) low)), ?_, ?_⟩
  · rw [visibleStretch, mem_span]
    omega
  · omega

theorem mem_outline {last : Int} {p : Point} :
    p ∈ outline last b ↔
      p.x ∈ visibleStretch b.left b.right last ∧ (p.y = b.bottom ∨ p.y = b.top) ∨
      p.y ∈ visibleStretch b.top b.bottom last ∧ (p.x = b.left ∨ p.x = b.right) := by
  obtain ⟨x, y⟩ := p
  simp only [outline, List.mem_append, List.mem_flatMap, List.mem_cons, List.not_mem_nil, or_false,
    Point.mk.injEq]
  grind

/-- What is drawn of an outline lies on the border. -/
theorem mem_border_of_mem_outline {last : Int} {p : Point} (hwidth : b.left ≤ b.right)
    (hheight : b.top ≤ b.bottom) (hp : p ∈ outline last b) : p ∈ b.border := by
  rw [Box.mem_border, Box.mem_def]
  rcases mem_outline.1 hp with ⟨hx, hy⟩ | ⟨hy, hx⟩
  · have hx := le_of_mem_visibleStretch hwidth hx
    omega
  · have hy := le_of_mem_visibleStretch hheight hy
    omega

/-- **Leaving out the far parts of an outline never changes the picture.** -/
theorem stampAll_outline (h : c.grid.Square) (hwidth : b.left ≤ b.right)
    (hheight : b.top ≤ b.bottom) :
    c.stampAll (outline c.grid.last b) = c.stampAll b.border := by
  refine stampAll_congr h fun q hq => ?_
  simp only [Touches, Brush.mem_footprint hq]
  constructor
  · rintro ⟨p, hp, htouch⟩
    exact ⟨p, mem_border_of_mem_outline hwidth hheight hp, htouch⟩
  · rintro ⟨p, hp, hx, hx', hy, hy'⟩
    obtain ⟨⟨hleft, hright, htop, hbottom⟩, hside⟩ := Box.mem_border.1 hp
    have hqx : 0 ≤ q.x ∧ q.x ≤ c.grid.last := ⟨hq.1, Int.le_sub_one_of_lt hq.2.1⟩
    have hqy : 0 ≤ q.y ∧ q.y ≤ c.grid.last := ⟨hq.2.2.1, Int.le_sub_one_of_lt hq.2.2.2⟩
    by_cases hx0 : p.x = b.left ∨ p.x = b.right
    · obtain ⟨y, hmem, hy, hy'⟩ := exists_mem_visibleStretch ⟨htop, hbottom⟩ hqy ⟨hy, hy'⟩
      exact ⟨⟨p.x, y⟩, mem_outline.2 (.inr ⟨hmem, hx0⟩), hx, hx', hy, hy'⟩
    · have hy0 : p.y = b.bottom ∨ p.y = b.top := by omega
      obtain ⟨x, hmem, hx, hx'⟩ := exists_mem_visibleStretch ⟨hleft, hright⟩ hqx ⟨hx, hx'⟩
      exact ⟨⟨x, p.y⟩, mem_outline.2 (.inl ⟨hmem, hy0⟩), hx, hx', hy, hy'⟩

/-! ### Rectangles -/

/-- A rectangle of positive width and height leaves its whole border. The cursor goes to its centre
if that lies on the canvas, and else stays where it is. -/
theorem rectangle_eq (h : c.grid.Square) {start : Point} (hstart : c.cursor = some start)
    (dx dy distance : Int) {width height : Int} (hwidth : 0 < width) (hheight : 0 < height) :
    rectangle dx dy distance width height c =
      if start.shift dx dy distance ∈ c.grid then
        .ok () { c.stampAll (boxAbout (start.shift dx dy distance) width height).border with
          cursor := some (start.shift dx dy distance) }
      else
        .error (.outOfBounds (start.shift dx dy distance))
          { c with grid :=
            (c.stampAll (boxAbout (start.shift dx dy distance) width height).border).grid } := by
  let centre := start.shift dx dy distance
  have hpos : ¬(width ≤ 0 ∨ height ≤ 0) := by omega
  have hleft : (boxAbout centre width height).left ≤ (boxAbout centre width height).right := by
    simp only [boxAbout]
    omega
  have htop : (boxAbout centre width height).top ≤ (boxAbout centre width height).bottom := by
    simp only [boxAbout]
    omega
  have hdraw : rectangle dx dy distance width height c =
      moveTo centre (c.stampAll (boxAbout centre width height).border) := by
    simp only [rectangle, if_neg hpos, hstart]
    rw [stampAll_outline h hleft htop]
  rw [hdraw, moveTo_stampAll, ← stampAll_eq]

/-- All points of the outline of a box, also those far from any canvas: its two rows from the left to
the right, then its two columns from the top to the bottom. -/
def completeOutline (b : Box) : List Point :=
  ((span b.left b.right).flatMap fun x => [⟨x, b.bottom⟩, ⟨x, b.top⟩]) ++
    (span b.top b.bottom).flatMap fun y => [⟨b.left, y⟩, ⟨b.right, y⟩]

/-- The outline of a box is its border. -/
theorem mem_completeOutline (hwidth : b.left ≤ b.right) (hheight : b.top ≤ b.bottom) {p : Point} :
    p ∈ completeOutline b ↔ p ∈ b.border := by
  obtain ⟨x, y⟩ := p
  simp only [completeOutline, List.mem_append, List.mem_flatMap, mem_span, List.mem_cons,
    List.not_mem_nil, or_false, Point.mk.injEq, Box.mem_border, Box.mem_def]
  constructor
  · rintro (⟨x', hx, ⟨rfl, rfl⟩ | ⟨rfl, rfl⟩⟩ | ⟨y', hy, ⟨rfl, rfl⟩ | ⟨rfl, rfl⟩⟩) <;> omega
  · rintro ⟨⟨hleft, hright, htop, hbottom⟩, hside⟩
    by_cases hx : x = b.left ∨ x = b.right
    · exact .inr ⟨y, ⟨htop, hbottom⟩, by omega⟩
    · exact .inl ⟨x, ⟨hleft, hright⟩, by omega⟩

theorem stampAll_completeOutline (h : c.grid.Square) (hwidth : b.left ≤ b.right)
    (hheight : b.top ≤ b.bottom) : c.stampAll (completeOutline b) = c.stampAll b.border :=
  stampAll_congr_mem h fun _ => mem_completeOutline hwidth hheight

/-- **Drawing only what is near never changes the picture.** A rectangle of positive width and height
leaves the cells that come of setting the brush down on every point of its outline, however far from
the canvas. If its centre lies on the canvas, this succeeds and the cursor goes there. If not, it
fails, and the cursor stays where it was. -/
theorem rectangle_eq_complete_outline (hc : c.WellFormed) {start centre : Point}
    (hstart : c.cursor = some start) (dx dy distance : Int)
    (hcentre : centre = ⟨start.x + dx * distance, start.y + dy * distance⟩) {width height : Int}
    (hwidth : 0 < width) (hheight : 0 < height) :
    rectangle dx dy distance width height c =
      if centre ∈ c.grid then
        .ok () { c.stampAll (completeOutline (boxAbout centre width height)) with
          cursor := some centre }
      else
        .error (.outOfBounds centre)
          { c with grid := (c.stampAll (completeOutline (boxAbout centre width height))).grid } := by
  subst hcentre
  rw [stampAll_completeOutline hc.square]
  · exact rectangle_eq hc.square hstart dx dy distance hwidth hheight
  · simp only [boxAbout]
    omega
  · simp only [boxAbout]
    omega

/-- A small canvas with a brush that reaches it from the cells beside it. -/
def overhung : Canvas := ⟨.blank 2, some ⟨0, 0⟩, ⟨.red, 3⟩⟩

theorem wellFormed_overhung : overhung.WellFormed :=
  .of_placed rfl rfl (by decide)

/-- A rectangle that lies beside the canvas, and its centre too. Its left side is so near that the
brush marks the canvas. -/
theorem rectangle_eq_complete_outline_overhung :
    overhung.WellFormed ∧ overhung.cursor = some ⟨0, 0⟩ ∧ (0 : Int) < 4 ∧ (0 : Int) < 1 ∧
      rectangle 1 0 4 4 1 overhung =
        .error (.outOfBounds ⟨4, 0⟩)
          { overhung with grid :=
            (overhung.stampAll (completeOutline (boxAbout ⟨4, 0⟩ 4 1))).grid } ∧
      (overhung.stampAll (completeOutline (boxAbout ⟨4, 0⟩ 4 1))).grid =
        ⟨2, #[.white, .red, .white, .red]⟩ := by
  have hdraw := rectangle_eq_complete_outline wellFormed_overhung rfl 1 0 4 rfl
    (show (0 : Int) < 4 by decide) (show (0 : Int) < 1 by decide)
  rw [if_neg (by decide)] at hdraw
  exact ⟨wellFormed_overhung, rfl, by decide, by decide, hdraw, by decide +kernel⟩

end Canvas

end Easel
