import Easel.Proofs.Canvas.MachineExact

/-!
# Stamps

A stamp is a square about the point that the brush is set down on, clipped at the four edges of the
canvas, and nothing else (`Canvas.Stamped`). With words of 64 bits it is put together from slices of
the rows. This has the same result for every point on which a line, a circle or a rectangle sets the
brush down (`Canvas.SetDown`), however far beside the canvas it lies.

As the square depends on nothing that a stamp changes, stamps can be exchanged and repeated: a row
of them does what the set of its points does.
-/

namespace Easel.Canvas

variable {c c' : Canvas} {p q : Point}

/-! ### The square -/

/-- The point `q` of the canvas lies in the square about `p`, and the brush leaves a mark there. -/
structure Covers (c : Canvas) (p q : Point) : Prop where
  mem : q ∈ c.grid
  color_ne : c.brush.color ≠ .white
  across : |q.x - p.x| ≤ (c.brush.width / 2 : Nat)
  down : |q.y - p.y| ≤ (c.brush.width / 2 : Nat)

theorem covers_iff :
    c.Covers p q ↔
      c.brush.color ≠ .unmarked ∧ q ∈ c.grid ∧ q ∈ c.brush.footprint c.grid.last p := by
  constructor
  · rintro ⟨hq, hcolor, hx, hy⟩
    rw [abs_le] at hx hy
    refine ⟨hcolor, hq, (Brush.mem_footprint hq).2 ?_⟩
    simp only [Brush.reach]
    omega
  · rintro ⟨hcolor, hq, hmem⟩
    have hsquare := (Brush.mem_footprint hq).1 hmem
    simp only [Brush.reach] at hsquare
    refine ⟨hq, hcolor, ?_, ?_⟩ <;> rw [abs_le] <;> omega

/-- The canvas `c'` is `c` after the brush has been set down on `p`. -/
structure Stamped (c : Canvas) (p : Point) (c' : Canvas) : Prop where
  /-- What is covered has the colour of the brush. -/
  covered : ∀ q, c.Covers p q → c'.grid.get? q = some c.brush.color
  /-- What is not covered is as it was. -/
  kept : ∀ q, ¬c.Covers p q → c'.grid.get? q = c.grid.get? q
  square : c'.grid.Square
  size_eq : c'.grid.size = c.grid.size
  cursor_eq : c'.cursor = c.cursor
  brush_eq : c'.brush = c.brush

theorem stamped_stamp (h : c.grid.Square) (p : Point) : c.Stamped p (c.stamp p) where
  covered q hq := by rw [get?_stamp h, if_pos (covers_iff.1 hq)]
  kept q hq := by rw [get?_stamp h, if_neg fun hmem => hq (covers_iff.2 hmem)]
  square := square_stamp h p
  size_eq := size_stamp c p
  cursor_eq := cursor_stamp c p
  brush_eq := brush_stamp c p

/-! ### Where the brush is set down -/

/-- A line, a circle or a rectangle sets the brush down on the point. -/
inductive SetDown (c : Canvas) : Point → Prop where
  | line {start p : Point} {dx dy distance : Int32} : c.cursor = some start →
      UnitStep dx.toInt dy.toInt →
      p ∈ c.grid.walk dx.toInt dy.toInt (lineSteps dx.toInt dy.toInt distance.toInt) start →
      SetDown c p
  | circle {start p : Point} {dx dy radius : Int32} : c.cursor = some start → 0 < radius.toInt →
      start.shift dx.toInt dy.toInt radius.toInt ∈ c.grid →
      p ∈ circlePoints c.grid.last c.brush.reach (start.shift dx.toInt dy.toInt radius.toInt)
        radius.toInt →
      SetDown c p
  | rectangle {start p : Point} {dx dy distance width height : Int32} : c.cursor = some start →
      0 < width.toInt → 0 < height.toInt →
      p ∈ outline c.grid.last (boxAbout (start.shift dx.toInt dy.toInt distance.toInt) width.toInt
        height.toInt) →
      SetDown c p

/-- **The brush is never set down so far away** that a word has no room for its reach. -/
theorem SetDown.within (hc : c.WellFormed) (h : c.Fits64) (hp : c.SetDown p) :
    p.Within 5000000000000000000 := by
  cases hp with
  | line _ _ hmem =>
    exact (Grid.within_of_mem h.size_le (Grid.mem_of_mem_walk hmem)).mono (by decide)
  | @circle _ _ _ _ radius _ hradius hcentre hmem =>
    have hle := Word64.toInt_bounds radius
    exact within_of_mem_circlePoints ⟨hradius, hle.2⟩ (Grid.within_of_mem h.size_le hcentre) hmem
  | @rectangle start _ dx dy distance width height hcursor hwidth hheight hmem =>
    have hstart := Grid.within_of_mem h.size_le (hc.cursor_mem start hcursor)
    obtain ⟨⟨hleft, hx, hright⟩, htop, hy, hbottom⟩ :=
      boxAbout_bounds (within_shift hstart dx dy distance) hwidth hheight rfl
    exact within_of_mem_outline ⟨hleft, hright⟩ ⟨htop, hbottom⟩ hx hy hmem

/-! ### Stamps are exact -/

theorem stamp_comm (h : c.grid.Square) (p q : Point) :
    (c.stamp p).stamp q = (c.stamp q).stamp p := by
  show c.stampAll [p, q] = c.stampAll [q, p]
  exact stampAll_congr_mem h fun r => by simp [or_comm]

theorem stamp_stamp (h : c.grid.Square) (p : Point) : (c.stamp p).stamp p = c.stamp p := by
  show c.stampAll [p, p] = c.stampAll [p]
  exact stampAll_congr_mem h fun r => by simp

/-- **A stamp is exactly the clipped square.** Wherever the brush is set down, the cells of the
canvas that are no further away than half its width, both across and down, get its colour, unless
that is white, and nothing else changes. With words of 64 bits, slice by slice, this is so at every
point where a line, a circle or a rectangle sets it down. So stamps with one brush can be exchanged
and repeated, and a row of them does what any other does that has the same points. -/
theorem stamp_is_clipped_square (hc : c.WellFormed) (hsize : c.grid.size ≤ 2147483647)
    (hwidth : c.brush.width ≤ 2147483647) :
    (∀ p, c.Stamped p (c.stamp p)) ∧
    (∀ p, c.SetDown p → p.to64.toPoint = p ∧ c.stamp64? p.to64 = some (c.stamp p)) ∧
    (∀ p q, (c.stamp p).stamp q = (c.stamp q).stamp p) ∧
    (∀ p, (c.stamp p).stamp p = c.stamp p) ∧
    (∀ ps ps' : List Point, (∀ p, p ∈ ps ↔ p ∈ ps') → c.stampAll ps = c.stampAll ps') ∧
    ∀ ps : List Point, (∀ p ∈ ps, c.SetDown p) →
      c.stampAll64? (ps.map Point.to64) = some (c.stampAll ps) := by
  have h : c.Fits64 := ⟨hc.square, hsize, hwidth⟩
  refine ⟨stamped_stamp hc.square, fun p hp => ?_, stamp_comm hc.square, stamp_stamp hc.square,
    fun ps ps' hps => stampAll_congr_mem hc.square hps, fun ps hps => ?_⟩
  · have hwithin := hp.within hc h
    exact ⟨Point64.toPoint_to64 hwithin le_rfl, stamp64?_to64 h hwithin⟩
  · exact stampAll64?_to64 h fun p hp => (hps p hp).within hc h

/-- A canvas of three by three cells with a brush of width three. -/
def handy : Canvas := ⟨.blank 3, some ⟨1, 1⟩, ⟨.red, 3⟩⟩

theorem wellFormed_handy : handy.WellFormed := .of_placed rfl rfl (by decide)

/-- A small rectangle is drawn beside the canvas. -/
theorem setDown_handy : handy.SetDown ⟨-1, 1⟩ :=
  @SetDown.rectangle handy ⟨1, 1⟩ ⟨-1, 1⟩ (-1) 0 2 1 1 rfl (by decide) (by decide) (by decide)

/-- From beside the canvas the brush reaches its first column, and nothing of the row above. -/
theorem stamp_is_clipped_square_handy :
    handy.WellFormed ∧ handy.grid.size ≤ 2147483647 ∧ handy.brush.width ≤ 2147483647 ∧
      handy.SetDown ⟨-1, 1⟩ ∧
      handy.stamp64? ⟨-1, 1⟩ = some { handy with grid :=
        ⟨3, #[.red, .white, .white, .red, .white, .white, .red, .white, .white]⟩ } ∧
      handy.stampAll [⟨-1, 1⟩, ⟨3, 3⟩, ⟨-1, 1⟩] = handy.stampAll [⟨3, 3⟩, ⟨-1, 1⟩] := by
  obtain ⟨-, hwords, -, -, hrow, -⟩ :=
    stamp_is_clipped_square wellFormed_handy (by decide) (by decide)
  obtain ⟨-, hstamp⟩ := hwords ⟨-1, 1⟩ setDown_handy
  exact ⟨wellFormed_handy, by decide, by decide, setDown_handy, hstamp,
    hrow _ _ fun p => by simp [or_comm]⟩

end Easel.Canvas
