import Easel.Proofs.Canvas.CircleEnclosure
import Mathlib.Analysis.Real.Sqrt

/-!
# How round a circle is

The walk along a circle chooses in each column the better one of two rows, and the decision value
says by how much both are wrong (`Octant.error_next`). So the square of the distance from the centre
is never wrong by more than the radius (`Octant.Tracks`), even after the last step, which can go
beyond the diagonal and away from the circle: a state on the diagonal has two to spare. Hence the
distance itself is wrong by at most one, and no cell changes that is further from such a point than
the brush reaches (`Canvas.circle_near_radius`).
-/

namespace Easel

/-- The distance between two points. -/
noncomputable def Point.distance (p q : Point) : ℝ := √(((p.x - q.x) ^ 2 + (p.y - q.y) ^ 2 : ℤ) : ℝ)

/-! ### The error of the walk -/

namespace Octant

variable {radius : Int} {o n : Octant}

/-- By how much the square of the distance from the centre exceeds that of the radius. -/
def error (radius : Int) (o : Octant) : Int := o.x ^ 2 + o.y ^ 2 - radius ^ 2

/-- How the error grows with a step, and how the decision value bounds it: the row that is chosen is
never worse than by half the difference between the squares of the two rows. -/
theorem error_next (h : Decides radius o) :
    o.d < 0 ∧ o.next.y = o.y ∧ o.next.error radius = o.error radius + 2 * o.x + 1 ∧
        2 * o.next.error radius = o.d + 2 * o.y - 1 ∨
      0 ≤ o.d ∧ o.next.y = o.y - 1 ∧
        o.next.error radius = o.error radius + 2 * (o.x - o.y) + 2 ∧
        2 * o.next.error radius = o.d - 2 * o.y + 1 := by
  unfold Decides at h
  rcases o.next_y with ⟨hd, hy⟩ | ⟨hd, hy⟩
  · refine .inl ⟨hd, hy, ?_, ?_⟩
    · rw [error, error, hy, next_x]
      ring
    · rw [error, hy, next_x, h]
      ring
  · refine .inr ⟨hd, hy, ?_, ?_⟩
    · rw [error, error, hy, next_x]
      ring
    · rw [error, hy, next_x, h]
      ring

/-- The state keeps to the circle. -/
structure Tracks (radius : Int) (o : Octant) : Prop where
  /-- It lies in the first quarter. -/
  quarter : o.FirstQuarter
  /-- Its decision value is right. -/
  decides : Decides radius o
  /-- It is not above the circle's highest row. -/
  y_le : o.y ≤ radius
  /-- It is not too far within the circle. -/
  le_error : -radius ≤ o.error radius
  /-- It is not too far outside. -/
  error_le : o.error radius ≤ radius
  /-- On the diagonal there is room for a step straight away from the circle. -/
  diagonal : o.x = o.y → o.error radius ≤ radius - 2

theorem Tracks.abs_error_le (h : Tracks radius o) : |o.error radius| ≤ radius :=
  abs_le.2 ⟨h.le_error, h.error_le⟩

theorem tracks_start (h : 0 < radius) : Tracks radius (start radius) where
  quarter := firstQuarter_start h
  decides := decides_start radius
  y_le := le_rfl
  le_error := by
    simp only [error, start]
    omega
  error_le := by
    simp only [error, start]
    omega
  diagonal hxy := by
    simp only [start] at hxy
    omega

/-- **A step keeps to the circle,** from every state that is not yet beyond the diagonal. -/
theorem Tracks.next (h : Tracks radius o) (hxy : o.x ≤ o.y) : Tracks radius o.next := by
  obtain ⟨hquarter, hdecides, hy, hle, hge, hdiagonal⟩ := h
  have hquarter' := hquarter.next hxy
  have hx : 0 ≤ o.x := hquarter.1
  have hnx := o.next_x
  rcases error_next hdecides with ⟨hd, hny, hgrow, hbound⟩ | ⟨hd, hny, hgrow, hbound⟩
  · refine ⟨hquarter', hdecides.next, by omega, by omega, by omega, fun hnxy => ?_⟩
    -- the corner of the square about the circle is too far away to be reached
    have hlt : o.y ≠ radius := by
      intro hcorner
      have hsq : o.next.error radius = radius ^ 2 := by
        rw [error, hnxy, hny, hcorner]
        ring
      nlinarith
    omega
  · exact ⟨hquarter', hdecides.next, by omega, by omega, by omega, fun hnxy => by omega⟩

/-- **All of the sweep keeps to the circle.** -/
theorem Tracks.of_mem_sweep (h : Tracks radius o) (hn : n ∈ o.sweep) : Tracks radius n :=
  Octant.of_mem_sweep (fun _ => Tracks.next) h hn

/-- The error at a point that a state stands for is the error of the state. -/
theorem error_of_mem_reflections {centre p : Point} (hp : p ∈ o.reflections centre) :
    (p.x - centre.x) ^ 2 + (p.y - centre.y) ^ 2 - radius ^ 2 = o.error radius := by
  obtain ⟨a, b, hab, hx, hy⟩ := mem_reflections.1 hp
  have hxsq : (p.x - centre.x) ^ 2 = a ^ 2 := by rcases hx with hx | hx <;> rw [hx] <;> ring
  have hysq : (p.y - centre.y) ^ 2 = b ^ 2 := by rcases hy with hy | hy <;> rw [hy] <;> ring
  rw [hxsq, hysq, error]
  rcases hab with ⟨rfl, rfl⟩ | ⟨rfl, rfl⟩
  · rfl
  · ring

end Octant

/-- A square that is wrong by at most its side has a side that is wrong by at most one. -/
theorem abs_sqrt_sub_le_one {s r : ℤ} (hr : 0 < r) (h : |s - r ^ 2| ≤ r) : |√(s : ℝ) - r| ≤ 1 := by
  obtain ⟨hlow, hhigh⟩ := abs_le.1 h
  have hpos : (1 : ℝ) ≤ r := by exact_mod_cast hr
  have hlower : (r - 1 : ℝ) ^ 2 ≤ s := by
    have : (r - 1) ^ 2 ≤ s := by nlinarith
    exact_mod_cast this
  have hupper : (s : ℝ) ≤ (r + 1) ^ 2 := by
    have : s ≤ (r + 1) ^ 2 := by nlinarith
    exact_mod_cast this
  rw [abs_le]
  constructor
  · have := Real.le_sqrt_of_sq_le hlower
    linarith
  · have := Real.sqrt_le_iff.2 ⟨by linarith, hupper⟩
    linarith

/-! ### Circles -/

namespace Canvas

open Octant

variable {c c' : Canvas} {radius : Int} {centre p q : Point}

/-- The tips of a circle are where its walk begins. -/
theorem circleTips_subset (centre : Point) (radius : Int) :
    circleTips centre radius ⊆ (start radius).reflections centre := by
  intro p hp
  rw [mem_reflections]
  simp only [circleTips, List.mem_cons, List.not_mem_nil, or_false] at hp
  rcases hp with rfl | rfl | rfl | rfl
  · exact ⟨radius, 0, by simp [start]⟩
  · exact ⟨radius, 0, by simp [start]⟩
  · exact ⟨0, radius, by simp [start]⟩
  · exact ⟨0, radius, by simp [start]⟩

/-- Every point of a circle stands for a state that keeps to it. -/
theorem exists_tracks_of_mem_circlePoints (hradius : 0 < radius) {last reach : Int}
    (hp : p ∈ circlePoints last reach centre radius) :
    ∃ o, Tracks radius o ∧ p ∈ o.reflections centre := by
  rcases List.mem_append.1 hp with hp | hp
  · exact ⟨start radius, tracks_start hradius, circleTips_subset centre radius hp⟩
  · obtain ⟨o, ho, hp⟩ := List.mem_flatMap.1 hp
    exact ⟨o, (tracks_start hradius).of_mem_sweep (walk_subset_sweep _ _ _ ho), hp⟩

/-- A point of a circle is as far from the centre as the radius says, give or take one. -/
theorem abs_distance_sub_le_one (hradius : 0 < radius) {last reach : Int}
    (hp : p ∈ circlePoints last reach centre radius) : |p.distance centre - radius| ≤ 1 := by
  obtain ⟨o, ho, hp⟩ := exists_tracks_of_mem_circlePoints hradius hp
  refine abs_sqrt_sub_le_one hradius ?_
  rw [error_of_mem_reflections hp]
  exact ho.abs_error_le

/-- The brush covers no cell that is further from its middle than it reaches. -/
theorem Touches.exists_near {ps : List Point} (h : c.Touches ps q) :
    ∃ p ∈ ps, |q.x - p.x| ≤ c.brush.reach ∧ |q.y - p.y| ≤ c.brush.reach := by
  obtain ⟨p, hp, hleft, hright, htop, hbottom⟩ := h
  simp only [Brush.footprint] at hleft hright htop hbottom
  refine ⟨p, hp, abs_le.2 ?_, abs_le.2 ?_⟩ <;> omega

/-- **A circle is round.** At each state of the walk, the first and the last included, the square of
the distance from the centre differs from that of the radius by at most the radius. The points where
the brush is set down are reflections of such states. So, whatever the canvas and its brush are
like, a cell that a circle changes is within reach of the brush from a point whose distance from the
centre differs from the radius by at most one. -/
theorem circle_near_radius (hradius : 0 < radius) :
    (∀ o ∈ start radius :: (start radius).sweep,
      0 ≤ o.x ∧ 0 ≤ o.y ∧ |o.x ^ 2 + o.y ^ 2 - radius ^ 2| ≤ radius) ∧
    (∀ near far, walk near far (start radius) [] ⊆ (start radius).sweep) ∧
    (∀ centre, ∀ p ∈ circleTips centre radius, p ∈ (start radius).reflections centre ∧
      |(p.x - centre.x) ^ 2 + (p.y - centre.y) ^ 2 - radius ^ 2| ≤ radius) ∧
    ∀ (c c' : Canvas) (dx dy : Int), circle dx dy radius c = .ok () c' →
      ∃ first centre, c.cursor = some first ∧ centre = first.shift dx dy radius ∧
        c'.cursor = some centre ∧
        ∀ q, c'.grid.get? q ≠ c.grid.get? q →
          ∃ p : Point, |q.x - p.x| ≤ c.brush.reach ∧ |q.y - p.y| ≤ c.brush.reach ∧
            |p.distance centre - radius| ≤ 1 := by
  refine ⟨fun o ho => ?_, fun near far => walk_subset_sweep near far _, fun centre p hp => ?_,
    fun c c' dx dy h => ?_⟩
  · have htracks : Tracks radius o := by
      rcases List.mem_cons.1 ho with rfl | ho
      · exact tracks_start hradius
      · exact (tracks_start hradius).of_mem_sweep ho
    obtain ⟨hx, hy, -⟩ := htracks.quarter
    exact ⟨hx, hy, htracks.abs_error_le⟩
  · have hmem := circleTips_subset centre radius hp
    rw [error_of_mem_reflections hmem]
    exact ⟨hmem, (tracks_start hradius).abs_error_le⟩
  · obtain ⟨first, hfirst, -, rfl⟩ := exists_of_circle_eq_ok hradius h
    refine ⟨first, _, hfirst, rfl, rfl, fun q hq => ?_⟩
    have htouch := not_not.1 (mt get?_stampAll_of_not_touches hq)
    obtain ⟨p, hp, hx, hy⟩ := htouch.exists_near
    exact ⟨p, hx, hy, abs_distance_sub_le_one hradius hp⟩

/-- A cell that a circle of radius two changes beside its top, with a brush of width one. -/
theorem circle_near_radius_field :
    (0 : Int) < 2 ∧ circle 0 0 2 field = .ok () fencedField ∧
      fencedField.grid.get? ⟨1, 0⟩ ≠ field.grid.get? ⟨1, 0⟩ ∧
      ∃ p : Point, |1 - p.x| ≤ 0 ∧ |0 - p.y| ≤ 0 ∧ |p.distance ⟨2, 2⟩ - (2 : ℤ)| ≤ 1 := by
  obtain ⟨-, -, -, hcircle⟩ := circle_near_radius (show (0 : Int) < 2 by decide)
  obtain ⟨first, centre, hfirst, rfl, hcentre, hnear⟩ := hcircle field fencedField 0 0 circle_field
  have hchanged : fencedField.grid.get? ⟨1, 0⟩ ≠ field.grid.get? ⟨1, 0⟩ := by decide
  obtain rfl : ⟨2, 2⟩ = first := Option.some.inj hfirst
  exact ⟨by decide, circle_field, hchanged, hnear ⟨1, 0⟩ hchanged⟩

end Canvas

end Easel
