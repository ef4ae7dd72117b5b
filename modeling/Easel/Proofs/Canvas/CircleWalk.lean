import Easel.Canvas.Circle
import Easel.Proofs.Canvas.Cells

/-!
# The walk along a circle can be cut short

`Octant.walk` leaves out the states beyond the far bound and stops after the first one within the
near bound. `Octant.sweep` is the same walk without the two bounds. A state that only the sweep has
is beyond the far bound, or the walk has one within the near bound (`Octant.mem_sweep`). In the
first case the brush touches no cell at any of its eight points; in the second every cell has been
touched already. So both walks leave the same canvas (`Canvas.stampAll_circlePoints`).
-/

namespace Easel

/-! ### The complete walk -/

namespace Octant

variable {near far : Int} {o n : Octant} {found : List Octant}

@[simp] theorem next_x (o : Octant) : o.next.x = o.x + 1 := by
  unfold next
  split <;> rfl

/-- The circle stays in its row or comes down by one, as the decision value tells. -/
theorem next_y (o : Octant) :
    o.d < 0 ∧ o.next.y = o.y ∨ 0 ≤ o.d ∧ o.next.y = o.y - 1 := by
  unfold next
  split
  · next hd => exact Or.inl ⟨hd, rfl⟩
  · next hd => exact Or.inr ⟨by omega, rfl⟩

/-- All states after `o` up to the diagonal, in the order of the walk. The last one may lie just
beyond the diagonal. -/
def sweep (o : Octant) : List Octant := if o.x ≤ o.y then o.next :: o.next.sweep else []
termination_by (o.y - o.x + 1).toNat
decreasing_by
  have := o.next_sub_lt
  omega

theorem sweep_of_le (h : o.x ≤ o.y) : o.sweep = o.next :: o.next.sweep := by rw [sweep, if_pos h]

theorem sweep_of_lt (h : o.y < o.x) : o.sweep = [] := by rw [sweep, if_neg (by omega)]

/-- The sweep goes from column to column, away from the axis. -/
theorem lt_x_of_mem_sweep (h : n ∈ o.sweep) : o.x < n.x := by
  fun_induction sweep o with
  | case1 o _ ih =>
    rcases List.mem_cons.1 h with rfl | h
    · rw [next_x]
      omega
    · have := ih h
      rw [next_x] at this
      omega
  | case2 => cases h

/-- The state lies in the first quarter, and not at the centre. -/
def FirstQuarter (o : Octant) : Prop := 0 ≤ o.x ∧ 0 ≤ o.y ∧ 0 < o.x + o.y

theorem firstQuarter_start {radius : Int} (h : 0 < radius) : (start radius).FirstQuarter := by
  simp only [FirstQuarter, start]
  omega

theorem FirstQuarter.next (h : o.FirstQuarter) (hxy : o.x ≤ o.y) : o.next.FirstQuarter := by
  obtain ⟨hx, hy, hpos⟩ := h
  have hnx := o.next_x
  have hny := o.next_y
  simp only [FirstQuarter]
  omega

/-- What a step keeps, from every state that is not beyond the diagonal, all of the sweep keeps. -/
theorem of_mem_sweep {P : Octant → Prop} (hnext : ∀ o : Octant, P o → o.x ≤ o.y → P o.next)
    (ho : P o) (hn : n ∈ o.sweep) : P n := by
  fun_induction sweep o with
  | case1 o hxy ih =>
    rcases List.mem_cons.1 hn with rfl | hn
    · exact hnext o ho hxy
    · exact ih (hnext o ho hxy) hn
  | case2 => cases hn

/-- The sweep never leaves the first quarter, also where it ends beyond the diagonal. -/
theorem FirstQuarter.of_mem_sweep (h : o.FirstQuarter) (hn : n ∈ o.sweep) : n.FirstQuarter :=
  Octant.of_mem_sweep (fun _ => FirstQuarter.next) h hn

/-! ### The walk with bounds -/

theorem mem_walk_of_mem (h : n ∈ found) : n ∈ walk near far o found := by
  fun_induction walk near far o found with
  | case1 => exact h
  | case2 o found _ n' _ _ ih => exact ih h
  | case3 => exact List.mem_cons_of_mem _ h
  | case4 o found _ n' _ _ _ ih => exact ih (List.mem_cons_of_mem _ h)
  | case5 => exact h

/-- The walk finds only states of the sweep. -/
theorem mem_sweep_of_mem_walk (h : n ∈ walk near far o found) : n ∈ found ∨ n ∈ o.sweep := by
  fun_induction walk near far o found with
  | case1 => exact Or.inl h
  | case2 o found hxy n' _ _ ih =>
    rw [sweep_of_le hxy]
    exact (ih h).imp_right (List.mem_cons_of_mem _)
  | case3 o found hxy n' _ _ _ =>
    rw [sweep_of_le hxy]
    rcases List.mem_cons.1 h with rfl | h
    · exact Or.inr List.mem_cons_self
    · exact Or.inl h
  | case4 o found hxy n' _ _ _ ih =>
    rw [sweep_of_le hxy]
    rcases ih h with h | h
    · rcases List.mem_cons.1 h with rfl | h
      · exact Or.inr List.mem_cons_self
      · exact Or.inl h
    · exact Or.inr (List.mem_cons_of_mem _ h)
  | case5 => exact Or.inl h

theorem walk_subset_sweep (near far : Int) (o : Octant) : walk near far o [] ⊆ o.sweep := by
  intro n hn
  rcases mem_sweep_of_mem_walk hn with hn | hn
  · cases hn
  · exact hn

/-- Why the walk may do without a state of the sweep: it lies beyond the far bound, or a state that
the walk does find lies within the near bound. -/
theorem mem_sweep (h : n ∈ o.sweep) (found : List Octant) :
    n ∈ walk near far o found ∨ far < max n.x n.y ∨
      ∃ m ∈ o.sweep, m ∈ walk near far o found ∧ max m.x m.y ≤ near := by
  fun_induction walk near far o found with
  | case1 o found hxy n' hfar =>
    -- the columns only grow, so all that is left is too far
    rw [sweep_of_le hxy] at h
    have hx : o.next.x ≤ n.x := by
      rcases List.mem_cons.1 h with rfl | h
      · exact le_rfl
      · exact (lt_x_of_mem_sweep h).le
    exact Or.inr (Or.inl (lt_max_of_lt_left (lt_of_lt_of_le hfar hx)))
  | case2 o found hxy n' _ hfar ih =>
    rw [sweep_of_le hxy] at h ⊢
    rcases List.mem_cons.1 h with rfl | h
    · exact Or.inr (Or.inl (lt_max_of_lt_right hfar))
    · rcases ih h with hn | hn | ⟨m, hm, hmw, hle⟩
      · exact Or.inl hn
      · exact Or.inr (Or.inl hn)
      · exact Or.inr (Or.inr ⟨m, List.mem_cons_of_mem _ hm, hmw, hle⟩)
  | case3 o found hxy n' _ _ hnear =>
    rw [sweep_of_le hxy]
    exact Or.inr (Or.inr ⟨o.next, List.mem_cons_self, List.mem_cons_self, hnear⟩)
  | case4 o found hxy n' _ _ _ ih =>
    rw [sweep_of_le hxy] at h ⊢
    rcases List.mem_cons.1 h with rfl | h
    · exact Or.inl (mem_walk_of_mem List.mem_cons_self)
    · rcases ih h with hn | hn | ⟨m, hm, hmw, hle⟩
      · exact Or.inl hn
      · exact Or.inr (Or.inl hn)
      · exact Or.inr (Or.inr ⟨m, List.mem_cons_of_mem _ hm, hmw, hle⟩)
  | case5 o found hxy =>
    rw [sweep_of_lt (by omega)] at h
    cases h

/-- The eight points of a state are the centre with one coordinate moved by the column, the other by
the row. -/
theorem mem_reflections {centre p : Point} :
    p ∈ o.reflections centre ↔
      ∃ a b, (a = o.x ∧ b = o.y ∨ a = o.y ∧ b = o.x) ∧
        (p.x = centre.x + a ∨ p.x = centre.x - a) ∧ (p.y = centre.y + b ∨ p.y = centre.y - b) := by
  obtain ⟨x, y⟩ := p
  simp only [reflections, List.flatMap_cons, List.flatMap_nil, List.append_nil, List.mem_append,
    List.mem_cons, List.not_mem_nil, or_false, Point.mk.injEq]
  constructor
  · intro h
    rcases h with h | h
    · exact ⟨o.x, o.y, by omega⟩
    · exact ⟨o.y, o.x, by omega⟩
  · rintro ⟨_, _, ⟨rfl, rfl⟩ | ⟨rfl, rfl⟩, hx | hx, hy | hy⟩ <;> simp [hx, hy]

end Octant

/-! ### What the brush touches -/

namespace Canvas

variable {c : Canvas} {centre q : Point} {o : Octant} {radius : Int}

/-- From a state beyond the far bound the brush does not reach the canvas. -/
theorem not_touches_reflections (hcentre : centre ∈ c.grid) (hq : q ∈ c.grid)
    (hfar : c.grid.last + c.brush.reach < max o.x o.y) :
    ¬c.Touches (o.reflections centre) q := by
  rintro ⟨p, hp, hpq⟩
  obtain ⟨a, b, hab, hpx, hpy⟩ := Octant.mem_reflections.1 hp
  rw [Brush.mem_footprint hq] at hpq
  obtain ⟨hc1, hc2, hc3, hc4⟩ := hcentre
  obtain ⟨hq1, hq2, hq3, hq4⟩ := hq
  simp only [Grid.last] at hfar
  omega

/-- From a state within the near bound the brush covers the canvas. -/
theorem touches_reflections (hcentre : centre ∈ c.grid) (hq : q ∈ c.grid) (ho : o.FirstQuarter)
    (hnear : max o.x o.y ≤ c.brush.reach - c.grid.last) :
    c.Touches (o.reflections centre) q := by
  refine ⟨⟨centre.x + o.x, centre.y + o.y⟩, ?_, ?_⟩
  · exact Octant.mem_reflections.2 ⟨o.x, o.y, by simp⟩
  · rw [Brush.mem_footprint hq]
    obtain ⟨hc1, hc2, hc3, hc4⟩ := hcentre
    obtain ⟨hq1, hq2, hq3, hq4⟩ := hq
    obtain ⟨ho1, ho2, -⟩ := ho
    simp only [Grid.last] at hnear
    simp only
    omega

theorem touches_flatMap {os : List Octant} :
    c.Touches (os.flatMap (·.reflections centre)) q ↔
      ∃ o ∈ os, c.Touches (o.reflections centre) q := by
  simp only [Touches, List.mem_flatMap]
  constructor
  · rintro ⟨p, ⟨o, ho, hp⟩, hpq⟩
    exact ⟨o, ho, p, hp, hpq⟩
  · rintro ⟨o, ho, p, hp, hpq⟩
    exact ⟨p, ⟨o, ho, hp⟩, hpq⟩

/-- All points of a circle: its four tips, and the eight points of every state of the sweep. -/
def completeCircle (centre : Point) (radius : Int) : List Point :=
  circleTips centre radius ++ (Octant.start radius).sweep.flatMap (·.reflections centre)

/-- The points of a walk that is cut short leave the same canvas as all points of the circle. -/
theorem stampAll_circlePoints (hc : c.grid.Square) (hcentre : centre ∈ c.grid)
    (hradius : 0 < radius) :
    c.stampAll (circlePoints c.grid.last c.brush.reach centre radius) =
      c.stampAll (completeCircle centre radius) := by
  refine stampAll_congr hc fun q hq => ?_
  simp only [circlePoints, completeCircle, touches_append, touches_flatMap]
  refine or_congr_right ⟨?_, ?_⟩
  · rintro ⟨o, ho, hoq⟩
    exact ⟨o, Octant.walk_subset_sweep _ _ _ ho, hoq⟩
  · rintro ⟨o, ho, hoq⟩
    rcases Octant.mem_sweep ho [] with hw | hfar | ⟨m, hm, hw, hnear⟩
    · exact ⟨o, hw, hoq⟩
    · exact absurd hoq (not_touches_reflections hcentre hq hfar)
    · have hquarter := (Octant.firstQuarter_start hradius).of_mem_sweep hm
      exact ⟨m, hw, touches_reflections hcentre hq hquarter hnear⟩

/-- A circle of positive radius is drawn if its centre lies on the canvas. -/
theorem circle_eq {start : Point} (hstart : c.cursor = some start) (dx dy : Int)
    (hradius : 0 < radius) :
    circle dx dy radius c =
      if start.shift dx dy radius ∈ c.grid then
        .ok () { c.stampAll (circlePoints c.grid.last c.brush.reach (start.shift dx dy radius)
          radius) with cursor := some (start.shift dx dy radius) }
      else .error (.outOfBounds (start.shift dx dy radius)) c := by
  have hpos : ¬radius ≤ 0 := by omega
  simp only [circle, hpos, hstart, if_false]
  by_cases hcentre : start.shift dx dy radius ∈ c.grid
  · simp only [hcentre, not_true_eq_false, if_false, if_true]
    rw [moveTo_stampAll, if_pos hcentre]
  · simp only [hcentre, not_false_eq_true, if_true, if_false]

/-- What a circle leaves, and where it could be drawn. -/
theorem exists_of_circle_eq_ok {c' : Canvas} {dx dy : Int} (hradius : 0 < radius)
    (h : circle dx dy radius c = .ok () c') :
    ∃ start, c.cursor = some start ∧ start.shift dx dy radius ∈ c.grid ∧
      c' = { c.stampAll (circlePoints c.grid.last c.brush.reach (start.shift dx dy radius)
        radius) with cursor := some (start.shift dx dy radius) } := by
  cases hstart : c.cursor with
  | none =>
    simp only [circle, hstart, if_neg (Int.not_le.2 hradius)] at h
    cases h
  | some start =>
    rw [circle_eq hstart dx dy hradius] at h
    split at h
    · next hcentre =>
      cases h
      exact ⟨start, rfl, hcentre, rfl⟩
    · cases h

/-- **The bounds of the walk never change the picture.** A circle with its centre on the canvas
always succeeds. It leaves the canvas that comes of stamping the four tips and the eight reflections
of every state of the walk without bounds, and the cursor at the centre. -/
theorem circle_eq_complete_circle (hc : c.WellFormed) {start : Point}
    (hstart : c.cursor = some start) (dx dy : Int) (hradius : 0 < radius)
    (hcentre : start.shift dx dy radius ∈ c.grid) :
    circle dx dy radius c =
      .ok () { c.stampAll (circleTips (start.shift dx dy radius) radius ++
          (Octant.start radius).sweep.flatMap (·.reflections (start.shift dx dy radius))) with
        cursor := some (start.shift dx dy radius) } := by
  rw [circle_eq hstart dx dy hradius, if_pos hcentre,
    stampAll_circlePoints hc.square hcentre hradius]
  rfl

/-- A small canvas with a brush that covers all of it from far outside. -/
def broadBrushed : Canvas := ⟨.blank 2, some ⟨1, 0⟩, ⟨.red, 17⟩⟩

theorem wellFormed_broadBrushed : broadBrushed.WellFormed :=
  .of_placed rfl rfl (by decide)

/-- The walk leaves out three states beyond the far bound, and stops at a state within the near
bound, on the diagonal. -/
theorem walk_broadBrushed :
    Octant.walk (broadBrushed.brush.reach - broadBrushed.grid.last)
        (broadBrushed.grid.last + broadBrushed.brush.reach) (.start 10) [] =
      [⟨7, 7, 13⟩, ⟨6, 8, 11⟩, ⟨5, 9, 17⟩, ⟨4, 9, -5⟩] := by
  have hbounds : broadBrushed.brush.reach = 8 ∧ broadBrushed.grid.last = 1 := by decide
  rw [hbounds.1, hbounds.2]
  simp [Octant.walk, Octant.start, Octant.next]

theorem circle_broadBrushed :
    circle 0 0 10 broadBrushed =
      .ok () { broadBrushed with grid := ⟨2, #[.red, .red, .red, .red]⟩ } := by
  have hcentre : (⟨1, 0⟩ : Point).shift 0 0 10 ∈ broadBrushed.grid := by decide
  have hstamp : { broadBrushed.stampAll (circlePoints broadBrushed.grid.last
        broadBrushed.brush.reach ⟨1, 0⟩ 10) with cursor := some ⟨1, 0⟩ } =
      { broadBrushed with grid := ⟨2, #[.red, .red, .red, .red]⟩ } := by
    rw [circlePoints, walk_broadBrushed]
    decide +kernel
  rw [circle_eq rfl 0 0 (by decide), if_pos hcentre]
  exact congrArg _ hstamp

/-- A circle all around a canvas that its brush covers. The walk has only half of the states of the
sweep, and both mark every cell. -/
theorem circle_eq_complete_circle_broadBrushed :
    broadBrushed.WellFormed ∧ broadBrushed.cursor = some ⟨1, 0⟩ ∧
      (⟨1, 0⟩ : Point).shift 0 0 10 ∈ broadBrushed.grid ∧
      (Octant.walk (broadBrushed.brush.reach - broadBrushed.grid.last)
        (broadBrushed.grid.last + broadBrushed.brush.reach) (.start 10) []).length = 4 ∧
      (Octant.start 10).sweep.length = 8 ∧
      circle 0 0 10 broadBrushed =
        .ok () { broadBrushed.stampAll (circleTips ⟨1, 0⟩ 10 ++
          (Octant.start 10).sweep.flatMap (·.reflections ⟨1, 0⟩)) with cursor := some ⟨1, 0⟩ } ∧
      circle 0 0 10 broadBrushed =
        .ok () { broadBrushed with grid := ⟨2, #[.red, .red, .red, .red]⟩ } := by
  refine ⟨wellFormed_broadBrushed, rfl, by decide, by rw [walk_broadBrushed]; rfl, ?_,
    circle_eq_complete_circle wellFormed_broadBrushed rfl 0 0 (by decide) (by decide),
    circle_broadBrushed⟩
  simp [Octant.sweep, Octant.start, Octant.next]

end Canvas

end Easel
