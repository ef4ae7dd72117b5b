import Easel.Proofs.Canvas.CircleWalk
import Easel.Proofs.Canvas.Flood
import Mathlib.Tactic.Linarith
import Mathlib.Tactic.Ring

/-!
# A circle encloses its centre

From the axis to the diagonal a circle has one row for each column, and each row is that of the
column before or one less (`Octant.row`). So the points below the rows, turned into the other
eighths, form a set that no single step can leave but onto a point of the circle
(`Canvas.mem_completeCircle_of_step_out`), whatever the decision values are. They are needed only to
see that the set lies within the true circle (`Octant.Below.sq_add_sq_lt`).

Together with `Canvas.fill_inside` this makes a drawn circle a wall for every filling that begins at
its centre.
-/

namespace Easel

/-- A step changes the distance from a point by one, either across or down. -/
theorem Point.Beside.natAbs_sub {p q : Point} (h : p.Beside q) (centre : Point) :
    (q.x - centre.x).natAbs = (p.x - centre.x).natAbs ∧
        ((q.y - centre.y).natAbs = (p.y - centre.y).natAbs + 1 ∨
          (q.y - centre.y).natAbs + 1 = (p.y - centre.y).natAbs) ∨
      (q.y - centre.y).natAbs = (p.y - centre.y).natAbs ∧
        ((q.x - centre.x).natAbs = (p.x - centre.x).natAbs + 1 ∨
          (q.x - centre.x).natAbs + 1 = (p.x - centre.x).natAbs) := by
  have hcases : q.x = p.x ∧ (q.y = p.y + 1 ∨ q.y = p.y - 1) ∨
      q.y = p.y ∧ (q.x = p.x + 1 ∨ q.x = p.x - 1) := by
    unfold Point.Beside at h
    omega
  rcases hcases with ⟨hx, hy⟩ | ⟨hy, hx⟩
  · exact Or.inl ⟨by rw [hx], by omega⟩
  · exact Or.inr ⟨by rw [hy], by omega⟩

namespace Octant

variable {radius : Int} {i j : Nat}

/-! ### The decision value -/

/-- The decision value compares the next column of the circle with the middle between the row and
the one below it. -/
def Decides (radius : Int) (o : Octant) : Prop :=
  o.d = 2 * (o.x + 1) ^ 2 + o.y ^ 2 + (o.y - 1) ^ 2 - 2 * radius ^ 2

theorem decides_start (radius : Int) : Decides radius (start radius) := by
  simp only [Decides, start]
  ring

theorem Decides.next {o : Octant} (h : Decides radius o) : Decides radius o.next := by
  unfold Decides at h
  unfold Octant.next
  split <;> simp only [Decides, h] <;> ring

theorem decides_iterate (radius : Int) (i : Nat) : Decides radius (next^[i] (start radius)) := by
  induction i with
  | zero => exact decides_start radius
  | succ i ih =>
    rw [Function.iterate_succ_apply']
    exact ih.next

/-! ### The rows of a circle -/

/-- The row of the circle at the given column. -/
def row (radius : Int) (i : Nat) : Int := (next^[i] (start radius)).y

@[simp] theorem row_zero (radius : Int) : row radius 0 = radius := rfl

/-- The walk takes one column after another. -/
theorem iterate_next_x (radius : Int) (i : Nat) : (next^[i] (start radius)).x = i := by
  induction i with
  | zero => rfl
  | succ i ih =>
    rw [Function.iterate_succ_apply', next_x, ih]
    push_cast
    rfl

/-- A row is that of the column before, or one less if the middle between the two is not within the
circle. -/
theorem row_succ (radius : Int) (i : Nat) :
    2 * ((i : Int) + 1) ^ 2 + row radius i ^ 2 + (row radius i - 1) ^ 2 < 2 * radius ^ 2 ∧
        row radius (i + 1) = row radius i ∨
      2 * radius ^ 2 ≤ 2 * ((i : Int) + 1) ^ 2 + row radius i ^ 2 + (row radius i - 1) ^ 2 ∧
        row radius (i + 1) = row radius i - 1 := by
  have hd := decides_iterate radius i
  rw [Decides, iterate_next_x] at hd
  rw [row, row, Function.iterate_succ_apply']
  rcases next_y (next^[i] (start radius)) with ⟨hd', hy⟩ | ⟨hd', hy⟩
  · exact Or.inl ⟨by omega, hy⟩
  · exact Or.inr ⟨by omega, hy⟩

theorem row_le (radius : Int) (h : i ≤ j) : row radius j ≤ row radius i := by
  induction j, h using Nat.le_induction with
  | base => exact le_rfl
  | succ j _ ih =>
    have := row_succ radius j
    omega

/-- As long as a row is above the diagonal, the point just below it is within the circle. -/
theorem sq_add_sq_lt (hradius : 0 < radius) (i : Nat) (h : (i : Int) < row radius i) :
    (i : Int) ^ 2 + (row radius i - 1) ^ 2 < radius ^ 2 := by
  induction i with
  | zero =>
    rw [row_zero]
    push_cast
    nlinarith
  | succ i ih =>
    push_cast at h ⊢
    rcases row_succ radius i with ⟨hmiddle, hrow⟩ | ⟨-, hrow⟩
    · rw [hrow] at h ⊢
      nlinarith
    · -- from above the diagonal, one column on and one row down leads towards the centre
      rw [hrow] at h ⊢
      have hi := ih (by omega)
      nlinarith

/-- The sweep comes to a column if no column before it is beyond the diagonal. -/
theorem iterate_mem_sweep (o : Octant) (i : Nat)
    (h : ∀ j ≤ i, (next^[j] o).x ≤ (next^[j] o).y) : next^[i + 1] o ∈ o.sweep := by
  have hle : o.x ≤ o.y := h 0 (Nat.zero_le i)
  rw [sweep_of_le hle]
  induction i generalizing o with
  | zero => exact List.mem_cons_self
  | succ i ih =>
    have hnext : ∀ j ≤ i, (next^[j] o.next).x ≤ (next^[j] o.next).y := by
      intro j hj
      rw [← Function.iterate_succ_apply]
      exact h (j + 1) (by omega)
    have hle' : o.next.x ≤ o.next.y := hnext 0 (Nat.zero_le i)
    refine List.mem_cons_of_mem _ ?_
    rw [sweep_of_le hle', Function.iterate_succ_apply]
    exact ih o.next hnext hle'

/-! ### The points below the rows -/

/-- The point, turned into the first eighth about the centre, lies below the row of its column. -/
def Below (radius : Int) (centre p : Point) : Prop :=
  (max (p.x - centre.x).natAbs (p.y - centre.y).natAbs : Nat) <
    row radius (min (p.x - centre.x).natAbs (p.y - centre.y).natAbs)

theorem below_centre (hradius : 0 < radius) (centre : Point) : Below radius centre centre := by
  simpa [Below] using hradius

/-- The points below the rows lie within the circle. -/
theorem Below.sq_add_sq_lt (hradius : 0 < radius) {centre p : Point}
    (h : Below radius centre p) :
    (p.x - centre.x) ^ 2 + (p.y - centre.y) ^ 2 < radius ^ 2 := by
  unfold Below at h
  rw [← Int.natAbs_sq (p.x - centre.x), ← Int.natAbs_sq (p.y - centre.y)]
  generalize (p.x - centre.x).natAbs = a at h ⊢
  generalize (p.y - centre.y).natAbs = b at h ⊢
  wlog hab : a ≤ b generalizing a b
  · rw [add_comm]
    exact this b a (by rwa [max_comm, min_comm]) (by omega)
  · rw [max_eq_right hab, min_eq_left hab] at h
    have hlt := Octant.sq_add_sq_lt hradius a (by omega)
    nlinarith

/-- A step from below the rows to a place that is not below them goes up by a row or on by a column,
and ends on the row of a column that the sweep comes to. -/
theorem row_eq_of_step {a b a' b' : Nat} (hin : (max a b : Nat) < row radius (min a b))
    (hstep : a' = a ∧ (b' = b + 1 ∨ b' + 1 = b) ∨ b' = b ∧ (a' = a + 1 ∨ a' + 1 = a))
    (hout : row radius (min a' b') ≤ (max a' b' : Nat)) :
    row radius (min a' b') = (max a' b' : Nat) ∧
      ∀ j < min a' b', (j : Int) ≤ row radius j := by
  have hcases : min a' b' = min a b ∧ max a' b' = max a b + 1 ∨
      min a' b' = min a b + 1 ∧ max a' b' = max a b ∨
      min a' b' + 1 = min a b ∧ max a' b' = max a b ∨
      min a' b' = min a b ∧ max a' b' + 1 = max a b := by
    clear hin hout
    rcases hstep with ⟨rfl, h | h⟩ | ⟨rfl, h | h⟩ <;> omega
  have hmn : min a b ≤ max a b := min_le_max
  generalize max a b = n at hin hcases hmn
  generalize max a' b' = n' at hout hcases ⊢
  generalize min a b = m at hin hcases hmn
  generalize min a' b' = m' at hout hcases ⊢
  have hbefore : ∀ j ≤ m, (j : Int) ≤ row radius j := by
    intro j hj
    have := row_le radius hj
    omega
  rcases hcases with ⟨rfl, rfl⟩ | ⟨rfl, rfl⟩ | ⟨rfl, rfl⟩ | ⟨rfl, rfl⟩
  · exact ⟨by omega, fun j hj => hbefore j hj.le⟩
  · have := row_succ radius m
    exact ⟨by omega, fun j hj => hbefore j (by omega)⟩
  · have := row_le radius (Nat.le_add_right m' 1)
    omega
  · omega

end Octant

namespace Canvas

open Octant

variable {c c₁ c₂ : Canvas} {radius : Int} {centre p q : Point}

/-- A point on the row of a column that the sweep comes to is a point of the circle, whichever
eighth it lies in. -/
theorem mem_completeCircle {i : Nat} (hi : ∀ j < i, (j : Int) ≤ row radius j)
    (hp : (p.x - centre.x).natAbs = i ∧ (p.y - centre.y).natAbs = row radius i ∨
      (p.x - centre.x).natAbs = row radius i ∧ (p.y - centre.y).natAbs = i) :
    p ∈ completeCircle centre radius := by
  obtain ⟨x, y⟩ := p
  simp only [completeCircle, List.mem_append]
  cases i with
  | zero =>
    left
    simp only [circleTips, List.mem_cons, Point.mk.injEq, List.not_mem_nil, or_false]
    rw [row_zero] at hp
    rcases hp with ⟨hx, hy⟩ | ⟨hx, hy⟩
    · obtain rfl : x = centre.x := by simpa [sub_eq_zero] using hx
      simp only at hy
      omega
    · obtain rfl : y = centre.y := by simpa [sub_eq_zero] using hy
      simp only at hx
      omega
  | succ i =>
    right
    have hsweep : next^[i + 1] (start radius) ∈ (start radius).sweep := by
      refine iterate_mem_sweep _ i fun j hj => ?_
      rw [iterate_next_x]
      exact hi j (by omega)
    refine List.mem_flatMap.2 ⟨_, hsweep, mem_reflections.2 ?_⟩
    rw [iterate_next_x]
    change ∃ a b, (a = _ ∧ b = row radius (i + 1) ∨ a = row radius (i + 1) ∧ b = _) ∧ _
    simp only at hp ⊢
    rcases hp with hp | hp
    · exact ⟨_, _, Or.inl ⟨rfl, rfl⟩, by omega, by omega⟩
    · exact ⟨_, _, Or.inr ⟨rfl, rfl⟩, by omega, by omega⟩

/-- A step out of the points below the rows leads onto the circle. -/
theorem mem_completeCircle_of_step_out (hp : Below radius centre p) (hpq : p.Beside q)
    (hq : ¬Below radius centre q) : q ∈ completeCircle centre radius := by
  obtain ⟨hrow, hbefore⟩ := row_eq_of_step hp (hpq.natAbs_sub centre) (not_lt.1 hq)
  refine mem_completeCircle hbefore ?_
  rw [hrow]
  rcases le_total (q.x - centre.x).natAbs (q.y - centre.y).natAbs with h | h
  · exact Or.inl ⟨(min_eq_left h).symm, by rw [max_eq_right h]⟩
  · exact Or.inr ⟨by rw [max_eq_left h], (min_eq_right h).symm⟩

/-! ### Circles as walls -/

/-- A circle leaves all its points, and the cursor at its centre. -/
theorem circle_eq_ok (hc : c.WellFormed) {start : Point} (hstart : c.cursor = some start)
    {dx dy : Int} (hradius : 0 < radius) (h : circle dx dy radius c = .ok () c₁) :
    start.shift dx dy radius ∈ c.grid ∧
      c₁.grid = (c.stampAll (completeCircle (start.shift dx dy radius) radius)).grid ∧
      c₁.cursor = some (start.shift dx dy radius) := by
  obtain ⟨start', hstart', hmem, rfl⟩ := exists_of_circle_eq_ok hradius h
  obtain rfl : start = start' := Option.some.inj (hstart.symm.trans hstart')
  rw [stampAll_circlePoints hc.square hmem hradius]
  exact ⟨hmem, rfl, rfl⟩

/-- **A drawn circle is a wall for filling.** Let a circle be drawn with a brush that leaves a mark,
on whatever was there before and however the edges clip it. If the cell at its centre does not have
the colour of the brush afterwards, then a filling, with that colour or with any other that is taken
next, changes only cells within the circle. -/
theorem fill_inside_circle (hc : c.WellFormed) (hcolor : c.brush.color ≠ .white)
    {start : Point} (hstart : c.cursor = some start) {dx dy : Int} (hradius : 0 < radius)
    (hcircle : circle dx dy radius c = .ok () c₁)
    (hcentre : centre = start.shift dx dy radius)
    (hopen : c₁.grid.get? centre ≠ some c.brush.color)
    (htake : c₂ = c₁ ∨ ∃ name, takeColor name c₁ = .ok () c₂) :
    ∃ painted c₃, fill c₂ = .ok painted c₃ ∧
      ∀ q, c₃.grid.get? q ≠ c₂.grid.get? q →
        (q.x - centre.x) ^ 2 + (q.y - centre.y) ^ 2 < radius ^ 2 := by
  subst hcentre
  obtain ⟨hmem, hgrid, hcursor⟩ := circle_eq_ok hc hstart hradius hcircle
  obtain ⟨painted, c₃, hfill, hchanged⟩ :=
    fill_inside_stamps hc hcolor hmem hgrid hcursor hopen htake (below_centre hradius _)
      fun _ _ => mem_completeCircle_of_step_out
  exact ⟨painted, c₃, hfill, fun q hq => (hchanged q hq).sq_add_sq_lt hradius⟩

/-- A blank canvas with the cursor in the middle. -/
def field : Canvas := ⟨.blank 5, some ⟨2, 2⟩, ⟨.red, 1⟩⟩

/-- The same canvas with a circle drawn on it that just fits. -/
def fencedField : Canvas where
  grid := ⟨5, #[.white, .red, .red, .red, .white,
    .red, .white, .white, .white, .red,
    .red, .white, .white, .white, .red,
    .red, .white, .white, .white, .red,
    .white, .red, .red, .red, .white]⟩
  cursor := some ⟨2, 2⟩
  brush := ⟨.red, 1⟩

theorem wellFormed_field : field.WellFormed :=
  .of_placed rfl rfl (by decide)

theorem sweep_start_two : (Octant.start 2).sweep = [⟨1, 2, 5⟩, ⟨2, 1, 11⟩] := by
  rw [sweep_of_le (by decide), sweep_of_le (by decide), sweep_of_lt (by decide)]
  decide

theorem circle_field : circle 0 0 2 field = .ok () fencedField := by
  have hcentre : (⟨2, 2⟩ : Point).shift 0 0 2 ∈ field.grid := by decide
  have hstamp : { field.stampAll (completeCircle ⟨2, 2⟩ 2) with cursor := some ⟨2, 2⟩ } =
      fencedField := by
    rw [completeCircle, sweep_start_two]
    decide +kernel
  rw [circle_eq rfl 0 0 (by decide), if_pos hcentre,
    stampAll_circlePoints wellFormed_field.square hcentre (by decide)]
  exact congrArg _ hstamp

theorem takeColor_fencedField :
    takeColor "Blue" fencedField = .ok () { fencedField with brush := ⟨.blue, 1⟩ } := by
  have hblue : ColorName.ofString? "Blue" = some (.solid .blue) := by decide
  simp only [takeColor, hblue, fencedField]

theorem fill_inside_circle_field :
    field.WellFormed ∧ field.brush.color ≠ .white ∧
      circle 0 0 2 field = .ok () fencedField ∧
      fencedField.grid.get? ⟨2, 2⟩ ≠ some field.brush.color ∧
      takeColor "Blue" fencedField = .ok () { fencedField with brush := ⟨.blue, 1⟩ } ∧
      ∃ painted c₃, fill { fencedField with brush := ⟨.blue, 1⟩ } = .ok painted c₃ ∧
        ∀ q, c₃.grid.get? q ≠ fencedField.grid.get? q → (q.x - 2) ^ 2 + (q.y - 2) ^ 2 < 2 ^ 2 := by
  have hcolor : field.brush.color ≠ .white := by decide
  have hcentre : (⟨2, 2⟩ : Point) = (⟨2, 2⟩ : Point).shift 0 0 2 := by decide
  have hopen : fencedField.grid.get? ⟨2, 2⟩ ≠ some field.brush.color := by decide
  obtain ⟨painted, c₃, hfill, hinside⟩ :=
    fill_inside_circle wellFormed_field hcolor rfl (by decide) circle_field hcentre hopen
      (Or.inr ⟨"Blue", takeColor_fencedField⟩)
  exact ⟨wellFormed_field, hcolor, circle_field, hopen, takeColor_fencedField, painted, c₃, hfill,
    hinside⟩

end Canvas

end Easel
