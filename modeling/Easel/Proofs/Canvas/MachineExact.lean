import Easel.Proofs.Canvas.Changes
import Easel.Proofs.Canvas.CircleAccuracy
import Easel.Proofs.Canvas.MachineStamps

/-!
# Words are large enough

All drawing with words has the outcome of drawing with unbounded integers
(`Canvas.drawing_fits_words`). Most numbers are in range because they come of a few steps from
32-bit integers. The decision value of a circle is not such a number: it adds up over the whole
walk. It is in range because a state that keeps to the circle has a decision value of about the size
of the radius (`Octant.Tracks.d_bounds`). The number of cells that a filling recolours is in range
because no cell is recoloured twice.
-/

namespace Easel

open Word64

/-! ### Lines in words -/

/-- **A walk in words** comes to the same points. -/
theorem Grid.walk64?_to64 {g : Grid} {p : Point} (hsize : g.size ≤ 2147483647) {dx dy : Int}
    (hstep : Canvas.UnitStep dx dy) (n : Nat) (hp : p ∈ g) :
    g.walk64? (word dx) (word dy) n p.to64 = some ((g.walk dx dy n p).map Point.to64) := by
  induction n generalizing p with
  | zero => rfl
  | succ n ih =>
    obtain ⟨h₁, h₂, h₃, h₄⟩ := hstep
    have hshift : p.shift dx dy 1 = ⟨p.x + dx, p.y + dy⟩ := by simp [Point.shift]
    have hwithin : (p.shift dx dy 1).Within 2147483648 := by
      obtain ⟨hx, hx', hy, hy'⟩ := hp
      rw [hshift]
      refine ⟨?_, ?_, ?_, ?_⟩ <;> simp only <;> omega
    rw [walk64?, Point64.step?_to64 (within_of_mem hsize hp) (by decide) (by omega) (by omega),
      ← hshift, Option.bind_eq_bind, Option.bind_some, mem64?_to64 hsize hwithin (by decide), walk]
    by_cases hmem : p.shift dx dy 1 ∈ g
    · simp only [hmem, if_true, decide_true, ih hmem]
      rfl
    · simp only [hmem, if_false, decide_false]
      rfl

namespace Canvas

variable {c : Canvas} {p : Point}

theorem lineSteps_toInt (dx dy distance : Int32) :
    (max (if dx = 0 ∧ dy = 0 then min distance 1 else distance) 0).toInt.toNat =
      lineSteps dx.toInt dy.toInt distance.toInt := by
  have hzero : ∀ a : Int32, a = 0 ↔ a.toInt = 0 := fun a => Int32.toInt_inj.symm
  have hone : (1 : Int32).toInt = 1 := rfl
  have hnone : (0 : Int32).toInt = 0 := rfl
  rw [toInt_max, apply_ite Int32.toInt, toInt_min, lineSteps, hone, hnone]
  simp only [hzero]
  omega

theorem unitStep_toInt (dx dy : Int32) :
    (-1 ≤ dx ∧ dx ≤ 1 ∧ -1 ≤ dy ∧ dy ≤ 1) ↔ UnitStep dx.toInt dy.toInt := by
  simp only [Int32.le_iff_toInt_le]
  exact Iff.rfl

/-- **A line in words** is the same line. -/
theorem line64?_eq (hc : c.WellFormed) (h : c.Fits64) (dx dy distance : Int32) :
    line64? dx dy distance c = some (line dx.toInt dy.toInt distance.toInt c) := by
  unfold line64? line
  simp only [unitStep_toInt, lineSteps_toInt]
  split
  · rfl
  · next hstep =>
    cases hcursor : c.cursor with
    | none => rfl
    | some start =>
      have hmem := hc.cursor_mem start hcursor
      have hstart := Grid.within_of_mem h.size_le hmem
      have hpath := Grid.walk64?_to64 h.size_le (not_not.1 hstep)
        (lineSteps dx.toInt dy.toInt distance.toInt) hmem
      generalize hwalk : c.grid.walk dx.toInt dy.toInt _ start = path at hpath
      -- the walk does not leave the canvas
      have hwithin : ∀ q ∈ path, q.Within 5000000000000000000 := by
        intro q hq
        rw [← hwalk] at hq
        exact (Grid.within_of_mem h.size_le (Grid.mem_of_mem_walk hq)).mono (by decide)
      have hlast : (path.getLast?.getD start).Within 5000000000000000000 := by
        cases hq : path.getLast? with
        | none => exact hstart.mono (by decide)
        | some q => exact hwithin q (List.mem_of_getLast? hq)
      simp only [Point64.ofPoint?_eq hstart (by decide), toInt64_eq_word, Option.bind_eq_bind,
        Option.bind_some, hpath, hwalk, stampAll64?_to64 h hwithin, List.getLast?_map,
        Option.getD_map]
      exact moveTo64?_to64 (h.stampAll path) hlast

/-! ### Rectangles in words -/

theorem visibleStretch64?_word {low high last : Int} (hlow : FitsWord low) (hhigh : FitsWord high)
    (hlast : FitsWord last) :
    visibleStretch64? (word low) (word high) (word last) =
      some ((visibleStretch low high last).map word) := by
  simp (disch := omega) only [visibleStretch64?, max_word, min_word, span?_word, visibleStretch]

theorem boxAbout64?_to64 {centre : Point} (hcentre : centre.Within 4700000000000000000)
    {width height : Int32} (hwidth : 0 < width.toInt) (hheight : 0 < height.toInt) :
    boxAbout64? centre.to64 width height =
      some (boxAbout centre width.toInt height.toInt).to64 := by
  obtain ⟨h₁, h₂, h₃, h₄⟩ := hcentre
  have hw := toInt_bounds width
  have hh := toInt_bounds height
  simp only [boxAbout64?, Point.to64, toInt64_eq_word, toInt_div_two hwidth.le,
    toInt_div_two hheight.le]
  simp (disch := omega) only [sub?_word, add?_word, Option.bind_eq_bind, Option.bind_some]
  rfl

/-- The sides of a rectangle leave room for the reach of the brush. -/
theorem boxAbout_bounds {centre : Point} (hcentre : centre.Within 4700000000000000000)
    {width height : Int32} (hwidth : 0 < width.toInt) (hheight : 0 < height.toInt) {b : Box}
    (hb : boxAbout centre width.toInt height.toInt = b) :
    (-5000000000000000000 ≤ b.left ∧ b.left ≤ b.right ∧ b.right ≤ 5000000000000000000) ∧
      -5000000000000000000 ≤ b.top ∧ b.top ≤ b.bottom ∧ b.bottom ≤ 5000000000000000000 := by
  obtain ⟨h₁, h₂, h₃, h₄⟩ := hcentre
  have hw := toInt_bounds width
  have hh := toInt_bounds height
  simp only [← hb, boxAbout]
  omega

theorem outline64?_to64 (h : c.Fits64) {b : Box} (hx : FitsWord b.left ∧ FitsWord b.right)
    (hy : FitsWord b.top ∧ FitsWord b.bottom) :
    c.outline64? b.to64 = some ((outline c.grid.last b).map Point.to64) := by
  have hlast := h.last_le
  have hfits : FitsWord c.grid.last := by omega
  simp only [outline64?, Box.to64, Grid.last64?_eq h.size_le, Option.bind_eq_bind,
    Option.bind_some, visibleStretch64?_word hx.1 hx.2 hfits,
    visibleStretch64?_word hy.1 hy.2 hfits, outline, List.map_append, List.map_flatMap, List.flatMap_map]
  rfl

theorem within_of_mem_outline {b : Box} {last bound : Int} (hx : -bound ≤ b.left ∧ b.right ≤ bound)
    (hy : -bound ≤ b.top ∧ b.bottom ≤ bound) (hwidth : b.left ≤ b.right)
    (hheight : b.top ≤ b.bottom) (hp : p ∈ outline last b) : p.Within bound := by
  obtain ⟨⟨hleft, hright, htop, hbottom⟩, -⟩ :=
    Box.mem_border.1 (mem_border_of_mem_outline hwidth hheight hp)
  refine ⟨?_, ?_, ?_, ?_⟩ <;> omega

/-- A point some steps away from a point of the canvas can still be far from the largest word. -/
theorem within_shift (hp : p.Within 2147483647) (dx dy n : Int32) :
    (p.shift dx.toInt dy.toInt n.toInt).Within 4700000000000000000 := by
  have hx := toInt_mul_toInt_bounds dx n
  have hy := toInt_mul_toInt_bounds dy n
  obtain ⟨h₁, h₂, h₃, h₄⟩ := hp
  refine ⟨?_, ?_, ?_, ?_⟩ <;> simp only [Point.shift] <;> omega

/-- **A rectangle in words** is the same rectangle. -/
theorem rectangle64?_eq (hc : c.WellFormed) (h : c.Fits64) (dx dy distance width height : Int32) :
    rectangle64? dx dy distance width height c =
      some (rectangle dx.toInt dy.toInt distance.toInt width.toInt height.toInt c) := by
  have hpos : width ≤ 0 ∨ height ≤ 0 ↔ width.toInt ≤ 0 ∨ height.toInt ≤ 0 := by
    simp only [Int32.le_iff_toInt_le]
    exact Iff.rfl
  unfold rectangle64? rectangle
  simp only [hpos]
  split
  · rfl
  · next hdim =>
    cases hcursor : c.cursor with
    | none => rfl
    | some start =>
      have hstart := Grid.within_of_mem h.size_le (hc.cursor_mem start hcursor)
      have hcentre := within_shift hstart dx dy distance
      simp only [Point64.ofPoint?_eq hstart (by decide), Option.bind_eq_bind, Option.bind_some,
        Point64.shift?_to64 hstart]
      generalize start.shift dx.toInt dy.toInt distance.toInt = centre at *
      rw [boxAbout64?_to64 hcentre (by omega) (by omega), Option.bind_some]
      generalize hbox : boxAbout centre width.toInt height.toInt = box
      obtain ⟨⟨hleft, hx, hright⟩, htop, hy, hbottom⟩ :=
        boxAbout_bounds hcentre (by omega) (by omega) hbox
      have hwithin : ∀ p ∈ outline c.grid.last box, p.Within 5000000000000000000 := fun p hp =>
        within_of_mem_outline ⟨hleft, hright⟩ ⟨htop, hbottom⟩ hx hy hp
      rw [outline64?_to64 h (by omega) (by omega), Option.bind_some, stampAll64?_to64 h hwithin,
        Option.bind_some]
      exact moveTo64?_to64 (h.stampAll _) (hcentre.mono (by decide))

end Canvas

/-! ### Circles in words -/

namespace Octant

variable {radius : Int} {o : Octant}

/-- The state in words. -/
def to64 (o : Octant) : Octant64 := ⟨word o.x, word o.y, word o.d⟩

theorem Tracks.x_le (h : Tracks radius o) : o.x ≤ radius := by
  have herror := h.error_le
  have hradius : 0 ≤ radius := by
    have hlow := h.le_error
    omega
  by_contra hx
  -- one column beyond the radius the square of the distance is too large
  have hsq : (radius + 1) ^ 2 ≤ o.x ^ 2 := pow_le_pow_left₀ (by omega) (by omega) 2
  have hy : 0 ≤ o.y ^ 2 := sq_nonneg _
  unfold error at herror
  linarith

/-- A state that keeps to the circle is no further out than the radius. -/
theorem Tracks.bounds (h : Tracks radius o) :
    (0 ≤ o.x ∧ o.x ≤ radius) ∧ 0 ≤ o.y ∧ o.y ≤ radius :=
  ⟨⟨h.quarter.1, h.x_le⟩, h.quarter.2.1, h.y_le⟩

/-- Its decision value is about as large as the radius. -/
theorem Tracks.d_bounds (h : Tracks radius o) : -4 * radius ≤ o.d ∧ o.d ≤ 6 * radius + 3 := by
  have hd : o.d = 2 * o.error radius + 4 * o.x - 2 * o.y + 3 := by
    rw [h.decides, error]
    ring
  obtain ⟨hx, hy⟩ := h.bounds
  have herror := h.error_le
  have hlow := h.le_error
  omega

end Octant

namespace Octant64

open Octant

variable {radius : Int} {o : Octant}

theorem start?_word (hradius : 0 < radius ∧ radius ≤ 2147483647) :
    start? (word radius) = some (start radius).to64 := by
  simp (disch := omega) only [start?, mul?_word, sub?_word, Option.bind_eq_bind, Option.bind_some]
  rfl

/-- **A step in words** leads to the same state. -/
theorem next?_to64 (hradius : radius ≤ 2147483647) (h : Tracks radius o) :
    o.to64.next? = some o.next.to64 := by
  obtain ⟨hx, hy⟩ := h.bounds
  have hd := h.d_bounds
  simp (disch := omega) only [next?, Octant.to64, add?_word, sub?_word, mul?_word, word_lt_word,
    Option.bind_eq_bind, Option.bind_some]
  rw [Octant.next]
  split <;> rfl

/-- How the walk goes on after a state, in terms of integers. -/
theorem walk?_eq (hradius : radius ≤ 2147483647) {near far : Int} (hnear : FitsWord near)
    (hfar : FitsWord far) (h : Tracks radius o) (found : List Octant64) :
    o.to64.walk? (word near) (word far) found =
      if o.x ≤ o.y then
        if far < o.next.x then some found
        else if far < o.next.y then o.next.to64.walk? (word near) (word far) found
        else if max o.next.x o.next.y ≤ near then some (o.next.to64 :: found)
        else o.next.to64.walk? (word near) (word far) (o.next.to64 :: found)
      else some found := by
  obtain ⟨hx, hy⟩ := h.bounds
  have hnx := o.next_x
  have hny := o.next_y
  rw [walk?, next?_to64 hradius h]
  simp (disch := omega) only [Octant.to64, word_le_word, word_lt_word, max_word,
    Option.bind_eq_bind, Option.bind_some]
  rfl

/-- **The walk in words** comes to an end and finds the same states. -/
theorem walk?_to64 (hradius : radius ≤ 2147483647) {near far : Int} (hnear : FitsWord near)
    (hfar : FitsWord far) (h : Tracks radius o) (found : List Octant) :
    o.to64.walk? (word near) (word far) (found.map Octant.to64) =
      some ((walk near far o found).map Octant.to64) := by
  -- the walk over integers comes to an end, and the one in words goes the same way
  fun_induction walk near far o found with
  | case1 o found hxy n hbeyond =>
    rw [walk?_eq hradius hnear hfar h, if_pos hxy, if_pos hbeyond]
  | case2 o found hxy n hx hbeyond ih =>
    rw [walk?_eq hradius hnear hfar h, if_pos hxy, if_neg hx, if_pos hbeyond]
    exact ih (h.next hxy)
  | case3 o found hxy n hx hy hcovers =>
    rw [walk?_eq hradius hnear hfar h, if_pos hxy, if_neg hx, if_neg hy, if_pos hcovers]
    rfl
  | case4 o found hxy n hx hy hcovers ih =>
    rw [walk?_eq hradius hnear hfar h, if_pos hxy, if_neg hx, if_neg hy, if_neg hcovers]
    exact ih (h.next hxy)
  | case5 o found hxy => rw [walk?_eq hradius hnear hfar h, if_neg hxy]

theorem reflections?_to64 (hradius : radius ≤ 2147483647) {centre : Point}
    (hcentre : centre.Within 2147483647) (h : Tracks radius o) :
    o.to64.reflections? centre.to64 = some ((o.reflections centre).map Point.to64) := by
  obtain ⟨hx, hy⟩ := h.bounds
  obtain ⟨h₁, h₂, h₃, h₄⟩ := hcentre
  simp (disch := omega) only [reflections?, corners?, Octant.to64, Point.to64, add?_word, sub?_word,
    Option.bind_eq_bind, Option.bind_some]
  rfl

end Octant64

namespace Canvas

open Octant

variable {c : Canvas} {centre p : Point} {radius : Int}

theorem within_of_mem_circlePoints (hradius : 0 < radius ∧ radius ≤ 2147483647)
    (hcentre : centre.Within 2147483647) {last reach : Int}
    (hp : p ∈ circlePoints last reach centre radius) : p.Within 5000000000000000000 := by
  obtain ⟨o, ho, hp⟩ := exists_tracks_of_mem_circlePoints hradius.1 hp
  obtain ⟨a, b, hab, hx, hy⟩ := mem_reflections.1 hp
  obtain ⟨hox, hoy⟩ := ho.bounds
  obtain ⟨h₁, h₂, h₃, h₄⟩ := hcentre
  refine ⟨?_, ?_, ?_, ?_⟩ <;> omega

theorem circleTips64?_to64 (hradius : 0 < radius ∧ radius ≤ 2147483647)
    (hcentre : centre.Within 2147483647) :
    circleTips64? centre.to64 (word radius) =
      some ((circleTips centre radius).map Point.to64) := by
  obtain ⟨h₁, h₂, h₃, h₄⟩ := hcentre
  simp (disch := omega) only [circleTips64?, Point.to64, add?_word, sub?_word, Option.bind_eq_bind,
    Option.bind_some]
  rfl

theorem circlePoints64?_to64 (h : c.Fits64) (hradius : 0 < radius ∧ radius ≤ 2147483647)
    (hcentre : centre.Within 2147483647) :
    c.circlePoints64? centre.to64 (word radius) =
      some ((circlePoints c.grid.last c.brush.reach centre radius).map Point.to64) := by
  have hreach := h.reach_le
  have hlast := h.last_le
  have hnear : FitsWord (c.brush.reach - c.grid.last) := by omega
  have hfar : FitsWord (c.grid.last + c.brush.reach) := by omega
  have hstates := Octant64.walk?_to64 hradius.2 hnear hfar (tracks_start hradius.1) []
  have hpoints : ∀ o ∈ walk (c.brush.reach - c.grid.last) (c.grid.last + c.brush.reach)
      (start radius) [], (Octant64.reflections? centre.to64 ∘ Octant.to64) o =
        some ((o.reflections centre).map Point.to64) := fun o ho =>
    Octant64.reflections?_to64 hradius.2 hcentre
      ((tracks_start hradius.1).of_mem_sweep (walk_subset_sweep _ _ _ ho))
  rw [List.map_nil] at hstates
  rw [circlePoints64?, circlePoints, List.map_append, List.map_flatMap, List.flatMap_def]
  simp only [circleTips64?_to64 hradius hcentre, reach64?_eq h, Grid.last64?_eq h.size_le,
    sub?_word (by omega) (by omega) hnear, add?_word (by omega) (by omega) hfar,
    Octant64.start?_word hradius, Option.bind_eq_bind, Option.bind_some, hstates]
  rw [List.mapM_map, mapM_eq_some hpoints]
  rfl

/-- **A circle in words** is the same circle. -/
theorem circle64?_eq (hc : c.WellFormed) (h : c.Fits64) (dx dy radius : Int32) :
    circle64? dx dy radius c = some (circle dx.toInt dy.toInt radius.toInt c) := by
  have hpos : radius ≤ 0 ↔ radius.toInt ≤ 0 := Int32.le_iff_toInt_le
  unfold circle64? circle
  simp only [hpos]
  split
  · rfl
  · next hradius =>
    cases hcursor : c.cursor with
    | none => rfl
    | some start =>
      have hstart := Grid.within_of_mem h.size_le (hc.cursor_mem start hcursor)
      have hcentre := (within_shift hstart dx dy radius).mono (b := 5000000000000000000) (by decide)
      have hr : 0 < radius.toInt ∧ radius.toInt ≤ 2147483647 := by
        have hle := toInt_bounds radius
        omega
      simp only [Point64.ofPoint?_eq hstart (by decide), Option.bind_eq_bind, Option.bind_some,
        Point64.shift?_to64 hstart]
      generalize start.shift dx.toInt dy.toInt radius.toInt = centre at *
      rw [Grid.mem64?_to64 h.size_le hcentre le_rfl, Option.bind_some]
      by_cases hmem : centre ∈ c.grid
      · have hnear := Grid.within_of_mem h.size_le hmem
        have hwithin : ∀ p ∈ circlePoints c.grid.last c.brush.reach centre radius.toInt,
            p.Within 5000000000000000000 := fun p => within_of_mem_circlePoints hr hnear
        simp only [hmem, decide_true, if_true, not_true_eq_false, if_false, toInt64_eq_word,
          circlePoints64?_to64 h hr hnear, stampAll64?_to64 h hwithin, Option.bind_some]
        exact moveTo64?_to64 (h.stampAll _) hcentre
      · simp only [hmem, decide_false, not_false_eq_true, if_true,
          Point64.toPoint_to64 hcentre le_rfl]
        rfl

end Canvas

/-! ### Filling in words -/

namespace Grid

variable {g : Grid} {p : Point} {old new : Color}

/-- What is beside a point of the grid is not far from it. -/
theorem within_of_mem_neighbours (hsize : g.size ≤ 2147483647) (hp : p ∈ g) :
    ∀ q ∈ p.neighbours, q.Within 2147483648 := by
  obtain ⟨hx, hx', hy, hy'⟩ := hp
  intro q hq
  simp only [Point.neighbours, List.mem_cons, List.not_mem_nil, or_false] at hq
  rcases hq with rfl | rfl | rfl | rfl <;> refine ⟨?_, ?_, ?_, ?_⟩ <;> simp only <;> omega

theorem getElem?_index (hp : p ∈ g) : g.cells[g.index p]? = g.get? p := by
  rw [get?, if_pos hp]

/-- A waiting point of the old colour is recoloured and counted, and the points beside it wait. -/
theorem flood64?_cons_of_old (hsize : g.size ≤ 2147483647) (hp : g.get? p = some old)
    {ps back : List Point64} {painted : Nat} (hpainted : FitsIndex (painted + 1)) :
    g.flood64? old new (p.to64 :: ps) back (.ofNat painted) =
      (g.set p new).flood64? old new ps ((p.neighbours.map Point.to64).reverse ++ back)
        (.ofNat (painted + 1)) := by
  have hmem := mem_of_get? hp
  have hwithin := within_of_mem hsize hmem
  have hindex := toNat_ofNat (fitsIndex_index hsize hmem)
  have hset : ({ g with cells := g.cells.setIfInBounds (g.index p) new } : Grid) = g.set p new := by
    rw [set, if_pos hmem]
  have hone : addIndex? (.ofNat painted) 1 = some (.ofNat (painted + 1)) :=
    addIndex?_ofNat (by omega) (by decide) hpainted
  rw [flood64?, mem64?_to64 hsize hwithin (by decide)]
  simp only [hmem, decide_true, if_true, Option.bind_eq_bind, Option.bind_some,
    index64?_to64 hsize hmem, hindex, getElem?_index hmem, hp, hone,
    Point64.neighbours?_to64 hwithin (by decide), hset]

/-- Any other waiting point is dropped. -/
theorem flood64?_cons_of_ne (hg : g.Square) (hsize : g.size ≤ 2147483647)
    (hwithin : p.Within 2147483648) (hp : g.get? p ≠ some old) {ps back : List Point64}
    {painted : UInt64} :
    g.flood64? old new (p.to64 :: ps) back painted = g.flood64? old new ps back painted := by
  rw [flood64?, mem64?_to64 hsize hwithin (by decide)]
  by_cases hmem : p ∈ g
  · obtain ⟨color, hcolor⟩ := hg.exists_get? hmem
    have hne : color ≠ old := fun h => hp (h ▸ hcolor)
    have hindex := toNat_ofNat (fitsIndex_index hsize hmem)
    simp only [hmem, decide_true, if_true, Option.bind_eq_bind, Option.bind_some,
      index64?_to64 hsize hmem, hindex, getElem?_index hmem, hcolor, hne, if_false]
  · simp only [hmem, decide_false, Option.bind_eq_bind, Option.bind_some, Bool.false_eq_true,
      if_false]

/-- **Filling in words** comes to an end and recolours the same cells. Their number fits in a word,
since each of them is counted once. -/
theorem flood64?_to64 (hne : new ≠ old) (front back : List Point) (painted : Nat) (hg : g.Square)
    (hsize : g.size ≤ 2147483647) (hfront : ∀ p ∈ front, p.Within 2147483648)
    (hback : ∀ p ∈ back, p.Within 2147483648) (hpainted : FitsIndex (painted + g.cells.count old)) :
    g.flood64? old new (front.map Point.to64) (back.map Point.to64) (.ofNat painted) =
        some ((g.flood hne front back painted).1, .ofNat (g.flood hne front back painted).2) ∧
      FitsIndex (g.flood hne front back painted).2 := by
  -- the induction follows the loop over integers
  fun_induction flood hne g front back painted with
  | case1 g painted =>
    refine ⟨?_, by omega⟩
    rw [List.map_nil, flood64?]
  | case2 g painted q qs ih =>
    have hwait : ∀ p ∈ (q :: qs).reverse, p.Within 2147483648 := fun p hp =>
      hback p (List.mem_reverse.1 hp)
    obtain ⟨hrun, hcount⟩ := ih hg hsize hwait (by simp) hpainted
    refine ⟨?_, hcount⟩
    rw [List.map_nil, List.map_cons, flood64?, ← List.map_cons, ← List.map_reverse]
    exact hrun
  | case3 g painted p ps back hp ih =>
    -- one cell less has the old colour, and one more is counted
    have hlt := count_set_lt hp hne
    have hwait : ∀ q ∈ p.neighbours.reverse ++ back, q.Within 2147483648 := by
      intro q hq
      rcases List.mem_append.1 hq with hq | hq
      · exact within_of_mem_neighbours hsize (mem_of_get? hp) q (List.mem_reverse.1 hq)
      · exact hback q hq
    obtain ⟨hrun, hcount⟩ := ih (hg.set p new) ((size_set g p new).symm ▸ hsize)
      (fun q hq => hfront q (List.mem_cons_of_mem p hq)) hwait (by omega)
    refine ⟨?_, hcount⟩
    rw [List.map_cons, flood64?_cons_of_old hsize hp (by omega), ← List.map_reverse,
      ← List.map_append]
    exact hrun
  | case4 g painted p ps back hp ih =>
    obtain ⟨hrun, hcount⟩ := ih hg hsize (fun q hq => hfront q (List.mem_cons_of_mem p hq)) hback
      hpainted
    refine ⟨?_, hcount⟩
    rw [List.map_cons, flood64?_cons_of_ne hg hsize (hfront p List.mem_cons_self) hp]
    exact hrun

end Grid

namespace Canvas

variable {c : Canvas}

/-- The cells of a canvas can be counted. -/
theorem Fits64.fitsIndex_count (h : c.Fits64) (color : Color) :
    FitsIndex (0 + c.grid.cells.count color) := by
  have hcount : c.grid.cells.count color ≤ c.grid.cells.size := Array.count_le_size
  have hcells : c.grid.cells.size ≤ 2147483647 * 2147483647 :=
    h.square.le.trans (Nat.mul_le_mul h.size_le h.size_le)
  omega

theorem fill64?_eq (hc : c.WellFormed) (h : c.Fits64) : c.fill64? = some (fill c) := by
  unfold fill64? fill
  cases hcursor : c.cursor with
  | none => rfl
  | some p =>
    have hmem := hc.cursor_mem p hcursor
    have hwithin := Grid.within_of_mem h.size_le hmem
    have hindex := toNat_ofNat (Grid.fitsIndex_index h.size_le hmem)
    obtain ⟨old, hold⟩ := hc.square.exists_get? hmem
    simp only [Point64.ofPoint?_eq hwithin (by decide), Option.bind_eq_bind, Option.bind_some,
      Grid.index64?_to64 h.size_le hmem, hindex, Grid.getElem?_index hmem, hold]
    by_cases hcolor : c.brush.color = old
    · rw [if_pos hcolor, dif_pos hcolor]
      rfl
    · obtain ⟨hrun, hcount⟩ := Grid.flood64?_to64 hcolor [p] [] 0 h.square h.size_le
        (fun q hq => List.mem_singleton.1 hq ▸ hwithin.mono (by decide)) (by simp)
        (h.fitsIndex_count old)
      rw [if_neg hcolor, dif_neg hcolor]
      refine (congrArg (Option.bind · _) hrun).trans ?_
      simp only [Option.bind_some, toNat_ofNat hcount]
      rfl

theorem isCellColor64?_eq (hc : c.WellFormed) (h : c.Fits64) (name : String) (down right : Int32) :
    c.isCellColor64? name down right = some (c.isCellColor name down.toInt right.toInt) := by
  unfold isCellColor64? isCellColor
  cases hcursor : c.cursor with
  | none => rfl
  | some p =>
    cases Color.ofName? name with
    | none => rfl
    | some color =>
      have hwithin := Grid.within_of_mem h.size_le (hc.cursor_mem p hcursor)
      have hq : (⟨p.x + right.toInt, p.y + down.toInt⟩ : Point).Within 5000000000000000000 := by
        have hright := toInt_bounds right
        have hdown := toInt_bounds down
        obtain ⟨h₁, h₂, h₃, h₄⟩ := hwithin
        refine ⟨?_, ?_, ?_, ?_⟩ <;> simp only <;> omega
      simp only [Point64.ofPoint?_eq hwithin (by decide), toInt64_eq_word, Option.bind_eq_bind,
        Option.bind_some,
        Point64.step?_to64 hwithin (by decide) (toInt_bounds right) (toInt_bounds down)]
      generalize (⟨p.x + right.toInt, p.y + down.toInt⟩ : Point) = q at hq ⊢
      rw [Grid.mem64?_to64 h.size_le hq le_rfl]
      by_cases hmem : q ∈ c.grid
      · obtain ⟨d, hd⟩ := hc.square.exists_get? hmem
        have hindex := toNat_ofNat (Grid.fitsIndex_index h.size_le hmem)
        simp only [hmem, decide_true, if_true, Option.bind_some, Grid.index64?_to64 h.size_le hmem,
          hindex, Grid.getElem?_index hmem, hd, Option.some.injEq]
        rfl
      · simp only [hmem, decide_false, Option.bind_some, Grid.get?_eq_none hmem]
        rfl

/-- **Drawing never goes beyond the words of the machine.** Let the size of a canvas and the width
of its brush be 32-bit integers, whatever they are, and let the arguments be any 32-bit integers.
Then lines, circles, rectangles, filling and the question for the colour of a cell, carried out with
words of 64 bits, come to an end without a sum, difference or product that does not fit, without a
conversion that changes a value and without an index beyond the cells; and the outcome is the one
over unbounded integers. -/
theorem drawing_fits_words (hc : c.WellFormed) (hsize : c.grid.size ≤ 2147483647)
    (hwidth : c.brush.width ≤ 2147483647) :
    (∀ dx dy distance : Int32,
      line64? dx dy distance c = some (line dx.toInt dy.toInt distance.toInt c)) ∧
    (∀ dx dy radius : Int32,
      circle64? dx dy radius c = some (circle dx.toInt dy.toInt radius.toInt c)) ∧
    (∀ dx dy distance width height : Int32,
      rectangle64? dx dy distance width height c =
        some (rectangle dx.toInt dy.toInt distance.toInt width.toInt height.toInt c)) ∧
    fill64? c = some (fill c) ∧
    ∀ (name : String) (down right : Int32),
      isCellColor64? c name down right = some (c.isCellColor name down.toInt right.toInt) := by
  have h : c.Fits64 := ⟨hc.square, hsize, hwidth⟩
  exact ⟨line64?_eq hc h, circle64?_eq hc h, rectangle64?_eq hc h, fill64?_eq hc h,
    isCellColor64?_eq hc h⟩

/-- A small canvas with the broadest brush that there is. -/
def broadest : Canvas := ⟨.blank 2, some ⟨1, 1⟩, ⟨.red, 2147483647⟩⟩

theorem wellFormed_broadest : broadest.WellFormed :=
  .of_placed rfl rfl (by decide)

/-- The centre is as far away as it can be, and so are the sides from the centre. -/
theorem drawing_fits_words_broadest :
    broadest.WellFormed ∧ broadest.grid.size ≤ 2147483647 ∧ broadest.brush.width ≤ 2147483647 ∧
      rectangle64? (-2147483648) (-2147483648) (-2147483648) 2147483647 2147483647 broadest =
        some (rectangle (-2147483648) (-2147483648) (-2147483648) 2147483647 2147483647 broadest) ∧
      circle64? 0 0 2147483647 broadest = some (circle 0 0 2147483647 broadest) := by
  obtain ⟨-, hcircle, hrectangle, -, -⟩ :=
    drawing_fits_words wellFormed_broadest (by decide) (by decide)
  exact ⟨wellFormed_broadest, by decide, by decide, hrectangle _ _ _ _ _, hcircle _ _ _⟩

end Canvas

end Easel
