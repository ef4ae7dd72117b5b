import Easel.Proofs.Canvas.Changes
import Mathlib.Algebra.Order.Group.Abs
import Mathlib.Order.Bounds.Basic

/-!
# Lines in closed form

A line is walked step by step and ends where the next step would leave the canvas. A grid has no
holes, so the number of steps is the greatest one, up to the wanted number, after which the walk is
on the canvas (`Grid.Furthest`, `Grid.walk_spec`). The brush is set down at all points of the walk
but the first. This is so in the direction that goes nowhere as well, in which no more than one step
is ever taken (`Canvas.line_eq`). So two lines in one direction, one after the other, are one line
(`Canvas.line_line`).
-/

namespace Easel

namespace Point

variable {dx dy : Int}

@[simp] theorem shift_zero (p : Point) : p.shift dx dy 0 = p := by
  simp [shift]

theorem shift_shift (p : Point) (m n : Int) :
    (p.shift dx dy m).shift dx dy n = p.shift dx dy (m + n) := by
  simp only [shift, Int.mul_add, Int.add_assoc]

end Point

/-! ### Walks -/

namespace Grid

open Canvas

variable {g : Grid} {dx dy n k : Int} {p : Point}

/-- After `k` steps from `p` one is on the grid, and `k` is the greatest such number up to `n`. -/
def Furthest (g : Grid) (dx dy n : Int) (p : Point) (k : Int) : Prop :=
  IsGreatest {k | 0 ≤ k ∧ k ≤ n ∧ p.shift dx dy k ∈ g} k

/-- A straight walk that begins and ends on the grid is on the grid all the way. -/
theorem mem_of_between (hstep : UnitStep dx dy) (hp : p ∈ g) (hn : p.shift dx dy n ∈ g) {i : Int}
    (hi : 0 ≤ i) (hin : i ≤ n) : p.shift dx dy i ∈ g := by
  obtain ⟨hdx, hdx', hdy, hdy'⟩ := hstep
  have hdx : dx = -1 ∨ dx = 0 ∨ dx = 1 := by omega
  have hdy : dy = -1 ∨ dy = 0 ∨ dy = 1 := by omega
  simp only [mem_def, Point.shift] at hp hn ⊢
  rcases hdx with rfl | rfl | rfl <;> rcases hdy with rfl | rfl | rfl <;> omega

/-- A walk that is at its end, or that cannot go on, goes no further. -/
theorem furthest_zero (hstep : UnitStep dx dy) (hp : p ∈ g) (hn : 0 ≤ n)
    (hend : n = 0 ∨ p.shift dx dy 1 ∉ g) : g.Furthest dx dy n p 0 := by
  refine ⟨⟨Int.le_refl 0, hn, by rwa [Point.shift_zero]⟩, ?_⟩
  rintro j ⟨hj, hjn, hmem⟩
  rcases hend with rfl | hout
  · exact hjn
  · -- if a later point were on the grid, then so would be the next one
    by_contra hpos
    exact hout (mem_of_between hstep hp hmem (by omega) (by omega))

/-- A walk that makes a step goes one step further than it would from there. -/
theorem Furthest.next (h : g.Furthest dx dy n (p.shift dx dy 1) k) :
    g.Furthest dx dy (n + 1) p (1 + k) := by
  obtain ⟨⟨hk, hkn, hmem⟩, hgreatest⟩ := h
  rw [Point.shift_shift] at hmem
  refine ⟨⟨by omega, by omega, hmem⟩, ?_⟩
  rintro j ⟨hj, hjn, hjmem⟩
  by_cases hzero : j = 0
  · omega
  · have hmem' : (p.shift dx dy 1).shift dx dy (j - 1) ∈ g := by
      rwa [Point.shift_shift, show 1 + (j - 1) = j by omega]
    have hle := hgreatest ⟨by omega, by omega, hmem'⟩
    omega

/-- **What a walk comes to.** It goes as far as it can, and comes to every point on the way. -/
theorem walk_spec (hstep : UnitStep dx dy) (hp : p ∈ g) (n : Nat) :
    ∃ k, g.Furthest dx dy n p k ∧
      (∀ q, q ∈ g.walk dx dy n p ↔ ∃ i, (1 ≤ i ∧ i ≤ k) ∧ p.shift dx dy i = q) ∧
      (g.walk dx dy n p).getLast?.getD p = p.shift dx dy k := by
  induction n generalizing p with
  | zero =>
    refine ⟨0, furthest_zero hstep hp (Int.le_refl 0) (.inl rfl), fun q => ?_, by simp [walk]⟩
    simp only [walk, List.not_mem_nil, false_iff]
    omega
  | succ n ih =>
    simp only [walk]
    split
    · next hnext =>
      obtain ⟨k, hk, hwalk, hlast⟩ := ih hnext
      refine ⟨1 + k, hk.next, fun q => ?_, ?_⟩
      · rw [List.mem_cons, hwalk]
        constructor
        · rintro (rfl | ⟨i, hi, rfl⟩)
          · exact ⟨1, ⟨Int.le_refl 1, by have := hk.1.1; omega⟩, rfl⟩
          · exact ⟨1 + i, by omega, (Point.shift_shift p 1 i).symm⟩
        · rintro ⟨i, hi, rfl⟩
          by_cases hone : i = 1
          · exact .inl (by rw [hone])
          · refine .inr ⟨i - 1, by omega, ?_⟩
            rw [Point.shift_shift, show 1 + (i - 1) = i by omega]
      · rw [List.getLast?_cons, Option.getD_some, hlast, Point.shift_shift]
    · next hnext =>
      refine ⟨0, furthest_zero hstep hp (by omega) (.inr hnext), fun q => ?_, by simp⟩
      simp only [List.not_mem_nil, false_iff]
      omega

/-- Two walks, the second from the end of the first, go as far as one. -/
theorem Furthest.add {m n j k : Int} (hstep : UnitStep dx dy) (hp : p ∈ g) (hm : 0 ≤ m)
    (hj : g.Furthest dx dy m p j) (hk : g.Furthest dx dy n (p.shift dx dy j) k) :
    g.Furthest dx dy (m + n) p (j + k) := by
  obtain ⟨⟨hj0, hjm, -⟩, hjgreatest⟩ := hj
  obtain ⟨⟨hk0, hkn, hkmem⟩, hkgreatest⟩ := hk
  rw [Point.shift_shift] at hkmem
  refine ⟨⟨by omega, by omega, hkmem⟩, ?_⟩
  rintro i ⟨hi, hin, himem⟩
  by_cases him : i ≤ m
  · have hle := hjgreatest ⟨hi, him, himem⟩
    omega
  · -- the first walk is not cut short, as it is on the grid later on
    have hmj := hjgreatest ⟨hm, Int.le_refl m, mem_of_between hstep hp himem hm (by omega)⟩
    have hmem : (p.shift dx dy j).shift dx dy (i - j) ∈ g := by
      rwa [Point.shift_shift, show j + (i - j) = i by omega]
    have hle := hkgreatest ⟨by omega, by omega, hmem⟩
    omega

end Grid

/-! ### Lines -/

namespace Canvas

variable {c : Canvas} {dx dy : Int} {start : Point}

/-- The points that are `1` to `k` steps away. -/
def pathTo (start : Point) (dx dy k : Int) : List Point := (span 1 k).map (start.shift dx dy)

theorem mem_pathTo {k : Int} {q : Point} :
    q ∈ pathTo start dx dy k ↔ ∃ i, (1 ≤ i ∧ i ≤ k) ∧ start.shift dx dy i = q := by
  simp only [pathTo, List.mem_map, mem_span]

/-- The path over two stretches is the path over the first and, from its end, over the second. -/
theorem mem_pathTo_add {j k : Int} (hj : 0 ≤ j) (hk : 0 ≤ k) {q : Point} :
    q ∈ pathTo start dx dy (j + k) ↔
      q ∈ pathTo start dx dy j ++ pathTo (start.shift dx dy j) dx dy k := by
  simp only [List.mem_append, mem_pathTo, Point.shift_shift]
  constructor
  · rintro ⟨i, hi, rfl⟩
    by_cases hij : i ≤ j
    · exact .inl ⟨i, by omega, rfl⟩
    · exact .inr ⟨i - j, by omega, by rw [show j + (i - j) = i by omega]⟩
  · rintro (⟨i, hi, rfl⟩ | ⟨i, hi, rfl⟩)
    · exact ⟨i, by omega, rfl⟩
    · exact ⟨j + i, by omega, rfl⟩

/-- The steps that a line takes lead as far as the wanted ones would, and over the same points: to go
nowhere once is to go nowhere any number of times. -/
theorem exists_furthest {g : Grid} {distance k : Int} (hstart : start ∈ g)
    (hk : g.Furthest dx dy (lineSteps dx dy distance) start k) :
    ∃ m, g.Furthest dx dy (max distance 0) start m ∧ start.shift dx dy m = start.shift dx dy k ∧
      ∀ q, q ∈ pathTo start dx dy m ↔ q ∈ pathTo start dx dy k := by
  by_cases hstill : dx = 0 ∧ dy = 0
  · obtain ⟨rfl, rfl⟩ := hstill
    have hshift : ∀ i, start.shift 0 0 i = start := by simp [Point.shift]
    have hsteps : (lineSteps 0 0 distance : Int) = max (min distance 1) 0 := by
      simp only [lineSteps, and_self, if_true]
      omega
    have hall : ∀ {n : Int}, 0 ≤ n → g.Furthest 0 0 n start n := fun hn =>
      ⟨⟨hn, Int.le_refl _, by rwa [hshift]⟩, fun j hj => hj.2.1⟩
    obtain rfl : k = lineSteps 0 0 distance := hk.unique (hall (Int.natCast_nonneg _))
    refine ⟨max distance 0, hall (by omega), by rw [hshift, hshift], fun q => ?_⟩
    simp only [mem_pathTo, hshift, hsteps]
    constructor
    · rintro ⟨i, hi, rfl⟩
      exact ⟨1, by omega, rfl⟩
    · rintro ⟨i, hi, rfl⟩
      exact ⟨1, by omega, rfl⟩
  · have hsteps : (lineSteps dx dy distance : Int) = max distance 0 := by
      rw [lineSteps, if_neg hstill]
      omega
    rw [hsteps] at hk
    exact ⟨k, hk, rfl, fun q => Iff.rfl⟩

/-- A line goes as far as it can, and the brush is set down on every point on the way. -/
theorem line_eq (hc : c.WellFormed) (hstart : c.cursor = some start) (hstep : UnitStep dx dy)
    (distance : Int) :
    ∃ k, c.grid.Furthest dx dy (max distance 0) start k ∧
      line dx dy distance c =
        .ok () { c.stampAll (pathTo start dx dy k) with cursor := some (start.shift dx dy k) } := by
  have hmem := hc.cursor_mem start hstart
  obtain ⟨k, hk, hwalk, hlast⟩ := Grid.walk_spec hstep hmem (lineSteps dx dy distance)
  obtain ⟨m, hm, hend, hpath⟩ := exists_furthest hmem hk
  refine ⟨m, hm, ?_⟩
  simp only [line, hstep, not_true_eq_false, if_false, hstart]
  rw [hlast, ← hend, moveTo_stampAll, if_pos hm.1.2.2]
  rw [stampAll_congr_mem hc.square fun q => (hwalk q).trans (mem_pathTo.symm.trans (hpath q).symm)]

theorem stampAll_append (c : Canvas) (ps qs : List Point) :
    c.stampAll (ps ++ qs) = (c.stampAll ps).stampAll qs := List.foldl_append

/-- It makes no difference to the stamps where the cursor is. -/
theorem stampAll_withCursor (c : Canvas) (cursor : Option Point) (ps : List Point) :
    ({ c with cursor } : Canvas).stampAll ps = { c.stampAll ps with cursor } := by
  induction ps generalizing c with
  | nil => rfl
  | cons p ps ih =>
    have hstamp : ({ c with cursor } : Canvas).stamp p = { c.stamp p with cursor } := by
      simp only [stamp]
      split <;> rfl
    rw [stampAll_cons, stampAll_cons, hstamp, ih]

/-- **Two lines in one direction are one line.** -/
theorem line_line (hc : c.WellFormed) (hstart : c.cursor = some start) (hstep : UnitStep dx dy)
    {a b : Int} (ha : 0 ≤ a) (hb : 0 ≤ b) :
    (do line dx dy a; line dx dy b : Draw Unit) c = line dx dy (a + b) c := by
  obtain ⟨j, hj, hfirst⟩ := line_eq hc hstart hstep a
  obtain ⟨n, hn, hboth⟩ := line_eq hc hstart hstep (a + b)
  have hc' := ((allOrNothing_line hc dx dy a).change _ _ hfirst).wellFormed hc
  obtain ⟨k, hk, hsecond⟩ := line_eq hc' rfl hstep b
  have hgrid : ∀ {m p i}, Grid.Furthest (c.stampAll (pathTo start dx dy j)).grid dx dy m p i →
      c.grid.Furthest dx dy m p i := by
    intro m p i h
    simpa only [Grid.Furthest, Grid.mem_def, size_stampAll] using h
  have hmem := hc.cursor_mem start hstart
  rw [max_eq_left ha] at hj
  rw [max_eq_left hb] at hk
  rw [max_eq_left (by omega)] at hn
  obtain rfl : n = j + k := hn.unique (hj.add hstep hmem ha (hgrid hk))
  have hrun : (do line dx dy a; line dx dy b : Draw Unit) c =
      line dx dy b { c.stampAll (pathTo start dx dy j) with
        cursor := some (start.shift dx dy j) } := by
    show EStateM.bind (line dx dy a) (fun _ => line dx dy b) c = _
    rw [EStateM.bind, hfirst]
  rw [hrun, hsecond, hboth, stampAll_withCursor, ← stampAll_append, Point.shift_shift,
    stampAll_congr_mem hc.square fun q => mem_pathTo_add hj.1.1 hk.1.1]

/-- The brush marks the point when it is set down on all points `1` to `k` steps away: it is not
white, and the point is no further from one of them than half its width, both across and down. -/
def Marks (b : Brush) (start : Point) (dx dy k : Int) (q : Point) : Prop :=
  b.color ≠ .white ∧ ∃ i, (1 ≤ i ∧ i ≤ k) ∧
    |q.x - (start.x + dx * i)| ≤ (b.width / 2 : Nat) ∧
    |q.y - (start.y + dy * i)| ≤ (b.width / 2 : Nat)

theorem marks_iff {k : Int} {q : Point} (hq : q ∈ c.grid) :
    Marks c.brush start dx dy k q ↔
      c.brush.color ≠ .unmarked ∧ c.Touches (pathTo start dx dy k) q := by
  refine and_congr_right fun _ => ?_
  simp only [Touches, mem_pathTo, Brush.mem_footprint hq, abs_le]
  constructor
  · rintro ⟨i, hi, hx, hy⟩
    refine ⟨_, ⟨i, hi, rfl⟩, ?_⟩
    simp only [Point.shift, Brush.reach]
    omega
  · rintro ⟨_, ⟨i, hi, rfl⟩, htouch⟩
    refine ⟨i, hi, ?_⟩
    simp only [Point.shift, Brush.reach] at htouch
    omega

/-- **A line in closed form.** From a placed cursor a line in one of the eight directions, or in none,
always succeeds. It takes the greatest number `k` of steps, up to the wanted one, after which it is on
the canvas; there the cursor is left. The brush is set down on the points that are `1` to `k` steps
away: it colours the cells that it covers from there, and no others. So two lines in one direction,
one after the other, do the same as one. -/
theorem line_closed_form (hc : c.WellFormed) (hstart : c.cursor = some start)
    (hdx : dx ∈ [-1, 0, 1]) (hdy : dy ∈ [-1, 0, 1]) :
    (∀ distance, ∃ k,
      IsGreatest {k : Int | 0 ≤ k ∧ k ≤ max distance 0 ∧
        (⟨start.x + dx * k, start.y + dy * k⟩ : Point) ∈ c.grid} k ∧
      ∃ grid : Grid, line dx dy distance c =
          .ok () { c with grid, cursor := some ⟨start.x + dx * k, start.y + dy * k⟩ } ∧
        grid = (c.stampAll ((span 1 k).map fun i => ⟨start.x + dx * i, start.y + dy * i⟩)).grid ∧
        ∀ q ∈ c.grid,
          (Marks c.brush start dx dy k q → grid.get? q = some c.brush.color) ∧
          (¬Marks c.brush start dx dy k q → grid.get? q = c.grid.get? q)) ∧
    ∀ a b, 0 ≤ a → 0 ≤ b → (do line dx dy a; line dx dy b : Draw Unit) c = line dx dy (a + b) c := by
  have hstep : UnitStep dx dy := by
    simp only [List.mem_cons, List.not_mem_nil, or_false] at hdx hdy
    unfold UnitStep
    omega
  refine ⟨fun distance => ?_, fun a b ha hb => line_line hc hstart hstep ha hb⟩
  obtain ⟨k, hk, hline⟩ := line_eq hc hstart hstep distance
  rw [stampAll_eq] at hline
  refine ⟨k, hk, _, hline, rfl, fun q hq => ?_⟩
  rw [marks_iff hq, get?_stampAll hc.square]
  exact ⟨fun hmarks => if_pos ⟨hmarks.1, hq, hmarks.2⟩,
    fun hmarks => if_neg fun htouch => hmarks ⟨htouch.1, htouch.2.2⟩⟩

/-- A canvas whose lower edge is near the cursor. -/
def lowPlaced : Canvas := ⟨.blank 3, some ⟨0, 1⟩, ⟨.red, 1⟩⟩

theorem wellFormed_lowPlaced : lowPlaced.WellFormed :=
  .of_placed rfl rfl (by decide)

/-- A slanting line that meets the lower edge after one of its five steps. -/
theorem line_closed_form_lowPlaced :
    lowPlaced.WellFormed ∧ lowPlaced.cursor = some ⟨0, 1⟩ ∧ (1 : Int) ∈ [-1, 0, 1] ∧
      line 1 1 5 lowPlaced =
        .ok () ⟨⟨3, #[.white, .white, .white, .white, .white, .white, .white, .red, .white]⟩,
          some ⟨1, 2⟩, ⟨.red, 1⟩⟩ ∧
      (do line 1 1 2; line 1 1 3 : Draw Unit) lowPlaced = line 1 1 5 lowPlaced := by
  obtain ⟨hline, hlines⟩ := line_closed_form wellFormed_lowPlaced rfl
    (show (1 : Int) ∈ [-1, 0, 1] by simp) (show (1 : Int) ∈ [-1, 0, 1] by simp)
  obtain ⟨k, hk, grid, hok, hgrid, -⟩ := hline 5
  obtain rfl : k = 1 := hk.unique ⟨by decide, fun j hj => by
    obtain ⟨-, -, -, -, -, hy⟩ := hj
    have hy : 1 + 1 * j < 3 := hy
    omega⟩
  refine ⟨wellFormed_lowPlaced, rfl, by simp, ?_, hlines 2 3 (by decide) (by decide)⟩
  rw [hok, hgrid]
  rfl

end Canvas

end Easel
