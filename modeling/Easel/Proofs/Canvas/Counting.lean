import Easel.Canvas.Query
import Easel.Proofs.Canvas.Cells
import Mathlib.Algebra.BigOperators.Ring.Finset
import Mathlib.Algebra.Order.BigOperators.Group.List
import Mathlib.Data.List.Nodup
import Mathlib.Data.Set.Card
import Mathlib.Tactic.NormNum

/-!
# Counting cells

The cells of one colour in a box are counted row by row, in a part of the array for each row. What
comes out is the number of the points in the box that have the colour (`Grid.count_eq_ncard`). The
answer of a canvas is a 32-bit integer, though, and a canvas can have more cells than the greatest of
these: so the answer is right as long as the number fits, and else it is wrong, and can be negative
(`Canvas.colorCount_eq_iff`, `Canvas.colorCount_wraps`).
-/

namespace Easel

/-! ### Boxes -/

@[simp] theorem length_span (a b : Int) : (span a b).length = (b - a + 1).toNat := by
  simp [span]

theorem nodup_span (a b : Int) : (span a b).Nodup :=
  List.nodup_range.map fun i j h => by omega

namespace Box

variable {b : Box} {p q : Point}

theorem nodup_points (b : Box) : b.points.Nodup := by
  refine List.nodup_flatMap.2 ⟨fun y _ => ?_, ?_⟩
  · exact (nodup_span _ _).map fun x x' h => (Point.mk.inj h).1
  · refine (nodup_span _ _).imp fun {y y'} hne => ?_
    simp only [Function.onFun, List.disjoint_left, List.mem_map]
    rintro _ ⟨x, -, rfl⟩ ⟨x', -, h⟩
    exact hne (Point.mk.inj h).2.symm

theorem length_points (b : Box) :
    b.points.length = (b.bottom - b.top + 1).toNat * (b.right - b.left + 1).toNat := by
  simp [points, List.length_flatMap]

/-- The box between two points of a grid lies on the grid. -/
theorem ofCorners_bounds {g : Grid} (hp : p ∈ g) (hq : q ∈ g) :
    (0 ≤ (ofCorners p q).left ∧ (ofCorners p q).left ≤ (ofCorners p q).right ∧
      (ofCorners p q).right < g.size) ∧
    0 ≤ (ofCorners p q).top ∧ (ofCorners p q).top ≤ (ofCorners p q).bottom ∧
      (ofCorners p q).bottom < g.size := by
  obtain ⟨hpx, hpx', hpy, hpy'⟩ := hp
  obtain ⟨hqx, hqx', hqy, hqy'⟩ := hq
  simp only [ofCorners]
  omega

/-- Two points are on the grid if the box between them is. -/
theorem mem_and_mem_iff {g : Grid} :
    (p ∈ g ∧ q ∈ g) ↔ (0 ≤ (ofCorners p q).left ∧ (ofCorners p q).right < g.size) ∧
      0 ≤ (ofCorners p q).top ∧ (ofCorners p q).bottom < g.size := by
  simp only [Grid.mem_def, ofCorners]
  omega

/-- The number of points between two corners. -/
theorem length_points_ofCorners (p q : Point) :
    ((ofCorners p q).points.length : Int) = (|p.x - q.x| + 1) * (|p.y - q.y| + 1) := by
  rw [length_points, ← max_sub_min_eq_abs', ← max_sub_min_eq_abs', Nat.cast_mul, Int.mul_comm]
  simp only [ofCorners]
  rw [Int.toNat_of_nonneg (by omega), Int.toNat_of_nonneg (by omega)]

end Box

/-! ### Grids -/

namespace Grid

variable {g : Grid} {color : Color} {b : Box}

/-- The points of a box that have the colour. -/
def cellsIn (g : Grid) (color : Color) (b : Box) : Set Point :=
  {p | p ∈ b ∧ g.get? p = some color}

theorem ncard_cellsIn (g : Grid) (color : Color) (b : Box) :
    (g.cellsIn color b).ncard = b.points.countP fun p => g.get? p = some color := by
  have hset : g.cellsIn color b =
      ((b.points.filter fun p => g.get? p = some color).toFinset : Set Point) := by
    ext p
    simp [cellsIn]
  rw [hset, Set.ncard_coe_finset, List.toFinset_card_of_nodup (b.nodup_points.filter _),
    List.countP_eq_length_filter]

theorem foldl_count (l : List Color) (n : Nat) :
    l.foldl (fun n d => if d = color then n + 1 else n) n = n + l.count color := by
  induction l generalizing n with
  | nil => rfl
  | cons d l ih =>
    rw [List.foldl_cons, ih, List.count_cons]
    by_cases h : d = color
    · simp [h]
      omega
    · simp [h]

/-- The part of a row that is looked through has the colours of the points in it. -/
theorem map_toList_extract (hg : g.Square) {left right y : Int} (hleft : 0 ≤ left)
    (hle : left ≤ right) (hright : right < g.size) (hy : 0 ≤ y) (hy' : y < g.size) :
    (g.cells.extract (g.index ⟨left, y⟩) (g.index ⟨right, y⟩ + 1)).toList.map some =
      (span left right).map fun x => g.get? ⟨x, y⟩ := by
  have hlt : g.index ⟨right, y⟩ < g.cells.size :=
    index_lt hg ⟨Int.le_trans hleft hle, hright, hy, hy'⟩
  have hindex : ∀ {x : Int}, left ≤ x → g.index ⟨x, y⟩ = g.index ⟨left, y⟩ + (x - left).toNat := by
    intro x hx
    simp only [index]
    omega
  have hlast := hindex hle
  refine List.ext_getElem (by simp; omega) fun i hi hi' => ?_
  simp only [List.length_map, length_span] at hi'
  have hmem : (⟨left + i, y⟩ : Point) ∈ g := ⟨by simp only; omega, by simp only; omega, hy, hy'⟩
  have hplace : g.index ⟨left + i, y⟩ = g.index ⟨left, y⟩ + i := by
    rw [hindex (by omega)]
    omega
  simp only [List.getElem_map, span, List.getElem_range, get?, if_pos hmem, hplace]
  rw [Array.getElem?_eq_getElem (by omega)]
  simp

theorem foldl_row (hg : g.Square) {left right y : Int} (hleft : 0 ≤ left)
    (hle : left ≤ right) (hright : right < g.size) (hy : 0 ≤ y) (hy' : y < g.size) :
    g.cells.foldl (fun n d => if d = color then n + 1 else n) 0 (g.index ⟨left, y⟩)
        (g.index ⟨right, y⟩ + 1) =
      (span left right).countP fun x => g.get? ⟨x, y⟩ = some color := by
  have hinj : Function.Injective (some : Color → Option Color) := Option.some_injective Color
  rw [Array.foldl_eq_foldl_extract, ← Array.foldl_toList, foldl_count, Nat.zero_add,
    ← List.count_map_of_injective _ some hinj, map_toList_extract hg hleft hle hright hy hy',
    List.count, List.countP_map]
  exact List.countP_congr fun x _ => by simp

/-- **Counting row by row counts the cells of the box.** -/
theorem count_eq_ncard (hg : g.Square) {p q : Point} (hp : p ∈ g) (hq : q ∈ g) :
    g.count color (Box.ofCorners p q) = (g.cellsIn color (Box.ofCorners p q)).ncard := by
  obtain ⟨⟨hleft, hle, hright⟩, htop, -, hbottom⟩ := Box.ofCorners_bounds hp hq
  rw [ncard_cellsIn, count, ← List.sum_eq_foldl, Box.points, List.countP_flatMap]
  refine congrArg List.sum (List.map_congr_left fun y hy => ?_)
  rw [mem_span] at hy
  rw [foldl_row hg hleft hle hright (by omega) (by omega), Function.comp_apply, List.countP_map]
  rfl

/-- There are at most as many cells of a colour as there are cells. -/
theorem ncard_cellsIn_le {p q : Point} (hp : p ∈ g) (hq : q ∈ g) :
    (g.cellsIn color (Box.ofCorners p q)).ncard ≤ g.size * g.size := by
  obtain ⟨hwidth, hheight⟩ := Box.ofCorners_bounds hp hq
  calc (g.cellsIn color (Box.ofCorners p q)).ncard
      ≤ (Box.ofCorners p q).points.length := by
        rw [ncard_cellsIn]
        exact List.countP_le_length
    _ ≤ g.size * g.size := by
        rw [Box.length_points]
        exact Nat.mul_le_mul (by omega) (by omega)

/-- A blank grid has the background colour everywhere. -/
theorem ncard_cellsIn_blank {size : Nat} {p q : Point} (hp : p ∈ blank size)
    (hq : q ∈ blank size) :
    ((blank size).cellsIn .background (Box.ofCorners p q)).ncard =
      (Box.ofCorners p q).points.length := by
  obtain ⟨hwidth, hheight⟩ := Box.ofCorners_bounds hp hq
  rw [ncard_cellsIn, List.countP_eq_length]
  intro r hr
  rw [Box.mem_points, Box.mem_def] at hr
  have hmem : r ∈ blank size := by
    rw [mem_def]
    omega
  have hlt := index_lt (square_blank size) hmem
  simp only [get?, if_pos hmem, Array.getElem?_eq_getElem hlt, decide_eq_true_eq]
  simp [blank]

/-- Each of the points has one of the colours. -/
theorem sum_countP_colors {ps : List Point} (h : ∀ p ∈ ps, ∃ color, g.get? p = some color) :
    (Color.all.map fun color => ps.countP fun p => g.get? p = some color).sum = ps.length := by
  induction ps with
  | nil => rfl
  | cons p ps ih =>
    obtain ⟨d, hd⟩ := h p List.mem_cons_self
    have hone : (Color.all.map fun color => if g.get? p = some color then 1 else 0).sum = 1 := by
      rw [hd]
      cases d <;> rfl
    simp only [List.countP_cons, decide_eq_true_eq, List.sum_map_add, hone, List.length_cons,
      ih fun q hq => h q (List.mem_cons_of_mem p hq)]

/-- The cells of all colours together are the cells of the box. -/
theorem sum_ncard_cellsIn (hg : g.Square) {p q : Point} (hp : p ∈ g) (hq : q ∈ g) :
    ((Color.all.map fun color => (g.cellsIn color (Box.ofCorners p q)).ncard).sum : Int) =
      (|p.x - q.x| + 1) * (|p.y - q.y| + 1) := by
  have hcolors : ∀ r ∈ (Box.ofCorners p q).points, ∃ color, g.get? r = some color := by
    intro r hr
    obtain ⟨hwidth, hheight⟩ := Box.ofCorners_bounds hp hq
    rw [Box.mem_points, Box.mem_def] at hr
    exact hg.exists_get? (by rw [mem_def]; omega)
  rw [← Box.length_points_ofCorners, ← sum_countP_colors hcolors]
  simp only [ncard_cellsIn]

end Grid

/-! ### Answers -/

/-- A number is kept in 32 bits if it is not too great, and else it is not. -/
theorem toInt_ofNat_eq_iff (n : Nat) : (Int32.ofNat n).toInt = n ↔ n ≤ 2147483647 := by
  constructor
  · intro h
    have hlt := (Int32.ofNat n).toInt_lt
    omega
  · intro h
    exact Int32.toInt_ofNat_of_lt (by omega)

/-- A number that does not fit becomes smaller. -/
theorem toInt_ofNat_le (n : Nat) : (Int32.ofNat n).toInt ≤ n := by
  by_cases h : n ≤ 2147483647
  · exact Int.le_of_eq ((toInt_ofNat_eq_iff n).2 h)
  · have hlt := (Int32.ofNat n).toInt_lt
    omega

/-- If no part is too great, then the sum is right only if all parts are. -/
theorem sum_map_eq_iff_of_le {α : Type} {l : List α} {f g : α → Int} (h : ∀ a, f a ≤ g a) :
    (l.map f).sum = (l.map g).sum ↔ ∀ a ∈ l, f a = g a := by
  induction l with
  | nil => simp
  | cons a l ih =>
    have ha := h a
    have hl : (l.map f).sum ≤ (l.map g).sum := List.sum_le_sum fun b _ => h b
    rw [List.forall_mem_cons, ← ih]
    simp only [List.map_cons, List.sum_cons]
    omega

theorem Color.mem_all (color : Color) : color ∈ Color.all := by
  cases color <;> decide

namespace Canvas

variable {c : Canvas} {name : String} {p q : Point}

theorem colorCount_eq (hc : c.WellFormed) {color : Color}
    (hname : ColorName.sameWord color.name name) (hp : p ∈ c.grid) (hq : q ∈ c.grid) :
    c.colorCount name p q = Int32.ofNat (c.grid.cellsIn color (Box.ofCorners p q)).ncard := by
  simp only [colorCount, Color.ofName?_eq_some.2 hname, if_pos (And.intro hp hq),
    Grid.count_eq_ncard hc.square hp hq]

/-- Nothing is counted if the name is that of no colour or a corner lies beside the canvas. -/
theorem colorCount_eq_zero
    (h : (∀ color : Color, ¬ColorName.sameWord color.name name) ∨ p ∉ c.grid ∨ q ∉ c.grid) :
    c.colorCount name p q = 0 := by
  rcases h with hname | hcorner
  · have hnone : Color.ofName? name = none := by
      cases hcolor : Color.ofName? name with
      | none => rfl
      | some color => exact absurd (Color.ofName?_eq_some.1 hcolor) (hname color)
    simp only [colorCount, hnone]
  · have hcorner : ¬(p ∈ c.grid ∧ q ∈ c.grid) := not_and_or.2 hcorner
    unfold colorCount
    split
    · rfl
    · exact if_neg hcorner

/-- The cells of a canvas of a size up to 46340 can be counted in 32 bits. -/
theorem ncard_cellsIn_le_of_size_le (hsize : c.grid.size ≤ 46340) (hp : p ∈ c.grid)
    (hq : q ∈ c.grid) (color : Color) :
    (c.grid.cellsIn color (Box.ofCorners p q)).ncard ≤ 2147483647 :=
  calc (c.grid.cellsIn color (Box.ofCorners p q)).ncard
      ≤ c.grid.size * c.grid.size := Grid.ncard_cellsIn_le hp hq
    _ ≤ 46340 * 46340 := Nat.mul_le_mul hsize hsize
    _ ≤ 2147483647 := by decide

/-- The number of cells of the named colour in the box between two corners. There are none if the
name is that of no colour or a corner lies beside the canvas. -/
noncomputable def cellCount (c : Canvas) (name : String) (p q : Point) : Nat :=
  {r | (p ∈ c.grid ∧ q ∈ c.grid) ∧ r ∈ Box.ofCorners p q ∧
    ∃ color : Color, ColorName.sameWord color.name name ∧ c.grid.get? r = some color}.ncard

theorem cellCount_eq {color : Color} (hname : ColorName.sameWord color.name name)
    (hp : p ∈ c.grid) (hq : q ∈ c.grid) :
    c.cellCount name p q = (c.grid.cellsIn color (Box.ofCorners p q)).ncard := by
  refine congrArg Set.ncard (Set.ext fun r => ?_)
  constructor
  · rintro ⟨-, hr, color', hname', hget⟩
    have hcolor := (Color.ofName?_eq_some.2 hname').symm.trans (Color.ofName?_eq_some.2 hname)
    exact ⟨hr, hget.trans hcolor⟩
  · rintro ⟨hr, hget⟩
    exact ⟨⟨hp, hq⟩, hr, color, hname, hget⟩

theorem cellCount_eq_zero
    (h : (∀ color : Color, ¬ColorName.sameWord color.name name) ∨ p ∉ c.grid ∨ q ∉ c.grid) :
    c.cellCount name p q = 0 := by
  have hempty : {r | (p ∈ c.grid ∧ q ∈ c.grid) ∧ r ∈ Box.ofCorners p q ∧ ∃ color : Color,
      ColorName.sameWord color.name name ∧ c.grid.get? r = some color} = ∅ := by
    refine Set.eq_empty_of_forall_notMem ?_
    rintro r ⟨⟨hp, hq⟩, -, color, hname, -⟩
    rcases h with hnone | hp' | hq'
    · exact hnone color hname
    · exact hp' hp
    · exact hq' hq
  rw [cellCount, hempty, Set.ncard_empty]

/-- **A count is exact on a canvas that is not too large.** -/
theorem toInt_colorCount (hc : c.WellFormed) (hsize : c.grid.size ≤ 46340) (name : String)
    (p q : Point) : (c.colorCount name p q).toInt = c.cellCount name p q := by
  by_cases h : (∀ color : Color, ¬ColorName.sameWord color.name name) ∨ p ∉ c.grid ∨ q ∉ c.grid
  · rw [colorCount_eq_zero h, cellCount_eq_zero h]
    rfl
  · simp only [not_or, not_forall, not_not] at h
    obtain ⟨⟨color, hname⟩, hp, hq⟩ := h
    rw [colorCount_eq hc hname hp hq, cellCount_eq hname hp hq, toInt_ofNat_eq_iff]
    exact ncard_cellsIn_le_of_size_le hsize hp hq color

/-- All counts are right if and only if they add up to the number of cells: a wrong one is too
small. -/
theorem sum_colorCount_eq_iff (hc : c.WellFormed) (hp : p ∈ c.grid) (hq : q ∈ c.grid) :
    (Color.all.map fun color => (c.colorCount color.name p q).toInt).sum =
        (|p.x - q.x| + 1) * (|p.y - q.y| + 1) ↔
      ∀ color, (c.grid.cellsIn color (Box.ofCorners p q)).ncard ≤ 2147483647 := by
  have hvalue : ∀ color : Color, c.colorCount color.name p q =
      Int32.ofNat (c.grid.cellsIn color (Box.ofCorners p q)).ncard := fun color =>
    colorCount_eq hc (beq_self_eq_true _) hp hq
  rw [← Grid.sum_ncard_cellsIn hc.square hp hq]
  simp only [hvalue, ← toInt_ofNat_eq_iff]
  rw [Nat.cast_list_sum, List.map_map]
  refine (sum_map_eq_iff_of_le fun color => toInt_ofNat_le _).trans ?_
  exact ⟨fun h color => h color color.mem_all, fun h color _ => h color⟩

/-- **What a count tells.** It is zero if the name is none of the eight, in any case, or if a corner
lies beside the canvas. Else it is the number of cells of that colour in the box between the corners,
brought into 32 bits; this is the number itself if and only if it is at most the greatest 32-bit
integer, as it always is on a canvas of a size up to 46340. It does not matter which two opposite
corners are given. The counts of the eight colours add up to the number of cells in the box if and
only if each of them is right. -/
theorem colorCount_eq_iff (hc : c.WellFormed) (name : String) (p q : Point) :
    (((∀ color : Color, ¬ColorName.sameWord color.name name) ∨ p ∉ c.grid ∨ q ∉ c.grid) →
      c.colorCount name p q = 0) ∧
    (p ∈ c.grid → q ∈ c.grid →
      (∀ color : Color, ColorName.sameWord color.name name →
        c.colorCount name p q = Int32.ofNat (c.grid.cellsIn color (Box.ofCorners p q)).ncard ∧
        ((c.colorCount name p q).toInt = (c.grid.cellsIn color (Box.ofCorners p q)).ncard ↔
          (c.grid.cellsIn color (Box.ofCorners p q)).ncard ≤ 2147483647)) ∧
      ((Color.all.map fun color => (c.colorCount color.name p q).toInt).sum =
          (|p.x - q.x| + 1) * (|p.y - q.y| + 1) ↔
        ∀ color, (c.grid.cellsIn color (Box.ofCorners p q)).ncard ≤ 2147483647) ∧
      (c.grid.size ≤ 46340 →
        ∀ color, (c.grid.cellsIn color (Box.ofCorners p q)).ncard ≤ 2147483647)) ∧
    ∀ p' q', Box.ofCorners p' q' = Box.ofCorners p q →
      c.colorCount name p' q' = c.colorCount name p q := by
  refine ⟨colorCount_eq_zero, fun hp hq => ⟨fun color hname => ?_, sum_colorCount_eq_iff hc hp hq,
    fun hsize => ncard_cellsIn_le_of_size_le hsize hp hq⟩, fun p' q' hbox => ?_⟩
  · have hvalue := colorCount_eq hc hname hp hq
    exact ⟨hvalue, hvalue ▸ toInt_ofNat_eq_iff _⟩
  · simp only [colorCount, Box.mem_and_mem_iff, hbox]

/-- A small canvas with three red cells, and the cursor on the fourth. -/
def threeRed : Canvas := ⟨⟨2, #[.red, .white, .red, .red]⟩, some ⟨1, 0⟩, ⟨.red, 1⟩⟩

theorem wellFormed_threeRed : threeRed.WellFormed :=
  .of_placed rfl rfl (by decide)

/-- The red cells of a small canvas are counted from two pairs of opposite corners. -/
theorem colorCount_eq_iff_threeRed :
    threeRed.WellFormed ∧ ColorName.sameWord "Red" "rED" ∧
      threeRed.colorCount "rED" ⟨1, 1⟩ ⟨0, 0⟩ = 3 ∧
      (threeRed.grid.cellsIn .red (Box.ofCorners ⟨1, 1⟩ ⟨0, 0⟩)).ncard = 3 ∧
      threeRed.colorCount "rED" ⟨0, 1⟩ ⟨1, 0⟩ = 3 := by
  obtain ⟨-, hinside, hcorners⟩ :=
    colorCount_eq_iff wellFormed_threeRed "rED" ⟨1, 1⟩ ⟨0, 0⟩
  obtain ⟨hcount, -, hsmall⟩ := hinside (by decide) (by decide)
  have hname : ColorName.sameWord Color.red.name "rED" := rfl
  have hvalue : threeRed.colorCount "rED" ⟨1, 1⟩ ⟨0, 0⟩ = 3 := by decide +kernel
  have hexact := (hcount .red hname).2.2 (hsmall (by decide) .red)
  rw [hvalue] at hexact
  refine ⟨wellFormed_threeRed, hname, hvalue, Int.ofNat_inj.1 hexact.symm, ?_⟩
  rw [hcorners ⟨0, 1⟩ ⟨1, 0⟩ rfl, hvalue]

/-- **A count can be wrong.** On a new canvas of size 46341 all cells are white, and they are counted
as a negative number. -/
theorem colorCount_wraps :
    ∃ c, Canvas.new 46341 .white = .ok c ∧
      (c.grid.cellsIn .white (Box.ofCorners ⟨0, 0⟩ ⟨46340, 46340⟩)).ncard = 2147488281 ∧
      (c.colorCount "White" ⟨0, 0⟩ ⟨46340, 46340⟩).toInt = -2147479015 := by
  let c : Canvas := ⟨.blank 46341, none, ⟨.white, 1⟩⟩
  have hc : c.WellFormed := ⟨Grid.square_blank 46341, fun p hp => by cases hp⟩
  have hp : (⟨0, 0⟩ : Point) ∈ c.grid := by decide
  have hq : (⟨46340, 46340⟩ : Point) ∈ c.grid := by decide
  have hwhite : (c.grid.cellsIn .white (Box.ofCorners ⟨0, 0⟩ ⟨46340, 46340⟩)).ncard =
      2147488281 := by
    have harea := Box.length_points_ofCorners ⟨0, 0⟩ ⟨46340, 46340⟩
    rw [← Grid.ncard_cellsIn_blank hp hq] at harea
    exact Int.ofNat_inj.1 (harea.trans (by norm_num))
  have hname : ColorName.sameWord Color.white.name "White" := rfl
  refine ⟨c, if_pos (by decide), hwhite, ?_⟩
  rw [colorCount_eq hc hname hp hq, hwhite]
  rfl

end Canvas

end Easel
