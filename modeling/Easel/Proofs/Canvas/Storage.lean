import Easel.Proofs.Canvas.Cells

/-!
# Where the cells are kept

The cells of a grid are kept row by row in one array. They are read and written one by one at the
index of a point of the grid, and the brush recolours a slice of each row that it covers
(`Canvas.slices`). On a well-formed canvas all these indices are in the array and no slice goes on
into the next row (`Canvas.inRange`).

That the slices are in the array is put so that it can be seen to matter: to recolour a slice that is
not fails (`Slice.fill?`), and to set the brush down slice by slice succeeds all the same, with the
result of `Canvas.stamp` (`Canvas.stampBySlices?_eq`).
-/

namespace Easel

/-! ### Slices -/

/-- A part of an array: the indices from `first` to `last`, both included. -/
structure Slice where
  /-- The first index. -/
  first : Nat
  /-- The last index. -/
  last : Nat
  deriving DecidableEq

namespace Slice

variable {s : Slice} {ss : List Slice} {color : Color} {cells : Array Color}

/-- The index belongs to the slice. -/
instance : Membership Nat Slice where
  mem s i := s.first ≤ i ∧ i ≤ s.last

theorem mem_def {i : Nat} : i ∈ s ↔ s.first ≤ i ∧ i ≤ s.last := Iff.rfl

instance (i : Nat) (s : Slice) : Decidable (i ∈ s) :=
  inferInstanceAs (Decidable (s.first ≤ i ∧ i ≤ s.last))

/-- The slice has an index, and all its indices are in an array of the given size. -/
def Fits (s : Slice) (size : Nat) : Prop := s.first ≤ s.last ∧ s.last < size

instance (s : Slice) (size : Nat) : Decidable (s.Fits size) :=
  inferInstanceAs (Decidable (s.first ≤ s.last ∧ s.last < size))

/-- The array with the slice in one colour. There is none if the slice does not fit. -/
def fill? (color : Color) (cells : Array Color) (s : Slice) : Option (Array Color) :=
  if s.Fits cells.size then some (cells.mapIdx fun i old => if i ∈ s then color else old) else none

/-- Slices that fit are recoloured one after another. -/
theorem foldlM_fill? (h : ∀ s ∈ ss, s.Fits cells.size) :
    ss.foldlM (fill? color) cells =
      some (cells.mapIdx fun i old => if ∃ s ∈ ss, i ∈ s then color else old) := by
  induction ss generalizing cells with
  | nil =>
    rw [List.foldlM_nil]
    refine congrArg some (Array.ext (by simp) fun i _ _ => ?_)
    simp
  | cons s ss ih =>
    have hs : s.Fits cells.size := h s List.mem_cons_self
    have hss : ∀ s' ∈ ss,
        s'.Fits (cells.mapIdx fun i old => if i ∈ s then color else old).size := by
      intro s' hs'
      rw [Array.size_mapIdx]
      exact h s' (List.mem_cons_of_mem s hs')
    rw [List.foldlM_cons, fill?, if_pos hs]
    refine (ih hss).trans (congrArg some (Array.ext (by simp) fun i _ _ => ?_))
    simp only [Array.getElem_mapIdx, List.mem_cons, exists_eq_or_imp]
    by_cases hi : i ∈ s
    · simp [hi]
    · simp [hi]

end Slice

/-! ### Rows -/

/-- An index between two places of one row of `n` belongs to that row, between those columns. -/
theorem div_eq_of_mem_row {n y l r i : Nat} (hr : r < n) (hl : y * n + l ≤ i)
    (hi : i ≤ y * n + r) : i / n = y ∧ l ≤ i % n ∧ i % n ≤ r := by
  obtain ⟨k, rfl⟩ := Nat.exists_eq_add_of_le hl
  have hlt : l + k < n := by omega
  have hsum : y * n + l + k = n * y + (l + k) := by rw [Nat.mul_comm, Nat.add_assoc]
  rw [hsum, Nat.mul_add_div (by omega), Nat.mul_add_mod, Nat.div_eq_of_lt hlt,
    Nat.mod_eq_of_lt hlt]
  omega

namespace Grid

variable {g : Grid} {q : Point} {left right y : Int}

/-- The indices from one point of the grid to another in the same row are those of the points between
them. -/
theorem index_mem_row_iff (hleft : 0 ≤ left) (hle : left ≤ right) (hright : right ≤ g.last)
    (hy : 0 ≤ y) (hq : q ∈ g) :
    (g.index ⟨left, y⟩ ≤ g.index q ∧ g.index q ≤ g.index ⟨right, y⟩) ↔
      y = q.y ∧ left ≤ q.x ∧ q.x ≤ right := by
  obtain ⟨hx, hx', hqy, -⟩ := hq
  constructor
  · rintro ⟨hfirst, hlast⟩
    have hlt : q.x.toNat < g.size := by omega
    have hlt' : right.toNat < g.size := by
      simp only [last] at hright
      omega
    have hself := div_eq_of_mem_row hlt (Nat.le_refl (g.index q)) (Nat.le_refl (g.index q))
    have hrow := div_eq_of_mem_row hlt' hfirst hlast
    simp only at hrow
    omega
  · rintro ⟨rfl, hleft', hright'⟩
    simp only [index]
    omega

end Grid

/-! ### Brushes -/

namespace Canvas

variable {c : Canvas} {p q : Point} {s : Slice}

/-- The slices that the brush covers when it is set down on a point, one for each row. -/
def slices (c : Canvas) (p : Point) : List Slice :=
  let box := c.brush.footprint c.grid.last p
  if box.left ≤ box.right then
    (span box.top box.bottom).map fun y => ⟨c.grid.index ⟨box.left, y⟩, c.grid.index ⟨box.right, y⟩⟩
  else []

/-- Sets the brush down slice by slice. This fails if a slice does not fit in the array. -/
def stampBySlices? (c : Canvas) (p : Point) : Option Canvas :=
  if c.brush.color = .unmarked then some c
  else do
    let cells ← (c.slices p).foldlM (Slice.fill? c.brush.color) c.grid.cells
    return { c with grid := { c.grid with cells } }

theorem mem_slices :
    s ∈ c.slices p ↔
      (c.brush.footprint c.grid.last p).left ≤ (c.brush.footprint c.grid.last p).right ∧
      ∃ y, (c.brush.footprint c.grid.last p).top ≤ y ∧
        y ≤ (c.brush.footprint c.grid.last p).bottom ∧
        s = ⟨c.grid.index ⟨(c.brush.footprint c.grid.last p).left, y⟩,
          c.grid.index ⟨(c.brush.footprint c.grid.last p).right, y⟩⟩ := by
  unfold slices
  simp only
  split
  · next hle => simp only [hle, true_and, List.mem_map, mem_span, and_assoc, eq_comm]
  · next hle => simp only [hle, false_and, List.not_mem_nil]

/-- What is covered of a grid has its edges on the grid, unless it is empty. -/
theorem footprint_bounds (b : Brush) (last : Int) (p : Point) :
    0 ≤ (b.footprint last p).left ∧ (b.footprint last p).right ≤ last ∧
      0 ≤ (b.footprint last p).top ∧ (b.footprint last p).bottom ≤ last := by
  simp only [Brush.footprint]
  omega

/-- A slice begins and ends on the grid, in one row. -/
theorem exists_of_mem_slices (hs : s ∈ c.slices p) :
    ∃ a b : Point, b ∈ c.grid ∧ a.y = b.y ∧ a.x ≤ b.x ∧
      s = ⟨c.grid.index a, c.grid.index b⟩ := by
  obtain ⟨hle, y, htop, hbottom, rfl⟩ := mem_slices.1 hs
  obtain ⟨hleft, hright, htop', hbottom'⟩ := footprint_bounds c.brush c.grid.last p
  refine ⟨⟨(c.brush.footprint c.grid.last p).left, y⟩,
    ⟨(c.brush.footprint c.grid.last p).right, y⟩, ?_, rfl, hle, rfl⟩
  have hlast : c.grid.last = c.grid.size - 1 := rfl
  simp only [Grid.mem_def]
  omega

theorem fits_of_mem_slices (h : c.grid.Square) (hs : s ∈ c.slices p) :
    s.Fits c.grid.cells.size := by
  obtain ⟨a, b, hb, hy, hx, rfl⟩ := exists_of_mem_slices hs
  refine ⟨?_, Grid.index_lt h hb⟩
  simp only [Grid.index, hy]
  omega

/-- No slice goes on into another row. -/
theorem div_eq_of_mem_slices (hs : s ∈ c.slices p) {i : Nat} (hi : i ∈ s) :
    i / c.grid.size = s.last / c.grid.size := by
  obtain ⟨a, b, ⟨hbx, hbx', -, -⟩, hy, hx, rfl⟩ := exists_of_mem_slices hs
  obtain ⟨hfirst, hlast⟩ := hi
  simp only [Grid.index, hy] at hfirst
  have hlt : b.x.toNat < c.grid.size := by omega
  have hrow := div_eq_of_mem_row hlt hfirst hlast
  have hself := div_eq_of_mem_row hlt (Nat.le_refl (c.grid.index b)) (Nat.le_refl _)
  exact hrow.1.trans hself.1.symm

/-- The slices hold the indices of the points that the brush covers. -/
theorem exists_mem_slices_iff (hq : q ∈ c.grid) :
    (∃ s ∈ c.slices p, c.grid.index q ∈ s) ↔ q ∈ c.brush.footprint c.grid.last p := by
  obtain ⟨hleft, hright, htop, hbottom⟩ := footprint_bounds c.brush c.grid.last p
  rw [Box.mem_def]
  constructor
  · rintro ⟨s, hs, hmem⟩
    obtain ⟨hle, y, hy, hy', rfl⟩ := mem_slices.1 hs
    have hrow := (Grid.index_mem_row_iff hleft hle hright (Int.le_trans htop hy) hq).1 hmem
    omega
  · rintro ⟨hx, hx', hy, hy'⟩
    have hle := Int.le_trans hx hx'
    refine ⟨_, mem_slices.2 ⟨hle, q.y, hy, hy', rfl⟩, ?_⟩
    exact (Grid.index_mem_row_iff hleft hle hright (Int.le_trans htop hy) hq).2 ⟨rfl, hx, hx'⟩

/-- **The brush can be set down slice by slice.** -/
theorem stampBySlices?_eq (h : c.grid.Square) (p : Point) :
    c.stampBySlices? p = some (c.stamp p) := by
  unfold stampBySlices? stamp
  split
  · rfl
  · next hcolor =>
    rw [Slice.foldlM_fill? fun s hs => fits_of_mem_slices h hs]
    refine congrArg (fun grid => some { c with grid }) ?_
    refine Grid.ext_get? ?_ (h.paint _ _) (by simp) fun q => ?_
    · simpa [Grid.Square] using h
    · have hget : ∀ cells, Grid.get? ⟨c.grid.size, cells⟩ q =
          if q ∈ c.grid then cells[c.grid.index q]? else none := fun _ => rfl
      rw [hget, Grid.get?_paint h]
      by_cases hq : q ∈ c.grid
      · have hlt := Grid.index_lt h hq
        simp only [hq, if_true, and_true, Grid.get?, Array.getElem?_mapIdx,
          Array.getElem?_eq_getElem hlt, Option.map_some, exists_mem_slices_iff hq, Box.mem_points]
        split <;> rfl
      · simp only [hq, if_false, and_false, Grid.get?]

/-! ### Indices -/

/-- All indices at which the cells of a canvas are read or written belong to the array. -/
structure InRange (c : Canvas) : Prop where
  /-- The index of a point of the grid, also while cells are being recoloured. -/
  cell : ∀ (color : Color) (ps : List Point), ∀ p ∈ c.grid,
    c.grid.index p < (c.grid.paint color ps).cells.size
  /-- The index of a point between two points of the grid, where cells are counted. -/
  counted : ∀ p ∈ c.grid, ∀ q ∈ c.grid, ∀ r ∈ (Box.ofCorners p q).points,
    c.grid.index r < c.grid.cells.size
  /-- The indices of a whole row. -/
  row : ∀ y < c.grid.size, (y + 1) * c.grid.size ≤ c.grid.cells.size
  /-- Wherever the brush is set down, one time after another, every slice fits in the array. -/
  slices : ∀ ps : List Point, ps.foldlM stampBySlices? c = some (c.stampAll ps)
  /-- No slice goes on into another row. -/
  rows : ∀ p, ∀ s ∈ c.slices p, ∀ i ∈ s, i / c.grid.size = s.last / c.grid.size

theorem foldlM_stampBySlices? (h : c.grid.Square) (ps : List Point) :
    ps.foldlM stampBySlices? c = some (c.stampAll ps) := by
  induction ps generalizing c with
  | nil => rfl
  | cons p ps ih =>
    rw [List.foldlM_cons, stampBySlices?_eq h]
    exact ih (square_stamp h p)

theorem inRange (h : c.grid.Square) : c.InRange where
  cell color ps p hp := by
    have hp' : p ∈ c.grid.paint color ps := by
      rw [Grid.mem_def, Grid.size_paint]
      exact hp
    have hlt := Grid.index_lt (h.paint color ps) hp'
    rwa [Grid.index, Grid.size_paint] at hlt
  counted p hp q hq r hr := by
    refine Grid.index_lt h ?_
    rw [Box.mem_points, Box.mem_def] at hr
    simp only [Box.ofCorners] at hr
    rw [Grid.mem_def] at hp hq ⊢
    omega
  row y hy := h ▸ Nat.mul_le_mul_right _ hy
  slices ps := foldlM_stampBySlices? h ps
  rows p s hs i hi := div_eq_of_mem_slices hs hi

end Canvas

end Easel
