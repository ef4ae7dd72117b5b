import Easel.Proofs.Canvas.MachineDrawing
import Mathlib.Algebra.Order.Ring.Abs

/-!
# Stamps with words

The coordinates of a point on the canvas are 32-bit integers, and those of a point some steps away
from it have at most 63 bits. A word then has still room for the reach of the brush. So a stamp on
such a point leaves the same canvas whether it is computed with words or with integers
(`Canvas.stamp64?_to64`), and so does a row of stamps.
-/

namespace Easel

open Word64

/-! ### Points in words -/

/-- The coordinates of the point are no larger than the bound, on either side of zero. -/
def Point.Within (bound : Int) (p : Point) : Prop :=
  -bound ≤ p.x ∧ p.x ≤ bound ∧ -bound ≤ p.y ∧ p.y ≤ bound

theorem Point.Within.mono {p : Point} {a b : Int} (h : p.Within a) (hab : a ≤ b) : p.Within b := by
  obtain ⟨h₁, h₂, h₃, h₄⟩ := h
  refine ⟨?_, ?_, ?_, ?_⟩ <;> omega

/-- The point in words. -/
def Point.to64 (p : Point) : Point64 := ⟨word p.x, word p.y⟩

/-- The box in words. -/
def Box.to64 (b : Box) : Box64 := ⟨word b.left, word b.right, word b.top, word b.bottom⟩

theorem toInt_mul_toInt_bounds (a b : Int32) :
    -4611686018427387904 ≤ a.toInt * b.toInt ∧ a.toInt * b.toInt ≤ 4611686018427387904 := by
  have ha : |a.toInt| ≤ 2147483648 := abs_le.2 ⟨a.le_toInt, a.toInt_lt.le⟩
  have hb : |b.toInt| ≤ 2147483648 := abs_le.2 ⟨b.le_toInt, b.toInt_lt.le⟩
  rw [← abs_le, abs_mul]
  exact mul_le_mul ha hb (abs_nonneg _) (by decide)

namespace Point64

variable {p : Point} {bound : Int}

theorem toPoint_to64 (hp : p.Within bound) (hbound : bound ≤ 5000000000000000000) :
    p.to64.toPoint = p := by
  obtain ⟨h₁, h₂, h₃, h₄⟩ := hp
  rw [Point.to64, toPoint, toInt_word (by omega), toInt_word (by omega)]

theorem ofPoint?_eq (hp : p.Within bound) (hbound : bound ≤ 5000000000000000000) :
    ofPoint? p = some p.to64 := by
  obtain ⟨h₁, h₂, h₃, h₄⟩ := hp
  rw [ofPoint?, ofInt?_eq (by omega), ofInt?_eq (by omega)]
  rfl

theorem step?_to64 {dx dy : Int} (hp : p.Within bound) (hbound : bound ≤ 5000000000000000000)
    (hdx : -2147483648 ≤ dx ∧ dx ≤ 2147483647) (hdy : -2147483648 ≤ dy ∧ dy ≤ 2147483647) :
    p.to64.step? (word dx) (word dy) = some (Point.to64 ⟨p.x + dx, p.y + dy⟩) := by
  obtain ⟨h₁, h₂, h₃, h₄⟩ := hp
  simp only [step?, Point.to64]
  rw [add?_word (by omega) (by omega) (by omega), add?_word (by omega) (by omega) (by omega)]
  rfl

theorem shift?_to64 (hp : p.Within 2147483647) (dx dy n : Int32) :
    p.to64.shift? dx.toInt64 dy.toInt64 n.toInt64 =
      some (p.shift dx.toInt dy.toInt n.toInt).to64 := by
  obtain ⟨h₁, h₂, h₃, h₄⟩ := hp
  have hx := toInt_mul_toInt_bounds dx n
  have hy := toInt_mul_toInt_bounds dy n
  have hdx := toInt_bounds dx
  have hdy := toInt_bounds dy
  have hn := toInt_bounds n
  simp only [shift?, Point.to64, toInt64_eq_word]
  simp (disch := omega) only [mul?_word, add?_word, Option.bind_eq_bind, Option.bind_some]
  rfl

theorem neighbours?_to64 (hp : p.Within bound) (hbound : bound ≤ 5000000000000000000) :
    p.to64.neighbours? = some (p.neighbours.map Point.to64) := by
  obtain ⟨h₁, h₂, h₃, h₄⟩ := hp
  simp only [neighbours?, Point.to64]
  simp (disch := omega) only [sub?_word, add?_word, Option.bind_eq_bind, Option.bind_some]
  rfl

end Point64

namespace Grid

variable {g : Grid} {p : Point} {bound : Int}

theorem mem64?_to64 (hsize : g.size ≤ 2147483647) (hp : p.Within bound)
    (hbound : bound ≤ 5000000000000000000) : g.mem64? p.to64 = some (decide (p ∈ g)) := by
  obtain ⟨h₁, h₂, h₃, h₄⟩ := hp
  simp only [mem64?, Point.to64]
  rw [ofInt?_eq (by omega)]
  simp (disch := omega) only [word_le_word, word_lt_word, Option.bind_eq_bind, Option.bind_some]
  rfl

theorem last64?_eq (hsize : g.size ≤ 2147483647) : g.last64? = some (word g.last) := by
  rw [last64?, ofInt?_eq (by omega)]
  exact sub?_word (by omega) (by omega) (by omega)

/-- All rows before one of the grid have so few cells that they can be counted. -/
theorem mul_size_le (hsize : g.size ≤ 2147483647) (hp : p ∈ g) :
    p.y.toNat * g.size ≤ 4611686014132420609 := by
  obtain ⟨-, -, hy, hy'⟩ := hp
  exact Nat.mul_le_mul (by omega : p.y.toNat ≤ 2147483647) hsize

theorem fitsIndex_index (hsize : g.size ≤ 2147483647) (hp : p ∈ g) : FitsIndex (g.index p) := by
  have hrow := mul_size_le hsize hp
  obtain ⟨hx, hx', -, -⟩ := hp
  rw [index]
  omega

theorem index64?_to64 (hsize : g.size ≤ 2147483647) (hp : p ∈ g) :
    g.index64? p.to64 = some (.ofNat (g.index p)) := by
  have hrow := mul_size_le hsize hp
  obtain ⟨hx, hx', hy, hy'⟩ := hp
  simp only [index64?, Point.to64]
  simp (disch := omega) only [toIndex?_word, index?_eq, mulIndex?_ofNat, addIndex?_ofNat,
    Option.bind_eq_bind, Option.bind_some]
  rfl

theorem slice64?_word (hsize : g.size ≤ 2147483647) {left right y : Int}
    (hleft : (⟨left, y⟩ : Point) ∈ g) (hright : (⟨right, y⟩ : Point) ∈ g) :
    g.slice64? (word left) (word right) (word y) =
      some ⟨g.index ⟨left, y⟩, g.index ⟨right, y⟩⟩ := by
  have hfirst := index64?_to64 hsize hleft
  have hlast := index64?_to64 hsize hright
  simp only [Point.to64] at hfirst hlast
  simp only [slice64?, hfirst, hlast, Option.bind_eq_bind, Option.bind_some,
    toNat_ofNat (fitsIndex_index hsize hleft), toNat_ofNat (fitsIndex_index hsize hright)]
  rfl

theorem within_of_mem (hsize : g.size ≤ 2147483647) (hp : p ∈ g) : p.Within 2147483647 := by
  obtain ⟨hx, hx', hy, hy'⟩ := hp
  refine ⟨?_, ?_, ?_, ?_⟩ <;> omega

end Grid

/-! ### Stamps in words -/

namespace Canvas

variable {c : Canvas} {p : Point}

/-- The numbers that belong to the canvas are 32-bit integers. -/
structure Fits64 (c : Canvas) : Prop where
  /-- There is one colour for each cell. -/
  square : c.grid.Square
  /-- The size is a 32-bit integer. -/
  size_le : c.grid.size ≤ 2147483647
  /-- So is the width of the brush. -/
  width_le : c.brush.width ≤ 2147483647

theorem Fits64.stamp (h : c.Fits64) (p : Point) : (c.stamp p).Fits64 where
  square := square_stamp h.square p
  size_le := (size_stamp c p).symm ▸ h.size_le
  width_le := (brush_stamp c p).symm ▸ h.width_le

theorem Fits64.stampAll (h : c.Fits64) (ps : List Point) : (c.stampAll ps).Fits64 where
  square := square_stampAll h.square ps
  size_le := (size_stampAll c ps).symm ▸ h.size_le
  width_le := (brush_stampAll c ps).symm ▸ h.width_le

theorem Fits64.reach_le (h : c.Fits64) : 0 ≤ c.brush.reach ∧ c.brush.reach ≤ 1073741823 := by
  have hwidth := h.width_le
  unfold Brush.reach
  omega

theorem Fits64.last_le (h : c.Fits64) : -1 ≤ c.grid.last ∧ c.grid.last ≤ 2147483646 := by
  have hsize := h.size_le
  unfold Grid.last
  omega

theorem reach64?_eq (h : c.Fits64) : c.reach64? = some (word c.brush.reach) := by
  have hreach := h.reach_le
  exact ofInt?_eq (by unfold Brush.reach at hreach; omega)

theorem footprint64?_to64 (h : c.Fits64) (hp : p.Within 5000000000000000000) :
    c.footprint64? p.to64 = some (c.brush.footprint c.grid.last p).to64 := by
  have hreach := h.reach_le
  have hlast := h.last_le
  obtain ⟨h₁, h₂, h₃, h₄⟩ := hp
  simp only [footprint64?, Point.to64, reach64?_eq h, Grid.last64?_eq h.size_le]
  simp (disch := omega) only [sub?_word, add?_word, max_word, min_word, Option.bind_eq_bind,
    Option.bind_some]
  rfl

theorem fitsWord_footprint (h : c.Fits64) (hp : p.Within 5000000000000000000) :
    (FitsWord (c.brush.footprint c.grid.last p).left ∧
      FitsWord (c.brush.footprint c.grid.last p).right) ∧
    FitsWord (c.brush.footprint c.grid.last p).top ∧
      FitsWord (c.brush.footprint c.grid.last p).bottom := by
  have hreach := h.reach_le
  have hlast := h.last_le
  obtain ⟨h₁, h₂, h₃, h₄⟩ := hp
  simp only [Brush.footprint]
  omega

theorem slices_eq_nil
    (h : (c.brush.footprint c.grid.last p).right < (c.brush.footprint c.grid.last p).left ∨
      (c.brush.footprint c.grid.last p).bottom < (c.brush.footprint c.grid.last p).top) :
    c.slices p = [] := by
  refine List.eq_nil_iff_forall_not_mem.2 fun s hs => ?_
  obtain ⟨hle, y, htop, hbottom, -⟩ := mem_slices.1 hs
  omega

theorem slices64?_to64 (h : c.Fits64) (hp : p.Within 5000000000000000000) :
    c.slices64? p.to64 = some (c.slices p) := by
  obtain ⟨⟨hl, hr⟩, ht, hb⟩ := fitsWord_footprint h hp
  obtain ⟨hleft, hright, htop, hbottom⟩ := footprint_bounds c.brush c.grid.last p
  simp only [slices64?, footprint64?_to64 h hp, Option.bind_eq_bind, Option.bind_some, Box.to64,
    word_lt_word hr hl, word_lt_word hb ht]
  split
  · next hempty =>
    rw [slices_eq_nil hempty]
    rfl
  · next hrows =>
    rw [slices]
    generalize c.brush.footprint c.grid.last p = box at *
    rw [if_pos (by omega), span?_word ht hb, Option.bind_some, List.mapM_map]
    refine mapM_eq_some fun y hy => ?_
    rw [mem_span] at hy
    have hmem : ∀ x, box.left ≤ x ∧ x ≤ box.right → (⟨x, y⟩ : Point) ∈ c.grid := by
      intro x hx
      simp only [Grid.last] at hright hbottom
      simp only [Grid.mem_def]
      omega
    exact Grid.slice64?_word h.size_le (hmem box.left (by omega)) (hmem box.right (by omega))

/-- **A stamp in words** leaves the same canvas. -/
theorem stamp64?_to64 (h : c.Fits64) (hp : p.Within 5000000000000000000) :
    c.stamp64? p.to64 = some (c.stamp p) := by
  rw [stamp64?, slices64?_to64 h hp]
  exact stampBySlices?_eq h.square p

theorem stampAll64?_to64 (h : c.Fits64) {ps : List Point}
    (hps : ∀ p ∈ ps, p.Within 5000000000000000000) :
    c.stampAll64? (ps.map Point.to64) = some (c.stampAll ps) := by
  induction ps generalizing c with
  | nil => rfl
  | cons p ps ih =>
    rw [List.map_cons, stampAll64?, List.foldlM_cons, stamp64?_to64 h (hps p List.mem_cons_self)]
    exact ih (h.stamp p) fun q hq => hps q (List.mem_cons_of_mem p hq)

theorem moveTo64?_to64 (h : c.Fits64) (hp : p.Within 5000000000000000000) :
    moveTo64? p.to64 c = some (moveTo p c) := by
  rw [moveTo64?, Grid.mem64?_to64 h.size_le hp le_rfl, moveTo]
  by_cases hmem : p ∈ c.grid
  · obtain ⟨hx, hx', hy, hy'⟩ := id hmem
    have hsize := h.size_le
    simp only [Point.to64]
    simp (disch := omega) only [hmem, decide_true, if_true, toIndex?_word, Option.bind_eq_bind,
      Option.bind_some, toNat_ofNat, Int.toNat_of_nonneg]
    rfl
  · simp only [hmem, decide_false, if_false, Point64.toPoint_to64 hp le_rfl]
    rfl

end Canvas

end Easel
