import Easel.Color

/-!
# Grids

A grid is a square of coloured cells. Points have whole coordinates, with `x` to the right and `y`
downward, and may lie on a grid or beside it. A grid is seen through `Grid.get?`: the lemmas on
`Grid.set` and `Grid.paint` say what becomes of each cell.
-/

namespace Easel

/-! ### Points and boxes -/

/-- A point of the plane. -/
@[ext] structure Point where
  /-- The column. -/
  x : Int
  /-- The row. -/
  y : Int
  deriving DecidableEq

namespace Point

/-- The point `n` steps away in the direction `(dx, dy)`. -/
def shift (p : Point) (dx dy n : Int) : Point := ⟨p.x + dx * n, p.y + dy * n⟩

/-- The points to the right, to the left, below and above. -/
def neighbours (p : Point) : List Point :=
  [⟨p.x + 1, p.y⟩, ⟨p.x - 1, p.y⟩, ⟨p.x, p.y + 1⟩, ⟨p.x, p.y - 1⟩]

end Point

/-- The integers from `a` to `b`, both included. -/
def span (a b : Int) : List Int := (List.range (b - a + 1).toNat).map fun (i : Nat) => a + i

@[simp] theorem mem_span {a b n : Int} : n ∈ span a b ↔ a ≤ n ∧ n ≤ b := by
  simp only [span, List.mem_map, List.mem_range]
  constructor
  · rintro ⟨i, hi, rfl⟩
    omega
  · intro h
    exact ⟨(n - a).toNat, by omega, by omega⟩

/-- An upright rectangle of points, its edges included. It is empty if they are out of order. -/
structure Box where
  /-- The first column. -/
  left : Int
  /-- The last column. -/
  right : Int
  /-- The first row. -/
  top : Int
  /-- The last row. -/
  bottom : Int
  deriving DecidableEq

namespace Box

/-- The point lies in the box. -/
instance : Membership Point Box where
  mem b p := b.left ≤ p.x ∧ p.x ≤ b.right ∧ b.top ≤ p.y ∧ p.y ≤ b.bottom

theorem mem_def {b : Box} {p : Point} :
    p ∈ b ↔ b.left ≤ p.x ∧ p.x ≤ b.right ∧ b.top ≤ p.y ∧ p.y ≤ b.bottom := Iff.rfl

instance (p : Point) (b : Box) : Decidable (p ∈ b) :=
  inferInstanceAs (Decidable (b.left ≤ p.x ∧ p.x ≤ b.right ∧ b.top ≤ p.y ∧ p.y ≤ b.bottom))

/-- The points of a box, row by row. -/
def points (b : Box) : List Point :=
  (span b.top b.bottom).flatMap fun y => (span b.left b.right).map fun x => ⟨x, y⟩

@[simp] theorem mem_points {b : Box} {p : Point} : p ∈ b.points ↔ p ∈ b := by
  simp only [points, List.mem_flatMap, List.mem_map, mem_span, mem_def]
  constructor
  · rintro ⟨y, hy, x, hx, rfl⟩
    exact ⟨hx.1, hx.2, hy.1, hy.2⟩
  · intro h
    exact ⟨p.y, ⟨h.2.2.1, h.2.2.2⟩, p.x, ⟨h.1, h.2.1⟩, rfl⟩

/-- The smallest box that holds two points. -/
def ofCorners (p q : Point) : Box := ⟨min p.x q.x, max p.x q.x, min p.y q.y, max p.y q.y⟩

end Box

/-! ### Grids -/

/-- A square of cells. -/
structure Grid where
  /-- The number of cells along a side. -/
  size : Nat
  /-- The colours of the cells, row by row. -/
  cells : Array Color
  deriving DecidableEq

namespace Grid

/-- The grid of the given size with every cell in the background colour. -/
def blank (size : Nat) : Grid := ⟨size, Array.replicate (size * size) .background⟩

/-- The grid has a colour for each of its cells, and no others. -/
def Square (g : Grid) : Prop := g.cells.size = g.size * g.size

/-- The point lies on the grid. -/
instance : Membership Point Grid where
  mem g p := 0 ≤ p.x ∧ p.x < g.size ∧ 0 ≤ p.y ∧ p.y < g.size

instance (p : Point) (g : Grid) : Decidable (p ∈ g) :=
  inferInstanceAs (Decidable (0 ≤ p.x ∧ p.x < g.size ∧ 0 ≤ p.y ∧ p.y < g.size))

theorem mem_def {p : Point} {g : Grid} :
    p ∈ g ↔ 0 ≤ p.x ∧ p.x < g.size ∧ 0 ≤ p.y ∧ p.y < g.size := Iff.rfl

/-- The number of the last column and the last row. -/
def last (g : Grid) : Int := g.size - 1

/-- Where the colour of a point of the grid is kept. -/
def index (g : Grid) (p : Point) : Nat := p.y.toNat * g.size + p.x.toNat

/-- The colour at a point, if it lies on the grid. -/
def get? (g : Grid) (p : Point) : Option Color :=
  if p ∈ g then g.cells[g.index p]? else none

/-- The grid with another colour at one point. A point beside the grid changes nothing. -/
def set (g : Grid) (p : Point) (c : Color) : Grid :=
  if p ∈ g then { g with cells := g.cells.setIfInBounds (g.index p) c } else g

/-- The grid with the given points in one colour. -/
def paint (g : Grid) (c : Color) (ps : List Point) : Grid := ps.foldl (fun g p => g.set p c) g

/-- The rows of the grid, from the top. -/
def rows (g : Grid) : List (List Color) :=
  (List.range g.size).map fun y => (g.cells.extract (y * g.size) ((y + 1) * g.size)).toList

/-- The number of cells of one colour in a box on the grid. Of each row the part in the box is
looked through. -/
def count (g : Grid) (color : Color) (b : Box) : Nat :=
  ((span b.top b.bottom).map fun y =>
    g.cells.foldl (fun n d => if d = color then n + 1 else n) 0 (g.index ⟨b.left, y⟩)
      (g.index ⟨b.right, y⟩ + 1)).foldl (· + ·) 0

/-! ### What the operations do to each cell -/

@[simp] theorem size_set (g : Grid) (p : Point) (c : Color) : (g.set p c).size = g.size := by
  unfold set
  split <;> rfl

theorem mem_set {g : Grid} {p q : Point} {c : Color} : q ∈ g.set p c ↔ q ∈ g := by
  simp [mem_def]

theorem square_blank (size : Nat) : (blank size).Square := by simp [Square, blank]

theorem Square.set {g : Grid} (h : g.Square) (p : Point) (c : Color) : (g.set p c).Square := by
  unfold Square Grid.set at *
  split <;> simp [h]

/-- Distinct points of a grid are kept at distinct indices. -/
theorem index_inj {g : Grid} {p q : Point} (hp : p ∈ g) (hq : q ∈ g) :
    g.index p = g.index q ↔ p = q := by
  constructor
  · obtain ⟨hpx, hpx', hpy, -⟩ := hp
    obtain ⟨hqx, hqx', hqy, -⟩ := hq
    intro h
    have hx : p.x.toNat < g.size := by omega
    have hx' : q.x.toNat < g.size := by omega
    unfold index at h
    have hmod := congrArg (· % g.size) h
    simp only [Nat.mul_comm _ g.size, Nat.mul_add_mod, Nat.mod_eq_of_lt hx,
      Nat.mod_eq_of_lt hx'] at hmod
    have hy : p.y.toNat = q.y.toNat := by
      rw [hmod] at h
      exact Nat.eq_of_mul_eq_mul_right (by omega) (Nat.add_right_cancel h)
    exact Point.ext (by omega) (by omega)
  · rintro rfl
    rfl

theorem index_lt {g : Grid} (h : g.Square) {p : Point} (hp : p ∈ g) :
    g.index p < g.cells.size := by
  obtain ⟨hpx, hpx', hpy, hpy'⟩ := hp
  rw [h, index]
  have hy : p.y.toNat + 1 ≤ g.size := by omega
  calc p.y.toNat * g.size + p.x.toNat
      < p.y.toNat * g.size + g.size := by omega
    _ = (p.y.toNat + 1) * g.size := by rw [Nat.add_mul, Nat.one_mul]
    _ ≤ g.size * g.size := Nat.mul_le_mul_right _ hy

theorem get?_eq_none {g : Grid} {p : Point} (hp : p ∉ g) : g.get? p = none := by
  simp [get?, hp]

theorem mem_of_get? {g : Grid} {p : Point} {c : Color} (h : g.get? p = some c) : p ∈ g := by
  unfold get? at h
  split at h
  · assumption
  · cases h

theorem get?_set {g : Grid} (h : g.Square) (p q : Point) (c : Color) :
    (g.set p c).get? q = if q = p ∧ p ∈ g then some c else g.get? q := by
  by_cases hp : p ∈ g
  · by_cases hq : q ∈ g
    · have hi := index_lt h hp
      by_cases e : q = p
      · subst e
        simp [get?, set, index, mem_def] at hp ⊢
        simp only [index] at hi
        simp [hp, hi]
      · have hne : g.index p ≠ g.index q := fun he => e ((index_inj hp hq).1 he).symm
        simp only [index] at hne
        simp [get?, set, index, mem_def] at hp hq ⊢
        simp [hp, hq, e, Array.getElem?_setIfInBounds_ne, hne]
    · have e : q ≠ p := fun e => hq (e ▸ hp)
      simp [get?, mem_set, hq, e]
  · simp [set, hp]

/-- All other points keep their colour, on any grid. -/
theorem get?_set_of_ne {g : Grid} {p q : Point} {c : Color} (h : q ≠ p) :
    (g.set p c).get? q = g.get? q := by
  by_cases hp : p ∈ g
  · by_cases hq : q ∈ g
    · have hindex : g.index p ≠ g.index q := fun heq => h ((index_inj hp hq).1 heq).symm
      have hq' : q ∈ g.set p c := mem_set.2 hq
      rw [get?, get?, if_pos hq, if_pos hq', set, if_pos hp]
      exact Array.getElem?_setIfInBounds_ne hindex
    · rw [get?_eq_none hq, get?_eq_none (mt mem_set.1 hq)]
  · rw [set, if_neg hp]

@[simp] theorem paint_nil (g : Grid) (c : Color) : g.paint c [] = g := rfl

@[simp] theorem paint_cons (g : Grid) (c : Color) (p : Point) (ps : List Point) :
    g.paint c (p :: ps) = (g.set p c).paint c ps := rfl

@[simp] theorem size_paint (g : Grid) (c : Color) (ps : List Point) :
    (g.paint c ps).size = g.size := by
  induction ps generalizing g with
  | nil => rfl
  | cons p ps ih => rw [paint_cons, ih, size_set]

theorem Square.paint {g : Grid} (h : g.Square) (c : Color) (ps : List Point) :
    (g.paint c ps).Square := by
  induction ps generalizing g with
  | nil => exact h
  | cons p ps ih => exact ih (h.set p c)

theorem get?_paint {g : Grid} (h : g.Square) (c : Color) (ps : List Point) (q : Point) :
    (g.paint c ps).get? q = if q ∈ ps ∧ q ∈ g then some c else g.get? q := by
  induction ps generalizing g with
  | nil => simp
  | cons p ps ih =>
    rw [paint_cons, ih (h.set p c), get?_set h]
    by_cases hq : q ∈ g
    · by_cases hqs : q ∈ ps <;> by_cases hqp : q = p
      · simp [mem_set, hq, hqs]
      · simp [mem_set, hq, hqs]
      · subst hqp
        simp [hq]
      · simp [hqs, hqp]
    · have hne : ¬(q = p ∧ p ∈ g) := fun hp => hq (hp.1 ▸ hp.2)
      simp [mem_set, hq, hne]

theorem get?_paint_of_not_mem {g : Grid} {c : Color} {ps : List Point} {q : Point} (h : q ∉ ps) :
    (g.paint c ps).get? q = g.get? q := by
  induction ps generalizing g with
  | nil => rfl
  | cons p ps ih =>
    rw [paint_cons, ih fun hq => h (List.mem_cons_of_mem p hq)]
    exact get?_set_of_ne fun heq => h (heq ▸ List.mem_cons_self)

/-- Recolouring a cell takes it away from the cells of its old colour. -/
theorem count_set_lt {g : Grid} {p : Point} {c d : Color} (hp : g.get? p = some c) (h : d ≠ c) :
    (g.set p d).cells.count c < g.cells.count c := by
  have hm := mem_of_get? hp
  simp only [get?, hm, if_true] at hp
  obtain ⟨hi, hc⟩ := Array.getElem?_eq_some_iff.1 hp
  have hpos : 0 < g.cells.count c := Array.count_pos_iff.2 (hc ▸ Array.getElem_mem hi)
  simp only [set, hm, if_true, Array.setIfInBounds, hi, dif_pos]
  rw [Array.count_set hi]
  simp only [hc, beq_self_eq_true, if_true]
  have : (d == c) = false := by simpa using h
  simp only [this, Bool.false_eq_true, if_false]
  omega

end Grid

end Easel
