import Easel.Proofs.Program.Effects

/-!
# Paint is permanent

The colour white stands for a cell without paint, and a white brush leaves no mark. So without filling
no cell becomes white again (`Canvas.Marked`), and a cell that changes takes a colour that the brush
has had: the one it had at the beginning, or one that the program names (`Program.Brushes`).

`Canvas.PaintedOver` puts this into one relation between an earlier and a later canvas, which every
statement but filling keeps.
-/

namespace Easel

/-! ### Canvases -/

namespace Canvas

variable {allowed : Color → Prop} {c c' c'' : Canvas}

/-- The cell has been painted. -/
def Marked (c : Canvas) (q : Point) : Prop := ∃ color, c.grid.get? q = some color ∧ color ≠ .white

/-- The later canvas comes of the earlier one by painting in the allowed colours. -/
structure PaintedOver (allowed : Color → Prop) (c c' : Canvas) : Prop where
  /-- The canvas keeps its size. -/
  size : c'.grid.size = c.grid.size
  /-- There is a colour for each cell. -/
  square : c'.grid.Square
  /-- The brush has an allowed colour. -/
  brush : allowed c'.brush.color
  /-- What is painted stays painted. -/
  marked : ∀ q, c.Marked q → c'.Marked q
  /-- A cell has the colour it had or an allowed one. -/
  cells : ∀ q color, c'.grid.get? q = some color → c.grid.get? q = some color ∨ allowed color

theorem PaintedOver.refl (hsquare : c.grid.Square) (hbrush : allowed c.brush.color) :
    c.PaintedOver allowed c :=
  ⟨rfl, hsquare, hbrush, fun _ => id, fun _ _ => .inl⟩

theorem PaintedOver.trans (h : c.PaintedOver allowed c') (h' : c'.PaintedOver allowed c'') :
    c.PaintedOver allowed c'' where
  size := h'.size.trans h.size
  square := h'.square
  brush := h'.brush
  marked q hq := h'.marked q (h.marked q hq)
  cells q color hq := by
    rcases h'.cells q color hq with hq' | hallowed
    · exact h.cells q color hq'
    · exact .inr hallowed

/-- To set the brush down marks cells, in its own colour. -/
theorem paintedOver_stampAll (hsquare : c.grid.Square) (hbrush : allowed c.brush.color)
    (ps : List Point) : c.PaintedOver allowed (c.stampAll ps) where
  size := size_stampAll c ps
  square := square_stampAll hsquare ps
  brush := by rwa [brush_stampAll]
  marked := by
    rintro q ⟨color, hq, hcolor⟩
    rw [Marked, get?_stampAll hsquare]
    split
    · next h => exact ⟨c.brush.color, rfl, h.1⟩
    · exact ⟨color, hq, hcolor⟩
  cells q color hq := by
    rw [get?_stampAll hsquare] at hq
    split at hq
    · cases hq
      exact .inr hbrush
    · exact .inl hq

/-- Where a cell differs, it has an allowed colour. -/
theorem PaintedOver.exists_of_ne (h : c.PaintedOver allowed c') {q : Point}
    (hq : c'.grid.get? q ≠ c.grid.get? q) : ∃ color, c'.grid.get? q = some color ∧ allowed color := by
  by_cases hmem : q ∈ c'.grid
  · obtain ⟨color, hcolor⟩ := h.square.exists_get? hmem
    refine ⟨color, hcolor, ?_⟩
    rcases h.cells q color hcolor with hsame | hallowed
    · exact absurd (hcolor.trans hsame.symm) hq
    · exact hallowed
  · have hmem' : q ∉ c.grid := by rwa [Grid.mem_def, ← h.size]
    exact absurd (by rw [Grid.get?_eq_none hmem, Grid.get?_eq_none hmem']) hq

end Canvas

/-! ### Programs -/

/-- A statement other than filling paints over the canvas, if the colours that it can name are
allowed. -/
theorem Stmt.Makes.paintedOver {stmt : Stmt} {c c' : Canvas} {allowed : Color → Prop}
    (h : stmt.Makes c c') (hfill : stmt ≠ .fill)
    (hnamed : ∀ name color, stmt = .color name → ColorName.sameWord color.name name → allowed color)
    (hsquare : c.grid.Square) (hbrush : allowed c.brush.color) : c.PaintedOver allowed c' := by
  cases h with
  | stamps ps => exact Canvas.paintedOver_stampAll hsquare hbrush ps
  | moved ps =>
    obtain ⟨hsize, hsquare', hbrush', hmarked, hcells⟩ :=
      Canvas.paintedOver_stampAll hsquare hbrush ps
    exact ⟨hsize, hsquare', hbrush', hmarked, hcells⟩
  | color hname =>
    have hcolor := hnamed _ _ rfl (ColorName.sameWord_of_ofString? hname)
    exact ⟨rfl, hsquare, hcolor, fun _ => id, fun _ _ => .inl⟩
  | width => exact ⟨rfl, hsquare, hbrush, fun _ => id, fun _ _ => .inl⟩
  | fill => exact absurd rfl hfill

namespace Program

variable {p : Program} {c c' : Canvas}

/-- The colours that a brush of the given colour can take when the program is carried out: its own,
and those that the program names, in any case. -/
def Brushes (p : Program) (first color : Color) : Prop :=
  color = first ∨ ∃ name, Stmt.color name ∈ p ∧ ColorName.sameWord color.name name

theorem Changes.paintedOver {first : Color} (h : p.Changes c c') (hfill : Stmt.fill ∉ p)
    (hsquare : c.grid.Square) (hbrush : p.Brushes first c.brush.color) :
    c.PaintedOver (p.Brushes first) c' := by
  refine h.keeps (fun stmt hstmt c₁ c₂ hmakes hpainted => ?_) (.refl hsquare hbrush)
  refine hpainted.trans (hmakes.paintedOver ?_ ?_ hpainted.square hpainted.brush)
  · rintro rfl
    exact hfill hstmt
  · rintro name color rfl hsame
    exact .inr ⟨name, hstmt, hsame⟩

/-- **Without filling, paint is permanent.** Let a program without it be carried out on a canvas, and
look at the canvas that is left when `n` steps have been begun, for every `n`: these are the canvases
that the steps lead to, and the last of them, also when a statement fails or a limit is reached, is
the one that the program leaves. A cell that is painted on one of them is painted on all later ones,
and a cell that differs from the beginning has the colour that the brush had then, or one that the
program names. -/
theorem paint_is_permanent (hfill : Stmt.fill ∉ p) (hc : c.WellFormed) :
    (∀ m n q, m ≤ n → (p.run m c).canvas.Marked q → (p.run n c).canvas.Marked q) ∧
    (∀ n q, (p.run n c).canvas.grid.get? q ≠ c.grid.get? q →
      ∃ color, (p.run n c).canvas.grid.get? q = some color ∧
        (color = c.brush.color ∨
          ∃ name, Stmt.color name ∈ p ∧ ColorName.sameWord color.name name)) ∧
    (∀ labels k s, p.labels = .ok labels → p.Reaches labels k ⟨0, .empty, c⟩ s →
      (p.run k c).canvas = s.canvas) ∧
    ∀ limit? o, p.execute limit? c = some o → ∃ n, p.run n c = o := by
  have hstart : ∀ n, c.PaintedOver (p.Brushes c.brush.color) (p.run n c).canvas :=
    fun n => (p.changes_run c n).paintedOver hfill hc.square (.inl rfl)
  refine ⟨fun m n q hmn hq => ?_, fun n q hq => (hstart n).exists_of_ne hq,
    fun labels k s hlabels hreaches => hreaches.canvas_run hlabels,
    fun limit? o => exists_run_of_execute⟩
  have hlater := (run_changes p c hmn).paintedOver hfill (hstart m).square (hstart m).brush
  exact hlater.marked q hq

/-- A program that draws in two colours, and at last fails when it has drawn. -/
def crossing : Program :=
  [.spawn (.num 0) (.num 0), .line (.num 1) (.num 0) (.num 1), .color "GREEN",
    .line (.num 0) (.num 1) (.num 1), .color "white", .line (.num 0) (.num (-1)) (.num 1),
    .color "black", .rectangle (.num 0) (.num (-1)) (.num 1) (.num 3) (.num 2)]

/-- A blank canvas with a red brush. -/
def reddened : Canvas := ⟨.blank 2, none, ⟨.red, 1⟩⟩

theorem wellFormed_reddened : reddened.WellFormed where
  square := rfl
  cursor_mem p hp := by cases hp

theorem paint_is_permanent_crossing :
    Stmt.fill ∉ crossing ∧ reddened.WellFormed ∧
      (crossing.run 4 reddened).canvas.grid = ⟨2, #[.white, .red, .white, .green]⟩ ∧
      (crossing.run 9 reddened).canvas.grid = ⟨2, #[.black, .black, .white, .green]⟩ ∧
      (crossing.run 9 reddened).canvas.Marked ⟨1, 0⟩ ∧
      ∃ color, (crossing.run 9 reddened).canvas.grid.get? ⟨0, 0⟩ = some color ∧
        (color = .red ∨ ∃ name, Stmt.color name ∈ crossing ∧ ColorName.sameWord color.name name) := by
  have hfill : Stmt.fill ∉ crossing := by simp [crossing]
  obtain ⟨hmarked, hcells, -, -⟩ := paint_is_permanent hfill wellFormed_reddened
  refine ⟨hfill, wellFormed_reddened, rfl, rfl, ?_, ?_⟩
  · exact hmarked 4 9 ⟨1, 0⟩ (by decide) ⟨.red, rfl, by decide⟩
  · exact hcells 9 ⟨0, 0⟩ (by decide)

end Program

end Easel
