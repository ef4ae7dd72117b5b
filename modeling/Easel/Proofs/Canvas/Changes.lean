import Easel.Canvas.Line
import Easel.Proofs.Canvas.Border
import Easel.Proofs.Canvas.CircleWalk
import Easel.Proofs.Canvas.Flood

/-!
# What drawing can do to a canvas

A drawing action that succeeds changes the brush, or sets it down on some points and moves the
cursor, or recolours cells (`Canvas.Change`); so it keeps a canvas well formed. An action that fails
leaves the canvas alone (`Canvas.AllOrNothing`), even one that has drawn before it moves the cursor:
the end of a line and the centre of a circle are on the canvas. Only a rectangle can be drawn and
then fail (`Canvas.rectangle_cases`).
-/

namespace Easel

/-- A walk comes to points of the grid only. -/
theorem Grid.mem_of_mem_walk {g : Grid} {dx dy : Int} {n : Nat} {p q : Point}
    (h : q ∈ g.walk dx dy n p) : q ∈ g := by
  induction n generalizing p with
  | zero => cases h
  | succ n ih =>
    simp only [walk] at h
    split at h
    · next hp =>
      rcases List.mem_cons.1 h with rfl | h
      · exact hp
      · exact ih h
    · cases h

namespace Canvas

variable {c c' : Canvas} {α : Type} {d : Draw α} {f : Fault}

/-- The ways in which a drawing action changes a canvas. -/
inductive Change (c : Canvas) : Canvas → Prop where
  | color (color : Color) : Change c { c with brush := { c.brush with color } }
  | width (wanted : Int) : Change c (takeWidth wanted c)
  | stamps (ps : List Point) {p : Point} : p ∈ c.grid →
      Change c { c.stampAll ps with cursor := some p }
  | cells {grid : Grid} : grid.size = c.grid.size → grid.Square → Change c { c with grid }

/-- **Drawing keeps a canvas well formed.** -/
theorem Change.wellFormed (h : c.Change c') (hc : c.WellFormed) : c'.WellFormed := by
  cases h with
  | color | width => exact ⟨hc.square, hc.cursor_mem⟩
  | stamps ps hp =>
    refine ⟨square_stampAll hc.square ps, fun q hq => ?_⟩
    cases hq
    simpa [Grid.mem_def] using hp
  | cells hsize hsquare =>
    refine ⟨hsquare, fun q hq => ?_⟩
    have hmem := hc.cursor_mem q hq
    rw [Grid.mem_def] at hmem ⊢
    rwa [hsize]

/-- The action changes the canvas as drawing can, or it fails and leaves the canvas as it was. -/
structure AllOrNothing (d : Draw α) (c : Canvas) : Prop where
  /-- What success leaves. -/
  change : ∀ a c', d c = .ok a c' → c.Change c'
  /-- What failure leaves. -/
  unchanged : ∀ f c', d c = .error f c' → c' = c

theorem allOrNothing_of_ok {a : α} (h : d c = .ok a c') (hc : c.Change c') : AllOrNothing d c where
  change a' c'' h' := by
    rw [h] at h'
    cases h'
    exact hc
  unchanged f c'' h' := by
    rw [h] at h'
    cases h'

theorem allOrNothing_of_error (h : d c = .error f c) : AllOrNothing d c where
  change a c' h' := by
    rw [h] at h'
    cases h'
  unchanged f' c' h' := by
    rw [h] at h'
    cases h'
    rfl

/-! ### The actions -/

theorem allOrNothing_moveTo (c : Canvas) (p : Point) : AllOrNothing (moveTo p) c := by
  have h := moveTo_stampAll c [] p
  by_cases hp : p ∈ c.grid
  · rw [if_pos hp] at h
    exact allOrNothing_of_ok h (.stamps [] hp)
  · rw [if_neg hp] at h
    exact allOrNothing_of_error h

theorem allOrNothing_takeColor (c : Canvas) (name : String) :
    AllOrNothing (takeColor name) c := by
  cases hname : ColorName.ofString? name with
  | none => exact allOrNothing_of_error (f := .unknownColor name) (by simp only [takeColor, hname])
  | some color =>
    cases color with
    | solid color => exact allOrNothing_of_ok (by simp only [takeColor, hname]; rfl) (.color color)
    | transparent =>
      exact allOrNothing_of_error (f := .transparentBrush) (by simp only [takeColor, hname])

theorem allOrNothing_takeWidth (c : Canvas) (wanted : Int) :
    AllOrNothing (modify (takeWidth wanted) : Draw Unit) c :=
  allOrNothing_of_ok rfl (.width wanted)

/-- A line ends on the canvas. -/
theorem allOrNothing_line (hc : c.WellFormed) (dx dy distance : Int) :
    AllOrNothing (line dx dy distance) c := by
  by_cases hstep : UnitStep dx dy
  · cases hstart : c.cursor with
    | none =>
      exact allOrNothing_of_error (f := .cursorNotPlaced) (by
        simp only [line, hstep, not_true_eq_false, if_false, hstart])
    | some start =>
      let path := c.grid.walk dx dy (lineSteps dx dy distance) start
      have hmem : path.getLast?.getD start ∈ c.grid := by
        cases hlast : path.getLast? with
        | none => exact hc.cursor_mem start hstart
        | some q => exact Grid.mem_of_mem_walk (List.mem_of_getLast? hlast)
      have hline : line dx dy distance c =
          .ok () { c.stampAll path with cursor := some (path.getLast?.getD start) } := by
        simp only [line, hstep, not_true_eq_false, if_false, hstart]
        rw [moveTo_stampAll, if_pos hmem]
      exact allOrNothing_of_ok hline (.stamps path hmem)
  · exact allOrNothing_of_error (f := .invalidDirection dx dy) (by
      simp only [line, hstep, not_false_eq_true, if_true])

/-- The centre of a circle is on the canvas when it is drawn. -/
theorem allOrNothing_circle (c : Canvas) (dx dy radius : Int) :
    AllOrNothing (circle dx dy radius) c := by
  by_cases hradius : radius ≤ 0
  · exact allOrNothing_of_error (f := .nonPositiveRadius radius) (by
      simp only [circle, hradius, if_true])
  · cases hstart : c.cursor with
    | none =>
      exact allOrNothing_of_error (f := .cursorNotPlaced) (by
        simp only [circle, hradius, if_false, hstart])
    | some start =>
      have hcircle := circle_eq hstart dx dy (Int.not_le.1 hradius)
      split at hcircle
      · next hcentre => exact allOrNothing_of_ok hcircle (.stamps _ hcentre)
      · exact allOrNothing_of_error hcircle

theorem allOrNothing_fill (hc : c.WellFormed) : AllOrNothing fill c := by
  cases hp : c.cursor with
  | none => exact allOrNothing_of_error (f := .cursorNotPlaced) (by simp only [fill, hp])
  | some p =>
    obtain ⟨old, painted, grid, -, hfill, hsize, hsquare, -, -⟩ := fill_spec hc hp
    exact allOrNothing_of_ok hfill (.cells hsize hsquare)

/-! ### Rectangles -/

/-- **What a rectangle does**: it is drawn and the cursor goes to its centre; or nothing happens; or
the centre lies beside the canvas, and the border stays, with the cursor and the brush as before. -/
theorem rectangle_cases (hc : c.grid.Square) (dx dy distance width height : Int) :
    (∃ c', rectangle dx dy distance width height c = .ok () c' ∧ c.Change c') ∨
    (∃ f, rectangle dx dy distance width height c = .error f c ∧ ∀ p, f ≠ .outOfBounds p) ∨
    ∃ start, c.cursor = some start ∧ start.shift dx dy distance ∉ c.grid ∧ 0 < width ∧
      0 < height ∧
      rectangle dx dy distance width height c =
        .error (.outOfBounds (start.shift dx dy distance))
          { c with grid :=
            (c.stampAll (boxAbout (start.shift dx dy distance) width height).border).grid } := by
  by_cases hpos : width ≤ 0 ∨ height ≤ 0
  · refine .inr (.inl ⟨.nonPositiveDimensions width height, ?_, by simp⟩)
    simp only [rectangle, hpos, if_true]
  · cases hstart : c.cursor with
    | none =>
      refine .inr (.inl ⟨.cursorNotPlaced, ?_, by simp⟩)
      simp only [rectangle, hpos, if_false, hstart]
    | some start =>
      have hwidth : 0 < width := by omega
      have hheight : 0 < height := by omega
      have hdraw := rectangle_eq hc hstart dx dy distance hwidth hheight
      split at hdraw
      · next hcentre => exact .inl ⟨_, hdraw, .stamps _ hcentre⟩
      · next hcentre =>
        exact .inr (.inr ⟨start, rfl, hcentre, hwidth, hheight, hstart ▸ hdraw⟩)

end Canvas

end Easel
