import Easel.Proofs.Canvas.Changes
import Easel.Proofs.Program.Runs

/-!
# What a failure leaves

A statement that fails leaves the variables and the canvas as they were. There is one exception: a
rectangle whose centre lies beside the canvas leaves its border (`Stmt.Leaves`). So a program that
fails leaves what its steps before that have made of the canvas, and the border at most
(`Interpreter.StopsAs`).
-/

namespace Easel

/-! ### Statements -/

namespace Stmt

variable {labels : Labels} {env : Env} {c c' : Canvas} {s t : State} {stmt : Stmt} {f : Fault}
  {α : Type} {d : Draw α}

/-- The canvas that a statement leaves when it fails. -/
inductive Leaves (env : Env) (c : Canvas) : Stmt → Fault → Canvas → Prop where
  | unchanged {stmt : Stmt} {f : Fault} :
      (¬∃ dx dy distance width height p,
        stmt = .rectangle dx dy distance width height ∧ f = .outOfBounds p) →
      Leaves env c stmt f c
  /-- The border of a rectangle about a point beside the canvas stays. -/
  | border {dx dy distance width height : Expr} {a b n w h : Int32} {start : Point} :
      dx.eval env c = .ok a → dy.eval env c = .ok b → distance.eval env c = .ok n →
      width.eval env c = .ok w → height.eval env c = .ok h → 0 < w.toInt → 0 < h.toInt →
      c.cursor = some start → start.shift a.toInt b.toInt n.toInt ∉ c.grid →
      Leaves env c (.rectangle dx dy distance width height)
        (.outOfBounds (start.shift a.toInt b.toInt n.toInt))
        { c with grid := (c.stampAll (Canvas.boxAbout (start.shift a.toInt b.toInt n.toInt)
          w.toInt h.toInt).border).grid }

/-- A statement that draws changes a canvas only as drawing can. -/
theorem Draws.change {a : α} (hd : stmt.Draws env c d) (hc : c.WellFormed) (h : d c = .ok a c') :
    c.Change c' := by
  cases hd with
  | spawn => exact (Canvas.allOrNothing_moveTo c _).change _ _ h
  | color => exact (Canvas.allOrNothing_takeColor c _).change _ _ h
  | size => exact (Canvas.allOrNothing_takeWidth c _).change _ _ h
  | line => exact (Canvas.allOrNothing_line hc _ _ _).change _ _ h
  | circle => exact (Canvas.allOrNothing_circle c _ _ _).change _ _ h
  | rectangle =>
    rcases Canvas.rectangle_cases hc.square _ _ _ _ _ with
      ⟨_, hdraw, hchange⟩ | ⟨_, hdraw, -⟩ | ⟨_, -, -, -, -, hdraw⟩
    · cases hdraw.symm.trans h
      exact hchange
    · cases hdraw.symm.trans h
    · cases hdraw.symm.trans h
  | fill => exact (Canvas.allOrNothing_fill hc).change _ _ h

/-- A statement that draws all or nothing leaves the canvas when it fails. -/
theorem leaves_of_allOrNothing (hd : Canvas.AllOrNothing d c) (h : d c = .error f c')
    (hstmt : ∀ dx dy distance width height, stmt ≠ .rectangle dx dy distance width height) :
    stmt.Leaves env c f c' := by
  obtain rfl := hd.unchanged f c' h
  apply Leaves.unchanged
  rintro ⟨dx, dy, distance, width, height, p, hrectangle, -⟩
  exact hstmt dx dy distance width height hrectangle

theorem Draws.leaves (hd : stmt.Draws env c d) (hc : c.WellFormed) (h : d c = .error f c') :
    stmt.Leaves env c f c' := by
  cases hd with
  | spawn => exact leaves_of_allOrNothing (Canvas.allOrNothing_moveTo c _) h (by simp)
  | color => exact leaves_of_allOrNothing (Canvas.allOrNothing_takeColor c _) h (by simp)
  | size => exact leaves_of_allOrNothing (Canvas.allOrNothing_takeWidth c _) h (by simp)
  | line => exact leaves_of_allOrNothing (Canvas.allOrNothing_line hc _ _ _) h (by simp)
  | circle => exact leaves_of_allOrNothing (Canvas.allOrNothing_circle c _ _ _) h (by simp)
  | rectangle ha hb hn hw hh =>
    rcases Canvas.rectangle_cases hc.square _ _ _ _ _ with
      ⟨_, hdraw, -⟩ | ⟨_, hdraw, hne⟩ | ⟨start, hstart, hcentre, hwidth, hheight, hdraw⟩
    · cases hdraw.symm.trans h
    · cases hdraw.symm.trans h
      apply Leaves.unchanged
      rintro ⟨_, _, _, _, _, p, -, hp⟩
      exact hne p hp
    · cases hdraw.symm.trans h
      exact .border ha hb hn hw hh hwidth hheight hstart hcentre
  | fill => exact leaves_of_allOrNothing (Canvas.allOrNothing_fill hc) h (by simp)

/-- **A statement that fails** leaves the variables, and the canvas but for the border of a
rectangle. -/
theorem Fails.leaves (h : stmt.Fails s f t) (hc : s.canvas.WellFormed) :
    t.env = s.env ∧ t.pc = s.pc ∧ stmt.Leaves s.env s.canvas f t.canvas := by
  cases h with
  | argument _ he =>
    refine ⟨rfl, rfl, .unchanged ?_⟩
    -- an expression does not report a point beside the canvas
    rintro ⟨_, _, _, _, _, p, -, rfl⟩
    cases (Expr.failsAsExpr_eval _ _ _ _ he).1
  | draw hd hdraw => exact ⟨rfl, rfl, hd.leaves hc hdraw⟩

/-- A step keeps the canvas well formed. -/
theorem Steps.wellFormed (h : stmt.Steps labels s t) (hc : s.canvas.WellFormed) :
    t.canvas.WellFormed := by
  cases h with
  | draw hd hdraw => exact (hd.change hc hdraw).wellFormed hc
  | assign | label | stay | jump => exact hc

end Stmt

/-! ### Runs -/

/-- Every state that a program reaches has a well-formed canvas. -/
theorem Program.Reaches.wellFormed {p : Program} {labels : Labels} {k : Nat} {s t : State}
    (h : p.Reaches labels k s t) (hc : s.canvas.WellFormed) : t.canvas.WellFormed := by
  induction h with
  | zero => exact hc
  | succ hstep _ ih =>
    obtain ⟨stmt, notice, -, hexec⟩ := hstep
    exact ih ((Stmt.steps_of_exec hexec).wellFormed hc)

namespace Interpreter

variable {p : Program} {i j : Interpreter} {e : RunError}

/-- What becomes of an interpreter when a program stops with an error. -/
inductive StopsAs (i : Interpreter) (p : Program) : RunError → Interpreter → Prop where
  /-- A program that sets a label twice is not begun. -/
  | labels {e : RunError} : p.labels = .error e → StopsAs i p e i.clear
  /-- At the limit the program is left as it is. -/
  | limit {labels : Labels} {limit : Nat} {s : State} : p.labels = .ok labels →
      i.limit? = some limit → p.Reaches labels limit i.start s →
      StopsAs i p ⟨s.pc, .stepLimit limit⟩ ⟨s.canvas, s.env, labels, i.limit?, limit⟩
  /-- After `k` steps a statement fails. -/
  | statement {labels : Labels} {k : Nat} {s t : State} {stmt : Stmt} {f : Fault} :
      p.labels = .ok labels → p.Reaches labels k i.start s → p[s.pc]? = some stmt →
      stmt.exec labels s = .error f t → stmt.Leaves s.env s.canvas f t.canvas →
      StopsAs i p ⟨s.pc, f⟩ ⟨t.canvas, s.env, labels, i.limit?, k + 1⟩

/-- A program that ends by itself, but with an error, ends at a statement that fails. -/
theorem stopsAs_of_ends {labels : Labels} {n : Nat} {o : Outcome} (hlabels : p.labels = .ok labels)
    (hc : i.canvas.WellFormed) (h : p.Ends labels 0 n i.start o)
    (ho : i.after labels o = (j, .error e)) : i.StopsAs p e j := by
  rcases h.reaches with ⟨s, -, -, rfl⟩ | ⟨k, s, f, t, rfl, hs, ⟨stmt, hstmt, hexec⟩, rfl⟩
  · cases ho
  · cases ho
    obtain ⟨henv, -, hleaves⟩ := (Stmt.fails_of_exec hexec).leaves (hs.wellFormed hc)
    have hstops := StopsAs.statement hlabels hs hstmt hexec hleaves
    rwa [← henv, ← Nat.zero_add (k + 1)] at hstops

theorem stopsAs_of_execute (hc : i.canvas.WellFormed) (h : i.execute p = some (j, .error e)) :
    i.StopsAs p e j := by
  cases hlabels : p.labels with
  | error e' =>
    rw [execute_of_labels_error hlabels] at h
    cases h
    exact .labels hlabels
  | ok labels =>
    rcases execute_eq_some hlabels h with ⟨n, o, hends, ho⟩ | ⟨limit, s, hlimit, hs, ho⟩
    · exact stopsAs_of_ends hlabels hc hends ho
    · cases ho
      exact .limit hlabels hlimit hs

/-- **A failure leaves everything as it was**, but for the border of a rectangle whose centre lies
beside the canvas. So an interpreter whose program fails after `k` steps has the variables and the
canvas that these steps made, with that border at most. -/
theorem failure_leaves_state :
    (∀ (labels : Labels) (s t : State) (stmt : Stmt) (f : Fault), s.canvas.WellFormed →
      stmt.exec labels s = .error f t →
      t.env = s.env ∧ t.pc = s.pc ∧ stmt.Leaves s.env s.canvas f t.canvas) ∧
    ∀ (p : Program) (i j : Interpreter) (e : RunError), i.canvas.WellFormed →
      i.execute p = some (j, .error e) → i.StopsAs p e j := by
  constructor
  · intro labels s t stmt f hc hexec
    exact (Stmt.fails_of_exec hexec).leaves hc
  · intro p i j e hc hexec
    exact stopsAs_of_execute hc hexec

/-- A rectangle about a point to the right of the cursor. -/
def rightward : Stmt := .rectangle (.num 1) (.num 0) (.var "n") (.num 3) (.num 1)

/-- The centre of the rectangle lies beside a canvas of two by two cells. -/
def placed : State := ⟨2, ⟨[("n", 2)]⟩, ⟨.blank 2, some ⟨0, 0⟩, ⟨.red, 1⟩⟩⟩

/-- The end of the rectangle is in the corner. -/
def marked : Canvas := ⟨⟨2, #[.white, .red, .white, .white]⟩, some ⟨0, 0⟩, ⟨.red, 1⟩⟩

/-- An interpreter with a blank canvas. -/
def blank : Interpreter where
  canvas := ⟨.blank 2, none, ⟨.red, 1⟩⟩
  limit? := some 3

theorem wellFormed_placed : placed.canvas.WellFormed :=
  .of_placed rfl rfl (by decide)

theorem wellFormed_blank : blank.canvas.WellFormed where
  square := rfl
  cursor_mem p hp := by cases hp

theorem failure_leaves_state_rightward :
    placed.canvas.WellFormed ∧ blank.canvas.WellFormed ∧
      rightward.exec [] placed = .error (.outOfBounds ⟨2, 0⟩) ⟨2, placed.env, marked⟩ ∧
      rightward.Leaves placed.env placed.canvas (.outOfBounds ⟨2, 0⟩) marked ∧
      blank.execute [.spawn (.num 0) (.num 0), .assign "n" (.num 2), rightward] =
        some (⟨marked, placed.env, [], some 3, 3⟩, .error ⟨2, .outOfBounds ⟨2, 0⟩⟩) ∧
      blank.StopsAs [.spawn (.num 0) (.num 0), .assign "n" (.num 2), rightward]
        ⟨2, .outOfBounds ⟨2, 0⟩⟩ ⟨marked, placed.env, [], some 3, 3⟩ := by
  have hexec : rightward.exec [] placed =
      .error (.outOfBounds ⟨2, 0⟩) ⟨2, placed.env, marked⟩ := by
    rfl
  have hexecute : blank.execute [.spawn (.num 0) (.num 0), .assign "n" (.num 2), rightward] =
      some (⟨marked, placed.env, [], some 3, 3⟩, .error ⟨2, .outOfBounds ⟨2, 0⟩⟩) := by
    rfl
  obtain ⟨hstatement, hprogram⟩ := failure_leaves_state
  obtain ⟨-, -, hleaves⟩ := hstatement _ _ _ _ _ wellFormed_placed hexec
  exact ⟨wellFormed_placed, wellFormed_blank, hexec, hleaves, hexecute,
    hprogram _ _ _ _ wellFormed_blank hexecute⟩

end Interpreter

end Easel
