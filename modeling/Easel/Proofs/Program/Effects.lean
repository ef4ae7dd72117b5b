import Easel.Proofs.Canvas.Cells
import Easel.Proofs.Program.Runs
import Easel.Source
import Mathlib.Logic.Relation

/-!
# What a program can make of a canvas

A statement sets the brush down on some points, moves the cursor to a point of the canvas, takes
another brush, or fills; and it does nothing else, whether it succeeds or fails (`Stmt.Makes`). A
program that has begun `n` of its steps has put finitely many of these changes together, and those of
a later point follow on those of an earlier one (`Program.run_changes`). So what every statement keeps
is kept along every run (`Program.Changes.keeps`). Nothing is assumed about the canvas.
-/

namespace Easel

/-! ### Actions -/

namespace Canvas

variable {c c' : Canvas} {α : Type} {d : Draw α} {f : Fault} {p : Point} {ps : List Point}

/-- The action sets the brush down on some points. If it succeeds the cursor is on the canvas, and if
it fails the cursor is where it was. -/
structure OnlyStamps (d : Draw α) (c : Canvas) : Prop where
  /-- What success leaves. -/
  ok : ∀ a c', d c = .ok a c' → ∃ ps, ∃ p ∈ c.grid, c' = { c.stampAll ps with cursor := some p }
  /-- What failure leaves. -/
  error : ∀ f c', d c = .error f c' → ∃ ps, c' = c.stampAll ps

theorem onlyStamps_of_error (h : d c = .error f c) : OnlyStamps d c where
  ok a c' h' := by
    rw [h] at h'
    cases h'
  error f' c' h' := by
    rw [h] at h'
    cases h'
    exact ⟨[], rfl⟩

theorem onlyStamps_of_moveTo {d : Draw Unit} (h : d c = moveTo p (c.stampAll ps)) :
    OnlyStamps d c := by
  rw [moveTo_stampAll] at h
  by_cases hp : p ∈ c.grid
  · rw [if_pos hp] at h
    constructor
    · intro a c' h'
      rw [h] at h'
      cases h'
      exact ⟨ps, p, hp, rfl⟩
    · intro f c' h'
      rw [h] at h'
      cases h'
  · rw [if_neg hp] at h
    constructor
    · intro a c' h'
      rw [h] at h'
      cases h'
    · intro f c' h'
      rw [h] at h'
      cases h'
      exact ⟨ps, rfl⟩

theorem onlyStamps_moveTo (c : Canvas) (p : Point) : OnlyStamps (moveTo p) c :=
  onlyStamps_of_moveTo (show moveTo p c = moveTo p (c.stampAll []) from rfl)

theorem onlyStamps_line (c : Canvas) (dx dy distance : Int) :
    OnlyStamps (line dx dy distance) c := by
  by_cases hstep : UnitStep dx dy
  · cases hstart : c.cursor with
    | none =>
      exact onlyStamps_of_error (f := .cursorNotPlaced) (by
        simp only [line, hstep, not_true_eq_false, if_false, hstart])
    | some start =>
      apply onlyStamps_of_moveTo
      simp only [line, hstep, not_true_eq_false, if_false, hstart]
      rfl
  · exact onlyStamps_of_error (f := .invalidDirection dx dy) (by
      simp only [line, hstep, not_false_eq_true, if_true])

theorem onlyStamps_circle (c : Canvas) (dx dy radius : Int) :
    OnlyStamps (circle dx dy radius) c := by
  by_cases hradius : radius ≤ 0
  · exact onlyStamps_of_error (f := .nonPositiveRadius radius) (by
      simp only [circle, hradius, if_true])
  · cases hstart : c.cursor with
    | none =>
      exact onlyStamps_of_error (f := .cursorNotPlaced) (by
        simp only [circle, hradius, if_false, hstart])
    | some start =>
      by_cases hcentre : start.shift dx dy radius ∈ c.grid
      · apply onlyStamps_of_moveTo
        simp only [circle, hradius, if_false, hstart, hcentre, not_true_eq_false]
        rfl
      · exact onlyStamps_of_error (f := .outOfBounds (start.shift dx dy radius)) (by
          simp only [circle, hradius, if_false, hstart, hcentre, not_false_eq_true, if_true])

theorem onlyStamps_rectangle (c : Canvas) (dx dy distance width height : Int) :
    OnlyStamps (rectangle dx dy distance width height) c := by
  by_cases hpos : width ≤ 0 ∨ height ≤ 0
  · exact onlyStamps_of_error (f := .nonPositiveDimensions width height) (by
      simp only [rectangle, hpos, if_true])
  · cases hstart : c.cursor with
    | none =>
      exact onlyStamps_of_error (f := .cursorNotPlaced) (by
        simp only [rectangle, hpos, if_false, hstart])
    | some start =>
      apply onlyStamps_of_moveTo
      simp only [rectangle, hpos, if_false, hstart]
      rfl

theorem fill_eq_ok {painted : Option Nat} (h : fill c = .ok painted c') :
    ∃ grid, c' = { c with grid } := by
  unfold fill at h
  split at h
  · cases h
  · split at h
    · cases h
      exact ⟨c.grid, rfl⟩
    · split at h
      · cases h
        exact ⟨c.grid, rfl⟩
      · cases h
        exact ⟨_, rfl⟩

theorem fill_eq_error (h : fill c = .error f c') : c' = c := by
  unfold fill at h
  split at h
  · cases h
    rfl
  · split at h
    · cases h
    · split at h <;> cases h

end Canvas

/-! ### Statements -/

namespace Stmt

variable {labels : Labels} {env : Env} {c c' : Canvas} {s t : State} {stmt : Stmt} {f : Fault}
  {α : Type} {d : Draw α}

/-- What a statement can make of a canvas, with success or without. -/
inductive Makes (c : Canvas) : Stmt → Canvas → Prop where
  /-- The brush is set down. Without any points nothing happens. -/
  | stamps {stmt : Stmt} (ps : List Point) : Makes c stmt (c.stampAll ps)
  | moved {stmt : Stmt} (ps : List Point) {p : Point} : p ∈ c.grid →
      Makes c stmt { c.stampAll ps with cursor := some p }
  | color {name : String} {color : Color} : ColorName.ofString? name = some (.solid color) →
      Makes c (.color name) { c with brush := { c.brush with color } }
  | width {width : Expr} (w : Int32) : Makes c (.size width) (c.takeWidth w.toInt)
  | fill {painted : Option Nat} {c' : Canvas} : Canvas.fill c = .ok painted c' → Makes c .fill c'

theorem makes_of_ok (hd : Canvas.OnlyStamps d c) {a : α} (h : d c = .ok a c') :
    stmt.Makes c c' := by
  obtain ⟨ps, p, hp, rfl⟩ := hd.ok a c' h
  exact .moved ps hp

theorem makes_of_error (hd : Canvas.OnlyStamps d c) (h : d c = .error f c') : stmt.Makes c c' := by
  obtain ⟨ps, rfl⟩ := hd.error f c' h
  exact .stamps ps

theorem Draws.makes_ok {a : α} (hd : stmt.Draws env c d) (h : d c = .ok a c') :
    stmt.Makes c c' := by
  cases hd with
  | spawn => exact makes_of_ok (Canvas.onlyStamps_moveTo c _) h
  | color =>
    unfold Canvas.takeColor at h
    split at h
    · next hname =>
      cases h
      exact .color hname
    · cases h
    · cases h
  | size =>
    cases h
    exact .width _
  | line => exact makes_of_ok (Canvas.onlyStamps_line c _ _ _) h
  | circle => exact makes_of_ok (Canvas.onlyStamps_circle c _ _ _) h
  | rectangle => exact makes_of_ok (Canvas.onlyStamps_rectangle c _ _ _ _ _) h
  | fill => exact .fill h

theorem Draws.makes_error (hd : stmt.Draws env c d) (h : d c = .error f c') :
    stmt.Makes c c' := by
  cases hd with
  | spawn => exact makes_of_error (Canvas.onlyStamps_moveTo c _) h
  | color =>
    unfold Canvas.takeColor at h
    split at h <;> cases h <;> exact .stamps []
  | size => cases h
  | line => exact makes_of_error (Canvas.onlyStamps_line c _ _ _) h
  | circle => exact makes_of_error (Canvas.onlyStamps_circle c _ _ _) h
  | rectangle => exact makes_of_error (Canvas.onlyStamps_rectangle c _ _ _ _ _) h
  | fill =>
    rw [Canvas.fill_eq_error h]
    exact .stamps []

/-- **What a step makes of the canvas.** -/
theorem Steps.makes (h : stmt.Steps labels s t) : stmt.Makes s.canvas t.canvas := by
  cases h with
  | draw hd hdraw => exact hd.makes_ok hdraw
  | assign | label | stay | jump => exact .stamps []

/-- **What a failure makes of the canvas.** -/
theorem Fails.makes (h : stmt.Fails s f t) : stmt.Makes s.canvas t.canvas := by
  cases h with
  | argument => exact .stamps []
  | draw hd hdraw => exact hd.makes_error hdraw

end Stmt

/-! ### Runs -/

namespace Program

variable {p : Program} {labels : Labels} {s t : State} {c c' : Canvas} {f : Fault}
  {limit limit' taken left left' m n : Nat}

/-- The statements of the program, each as often as need be and in any order, can make the one canvas
of the other. -/
def Changes (p : Program) : Canvas → Canvas → Prop :=
  Relation.ReflTransGen fun c c' => ∃ stmt ∈ p, stmt.Makes c c'

/-- **What every statement keeps is kept by all of them together.** -/
theorem Changes.keeps {P : Canvas → Prop} (h : p.Changes c c')
    (hkeeps : ∀ stmt ∈ p, ∀ c c', stmt.Makes c c' → P c → P c') (hc : P c) : P c' := by
  induction h with
  | refl => exact hc
  | tail _ hmakes ih =>
    obtain ⟨stmt, hstmt, hmakes⟩ := hmakes
    exact hkeeps stmt hstmt _ _ hmakes ih

theorem Step.changes (h : p.Step labels s t) : p.Changes s.canvas t.canvas := by
  obtain ⟨stmt, notice, hstmt, hexec⟩ := h
  exact .single ⟨stmt, List.mem_of_getElem? hstmt, (Stmt.steps_of_exec hexec).makes⟩

theorem FailsAt.changes (h : p.FailsAt labels s f t) : p.Changes s.canvas t.canvas := by
  obtain ⟨stmt, hstmt, hexec⟩ := h
  exact .single ⟨stmt, List.mem_of_getElem? hstmt, (Stmt.fails_of_exec hexec).makes⟩

theorem FailsAt.runFrom (h : p.FailsAt labels s f t) :
    p.runFrom labels limit taken (left + 1) s =
      ⟨t.env, t.canvas, taken + 1, .error ⟨s.pc, f⟩⟩ := by
  obtain ⟨stmt, hstmt, hexec⟩ := h
  simp only [Program.runFrom, hstmt, hexec]

theorem runFrom_of_done (h : p[s.pc]? = none) :
    p.runFrom labels limit taken left s = ⟨s.env, s.canvas, taken, .ok taken⟩ := by
  rw [runFrom, h]

@[simp] theorem canvas_runFrom_zero :
    (p.runFrom labels limit taken 0 s).canvas = s.canvas := by
  rw [runFrom]
  split <;> rfl

theorem runFrom_changes (p : Program) (labels : Labels) (limit taken left : Nat) (s : State) :
    p.Changes s.canvas (p.runFrom labels limit taken left s).canvas := by
  induction left generalizing taken s with
  | zero =>
    rw [canvas_runFrom_zero]
    exact .refl
  | succ left ih =>
    by_cases hdone : p[s.pc]? = none
    · rw [runFrom_of_done hdone]
      exact .refl
    · rcases step_or_failsAt labels hdone with ⟨t, hstep⟩ | ⟨f, t, hfault⟩
      · rw [hstep.runFrom]
        exact hstep.changes.trans (ih (taken + 1) t)
      · rw [hfault.runFrom]
        exact hfault.changes

theorem runFrom_changes_of_le (hle : left ≤ left') :
    p.Changes (p.runFrom labels limit taken left s).canvas
      (p.runFrom labels limit' taken left' s).canvas := by
  -- both runs make the same steps until the shorter one is cut off
  induction left generalizing taken left' s with
  | zero =>
    rw [canvas_runFrom_zero]
    exact runFrom_changes p labels limit' taken left' s
  | succ left ih =>
    obtain ⟨left', rfl⟩ := Nat.exists_eq_add_of_le' (Nat.le_trans (Nat.le_add_left 1 left) hle)
    by_cases hdone : p[s.pc]? = none
    · rw [runFrom_of_done hdone, runFrom_of_done hdone]
      exact .refl
    · rcases step_or_failsAt labels hdone with ⟨t, hstep⟩ | ⟨f, t, hfault⟩
      · rw [hstep.runFrom, hstep.runFrom]
        exact ih (Nat.le_of_succ_le_succ hle)
      · rw [hfault.runFrom, hfault.runFrom]
        exact .refl

/-- **From an earlier point of a run to a later one** the statements of the program have made the one
canvas of the other. -/
theorem run_changes (p : Program) (c : Canvas) (hmn : m ≤ n) :
    p.Changes (p.run m c).canvas (p.run n c).canvas := by
  unfold run
  cases p.labels with
  | error e => exact .refl
  | ok labels => exact runFrom_changes_of_le hmn

@[simp] theorem canvas_run_zero (p : Program) (c : Canvas) : (p.run 0 c).canvas = c := by
  unfold run
  cases p.labels with
  | error e => rfl
  | ok labels => exact canvas_runFrom_zero

/-- The canvas at any point of a run comes of the one at its beginning. -/
theorem changes_run (p : Program) (c : Canvas) (n : Nat) : p.Changes c (p.run n c).canvas := by
  have hchanges := p.run_changes c (Nat.zero_le n)
  rwa [canvas_run_zero] at hchanges

/-- The state that `k` steps lead to is the one that the limit `k` leaves. -/
theorem Reaches.canvas_runFrom {k : Nat} (h : p.Reaches labels k s t) :
    (p.runFrom labels limit taken k s).canvas = t.canvas := by
  rw [← Nat.add_zero k, h.runFrom, canvas_runFrom_zero]

theorem Reaches.canvas_run {k : Nat} (hlabels : p.labels = .ok labels)
    (h : p.Reaches labels k ⟨0, .empty, c⟩ s) : (p.run k c).canvas = s.canvas := by
  unfold run
  rw [hlabels]
  exact h.canvas_runFrom

/-- A program that is carried out, with a limit or without, ends as with some limit. -/
theorem exists_run_of_execute {limit? : Option Nat} {o : Outcome}
    (h : p.execute limit? c = some o) : ∃ n, p.run n c = o := by
  cases limit? with
  | some limit => exact ⟨limit, Option.some.inj h⟩
  | none =>
    change p.runOn c = some o at h
    unfold runOn at h
    cases hlabels : p.labels with
    | error e =>
      rw [hlabels] at h
      exact ⟨0, by rw [run, hlabels]; exact Option.some.inj h⟩
    | ok labels =>
      rw [hlabels] at h
      obtain ⟨n, hends⟩ := runOnFrom_eq_some.1 h
      exact ⟨n, by rw [run, hlabels]; exact hends.runFrom (Nat.le_refl n)⟩

end Program

end Easel
