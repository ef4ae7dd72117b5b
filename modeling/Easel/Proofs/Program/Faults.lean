import Easel.Proofs.Program.Exec

/-!
# Where faults come from

An expression has faults of its own (`Fault.inExpr`), and so has drawing (`Fault.inDraw`). A
statement has no others. In particular no statement reports the limit of a run or a label that is
set twice, and no expression reports a point beside the canvas. That the cursor is not placed is
reported only where it is not (`Stmt.Fails.cursor_eq_none`).
-/

namespace Easel

namespace Fault

/-- The faults that an expression can have. -/
def inExpr : Fault → Bool
  | undefinedVariable _ | divisionByZero | overflow | cursorNotPlaced | arity _ _ _
  | expectedString _ _ | unexpectedString _ | unknownFunction _ => true
  | _ => false

/-- The faults that drawing can have. -/
def inDraw : Fault → Bool
  | unknownColor _ | transparentBrush | outOfBounds _ | cursorNotPlaced | nonPositiveRadius _
  | nonPositiveDimensions _ _ | invalidDirection _ _ => true
  | _ => false

end Fault

/-! ### Expressions -/

/-- What is computed about a canvas fails, if at all, by a fault of expressions. That the cursor is
not placed is reported only if it is not. -/
def FailsAsExpr (c : Canvas) {α : Type} (r : Except Fault α) : Prop :=
  ∀ f, r = .error f → f.inExpr ∧ (f = .cursorNotPlaced → c.cursor = none)

section

variable {c : Canvas} {α β : Type}

theorem failsAsExpr_ok (a : α) : FailsAsExpr c (.ok a) := by
  intro f h
  cases h

theorem failsAsExpr_error {f : Fault} (h : f.inExpr) (hf : f ≠ .cursorNotPlaced) :
    FailsAsExpr c (.error f : Except Fault α) := by
  intro f' hf'
  cases hf'
  exact ⟨h, fun he => absurd he hf⟩

theorem FailsAsExpr.bind {r : Except Fault α} {k : α → Except Fault β} (hr : FailsAsExpr c r)
    (hk : ∀ a, FailsAsExpr c (k a)) : FailsAsExpr c (r >>= k) := by
  cases r with
  | ok a => exact hk a
  | error f =>
    intro f' hf'
    cases hf'
    exact hr f rfl

end

theorem checked_eq_error {n : Int} {f : Fault} (h : checked n = .error f) : f = .overflow := by
  unfold checked at h
  split at h
  · cases h
  · cases h
    rfl

/-- An operator fails because it divides by zero or because its result does not fit. -/
theorem Operator.apply_eq_error {op : Operator} {a b : Int32} {f : Fault}
    (h : op.apply a b = .error f) : f = .divisionByZero ∨ f = .overflow := by
  cases op with
  | add | sub | mul => exact .inr (checked_eq_error h)
  | div =>
    simp only [apply] at h
    split at h
    · cases h
      exact .inl rfl
    · exact .inr (checked_eq_error h)
  | mod =>
    simp only [apply] at h
    split at h
    · cases h
      exact .inl rfl
    · cases hdiv : checked (a.toInt.tdiv b.toInt) with
      | ok v =>
        rw [hdiv] at h
        exact .inr (checked_eq_error h)
      | error f' =>
        rw [hdiv] at h
        cases h
        exact .inr (checked_eq_error hdiv)
  | eq | ne | gt | lt | ge | le => cases h

theorem Operator.failsAsExpr_apply (c : Canvas) (op : Operator) (a b : Int32) :
    FailsAsExpr c (op.apply a b) := by
  intro f h
  rcases apply_eq_error h with rfl | rfl
  · exact ⟨rfl, by simp⟩
  · exact ⟨rfl, by simp⟩

/-- What is asked about the cursor fails if there is none, and for no other reason. -/
theorem Canvas.cursor_eq_none_of_error (c : Canvas) :
    (∀ f, c.cursorX = .error f → f = .cursorNotPlaced ∧ c.cursor = none) ∧
    (∀ f, c.cursorY = .error f → f = .cursorNotPlaced ∧ c.cursor = none) ∧
    ∀ name down right f, c.isCellColor name down right = .error f →
      f = .cursorNotPlaced ∧ c.cursor = none := by
  unfold cursorX cursorY isCellColor
  cases hc : c.cursor with
  | none =>
    refine ⟨fun f h => ?_, fun f h => ?_, fun _ _ _ f h => ?_⟩
    all_goals
      cases h
      exact ⟨rfl, rfl⟩
  | some p =>
    refine ⟨fun f h => ?_, fun f h => ?_, fun _ _ _ f h => ?_⟩
    all_goals cases h

/-- A function fails because there is no cursor, or because of the number of its arguments. -/
theorem Query.ask_eq_error {q : Query} {c : Canvas} {color : String} {args : List Int32}
    {f : Fault} (h : q.ask c color args = .error f) :
    f = .cursorNotPlaced ∧ c.cursor = none ∨ ∃ n, f = .arity q.name q.arity n := by
  obtain ⟨hx, hy, hcell⟩ := c.cursor_eq_none_of_error
  cases q with
  | canvasSize | isBrushColor =>
    cases args with
    | nil => cases h
    | cons =>
      cases h
      exact .inr ⟨_, rfl⟩
  | cursorX =>
    cases args with
    | nil => exact .inl (hx f h)
    | cons =>
      cases h
      exact .inr ⟨_, rfl⟩
  | cursorY =>
    cases args with
    | nil => exact .inl (hy f h)
    | cons =>
      cases h
      exact .inr ⟨_, rfl⟩
  | isCellColor =>
    rcases args with _ | ⟨down, _ | ⟨right, _ | ⟨_, _⟩⟩⟩
    case cons.cons.nil =>
      change (c.isCellColor color down.toInt right.toInt >>= fun b => .ok (truth b)) = _ at h
      cases hb : c.isCellColor color down.toInt right.toInt with
      | ok b =>
        rw [hb] at h
        cases h
      | error f' =>
        rw [hb] at h
        cases h
        exact .inl (hcell _ _ _ _ hb)
    all_goals
      cases h
      exact .inr ⟨_, rfl⟩
  | colorCount =>
    rcases args with _ | ⟨x, _ | ⟨y, _ | ⟨x', _ | ⟨y', _ | ⟨_, _⟩⟩⟩⟩⟩
    case cons.cons.cons.cons.nil => cases h
    all_goals
      cases h
      exact .inr ⟨_, rfl⟩

theorem Query.failsAsExpr_ask (q : Query) (c : Canvas) (color : String) (args : List Int32) :
    FailsAsExpr c (q.ask c color args) := by
  intro f h
  rcases ask_eq_error h with ⟨rfl, hc⟩ | ⟨n, rfl⟩
  · exact ⟨rfl, fun _ => hc⟩
  · exact ⟨rfl, by simp⟩

namespace Expr

variable (env : Env) (c : Canvas)

mutual

/-- **Evaluation fails only by a fault of expressions.** -/
theorem failsAsExpr_eval (e : Expr) : FailsAsExpr c (e.eval env c) := by
  match e with
  | num n => exact failsAsExpr_ok _
  | bool b => exact failsAsExpr_ok _
  | text s => exact failsAsExpr_error rfl (by simp)
  | var name =>
    rw [eval]
    split
    · exact failsAsExpr_ok _
    · exact failsAsExpr_error rfl (by simp)
  | binary op left right =>
    rw [eval]
    exact (failsAsExpr_eval left).bind fun a => (failsAsExpr_eval right).bind fun b =>
      op.failsAsExpr_apply c a b
  | call name args =>
    rw [eval]
    split
    · exact failsAsExpr_error rfl (by simp)
    · next q _ =>
      split
      · exact failsAsExpr_error rfl (by simp)
      · split
        · exact q.failsAsExpr_ask c _ _
        · next rest _ => exact (failsAsExpr_evalAll rest).bind fun vs => q.failsAsExpr_ask c _ vs
        · exact failsAsExpr_error rfl (by simp)

theorem failsAsExpr_evalAll (es : List Expr) : FailsAsExpr c (evalAll env c es) := by
  match es with
  | [] => exact failsAsExpr_ok _
  | e :: es =>
    rw [evalAll]
    exact (failsAsExpr_eval e).bind fun v => (failsAsExpr_evalAll es).bind fun vs =>
      failsAsExpr_ok _

end

end Expr

/-! ### Drawing -/

namespace Canvas

theorem moveTo_eq_error {p : Point} {c c' : Canvas} {f : Fault} (h : moveTo p c = .error f c') :
    p ∉ c.grid ∧ f = .outOfBounds p ∧ c' = c := by
  unfold moveTo at h
  split at h
  · cases h
  · next hp =>
    cases h
    exact ⟨hp, rfl, rfl⟩

end Canvas

/-- **Drawing fails only by a fault of drawing.** That the cursor is not placed is reported only if
it is not. -/
theorem Stmt.Draws.inDraw {env : Env} {c c' : Canvas} {stmt : Stmt} {α : Type} {d : Draw α}
    {f : Fault} (hd : stmt.Draws env c d) (h : d c = .error f c') :
    f.inDraw ∧ (f = .cursorNotPlaced → c.cursor = none) := by
  -- the last thing that is done, wherever the brush was set down before
  have hmove : ∀ {p : Point} {c₁ : Canvas}, Canvas.moveTo p c₁ = .error f c' →
      f.inDraw ∧ (f = .cursorNotPlaced → c.cursor = none) := by
    intro p c₁ hp
    obtain ⟨-, rfl, -⟩ := Canvas.moveTo_eq_error hp
    exact ⟨rfl, by simp⟩
  cases hd with
  | spawn _ _ => exact hmove h
  | color =>
    unfold Canvas.takeColor at h
    split at h <;> cases h <;> exact ⟨rfl, by simp⟩
  | size _ => cases h
  | line _ _ _ =>
    unfold Canvas.line at h
    split at h
    · cases h
      exact ⟨rfl, by simp⟩
    · split at h
      · next hcursor =>
        cases h
        exact ⟨rfl, fun _ => hcursor⟩
      · exact hmove h
  | circle _ _ _ =>
    unfold Canvas.circle at h
    split at h
    · cases h
      exact ⟨rfl, by simp⟩
    · split at h
      · next hcursor =>
        cases h
        exact ⟨rfl, fun _ => hcursor⟩
      · simp only at h
        split at h
        · cases h
          exact ⟨rfl, by simp⟩
        · exact hmove h
  | rectangle _ _ _ _ _ =>
    unfold Canvas.rectangle at h
    split at h
    · cases h
      exact ⟨rfl, by simp⟩
    · split at h
      · next hcursor =>
        cases h
        exact ⟨rfl, fun _ => hcursor⟩
      · exact hmove h
  | fill =>
    unfold Canvas.fill at h
    split at h
    · next hcursor =>
      cases h
      exact ⟨rfl, fun _ => hcursor⟩
    · split at h
      · cases h
      · split at h <;> cases h

/-- A statement fails by a fault of expressions or of drawing. -/
theorem Stmt.Fails.inExpr_or_inDraw {s t : State} {stmt : Stmt} {f : Fault}
    (h : stmt.Fails s f t) : f.inExpr ∨ f.inDraw := by
  cases h with
  | argument _ he => exact .inl (Expr.failsAsExpr_eval _ _ _ f he).1
  | draw hd hc => exact .inr (hd.inDraw hc).1

/-- No statement reports the limit of a run. -/
theorem Stmt.Fails.ne_stepLimit {s t : State} {stmt : Stmt} {f : Fault} (h : stmt.Fails s f t)
    (limit : Nat) : f ≠ .stepLimit limit := by
  rintro rfl
  rcases h.inExpr_or_inDraw with h | h <;> cases h

/-- No statement reports a label that is set twice. -/
theorem Stmt.Fails.ne_duplicateLabel {s t : State} {stmt : Stmt} {f : Fault}
    (h : stmt.Fails s f t) (name : String) : f ≠ .duplicateLabel name := by
  rintro rfl
  rcases h.inExpr_or_inDraw with h | h <;> cases h

/-- Where a placed cursor is missed, there is none. -/
theorem Stmt.Fails.cursor_eq_none {s t : State} {stmt : Stmt}
    (h : stmt.Fails s .cursorNotPlaced t) : s.canvas.cursor = none := by
  cases h with
  | argument _ he => exact (Expr.failsAsExpr_eval _ _ _ _ he).2 rfl
  | draw hd hc => exact (hd.inDraw hc).2 rfl

end Easel
