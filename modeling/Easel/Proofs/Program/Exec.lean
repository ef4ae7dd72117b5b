import Easel.Program.Run

/-!
# What a statement can do

The rules of the statements, read off from how they are carried out. A statement evaluates its
arguments, which changes nothing. Then it draws (`Stmt.Draws`), or it gives a variable a value, or
it decides which statement is next; and these are all the steps that there are (`Stmt.Steps`). It
fails because an argument has no value or because it cannot draw (`Stmt.Fails`).
-/

namespace Easel

/-! ### Actions -/

namespace Exec

variable {α β : Type} {s t : State} {f : Fault} {a : α} {b : β}

theorem bind_eq (x : Exec α) (k : α → Exec β) (s : State) :
    (x >>= k) s = match x s with
      | .ok a t => k a t
      | .error f t => .error f t := by
  show EStateM.bind x k s = _
  unfold EStateM.bind
  cases x s <;> rfl

/-- To evaluate an argument changes nothing. -/
theorem value_bind (e : Expr) (k : Int32 → Exec β) (s : State) :
    (value e >>= k) s = match e.eval s.env s.canvas with
      | .ok v => k v s
      | .error f => .error f s := by
  rw [bind_eq]
  unfold value
  cases e.eval s.env s.canvas <;> rfl

/-- To draw changes the canvas and nothing else. -/
theorem draw_bind (d : Draw α) (k : α → Exec β) (s : State) :
    (draw d >>= k) s = match d s.canvas with
      | .ok a c => k a ⟨s.pc, s.env, c⟩
      | .error f c => .error f ⟨s.pc, s.env, c⟩ := by
  rw [bind_eq]
  unfold draw
  cases s with
  | mk pc env canvas => cases hd : d canvas <;> simp only [hd]

theorem value_bind_eq_ok {e : Expr} {k : Int32 → Exec β} :
    (value e >>= k) s = .ok b t ↔ ∃ v, e.eval s.env s.canvas = .ok v ∧ k v s = .ok b t := by
  rw [value_bind]
  cases e.eval s.env s.canvas <;> simp

theorem value_bind_eq_error {e : Expr} {k : Int32 → Exec β} :
    (value e >>= k) s = .error f t ↔
      e.eval s.env s.canvas = .error f ∧ t = s ∨
        ∃ v, e.eval s.env s.canvas = .ok v ∧ k v s = .error f t := by
  rw [value_bind]
  cases e.eval s.env s.canvas <;> simp [eq_comm]

theorem draw_bind_eq_ok {d : Draw α} {k : α → Exec β} :
    (draw d >>= k) s = .ok b t ↔
      ∃ a c, d s.canvas = .ok a c ∧ k a ⟨s.pc, s.env, c⟩ = .ok b t := by
  rw [draw_bind]
  cases d s.canvas with
  | ok a c => simp [and_assoc]
  | error f c => simp

theorem draw_bind_eq_error {d : Draw α} {k : α → Exec β} :
    (draw d >>= k) s = .error f t ↔
      (∃ c, d s.canvas = .error f c ∧ t = ⟨s.pc, s.env, c⟩) ∨
        ∃ a c, d s.canvas = .ok a c ∧ k a ⟨s.pc, s.env, c⟩ = .error f t := by
  rw [draw_bind]
  cases d s.canvas with
  | ok a c => simp [and_assoc]
  | error f c => simp [and_assoc, eq_comm]

end Exec

/-! ### Rules -/

namespace Stmt

variable {labels : Labels} {s t : State} {stmt : Stmt} {notice : Option Notice} {f : Fault}

/-- The expressions that a statement evaluates. -/
def args : Stmt → List Expr
  | spawn x y => [x, y]
  | size width => [width]
  | line dx dy distance => [dx, dy, distance]
  | circle dx dy radius => [dx, dy, radius]
  | rectangle dx dy distance width height => [dx, dy, distance, width, height]
  | assign _ value => [value]
  | goto _ condition => [condition]
  | color _ | fill | label _ => []

/-- The statement draws so, when its arguments have their values. -/
inductive Draws (env : Env) (c : Canvas) : Stmt → {α : Type} → Draw α → Prop where
  | spawn {x y : Expr} {a b : Int32} : x.eval env c = .ok a → y.eval env c = .ok b →
      Draws env c (.spawn x y) (Canvas.moveTo ⟨a.toInt, b.toInt⟩)
  | color {name : String} : Draws env c (.color name) (Canvas.takeColor name)
  | size {width : Expr} {w : Int32} : width.eval env c = .ok w →
      Draws env c (.size width) (modify (Canvas.takeWidth w.toInt) : Draw Unit)
  | line {dx dy distance : Expr} {a b n : Int32} : dx.eval env c = .ok a → dy.eval env c = .ok b →
      distance.eval env c = .ok n →
      Draws env c (.line dx dy distance) (Canvas.line a.toInt b.toInt n.toInt)
  | circle {dx dy radius : Expr} {a b r : Int32} : dx.eval env c = .ok a →
      dy.eval env c = .ok b → radius.eval env c = .ok r →
      Draws env c (.circle dx dy radius) (Canvas.circle a.toInt b.toInt r.toInt)
  | rectangle {dx dy distance width height : Expr} {a b n w h : Int32} : dx.eval env c = .ok a →
      dy.eval env c = .ok b → distance.eval env c = .ok n → width.eval env c = .ok w →
      height.eval env c = .ok h →
      Draws env c (.rectangle dx dy distance width height)
        (Canvas.rectangle a.toInt b.toInt n.toInt w.toInt h.toInt)
  | fill : Draws env c .fill Canvas.fill

/-- The steps of the statements. -/
inductive Steps (labels : Labels) (s : State) : Stmt → State → Prop where
  | draw {stmt : Stmt} {α : Type} {d : Draw α} {a : α} {c : Canvas} :
      Draws s.env s.canvas stmt d → d s.canvas = .ok a c →
      Steps labels s stmt ⟨s.pc + 1, s.env, c⟩
  | assign {target : String} {value : Expr} {v : Int32} : value.eval s.env s.canvas = .ok v →
      Steps labels s (.assign target value) ⟨s.pc + 1, s.env.set target v, s.canvas⟩
  | label {name : String} : Steps labels s (.label name) ⟨s.pc + 1, s.env, s.canvas⟩
  /-- Without a reason to jump or a label to jump to, the next statement follows. -/
  | stay {name : String} {condition : Expr} {v : Int32} :
      condition.eval s.env s.canvas = .ok v → v = 0 ∨ labels.lookup name = none →
      Steps labels s (.goto name condition) ⟨s.pc + 1, s.env, s.canvas⟩
  | jump {name : String} {condition : Expr} {v : Int32} {target : Nat} :
      condition.eval s.env s.canvas = .ok v → v ≠ 0 → labels.lookup name = some target →
      Steps labels s (.goto name condition) ⟨target, s.env, s.canvas⟩

/-- The failures of the statements. -/
inductive Fails (s : State) : Stmt → Fault → State → Prop where
  | argument {stmt : Stmt} {e : Expr} {f : Fault} : e ∈ stmt.args →
      e.eval s.env s.canvas = .error f → Fails s stmt f s
  | draw {stmt : Stmt} {α : Type} {d : Draw α} {f : Fault} {c : Canvas} :
      Draws s.env s.canvas stmt d → d s.canvas = .error f c →
      Fails s stmt f ⟨s.pc, s.env, c⟩

open Exec

/-- A statement that draws and goes on steps so. -/
theorem steps_of_draw {α : Type} {d : Draw α} (hd : stmt.Draws s.env s.canvas d)
    (h : (Exec.draw d >>= fun _ => Exec.advance) s = .ok notice t) : stmt.Steps labels s t := by
  obtain ⟨a, c, hc, h⟩ := draw_bind_eq_ok.1 h
  cases h
  exact .draw hd hc

/-- **What is carried out is a step.** -/
theorem steps_of_exec (h : stmt.exec labels s = .ok notice t) : stmt.Steps labels s t := by
  cases stmt with
  | spawn x y =>
    obtain ⟨a, ha, h⟩ := value_bind_eq_ok.1 h
    obtain ⟨b, hb, h⟩ := value_bind_eq_ok.1 h
    exact steps_of_draw (.spawn ha hb) h
  | color name => exact steps_of_draw .color h
  | size width =>
    obtain ⟨w, hw, h⟩ := value_bind_eq_ok.1 h
    exact steps_of_draw (.size hw) h
  | line dx dy distance =>
    obtain ⟨a, ha, h⟩ := value_bind_eq_ok.1 h
    obtain ⟨b, hb, h⟩ := value_bind_eq_ok.1 h
    obtain ⟨n, hn, h⟩ := value_bind_eq_ok.1 h
    exact steps_of_draw (.line ha hb hn) h
  | circle dx dy radius =>
    obtain ⟨a, ha, h⟩ := value_bind_eq_ok.1 h
    obtain ⟨b, hb, h⟩ := value_bind_eq_ok.1 h
    obtain ⟨r, hr, h⟩ := value_bind_eq_ok.1 h
    exact steps_of_draw (.circle ha hb hr) h
  | rectangle dx dy distance width height =>
    obtain ⟨a, ha, h⟩ := value_bind_eq_ok.1 h
    obtain ⟨b, hb, h⟩ := value_bind_eq_ok.1 h
    obtain ⟨n, hn, h⟩ := value_bind_eq_ok.1 h
    obtain ⟨w, hw, h⟩ := value_bind_eq_ok.1 h
    obtain ⟨h', hh, h⟩ := value_bind_eq_ok.1 h
    exact steps_of_draw (.rectangle ha hb hn hw hh) h
  | fill =>
    obtain ⟨cells?, c, hc, h⟩ := draw_bind_eq_ok.1 h
    cases cells? with
    | none =>
      cases h
      exact .draw .fill hc
    | some cells =>
      cases h
      exact .draw .fill hc
  | assign target value =>
    obtain ⟨v, hv, h⟩ := value_bind_eq_ok.1 h
    cases h
    exact .assign hv
  | label name =>
    cases h
    exact .label
  | goto name condition =>
    obtain ⟨v, hv, h⟩ := value_bind_eq_ok.1 h
    by_cases hzero : v = 0
    · rw [if_pos hzero] at h
      cases h
      exact .stay hv (.inl hzero)
    · rw [if_neg hzero] at h
      cases hlookup : labels.lookup name with
      | none =>
        rw [hlookup] at h
        cases h
        exact .stay hv (.inr hlookup)
      | some target =>
        rw [hlookup] at h
        cases h
        exact .jump hv hzero hlookup

/-- A statement that draws and goes on fails only by what it draws. -/
theorem fails_of_draw {α : Type} {d : Draw α} (hd : stmt.Draws s.env s.canvas d)
    (h : (Exec.draw d >>= fun _ => Exec.advance) s = .error f t) : stmt.Fails s f t := by
  rcases draw_bind_eq_error.1 h with ⟨c, hc, rfl⟩ | ⟨a, c, -, h⟩
  · exact .draw hd hc
  · cases h

/-- **What cannot be carried out fails by a rule.** -/
theorem fails_of_exec (h : stmt.exec labels s = .error f t) : stmt.Fails s f t := by
  -- an argument without a value is one of the arguments, and the state is as before
  have hvalue : ∀ {e : Expr} {k : Int32 → Exec (Option Notice)}, e ∈ stmt.args →
      (Exec.value e >>= k) s = .error f t →
      stmt.Fails s f t ∨ ∃ v, e.eval s.env s.canvas = .ok v ∧ k v s = .error f t := by
    intro e k he h
    rcases value_bind_eq_error.1 h with ⟨hf, rfl⟩ | h
    · exact .inl (.argument he hf)
    · exact .inr h
  cases stmt with
  | spawn x y =>
    obtain h | ⟨a, ha, h⟩ := hvalue (by simp [args]) h
    · exact h
    obtain h | ⟨b, hb, h⟩ := hvalue (by simp [args]) h
    · exact h
    exact fails_of_draw (.spawn ha hb) h
  | color name => exact fails_of_draw .color h
  | size width =>
    obtain h | ⟨w, hw, h⟩ := hvalue (by simp [args]) h
    · exact h
    exact fails_of_draw (.size hw) h
  | line dx dy distance =>
    obtain h | ⟨a, ha, h⟩ := hvalue (by simp [args]) h
    · exact h
    obtain h | ⟨b, hb, h⟩ := hvalue (by simp [args]) h
    · exact h
    obtain h | ⟨n, hn, h⟩ := hvalue (by simp [args]) h
    · exact h
    exact fails_of_draw (.line ha hb hn) h
  | circle dx dy radius =>
    obtain h | ⟨a, ha, h⟩ := hvalue (by simp [args]) h
    · exact h
    obtain h | ⟨b, hb, h⟩ := hvalue (by simp [args]) h
    · exact h
    obtain h | ⟨r, hr, h⟩ := hvalue (by simp [args]) h
    · exact h
    exact fails_of_draw (.circle ha hb hr) h
  | rectangle dx dy distance width height =>
    obtain h | ⟨a, ha, h⟩ := hvalue (by simp [args]) h
    · exact h
    obtain h | ⟨b, hb, h⟩ := hvalue (by simp [args]) h
    · exact h
    obtain h | ⟨n, hn, h⟩ := hvalue (by simp [args]) h
    · exact h
    obtain h | ⟨w, hw, h⟩ := hvalue (by simp [args]) h
    · exact h
    obtain h | ⟨h', hh, h⟩ := hvalue (by simp [args]) h
    · exact h
    exact fails_of_draw (.rectangle ha hb hn hw hh) h
  | fill =>
    rcases draw_bind_eq_error.1 h with ⟨c, hc, rfl⟩ | ⟨cells?, c, hc, h⟩
    · exact .draw .fill hc
    · cases cells? with
      | none => cases h
      | some cells => cases h
  | assign target value =>
    obtain h | ⟨v, -, h⟩ := hvalue (by simp [args]) h
    · exact h
    cases h
  | label name => cases h
  | goto name condition =>
    obtain h | ⟨v, -, h⟩ := hvalue (by simp [args]) h
    · exact h
    by_cases hzero : v = 0
    · rw [if_pos hzero] at h
      cases h
    · rw [if_neg hzero] at h
      cases hlookup : labels.lookup name with
      | none =>
        rw [hlookup] at h
        cases h
      | some target =>
        rw [hlookup] at h
        cases h

end Stmt

end Easel
