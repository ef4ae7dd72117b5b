import Easel.Program.Run

/-!
# Interpreters

An interpreter carries out one program after another on the same canvas. What the last program left
in its variables, its labels and its count of steps is cleared before the next one begins.
-/

namespace Easel

/-- What carries out programs. -/
structure Interpreter where
  /-- The canvas that all its programs draw on. -/
  canvas : Canvas
  /-- The variables of the last program. -/
  env : Env := .empty
  /-- The labels of the last program. -/
  labels : Labels := []
  /-- The number of steps that each program may take. -/
  limit? : Option Nat := none
  /-- The number of steps that the last program has begun. -/
  steps : Nat := 0

namespace Interpreter

/-- The interpreter with another limit, or with none. -/
def withLimit? (i : Interpreter) (limit? : Option Nat) : Interpreter := { i with limit? }

/-- Forgets the last program, but not what it has drawn. -/
def clear (i : Interpreter) : Interpreter := { i with env := .empty, labels := [], steps := 0 }

/-- Goes on from a state for as long as the limit allows. -/
def goOn (i : Interpreter) (p : Program) (labels : Labels) (s : State) : Option Outcome :=
  match i.limit? with
  | some limit => some (p.runFrom labels limit i.steps (limit - i.steps) s)
  | none => p.runOnFrom labels i.steps s

/-- The interpreter after a program with the given labels has ended so, and the program's result. -/
def after (i : Interpreter) (labels : Labels) (o : Outcome) : Interpreter × Except RunError Nat :=
  ({ i with env := o.env, canvas := o.canvas, labels, steps := o.steps }, o.result)

/-- Carries out a program, and returns what the interpreter is like after it. There is no outcome if
the program runs forever. -/
def execute (i : Interpreter) (p : Program) : Option (Interpreter × Except RunError Nat) :=
  let i := i.clear
  match Labels.collect i.labels 0 p with
  | .error e => some (i, .error e)
  | .ok labels => (i.goOn p labels ⟨0, i.env, i.canvas⟩).map (i.after labels)

end Interpreter

end Easel
