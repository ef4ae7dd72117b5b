import Easel.Canvas.Circle
import Easel.Canvas.Fill
import Easel.Canvas.Line
import Easel.Canvas.Rectangle
import Easel.Expr.Eval
import Easel.Program.Basic

/-!
# Carrying out programs

The statements of a program are carried out from the first on, each in one step, until none is left
or a fault stops them. A run can be limited to a number of steps.
-/

namespace Easel

/-! ### Labels -/

/-- The labels of a program, each with the number of the statement that sets it. -/
abbrev Labels := List (String × Nat)

/-- A fault, and the number of the statement that it stopped at. -/
structure RunError where
  /-- The statement, counted from zero. -/
  statement : Nat
  /-- The fault. -/
  fault : Fault
  deriving DecidableEq

/-- The labels of statements numbered from `i` on, together with the labels found before. No label
may be set twice. -/
def Labels.collect (found : Labels) (i : Nat) : List Stmt → Except RunError Labels
  | [] => .ok found
  | .label name :: ss =>
    match found.lookup name with
    | some _ => .error ⟨i, .duplicateLabel name⟩
    | none => collect ((name, i) :: found) (i + 1) ss
  | _ :: ss => collect found (i + 1) ss

/-- The labels of a program. -/
def Program.labels (p : Program) : Except RunError Labels := Labels.collect [] 0 p

/-! ### Steps -/

/-- What a program works on. -/
structure State where
  /-- The number of the next statement. -/
  pc : Nat
  /-- The variables. -/
  env : Env
  /-- The canvas. -/
  canvas : Canvas
  deriving DecidableEq

/-- What is worth noting about a step besides the statement itself. -/
inductive Notice where
  /-- A jump went to the statement with the given number. -/
  | jumped (label : String) (target : Nat)
  /-- A jump found no such label, and the program went on. -/
  | noLabel (label : String)
  /-- A number of cells were recoloured. -/
  | filled (cells : Nat) (color : Color)
  deriving DecidableEq

/-- An action on the state, which a fault can cut short. -/
abbrev Exec (α : Type) := EStateM Fault State α

namespace Exec

/-- The value of an expression. -/
def value (e : Expr) : Exec Int32 := fun s =>
  match e.eval s.env s.canvas with
  | .ok v => .ok v s
  | .error f => .error f s

/-- An action on the canvas. -/
def draw {α : Type} (d : Draw α) : Exec α := fun ⟨pc, env, canvas⟩ =>
  match d canvas with
  | .ok a canvas => .ok a ⟨pc, env, canvas⟩
  | .error f canvas => .error f ⟨pc, env, canvas⟩

/-- Goes on with the next statement. -/
def advance : Exec (Option Notice) := fun s => .ok none { s with pc := s.pc + 1 }

/-- Goes on with the next statement, with something to note. -/
def advanceNoting (n : Notice) : Exec (Option Notice) := fun s =>
  .ok (some n) { s with pc := s.pc + 1 }

end Exec

/-- Carries out one statement. -/
def Stmt.exec (labels : Labels) : Stmt → Exec (Option Notice)
  | spawn x y => do
    let x ← Exec.value x
    let y ← Exec.value y
    Exec.draw (Canvas.moveTo ⟨x.toInt, y.toInt⟩)
    Exec.advance
  | color name => do
    Exec.draw (Canvas.takeColor name)
    Exec.advance
  | size width => do
    let width ← Exec.value width
    Exec.draw (modify (Canvas.takeWidth width.toInt))
    Exec.advance
  | line dx dy distance => do
    let dx ← Exec.value dx
    let dy ← Exec.value dy
    let distance ← Exec.value distance
    Exec.draw (Canvas.line dx.toInt dy.toInt distance.toInt)
    Exec.advance
  | circle dx dy radius => do
    let dx ← Exec.value dx
    let dy ← Exec.value dy
    let radius ← Exec.value radius
    Exec.draw (Canvas.circle dx.toInt dy.toInt radius.toInt)
    Exec.advance
  | rectangle dx dy distance width height => do
    let dx ← Exec.value dx
    let dy ← Exec.value dy
    let distance ← Exec.value distance
    let width ← Exec.value width
    let height ← Exec.value height
    Exec.draw <| Canvas.rectangle dx.toInt dy.toInt distance.toInt width.toInt height.toInt
    Exec.advance
  | fill => do
    match ← Exec.draw Canvas.fill with
    | none => Exec.advance
    | some cells => Exec.advanceNoting (.filled cells (← get).canvas.brush.color)
  | assign target value => do
    let v ← Exec.value value
    modify fun s => { s with env := s.env.set target v }
    Exec.advance
  | label _ => Exec.advance
  | goto name condition => do
    if (← Exec.value condition) = 0 then Exec.advance
    else match labels.lookup name with
      | none => Exec.advanceNoting (.noLabel name)
      | some target => do
        modify fun s => { s with pc := target }
        return some (.jumped name target)

/-! ### Runs -/

/-- How a run ended. -/
structure Outcome where
  /-- The variables at the end. -/
  env : Env
  /-- The canvas at the end. -/
  canvas : Canvas
  /-- The number of steps begun. -/
  steps : Nat
  /-- The number of steps taken, or the fault that stopped the run. -/
  result : Except RunError Nat

namespace Program

/-- Goes on from a state after `taken` steps, for at most `left` more steps of `limit` in all. -/
def runFrom (p : Program) (labels : Labels) (limit : Nat) (taken : Nat) :
    (left : Nat) → State → Outcome
  | left, s =>
    match p[s.pc]? with
    | none => ⟨s.env, s.canvas, taken, .ok taken⟩
    | some stmt =>
      match left with
      | 0 => ⟨s.env, s.canvas, taken, .error ⟨s.pc, .stepLimit limit⟩⟩
      | left + 1 =>
        let pc := s.pc
        match stmt.exec labels s with
        | .ok _ s => runFrom p labels limit (taken + 1) left s
        | .error f s => ⟨s.env, s.canvas, taken + 1, .error ⟨pc, f⟩⟩

/-- Carries out a program on a canvas, in at most `limit` steps. -/
def run (p : Program) (limit : Nat) (c : Canvas) : Outcome :=
  match p.labels with
  | .error e => ⟨.empty, c, 0, .error e⟩
  | .ok labels => p.runFrom labels limit 0 limit ⟨0, .empty, c⟩

/-- Goes on from a state after `taken` steps, for as long as it takes. There is no outcome if that
is forever. -/
def runOnFrom (p : Program) (labels : Labels) (taken : Nat) (s : State) : Option Outcome :=
  match p[s.pc]? with
  | none => some ⟨s.env, s.canvas, taken, .ok taken⟩
  | some stmt =>
    let pc := s.pc
    match stmt.exec labels s with
    | .ok _ s => p |>.runOnFrom labels (taken + 1) s
    | .error f s => some ⟨s.env, s.canvas, taken + 1, .error ⟨pc, f⟩⟩
partial_fixpoint

/-- Carries out a program on a canvas without a limit. There is no outcome if it runs forever. -/
def runOn (p : Program) (c : Canvas) : Option Outcome :=
  match p.labels with
  | .error e => some ⟨.empty, c, 0, .error e⟩
  | .ok labels => p.runOnFrom labels 0 ⟨0, .empty, c⟩

end Program

end Easel
