import Easel.Error
import Easel.Program.Log

/-!
# Program texts

What can be done with the text of a program: it can be read, and it can be carried out on a canvas
that is there already or on a new one.
-/

namespace Easel

/-- The program that a text is. -/
def Program.ofSource (source : String) : Except Error Program :=
  match Token.lex source with
  | .error e => .error (.lex e)
  | .ok ts =>
    match Program.ofTokens ts with
    | .error e => .error (.parse e)
    | .ok p => .ok p

/-- What a new canvas is like. -/
structure Settings where
  /-- The size of the canvas. -/
  size : Nat := 10
  /-- The colour of its brush. -/
  color : Color := .white

/-- The new canvas that the settings ask for. -/
def Settings.canvas (s : Settings) : Except Fault Canvas := Canvas.new s.size s.color

namespace Program

/-- Carries out a program within a limit, if one is given. There is no outcome only if the program
runs forever. -/
def execute (p : Program) (limit? : Option Nat) (c : Canvas) : Option Outcome :=
  match limit? with
  | some limit => some (p.run limit c)
  | none => p.runOn c

end Program

/-- Carries out a program text on a canvas. The canvas keeps what was drawn before an error. -/
def drawOn (source : String) (limit? : Option Nat) (c : Canvas) :
    Option (Canvas × Except Error Nat) :=
  match Program.ofSource source with
  | .error e => some (c, .error e)
  | .ok p =>
    (p.execute limit? c).map fun o =>
      (o.canvas, match o.result with
        | .ok steps => .ok steps
        | .error e => .error (.run e))

/-- Carries out a program text on a new canvas, and returns the canvas and the number of steps. -/
def draw (source : String) (limit? : Option Nat) (settings : Settings) :
    Option (Except Error (Canvas × Nat)) :=
  match settings.canvas with
  | .error f => some (.error (.run ⟨0, f⟩))
  | .ok c =>
    (drawOn source limit? c).map fun
      | (c, .ok steps) => .ok (c, steps)
      | (_, .error e) => .error e

/-- The events when a program text is carried out on a new canvas. -/
def log (source : String) (limit : Nat) (settings : Settings) : List Event :=
  match settings.canvas with
  | .error _ => []
  | .ok c =>
    .canvasMade settings.size ::
      match Token.lex source with
      | .error _ => []
      | .ok ts =>
        .tokenized ts.length ::
          match Program.ofTokens ts with
          | .error _ => []
          | .ok p => .parsed p.length :: p.log limit c

end Easel
