import Easel.Program.Outline
import Easel.Program.Run

/-!
# Logs

What happens when a program is read and carried out, as a list of events, and the events in words.
-/

namespace Easel

/-! ### Levels -/

/-- How much detail a log entry belongs to, the least first. -/
inductive Level where
  | warn
  | info
  | debug
  | trace
  deriving DecidableEq

namespace Level

/-- The name of a level. -/
def name : Level → String
  | warn => "WARN"
  | info => "INFO"
  | debug => "DEBUG"
  | trace => "TRACE"

/-- The level that is asked for by asking a number of times for more detail. -/
def ofVerbosity : Nat → Level
  | 0 => warn
  | 1 => info
  | 2 => debug
  | _ => trace

end Level

/-! ### Events -/

/-- What is worth logging. -/
inductive Event where
  /-- A canvas of the given size was made. -/
  | canvasMade (size : Nat)
  /-- A text was divided into tokens. -/
  | tokenized (tokens : Nat)
  /-- Tokens were made a program. -/
  | parsed (statements : Nat)
  /-- The statement with the given number is next. -/
  | started (pc : Nat) (stmt : Stmt)
  /-- Something was noted about a step. -/
  | noted (notice : Notice)
  /-- The program came to its end. -/
  | finished (steps : Nat)

namespace Event

/-- The level of an event. -/
def level : Event → Level
  | canvasMade _ | tokenized _ | parsed _ | noted (.filled _ _) | finished _ => .debug
  | started _ _ | noted (.jumped _ _) | noted (.noLabel _) => .trace

/-- The event in words. -/
def text : Event → String
  | canvasMade size => s!"Running on {size}x{size} canvas"
  | tokenized tokens => s!"Tokenized {tokens} tokens"
  | parsed statements => s!"Parsed {statements} statements"
  | started pc stmt => s!"[{pc}] {stmt.outline.inline}"
  | noted (.jumped label target) => s!"GoTo[{label}] -> {target}"
  | noted (.noLabel label) => s!"GoTo[{label}]: no such label, falling through"
  | noted (.filled cells color) => s!"Fill painted {cells} pixels {color.name}"
  | finished steps => s!"Program finished after {steps} steps"

end Event

/-! ### The log of a run -/

namespace Program

/-- The events from a state on, after `taken` steps and for at most `left` more. They are put after
`log`. -/
def logFrom (p : Program) (labels : Labels) (log : Array Event) (taken : Nat) :
    (left : Nat) → State → Array Event
  | left, s =>
    match p[s.pc]? with
    | none => log.push (.finished taken)
    | some stmt =>
      match left with
      | 0 => log
      | left + 1 =>
        let log := log.push (.started s.pc stmt)
        match stmt.exec labels s with
        | .ok (some notice) s => logFrom p labels (log.push (.noted notice)) (taken + 1) left s
        | .ok none s => logFrom p labels log (taken + 1) left s
        | .error _ _ => log

/-- The events of a program carried out on a canvas in at most `limit` steps. -/
def log (p : Program) (limit : Nat) (c : Canvas) : List Event :=
  match p.labels with
  | .error _ => []
  | .ok labels => (p.logFrom labels #[] 0 limit ⟨0, .empty, c⟩).toList

end Program

end Easel
