import Easel.CommandLine.Command
import Easel.CommandLine.Script
import Easel.Picture.Ppm
import Easel.Picture.Terminal
import Easel.Source
import Easel.Text.Trim

/-!
# Carrying out a program file

The program in a file is carried out on a new canvas, and the canvas is shown in one of the formats
for pictures.
-/

namespace Easel.CommandLine

/-! ### Formats of pictures -/

/-- The formats in which a canvas can be shown. -/
inductive Format where
  | terminal
  | ppm
  deriving DecidableEq

namespace Format

/-- All formats. -/
def all : List Format := [terminal, ppm]

/-- The name of a format. -/
def name : Format → String
  | terminal => "terminal"
  | ppm => "ppm"

/-- What a format is. -/
def description : Format → String
  | terminal => "Colored blocks in the terminal"
  | ppm => "Binary PPM (P6) image file"

/-- The format with the given name. -/
def ofName? (s : String) : Option Format := all.find? (·.name = s)

end Format

/-! ### Carrying out a program -/

/-- The end of a run in words: the number of steps and the cursor, or else the error. -/
def summary (result : Except Error Nat) (c : Canvas) : Except String String :=
  match result with
  | .error e => .error s!"Error: {e.message}"
  | .ok steps =>
    .ok <| match c.cursor with
      | none => s!"Steps: {steps}"
      | some p => s!"Steps: {steps}\nCursor: ({p.x}, {p.y})"

/-- Prints the summary, and ends as the run did. -/
def summaryScript (result : Except Error Nat) (c : Canvas) : Script :=
  match summary result c with
  | .ok report => .print (report ++ "\n") (.exit 0)
  | .error message => .warn (message ++ "\n") (.exit 1)

/-- The file for a picture: the one that is asked for, or one named after the program. -/
def RunOptions.outputPath (o : RunOptions) : String :=
  o.output?.getD (Text.trimEndWord ".pw" o.input ++ ".ppm")

/-- Shows a canvas in the wanted format, and goes on. -/
def showScript (o : RunOptions) (format : Format) (c : Canvas) (next : Script) : Script :=
  match format with
  | .terminal =>
    .print (Picture.terminal (if o.ascii then .letters else .blocks .standard) c) next
  | .ppm =>
    .write o.outputPath (Picture.ppm .standard o.scale c.grid) fun
      | .error e => .fail e.outline
      | .ok _ => .print s!"Image written to: {o.outputPath}\n" next

/-- Carries out a program on a new canvas and shows it, also after an error. -/
def programScript (o : RunOptions) (format : Format) (p : Program) : Script :=
  match ({ size := o.size } : Settings).canvas with
  | .error f => .fail f.outline
  | .ok c =>
    let outcome := p.run o.maxSteps c
    let result := match outcome.result with
      | .ok steps => .ok steps
      | .error e => .error (.run e)
    showScript o format outcome.canvas (summaryScript result outcome.canvas)

/-- The script of the command that carries out a program. -/
def runScript (o : RunOptions) : Script :=
  match Format.ofName? o.format with
  | none => .warn s!"Unknown format: {o.format}\n" (.exit 0)
  | some format =>
    .read o.input fun
      | .error e => .fail e.outline
      | .ok source =>
        match Program.ofSource source with
        | .error e => .warn s!"Error: {e.message}\n" (.exit 1)
        | .ok p =>
          if o.showAst then
            .print s!"=== AST ===\n{p.outline.block}\n" (programScript o format p)
          else programScript o format p

end Easel.CommandLine
