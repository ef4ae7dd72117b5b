import Easel.CommandLine.Arguments

/-!
# Commands

The commands of the command line with their options.
-/

namespace Easel.CommandLine

/-- Asks for more detail in the log. It can be given to every command, and before it. -/
def verboseOpt : Opt := ⟨"verbose", some 'v', false, true⟩

/-- The size of the canvas. -/
def sizeOpt : Opt := ⟨"size", some 's', true, false⟩

/-- The number of steps that a program may take. -/
def maxStepsOpt : Opt := ⟨"max-steps", none, true, false⟩

/-- The format of the picture. -/
def formatOpt : Opt := ⟨"format", some 'f', true, false⟩

/-- The file for the picture. -/
def outputOpt : Opt := ⟨"output", some 'o', true, false⟩

/-- The width of a cell in a picture file. -/
def scaleOpt : Opt := ⟨"scale", none, true, false⟩

/-- Letters in place of colours. -/
def asciiOpt : Opt := ⟨"ascii", none, false, false⟩

/-- The outline of the program. -/
def showAstOpt : Opt := ⟨"show-ast", none, false, false⟩

/-- How a program is to be carried out and shown. -/
structure RunOptions where
  /-- The file with the program. -/
  input : String
  /-- The size of the canvas. -/
  size : Nat
  /-- The number of steps that the program may take. -/
  maxSteps : Nat
  /-- The name of the format of the picture. -/
  format : String
  /-- The file for the picture, if it is not to be named after the program. -/
  output? : Option String
  /-- The width of a cell in a picture file. -/
  scale : Nat
  /-- Letters in place of colours. -/
  ascii : Bool
  /-- The outline of the program is shown first. -/
  showAst : Bool

/-- What is to be done. -/
inductive Command where
  /-- Carries out the program in a file and shows the canvas. -/
  | run (options : RunOptions)
  /-- Lists the tokens and the statements of the program in a file. -/
  | parse (input : String)
  /-- Lists the colours. -/
  | colors
  /-- Lists the formats of pictures. -/
  | formats

namespace Command

/-- The command to carry out a program, from its arguments. -/
def ofRunArguments? (a : Arguments) : Option Command :=
  match a.positionals with
  | [input] => do
    let size ← a.number sizeOpt 10
    let maxSteps ← a.number maxStepsOpt 1000000
    let scale ← a.number scaleOpt 16
    return .run {
      input, size, maxSteps, scale
      format := (a.value? formatOpt).getD "terminal"
      output? := a.value? outputOpt
      ascii := 0 < a.count asciiOpt
      showAst := 0 < a.count showAstOpt }
  | _ => none

/-- The named command, from its arguments. -/
def ofArguments? (name : String) (args : List String) : Option Command :=
  match name with
  | "run" =>
    (readArguments [verboseOpt, sizeOpt, maxStepsOpt, formatOpt, outputOpt, scaleOpt, asciiOpt,
      showAstOpt] .empty args).bind ofRunArguments?
  | "parse" =>
    (readArguments [verboseOpt] .empty args).bind fun a =>
      match a.positionals with
      | [input] => some (.parse input)
      | _ => none
  | "colors" =>
    (readArguments [verboseOpt] .empty args).bind fun a =>
      if a.positionals.isEmpty then some .colors else none
  | "formats" =>
    (readArguments [verboseOpt] .empty args).bind fun a =>
      if a.positionals.isEmpty then some .formats else none
  | _ => none

/-- The command that a command line asks for. Before the name of the command only the options for
all commands may stand. -/
def ofCommandLine? : List String → Option Command
  | [] => none
  | arg :: args =>
    if looksLikeOption arg.toList then
      match readOptions [verboseOpt] .empty arg.toList with
      | some (_, none) => ofCommandLine? args
      | _ => none
    else ofArguments? arg args

end Command

end Easel.CommandLine
