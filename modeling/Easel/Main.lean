import Easel.CommandLine

/-!
# The program

Carries out the script of the command that the command line asks for.
-/

namespace Easel

/-- The file error that the system reported. Its number may come with either sign. -/
def fileError : IO.Error → CommandLine.FileError
  | .noFileOrDirectory .. => .notFound
  | .inappropriateType _ code _ => if code = 20 ∨ -code = 20 then .notADirectory else .isADirectory
  | .permissionDenied .. => .permissionDenied
  | e@(.invalidArgument _ code _) =>
    if code = 36 ∨ -code = 36 then .nameTooLong else .other (toString e)
  | e => .other (toString e)

/-- Reads a file as text. -/
def readText (path : String) : IO (Except CommandLine.FileError String) := do
  try
    let bytes ← IO.FS.readBinFile path
    match String.fromUTF8? bytes with
    | some s => return .ok s
    | none => return .error .notText
  catch e => return .error (fileError e)

/-- Writes bytes to a file. -/
def writeBytes (path : String) (bytes : List UInt8) : IO (Except CommandLine.FileError Unit) := do
  try
    IO.FS.writeBinFile path ⟨bytes.toArray⟩
    return .ok ()
  catch e => return .error (fileError e)

/-- Carries out a script in the world outside, and returns its exit code. -/
def perform : CommandLine.Script → IO UInt32
  | .exit code => return UInt32.ofNat code
  | .print text next => do
    IO.print text
    perform next
  | .warn text next => do
    IO.eprint text
    perform next
  | .read path next => do perform (next (← readText path))
  | .write path bytes next => do perform (next (← writeBytes path bytes))

end Easel

/-- Carries out the command, or refuses the arguments with exit code two. -/
def main (args : List String) : IO UInt32 := do
  match Easel.CommandLine.Command.ofCommandLine? args with
  | some command => Easel.perform command.script
  | none => do
    IO.eprintln "usage: easel [-v] run FILE | parse FILE | colors | formats"
    return 2
