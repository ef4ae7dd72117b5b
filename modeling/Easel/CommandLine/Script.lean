import Easel.Text.Outline

/-!
# Scripts

A script is what a command does to the world outside, step by step: it prints, reads and writes
files, and ends with an exit code. What it does next can depend on what it read.
-/

namespace Easel.CommandLine

/-! ### Files -/

/-- Why a file cannot be read or written. -/
inductive FileError where
  /-- There is no such file, or no directory for it. -/
  | notFound
  /-- The path goes through a file. -/
  | notADirectory
  /-- The path is that of a directory. -/
  | isADirectory
  /-- The file may not be used that way. -/
  | permissionDenied
  /-- The path, or a name in it, is too long. -/
  | nameTooLong
  /-- The file is no text. -/
  | notText
  /-- Something else, in words. -/
  | other (message : String)

/-- How the error is built. -/
def FileError.outline : FileError → Outline
  | notFound => system 2 "NotFound" "No such file or directory"
  | notADirectory => system 20 "NotADirectory" "Not a directory"
  | isADirectory => system 21 "IsADirectory" "Is a directory"
  | permissionDenied => system 13 "PermissionDenied" "Permission denied"
  | nameTooLong => system 36 "InvalidFilename" "File name too long"
  | notText =>
    .record "Error" [("kind", .leaf "InvalidData"),
      ("message", .quoted "stream did not contain valid UTF-8")]
  | other message => .record "Custom" [("kind", .leaf "Other"), ("error", .quoted message)]
where
  /-- An error with the system's number and text for it. -/
  system (code : Nat) (kind message : String) : Outline :=
    .record "Os" [("code", .nat code), ("kind", .leaf kind), ("message", .quoted message)]

/-! ### Scripts -/

/-- What is done, step by step. -/
inductive Script where
  /-- Ends. -/
  | exit (code : Nat)
  /-- Prints a text. -/
  | print (text : String) (next : Script)
  /-- Prints a text where errors are printed. -/
  | warn (text : String) (next : Script)
  /-- Reads a text file. -/
  | read (path : String) (next : Except FileError String → Script)
  /-- Writes a file. -/
  | write (path : String) (bytes : List UInt8) (next : Except FileError Unit → Script)

/-- Ends with an error that is shown by its outline. -/
def Script.fail (error : Outline) : Script := .warn s!"Error: {error.inline}\n" (.exit 1)

end Easel.CommandLine
