import Easel.CommandLine.Script

/-!
# Directories in memory

A script can be carried out in a directory that is held in memory. It then gives a transcript: the
exit code, what was printed, and the directory afterwards.
-/

namespace Easel.CommandLine

/-- The files of a directory, by their paths from there. -/
structure Directory where
  /-- The path and the content of each file. -/
  files : List (List String × List UInt8)

namespace Directory

/-- The steps of a path. -/
def steps (path : String) : List String := (path.splitOn "/").filter (· ≠ "")

/-- A place, as seen from the directory. -/
inductive Spot where
  /-- The place with the given steps from the directory. -/
  | inside (steps : List String)
  /-- A place outside, of which nothing is known. -/
  | outside

/-- The place one step up. Above the directory lie the places outside. -/
def Spot.parent : Spot → Spot
  | inside [] | outside => outside
  | inside steps => inside steps.dropLast

/-- What a path leads to. -/
inductive Place where
  /-- A file with the given content. -/
  | file (spot : Spot) (bytes : List UInt8)
  /-- A directory. -/
  | directory
  /-- Nothing, in a directory that is there. -/
  | vacant (spot : Spot)
  /-- No place, for the given reason. -/
  | unreachable (why : FileError)

/-- There is a directory with the given steps. -/
def hasDirectory (d : Directory) (path : List String) : Bool :=
  path.isEmpty || d.files.any fun (p, _) => path.isPrefixOf p && path.length < p.length

/-- The longest name of a file, in bytes. -/
def maxName : Nat := 255

/-- The longest path, in bytes. -/
def maxPath : Nat := 4095

/-- Where steps lead from the directory `here`. Outside, there are only the directories above. -/
def walk (d : Directory) (here : Spot) : List String → Place
  | [] => .directory
  | "." :: rest => d.walk here rest
  | ".." :: rest => d.walk here.parent rest
  | name :: rest =>
    if maxName < name.utf8ByteSize then .unreachable .nameTooLong
    else match here with
      | .outside => if rest = [] then .vacant .outside else .unreachable .notFound
      | .inside steps =>
        let there := steps ++ [name]
        if d.hasDirectory there then d.walk (.inside there) rest
        else match d.files.lookup there, rest with
          | some bytes, [] => .file (.inside there) bytes
          | some _, _ :: _ => .unreachable .notADirectory
          | none, [] => .vacant (.inside there)
          | none, _ :: _ => .unreachable .notFound

/-- Where steps lead that are some of a path, from the root if the path starts there. -/
def follow (d : Directory) (path : String) (steps : List String) : Place :=
  if path = "" then .unreachable .notFound
  else if maxPath < path.utf8ByteSize then .unreachable .nameTooLong
  else d.walk (if path.startsWith "/" then .outside else .inside []) steps

/-- Reads a text file. A path that ends in a slash is that of a directory. -/
def read (d : Directory) (path : String) : Except FileError String :=
  match d.follow path (steps path) with
  | .file _ bytes =>
    if path.endsWith "/" then .error .notADirectory
    else match String.fromUTF8? ⟨bytes.toArray⟩ with
      | some s => .ok s
      | none => .error .notText
  | .directory => .error .isADirectory
  | .vacant _ => .error .notFound
  | .unreachable why => .error why

/-- The directory with a file written in it. A file outside is none of its files. -/
def set (d : Directory) (spot : Spot) (bytes : List UInt8) : Directory :=
  match spot with
  | .inside steps => ⟨d.files.filter (·.1 ≠ steps) ++ [(steps, bytes)]⟩
  | .outside => d

/-- Writes a file, in place of the one that is there. A path that ends in a slash is that of a
directory, whatever its last step is. -/
def write (d : Directory) (path : String) (bytes : List UInt8) : Except FileError Directory :=
  if path.endsWith "/" then
    match d.follow path (steps path).dropLast with
    | .directory => .error .isADirectory
    | .file .. => .error .notADirectory
    | .vacant _ => .error .notFound
    | .unreachable why => .error why
  else
    match d.follow path (steps path) with
    | .file spot _ | .vacant spot => .ok (d.set spot bytes)
    | .directory => .error .isADirectory
    | .unreachable why => .error why

end Directory

/-- What is left when a script has ended. -/
structure Transcript where
  /-- The exit code. -/
  code : Nat
  /-- What was printed. -/
  output : String
  /-- What was printed where errors are printed. -/
  errors : String
  /-- The directory. -/
  directory : Directory

/-- Carries out a script in a directory, after the given texts were printed. -/
def Script.carryOut (output errors : String) (d : Directory) : Script → Transcript
  | exit code => ⟨code, output, errors, d⟩
  | print text next => next.carryOut (output ++ text) errors d
  | warn text next => next.carryOut output (errors ++ text) d
  | read path next => (next (d.read path)).carryOut output errors d
  | write path bytes next =>
    match d.write path bytes with
    | .ok d => (next (.ok ())).carryOut output errors d
    | .error e => (next (.error e)).carryOut output errors d

end Easel.CommandLine
