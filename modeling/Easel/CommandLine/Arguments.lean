import Easel.Text.Number

/-!
# Arguments

The arguments of the command line. Options begin with a hyphen: long ones with two, short ones with
one, and short ones may share it. The value of an option follows it, after an equals sign, directly
if the option is short, or as the next argument. After the argument `--` nothing is an option.
-/

namespace Easel.CommandLine

/-! ### Options -/

/-- An option. -/
structure Opt where
  /-- The name after two hyphens. -/
  long : String
  /-- The letter after one hyphen. -/
  short? : Option Char
  /-- A value belongs to the option. -/
  takesValue : Bool
  /-- The option may be given more than once. -/
  repeatable : Bool
  deriving DecidableEq

/-- What the arguments of a command are made up of. -/
structure Arguments where
  /-- The options that were given, with their values. -/
  options : List (Opt × String)
  /-- The arguments that are no options. -/
  positionals : List String

namespace Arguments

/-- No arguments. -/
def empty : Arguments := ⟨[], []⟩

/-- One more option, unless it may not be given again. -/
def addOption (a : Arguments) (o : Opt) (value : String) : Option Arguments :=
  if ¬o.repeatable ∧ a.options.any (·.1 = o) then none
  else some { a with options := a.options ++ [(o, value)] }

/-- One more argument that is no option. -/
def addPositional (a : Arguments) (s : String) : Arguments :=
  { a with positionals := a.positionals ++ [s] }

/-- How often an option was given. -/
def count (a : Arguments) (o : Opt) : Nat := a.options.countP (·.1 = o)

/-- The value of an option. -/
def value? (a : Arguments) (o : Opt) : Option String := a.options.lookup o

/-- The number that is the value of an option, or the number that stands in for it. -/
def number (a : Arguments) (o : Opt) (standIn : Nat) : Option Nat :=
  match a.value? o with
  | none => some standIn
  | some s => Text.readSize? s

end Arguments

/-! ### Reading arguments -/

/-- An argument that can be read as options. A lone hyphen cannot. -/
def looksLikeOption : List Char → Bool
  | '-' :: _ :: _ => true
  | _ => false

/-- The options in the letters after one hyphen, and the option whose value must still follow. -/
def readShort (opts : List Opt) (a : Arguments) : List Char → Option (Arguments × Option Opt)
  | [] => some (a, none)
  | c :: cs =>
    match opts.find? (·.short? = some c) with
    | none => none
    | some o =>
      if ¬o.takesValue then do
        let a ← a.addOption o ""
        readShort opts a cs
      else match cs with
        | [] => some (a, some o)
        | '=' :: value => (a.addOption o (String.ofList value)).map (·, none)
        | value => (a.addOption o (String.ofList value)).map (·, none)

/-- The option after two hyphens, and the option whose value must still follow. -/
def readLong (opts : List Opt) (a : Arguments) (cs : List Char) :
    Option (Arguments × Option Opt) :=
  let name := String.ofList (cs.takeWhile (· ≠ '='))
  match opts.find? (·.long = name), cs.dropWhile (· ≠ '=') with
  | none, _ => none
  | some o, _ :: value =>
    if o.takesValue then (a.addOption o (String.ofList value)).map (·, none) else none
  | some o, [] => if o.takesValue then some (a, some o) else (a.addOption o "").map (·, none)

/-- The options in one argument. -/
def readOptions (opts : List Opt) (a : Arguments) (arg : List Char) :
    Option (Arguments × Option Opt) :=
  match arg with
  | '-' :: '-' :: cs => readLong opts a cs
  | _ :: cs => readShort opts a cs
  | [] => none

/-- Reads the arguments of a command with the given options. The arguments are refused if one is no
option and looks like one, if a value is missing, or if an option is given too often. -/
def readArguments (opts : List Opt) (a : Arguments) : List String → Option Arguments
  | [] => some a
  | arg :: args =>
    if arg = "--" then some (args.foldl Arguments.addPositional a)
    else if looksLikeOption arg.toList then
      match readOptions opts a arg.toList with
      | none => none
      | some (a, none) => readArguments opts a args
      | some (a, some o) =>
        match args with
        | [] => none
        | value :: args =>
          if looksLikeOption value.toList then none
          else do
            let a ← a.addOption o value
            readArguments opts a args
    else readArguments opts (a.addPositional arg) args

end Easel.CommandLine
