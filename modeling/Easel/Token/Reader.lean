import Easel.Token.Basic

/-!
# Reading tokens

A reader takes tokens from the front of a list and either makes a value of them or fails. With the
value it returns the tokens that are left, which are never more than there were: that is why a
reader that reads again and again comes to an end. A failure keeps the tokens from the place where
the reader was stuck.
-/

namespace Easel

/-! ### Failures -/

/-- What a program is asked for at some place. -/
inductive Wanted where
  /-- The command that begins every program. -/
  | start
  /-- The first token of a statement. -/
  | statement
  /-- A certain sign. -/
  | sign (text : String)
  /-- The name of a colour, quoted or not. -/
  | colorName
  /-- The arrow of an assignment. -/
  | arrow
  /-- The name of a label. -/
  | labelName
  /-- Any expression, where nothing is left. -/
  | expression
  /-- The first token of an expression, where something else stands. -/
  | operand
  deriving DecidableEq

/-- What is wanted, in words. -/
def Wanted.text : Wanted → String
  | start => "program to start with 'Spawn(x, y)'"
  | statement => "a command, assignment, label or GoTo"
  | sign text => s!"'{text}'"
  | colorName => "a color name (e.g. \"Red\")"
  | arrow => "'<-' after variable name"
  | labelName => "a label name"
  | expression => "an expression"
  | operand => "a number, variable, function call or '('"

/-- Why a reader fails. -/
inductive Cause where
  /-- Something was wanted that is not there. -/
  | wanted (what : Wanted)
  /-- The digits denote no 32-bit integer. -/
  | numberTooLarge (digits : String)
  /-- No command has the name that stands before the given parenthesis. -/
  | unknownCommand (name : String) (opening : Token)
  deriving DecidableEq

/-- A cause of failure together with the tokens that were left. -/
structure Failure where
  /-- Why the reader failed. -/
  cause : Cause
  /-- The tokens from the place of failure on. -/
  rest : List Token
  deriving DecidableEq

/-! ### Readers -/

/-- What a reader made of the front of the tokens `ts`. -/
structure Parsed (α : Type) (ts : List Token) where
  /-- The value. -/
  value : α
  /-- The tokens that are left. -/
  rest : List Token
  /-- No tokens are added. -/
  length_le : rest.length ≤ ts.length

/-- A way to make a value of tokens. -/
def Reader (α : Type) : Type := (ts : List Token) → Except Failure (Parsed α ts)

namespace Reader

variable {α β : Type}

/-- The value that is made of no tokens. -/
protected def pure (a : α) : Reader α := fun ts => .ok ⟨a, ts, Nat.le_refl _⟩

/-- One reader after another, which may depend on the value of the first. -/
protected def bind (r : Reader α) (f : α → Reader β) : Reader β := fun ts =>
  match r ts with
  | .error e => .error e
  | .ok ⟨a, rest, h⟩ =>
    match f a rest with
    | .error e => .error e
    | .ok ⟨b, rest', h'⟩ => .ok ⟨b, rest', Nat.le_trans h' h⟩

instance : Monad Reader where
  pure := Reader.pure
  bind := Reader.bind

/-- The reader that fails where it stands. -/
def fail (c : Cause) : Reader α := fun ts => .error ⟨c, ts⟩

/-- The next token, which must be of one of the given kinds. -/
def kind (what : Wanted) (kinds : List Token.Kind) : Reader Token
  | [] => .error ⟨.wanted what, []⟩
  | t :: ts =>
    if t.kind ∈ kinds then .ok ⟨t, ts, Nat.le_succ _⟩ else .error ⟨.wanted what, t :: ts⟩

/-- The next token, which must be the given sign. -/
def sign (kind : Token.Kind) (text : String) : Reader Token
  | [] => .error ⟨.wanted (.sign text), []⟩
  | t :: ts =>
    if t.Is kind text then .ok ⟨t, ts, Nat.le_succ _⟩ else .error ⟨.wanted (.sign text), t :: ts⟩

end Reader

end Easel
