import Easel.Program.Parser

/-!
# Reading by a place among the tokens

The readers of expressions, statements and programs once more, as a machine carries them out. The
tokens stay where they are, and what moves is a place among them: it can be looked at what stands
there, if anything does, and the place can be moved on by one. It is moved on without a look whether
a token is there, and nothing says that a procedure that calls itself, or goes round in a loop,
comes to an end. There is no outcome if it does not.

A failure stops everything and leaves the place where it was. Some procedures check once more what
they have been called for: that a statement, a command, an assignment or a call begins at the place.
They can fail in this way (`Scan.Stuck.head`), as no reader can.
-/

namespace Easel

/-- Why a procedure fails. -/
inductive Scan.Stuck where
  /-- For a cause that a reader has too. -/
  | cause (cause : Cause)
  /-- It was called to read something that does not begin at the place, here in words. -/
  | head (what : String)

/-- A procedure on tokens, which moves a place among them. It makes a value or fails. -/
abbrev Scan (α : Type) := ReaderT (List Token) (ExceptT Scan.Stuck (StateT Nat Option)) α

namespace Scan

/-- The procedure that fails as a reader does. -/
def fail {α : Type} (cause : Cause) : Scan α := throw (.cause cause)

/-! ### Single tokens -/

/-- The token at the place, if there is one. -/
def peek : Scan (Option Token) := do
  return (← read)[(← get)]?

/-- No token is left. -/
def atEnd : Scan Bool := do
  return (← read).length ≤ (← get)

/-- Moves the place on by one. -/
def advance : Scan Unit := modify (· + 1)

/-- The next token, which must be of one of the given kinds. -/
def kind (stuck : Stuck) (kinds : List Token.Kind) : Scan Token := do
  match ← peek with
  | none => throw stuck
  | some t =>
    if t.kind ∈ kinds then
      advance
      return t
    else throw stuck

/-- The next token, which must be the given sign. -/
def sign (kind : Token.Kind) (text : String) : Scan Token := do
  match ← peek with
  | none => fail (.wanted (.sign text))
  | some t =>
    if t.Is kind text then
      advance
      return t
    else fail (.wanted (.sign text))

/-! ### Expressions -/

/-- The procedures for expressions, each with what it is called with. They call each other. -/
inductive Procedure where
  /-- An operand. -/
  | operand
  /-- The call of a function. -/
  | call
  /-- A phrase of the given level. -/
  | phrase (level : Nat)
  /-- What can be joined to a phrase. -/
  | joined (level : Nat) (left : Expr)
  /-- The arguments of a call, up to the closing parenthesis. -/
  | arguments
  /-- The arguments of a call after the first, each with a comma before it. -/
  | moreArguments

namespace Procedure

/-- What a procedure makes. -/
abbrev Value : Procedure → Type
  | operand | call | phrase _ | joined _ _ => Expr
  | arguments | moreArguments => List Expr

/-- Carries out a procedure. -/
def scan (p : Procedure) : Scan p.Value :=
  match p with
  | operand => do
    match ← peek with
    | none => fail (.wanted .expression)
    | some t =>
      match t.kind with
      | .number =>
        match Text.readInt32? t.text with
        | some n => do
          advance
          return Expr.num n
        | none => fail (.numberTooLarge t.text)
      | .boolean => do
        advance
        return Expr.bool (t.text = "true")
      | .string => do
        advance
        return Expr.text (Text.trim '"' t.text)
      | .color => do
        advance
        return Expr.text t.text
      | .identifier => do
        advance
        return Expr.var t.text
      | .operator =>
        if t.text = "-" then do
          advance
          let e ← operand |>.scan
          return Expr.binary .sub (.num 0) e
        else fail (.wanted .operand)
      | .parenthesis =>
        if t.text = "(" then do
          advance
          let e ← phrase Expr.topLevel |>.scan
          let _ ← sign .parenthesis ")"
          return e
        else fail (.wanted .operand)
      | .method => call |>.scan
      | _ => fail (.wanted .operand)
  | call => do
    let name ← kind (.head "a function name") [.method]
    let _ ← sign .parenthesis "("
    let args ← arguments |>.scan
    let _ ← sign .parenthesis ")"
    return Expr.call name.text args
  | phrase level =>
    match level with
    | 0 => operand |>.scan
    | n + 1 => do
      let e ← phrase n |>.scan
      joined n e |>.scan
  | joined level left => do
    match ← peek with
    | none => return left
    | some t =>
      match Operator.ofToken? t with
      | none => return left
      | some op =>
        if op.level = level then do
          advance
          let right ← phrase level |>.scan
          joined level (.binary op left right) |>.scan
        else return left
  | arguments => do
    if (← peek).any fun t => t.Is .parenthesis ")" then return ([] : List Expr)
    else
      let e ← phrase Expr.topLevel |>.scan
      let es ← moreArguments |>.scan
      return e :: es
  | moreArguments => do
    match ← peek with
    | none => return ([] : List Expr)
    | some t =>
      if t.Is .comma "," then do
        advance
        let e ← phrase Expr.topLevel |>.scan
        let es ← moreArguments |>.scan
        return e :: es
      else return ([] : List Expr)
partial_fixpoint

end Procedure

/-- An expression. -/
def expression : Scan Expr := Procedure.scan (.phrase Expr.topLevel)

/-- A comma and the expression after it. -/
def next : Scan Expr := do
  let _ ← sign .comma ","
  expression

/-! ### Statements -/

/-- A statement that is still without so many expressions, the first of them first. -/
abbrev Builder : Nat → Type
  | 0 => Stmt
  | n + 1 => Expr → Builder n

/-- So many expressions, each with a comma before it. -/
def following : (n : Nat) → Builder n → Scan Stmt
  | 0, s => return s
  | n + 1, build => do
    let e ← next
    following n (build e)

/-- One expression and so many more, with commas between them. -/
def listed (n : Nat) (build : Builder (n + 1)) : Scan Stmt := do
  let e ← expression
  following n (build e)

/-- The arguments of the named command, whose opening parenthesis has been read. -/
def commandArguments (name : String) (opening : Token) : Scan Stmt :=
  match name with
  | "Spawn" => listed 1 .spawn
  | "Color" => do
    let t ← kind (.cause (.wanted .colorName)) [.string, .color]
    return .color (Text.trim '"' t.text)
  | "Size" => listed 0 .size
  | "DrawLine" => listed 2 .line
  | "DrawCircle" => listed 2 .circle
  | "DrawRectangle" => listed 4 .rectangle
  | "Fill" => return .fill
  | _ => fail (.unknownCommand name opening)

/-- A command. -/
def command : Scan Stmt := do
  let name ← kind (.head "a command") [.method]
  let opening ← sign .parenthesis "("
  let s ← commandArguments name.text opening
  let _ ← sign .parenthesis ")"
  return s

/-- An assignment. -/
def assignment : Scan Stmt := do
  let target ← kind (.head "a variable name") [.identifier]
  let _ ← kind (.cause (.wanted .arrow)) [.assignment]
  let e ← expression
  return .assign target.text e

/-- The jump that begins with the token at the place. -/
def goto : Scan Stmt := do
  advance
  let _ ← sign .brace "["
  let label ← kind (.cause (.wanted .labelName)) [.identifier]
  let _ ← sign .brace "]"
  let _ ← sign .parenthesis "("
  let condition ← expression
  let _ ← sign .parenthesis ")"
  return .goto label.text condition

/-- A statement. The token at the place tells which procedure to carry out. -/
def statement : Scan Stmt := do
  match ← peek with
  | none => throw (.head "a statement")
  | some t =>
    match t.kind with
    | .method => if t.text = "GoTo" then goto else command
    | .identifier => assignment
    | .label => do
      advance
      return .label (Text.trimEnd ':' t.text)
    | _ => fail (.wanted .statement)

end Scan

/-! ### Programs -/

/-- Further statements of a program, as long as a token is left. -/
def Program.scanAfter (done : Program) : Scan Program := do
  if ← Scan.atEnd then return done
  else
    let s ← Scan.statement
    let done : Program := done ++ [s]
    done |>.scanAfter
partial_fixpoint

/-- A program, which must begin by placing the cursor. -/
def Scan.program : Scan Program := do
  if (← Scan.peek).any fun t => t.Is .method "Spawn" then Program.scanAfter []
  else Scan.fail (.wanted .start)

end Easel
