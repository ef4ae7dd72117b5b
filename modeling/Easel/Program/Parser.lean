import Easel.Expr.Parser
import Easel.Program.Basic

/-!
# From tokens to programs

The first token of a statement tells which kind of statement it is, and no statement is empty, so
the statements can be read one after another until no token is left.
-/

namespace Easel

/-! ### Statements -/

namespace Stmt

/-- The arguments of the named command, whose opening parenthesis has been read. -/
def arguments (name : String) (opening : Token) : Reader Stmt :=
  match name with
  | "Spawn" => return .spawn (← Expr.reader) (← Expr.nextReader)
  | "Color" => do
    let t ← Reader.kind .colorName [.string, .color]
    return .color (Text.trim '"' t.text)
  | "Size" => return .size (← Expr.reader)
  | "DrawLine" => return .line (← Expr.reader) (← Expr.nextReader) (← Expr.nextReader)
  | "DrawCircle" => return .circle (← Expr.reader) (← Expr.nextReader) (← Expr.nextReader)
  | "DrawRectangle" =>
    return .rectangle (← Expr.reader) (← Expr.nextReader) (← Expr.nextReader) (← Expr.nextReader)
      (← Expr.nextReader)
  | "Fill" => return .fill
  | _ => Reader.fail (.unknownCommand name opening)

/-- The rest of the command with the given name. -/
def commandReader (name : String) : Reader Stmt := do
  let opening ← Reader.sign .parenthesis "("
  let s ← arguments name opening
  let _ ← Reader.sign .parenthesis ")"
  return s

/-- The rest of an assignment to the given variable. -/
def assignReader (target : String) : Reader Stmt := do
  let _ ← Reader.kind .arrow [.assignment]
  return .assign target (← Expr.reader)

/-- The rest of a jump. -/
def gotoReader : Reader Stmt := do
  let _ ← Reader.sign .brace "["
  let label ← Reader.kind .labelName [.identifier]
  let _ ← Reader.sign .brace "]"
  let _ ← Reader.sign .parenthesis "("
  let condition ← Expr.reader
  let _ ← Reader.sign .parenthesis ")"
  return .goto label.text condition

/-- The rest of the statement that begins with the token `t`. -/
def readerAfter (t : Token) : Reader Stmt :=
  match t.kind with
  | .method => if t.text = "GoTo" then gotoReader else commandReader t.text
  | .identifier => assignReader t.text
  | .label => pure (.label (Text.trimEnd ':' t.text))
  | _ => fun ts => .error ⟨.wanted .statement, t :: ts⟩

end Stmt

/-! ### Programs -/

namespace Program

/-- The statements that the tokens are, one after another. -/
def statements (ts : List Token) : Except Failure (List Stmt) :=
  match ts with
  | [] => .ok []
  | t :: tail => do
    let ⟨s, rest, _⟩ ← Stmt.readerAfter t tail
    let ss ← statements rest
    .ok (s :: ss)
termination_by ts.length

/-- The program that the tokens are. It must begin by placing the cursor. -/
def ofTokens? (ts : List Token) : Except Failure Program :=
  if ts.head?.any fun t => t.Is .method "Spawn" then statements ts
  else .error ⟨.wanted .start, ts⟩

end Program

/-! ### Errors -/

/-- Tokens that are no program. -/
structure SyntaxError where
  /-- The line that is to blame. -/
  line : Nat
  /-- Why the tokens are no program. -/
  cause : Cause
  /-- The token where reading stopped, or none after the last one. -/
  found? : Option Token
  deriving DecidableEq

/-- The failure with its line. After the last token this is the line of that token. -/
def Failure.locate (f : Failure) (all : List Token) : SyntaxError where
  cause := f.cause
  found? := f.rest.head?
  line :=
    match f.cause, f.rest with
    | .unknownCommand _ opening, _ => opening.line
    | _, t :: _ => t.line
    | _, [] => (all.getLast?.map Token.line).getD 1

/-- The error in words. -/
def SyntaxError.message (e : SyntaxError) : String :=
  match e.cause, e.found? with
  | .wanted what, some t => s!"Expected {what.text}, found '{t.text}'"
  | .wanted what, none => s!"Expected {what.text}, but reached end of input"
  | .numberTooLarge digits, _ => s!"Number out of range: {digits}"
  | .unknownCommand name _, _ => s!"Unknown command: {name}"

/-- The program that the tokens are, or the error that says where they are none. -/
def Program.ofTokens (ts : List Token) : Except SyntaxError Program :=
  match ofTokens? ts with
  | .ok p => .ok p
  | .error f => .error (f.locate ts)

end Easel
