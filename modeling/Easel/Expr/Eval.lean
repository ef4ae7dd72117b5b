import Easel.Canvas.Query
import Easel.Expr.Basic
import Easel.Text.Number

/-!
# The values of expressions

An expression is evaluated from left to right, and the first fault ends it. Numbers are 32-bit
integers, and a result that does not fit is a fault.
-/

namespace Easel

/-! ### Variables -/

/-- The values of the variables, in the order in which they were first assigned. -/
structure Env where
  /-- The names and values, each name once. -/
  bindings : List (String × Int32)
  deriving DecidableEq

namespace Env

/-- No variable has a value. -/
def empty : Env := ⟨[]⟩

/-- The value of a variable. -/
def get? (env : Env) (name : String) : Option Int32 := env.bindings.lookup name

/-- The bindings with a new value for one name. -/
def assign (name : String) (v : Int32) : List (String × Int32) → List (String × Int32)
  | [] => [(name, v)]
  | (n, w) :: bs => if n = name then (n, v) :: bs else (n, w) :: assign name v bs

/-- Gives a variable a value. -/
def set (env : Env) (name : String) (v : Int32) : Env := ⟨assign name v env.bindings⟩

@[simp] theorem get?_empty (name : String) : empty.get? name = none := rfl

theorem get?_set (env : Env) (name other : String) (v : Int32) :
    (env.set name v).get? other = if other = name then some v else env.get? other := by
  obtain ⟨bs⟩ := env
  simp only [get?, set]
  induction bs with
  | nil =>
    by_cases ho : other = name
    · simp [assign, ho]
    · simp [assign, List.lookup_cons, beq_eq_false_iff_ne.2 ho, ho]
  | cons b bs ih =>
    obtain ⟨n, w⟩ := b
    simp only [assign]
    split
    · next h =>
      subst h
      by_cases ho : other = n
      · simp [ho]
      · simp [List.lookup_cons, beq_eq_false_iff_ne.2 ho, ho]
    · next h =>
      by_cases ho : other = n
      · subst ho
        simp [h]
      · simp only [List.lookup_cons, beq_eq_false_iff_ne.2 ho, ih]

end Env

/-! ### Operators -/

/-- The integer, if it fits in 32 bits. -/
def checked (n : Int) : Except Fault Int32 :=
  match Text.int32? n with
  | some v => .ok v
  | none => .error .overflow

/-- The number that stands for a truth value. -/
def truth (b : Bool) : Int32 := if b then 1 else 0

/-- The result of an operator. Quotients are cut off toward zero and remainders have the sign of
the left operand. A remainder is refused where its quotient does not fit. -/
def Operator.apply (op : Operator) (a b : Int32) : Except Fault Int32 :=
  match op with
  | add => checked (a.toInt + b.toInt)
  | sub => checked (a.toInt - b.toInt)
  | mul => checked (a.toInt * b.toInt)
  | div => if b = 0 then .error .divisionByZero else checked (a.toInt.tdiv b.toInt)
  | mod =>
    if b = 0 then .error .divisionByZero
    else do
      let _ ← checked (a.toInt.tdiv b.toInt)
      checked (a.toInt.tmod b.toInt)
  | eq => .ok (truth (a = b))
  | ne => .ok (truth (a ≠ b))
  | gt => .ok (truth (b.toInt < a.toInt))
  | lt => .ok (truth (a.toInt < b.toInt))
  | ge => .ok (truth (b.toInt ≤ a.toInt))
  | le => .ok (truth (a.toInt ≤ b.toInt))

/-! ### Functions -/

/-- The functions of the language, which ask about the canvas. -/
inductive Query where
  | canvasSize
  | cursorX
  | cursorY
  | colorCount
  | isBrushColor
  | isCellColor
  deriving DecidableEq

namespace Query

/-- All functions. -/
def all : List Query := [canvasSize, cursorX, cursorY, colorCount, isBrushColor, isCellColor]

/-- The name that a function is called by. -/
def name : Query → String
  | canvasSize => "GetCanvasSize"
  | cursorX => "GetActualX"
  | cursorY => "GetActualY"
  | colorCount => "GetColorCount"
  | isBrushColor => "IsBrushColor"
  | isCellColor => "IsCanvasColor"

/-- The number of arguments. The first one, if there is any, is the name of a colour. -/
def arity : Query → Nat
  | canvasSize | cursorX | cursorY => 0
  | colorCount => 5
  | isBrushColor => 1
  | isCellColor => 3

/-- The function with the given name. -/
def ofName? (s : String) : Option Query := all.find? (·.name = s)

/-- The answer of a function, given the name of a colour and the other arguments. -/
def ask (q : Query) (c : Canvas) (color : String) (args : List Int32) : Except Fault Int32 :=
  match q, args with
  | canvasSize, [] => .ok c.sizeValue
  | cursorX, [] => c.cursorX
  | cursorY, [] => c.cursorY
  | colorCount, [x₁, y₁, x₂, y₂] =>
    .ok (c.colorCount color ⟨x₁.toInt, y₁.toInt⟩ ⟨x₂.toInt, y₂.toInt⟩)
  | isBrushColor, [] => .ok (truth (c.isBrushColor color))
  | isCellColor, [down, right] => return truth (← c.isCellColor color down.toInt right.toInt)
  | q, args => .error (.arity q.name q.arity (args.length + 1))

end Query

/-! ### Expressions -/

namespace Expr

mutual

/-- The value of an expression. -/
def eval (env : Env) (c : Canvas) : Expr → Except Fault Int32
  | num n => .ok n
  | bool b => .ok (truth b)
  | text s => .error (.unexpectedString s)
  | var name =>
    match env.get? name with
    | some v => .ok v
    | none => .error (.undefinedVariable name)
  | binary op left right => do
    let a ← left.eval env c
    let b ← right.eval env c
    op.apply a b
  | call name args =>
    match Query.ofName? name with
    | none => .error (.unknownFunction name)
    | some q =>
      if args.length ≠ q.arity then .error (.arity name q.arity args.length)
      else match args with
        | [] => q.ask c "" []
        | text color :: rest => do
          let vs ← evalAll env c rest
          q.ask c color vs
        | _ :: _ => .error (.expectedString name 1)

/-- The values of expressions, one after another. -/
def evalAll (env : Env) (c : Canvas) : List Expr → Except Fault (List Int32)
  | [] => .ok []
  | e :: es => do
    let v ← e.eval env c
    let vs ← evalAll env c es
    .ok (v :: vs)

end

end Expr

end Easel
