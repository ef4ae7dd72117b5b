import Easel.Token.Basic

/-!
# Expressions

Expressions denote 32-bit integers. They are built from numbers, truth values and variables with
operators and with calls of the functions that ask about the canvas. A text is an expression too,
but it is of use only as the first argument of a call.
-/

namespace Easel

/-- The operators between two expressions. -/
inductive Operator where
  | add
  | sub
  | mul
  | div
  | mod
  | eq
  | ne
  | gt
  | lt
  | ge
  | le
  deriving DecidableEq

namespace Operator

/-- All operators. -/
def all : List Operator := [add, sub, mul, div, mod, eq, ne, gt, lt, ge, le]

/-- The operator compares its operands, and does not calculate with them. -/
def compares : Operator → Bool
  | add | sub | mul | div | mod => false
  | eq | ne | gt | lt | ge | le => true

/-- The sign that an operator is written with. -/
def sign : Operator → String
  | add => "+"
  | sub => "-"
  | mul => "*"
  | div => "/"
  | mod => "%"
  | eq => "=="
  | ne => "!="
  | gt => ">"
  | lt => "<"
  | ge => ">="
  | le => "<="

/-- The kind of token that an operator is. -/
def kind (op : Operator) : Token.Kind := if op.compares then .comparison else .operator

/-- How loosely an operator binds its operands, from `0` for products to `2` for comparisons. -/
def level : Operator → Nat
  | mul | div | mod => 0
  | add | sub => 1
  | eq | ne | gt | lt | ge | le => 2

/-- The operator that a token is. -/
def ofToken? (t : Token) : Option Operator := all.find? fun op => t.Is op.kind op.sign

end Operator

/-- The expressions of the language. -/
inductive Expr where
  /-- A number. -/
  | num (n : Int32)
  /-- A truth value, which counts as one or zero. -/
  | bool (b : Bool)
  /-- A text, quoted or the bare name of a colour. -/
  | text (s : String)
  /-- A variable. -/
  | var (name : String)
  /-- Two operands and what is done with them. -/
  | binary (op : Operator) (left right : Expr)
  /-- A call of a function. -/
  | call (function : String) (args : List Expr)

end Easel
