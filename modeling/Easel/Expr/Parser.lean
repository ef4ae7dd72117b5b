import Easel.Expr.Basic
import Easel.Text.Number
import Easel.Text.Trim
import Easel.Token.Reader

/-!
# From tokens to expressions

An operand is a literal, a variable, a call, a minus with an operand after it, or an expression in
parentheses. A phrase of level `0` is an operand, and a phrase of level `n + 1` is one or more
phrases of level `n` with operators of level `n` between them, which group to the left. An
expression is a phrase of the highest level.
-/

namespace Easel.Expr

/-- The level of whole expressions: comparisons bind most loosely. -/
def topLevel : Nat := 3

mutual

/-- The operand at the front of the tokens. -/
def operand (ts : List Token) : Except Failure (Parsed Expr ts) :=
  match ts with
  | [] => .error ⟨.wanted .expression, []⟩
  | t :: tail =>
    match t.kind with
    | .number =>
      match Text.readInt32? t.text with
      | some n => .ok ⟨.num n, tail, Nat.le_succ _⟩
      | none => .error ⟨.numberTooLarge t.text, t :: tail⟩
    | .boolean => .ok ⟨.bool (t.text = "true"), tail, Nat.le_succ _⟩
    | .string => .ok ⟨.text (Text.trim '"' t.text), tail, Nat.le_succ _⟩
    | .color => .ok ⟨.text t.text, tail, Nat.le_succ _⟩
    | .identifier => .ok ⟨.var t.text, tail, Nat.le_succ _⟩
    | .operator =>
      if t.text = "-" then do
        let ⟨e, rest, _⟩ ← operand tail
        .ok ⟨.binary .sub (.num 0) e, rest, by simp only [List.length_cons]; omega⟩
      else .error ⟨.wanted .operand, t :: tail⟩
    | .parenthesis =>
      if t.text = "(" then do
        let ⟨e, rest, _⟩ ← phrase topLevel tail
        let ⟨_, rest', _⟩ ← Reader.sign .parenthesis ")" rest
        .ok ⟨e, rest', by simp only [List.length_cons]; omega⟩
      else .error ⟨.wanted .operand, t :: tail⟩
    | .method => do
      let ⟨_, rest, _⟩ ← Reader.sign .parenthesis "(" tail
      let ⟨args, rest', _⟩ ← arguments rest
      let ⟨_, rest'', _⟩ ← Reader.sign .parenthesis ")" rest'
      .ok ⟨.call t.text args, rest'', by simp only [List.length_cons]; omega⟩
    | _ => .error ⟨.wanted .operand, t :: tail⟩
termination_by (ts.length, 0)

/-- The phrase of the given level at the front of the tokens. -/
def phrase (level : Nat) (ts : List Token) : Except Failure (Parsed Expr ts) :=
  match level with
  | 0 => operand ts
  | n + 1 => do
    let ⟨e, rest, h⟩ ← phrase n ts
    let ⟨e', rest', h'⟩ ← joined n e rest
    .ok ⟨e', rest', Nat.le_trans h' h⟩
termination_by (ts.length, level + 1)
decreasing_by all_goals (simp only [Prod.lex_def, true_and]; omega)

/-- The phrase that begins with `left`, when further phrases of the given level may follow it. -/
def joined (level : Nat) (left : Expr) (ts : List Token) : Except Failure (Parsed Expr ts) :=
  match ts with
  | [] => .ok ⟨left, [], Nat.le_refl _⟩
  | t :: tail =>
    match Operator.ofToken? t with
    | none => .ok ⟨left, t :: tail, Nat.le_refl _⟩
    | some op =>
      if op.level = level then do
        let ⟨right, rest, _⟩ ← phrase level tail
        let ⟨e, rest', _⟩ ← joined level (.binary op left right) rest
        .ok ⟨e, rest', by simp only [List.length_cons]; omega⟩
      else .ok ⟨left, t :: tail, Nat.le_refl _⟩
termination_by (ts.length, 0)

/-- The arguments of a call, up to the closing parenthesis. -/
def arguments (ts : List Token) : Except Failure (Parsed (List Expr) ts) :=
  if ts.head?.any fun t => t.Is .parenthesis ")" then .ok ⟨[], ts, Nat.le_refl _⟩
  else do
    let ⟨e, rest, h⟩ ← phrase topLevel ts
    let ⟨es, rest', h'⟩ ← moreArguments rest
    .ok ⟨e :: es, rest', Nat.le_trans h' h⟩
termination_by (ts.length, topLevel + 2)
decreasing_by all_goals (simp only [Prod.lex_def, true_and]; omega)

/-- The arguments of a call after the first, each with a comma before it. -/
def moreArguments (ts : List Token) : Except Failure (Parsed (List Expr) ts) :=
  match ts with
  | [] => .ok ⟨[], [], Nat.le_refl _⟩
  | t :: tail =>
    if t.Is .comma "," then do
      let ⟨e, rest, _⟩ ← phrase topLevel tail
      let ⟨es, rest', _⟩ ← moreArguments rest
      .ok ⟨e :: es, rest', by simp only [List.length_cons]; omega⟩
    else .ok ⟨[], t :: tail, Nat.le_refl _⟩
termination_by (ts.length, 0)

end

/-- The expression at the front of the tokens. -/
def reader : Reader Expr := phrase topLevel

/-- A comma and the expression after it. -/
def nextReader : Reader Expr := do
  let _ ← Reader.sign .comma ","
  reader

end Easel.Expr
