import Easel.Program.Basic
import Easel.Text.Outline

/-!
# Outlines of programs

How expressions, statements and programs are built, for listings and logs.
-/

namespace Easel

/-- The operator as a word. -/
def Operator.word : Operator → String
  | add => "Add"
  | sub => "Subtract"
  | mul => "Multiply"
  | div => "Divide"
  | mod => "Modulo"
  | eq => "Equal"
  | ne => "NotEqual"
  | gt => "Greater"
  | lt => "Less"
  | ge => "GreaterEqual"
  | le => "LessEqual"

namespace Expr

mutual

/-- How an expression is built. -/
def outline : Expr → Outline
  | num n => .wrap "Number" (.int n.toInt)
  | bool b => .wrap "Boolean" (.leaf (if b then "true" else "false"))
  | text s => .wrap "String" (.quoted s)
  | var name => .wrap "Variable" (.quoted name)
  | binary op left right =>
    .record (if op.compares then "Comparison" else "BinaryOp")
      [("left", left.outline), ("op", .leaf op.word), ("right", right.outline)]
  | call function args =>
    .record "FunctionCall" [("name", .quoted function), ("args", .list (outlines args))]

/-- How each of the expressions is built. -/
def outlines : List Expr → List Outline
  | [] => []
  | e :: es => e.outline :: outlines es

end

end Expr

/-- How a statement is built. -/
def Stmt.outline : Stmt → Outline
  | spawn x y => .record "Spawn" [("x", x.outline), ("y", y.outline)]
  | color name => .record "SetColor" [("name", .quoted name)]
  | size width => .record "SetBrushSize" [("size", width.outline)]
  | line dx dy distance =>
    .record "DrawLine" [("dx", dx.outline), ("dy", dy.outline), ("distance", distance.outline)]
  | circle dx dy radius =>
    .record "DrawCircle" [("dx", dx.outline), ("dy", dy.outline), ("radius", radius.outline)]
  | rectangle dx dy distance width height =>
    .record "DrawRectangle" [("dx", dx.outline), ("dy", dy.outline),
      ("distance", distance.outline), ("width", width.outline), ("height", height.outline)]
  | fill => .leaf "Fill"
  | assign target value => .record "Assign" [("target", .quoted target), ("value", value.outline)]
  | label name => .record "Label" [("name", .quoted name)]
  | goto name condition =>
    .record "GoTo" [("label", .quoted name), ("condition", condition.outline)]

/-- How a program is built. -/
def Program.outline (p : Program) : Outline :=
  .record "Program" [("statements", .list (p.map Stmt.outline))]

end Easel
