import Easel.Expr.Basic

/-!
# Programs

A program is a list of statements. It begins with the statement that places the cursor, and is
steered by labels and conditional jumps.
-/

namespace Easel

/-- The statements of the language. -/
inductive Stmt where
  /-- Places the cursor. -/
  | spawn (x y : Expr)
  /-- Takes a brush of the named colour. The name is looked up when the statement is carried out. -/
  | color (name : String)
  /-- Takes a brush of the given width. -/
  | size (width : Expr)
  /-- Draws a line by walking a number of steps in a direction. -/
  | line (dx dy distance : Expr)
  /-- Draws a circle whose centre lies one radius away in a direction. -/
  | circle (dx dy radius : Expr)
  /-- Draws the outline of a rectangle whose centre lies some distance away in a direction. -/
  | rectangle (dx dy distance width height : Expr)
  /-- Fills the area of one colour around the cursor. -/
  | fill
  /-- Gives a variable a value. -/
  | assign (target : String) (value : Expr)
  /-- Marks a place to jump to. -/
  | label (name : String)
  /-- Jumps to a label if the condition is not zero. -/
  | goto (label : String) (condition : Expr)

/-- A program: its statements, in the order of the text. -/
abbrev Program := List Stmt

end Easel
