import Easel.Canvas.Grid
import Easel.Text.Outline

/-!
# Faults

What can go wrong while a program is carried out.
-/

namespace Easel

/-- The reasons for which a program is stopped. -/
inductive Fault where
  /-- A variable is used that has no value. -/
  | undefinedVariable (name : String)
  /-- A quotient or a remainder by zero is asked for. -/
  | divisionByZero
  /-- A result does not fit in 32 bits. -/
  | overflow
  /-- No colour has the name. -/
  | unknownColor (name : String)
  /-- A brush cannot be transparent. -/
  | transparentBrush
  /-- The cursor would leave the canvas. -/
  | outOfBounds (p : Point)
  /-- The cursor is needed and not placed. -/
  | cursorNotPlaced
  /-- A circle needs a positive radius. -/
  | nonPositiveRadius (radius : Int)
  /-- A rectangle needs a positive width and height. -/
  | nonPositiveDimensions (width height : Int)
  /-- A line goes along a row, a column or a diagonal. -/
  | invalidDirection (dx dy : Int)
  /-- A label is set twice. -/
  | duplicateLabel (name : String)
  /-- A function is called with the wrong number of arguments. -/
  | arity (function : String) (expected given : Nat)
  /-- A function wants a text at the given place among its arguments, counted from one. -/
  | expectedString (function : String) (place : Nat)
  /-- A text stands where a number is wanted. -/
  | unexpectedString (text : String)
  /-- No function has the name. -/
  | unknownFunction (name : String)
  /-- The program was not done after as many statements as it was allowed. -/
  | stepLimit (limit : Nat)
  /-- No canvas has the size. -/
  | invalidCanvasSize (size : Nat)
  deriving DecidableEq

namespace Fault

/-- The fault in words. -/
def message : Fault → String
  | undefinedVariable name => s!"Undefined variable: {name}"
  | divisionByZero => "Division by zero"
  | overflow => "Arithmetic overflow"
  | unknownColor name => s!"Unknown color: {name}"
  | transparentBrush => "Transparent cannot be used as the brush color"
  | outOfBounds p => s!"Position ({p.x}, {p.y}) is outside the canvas"
  | cursorNotPlaced => "Cursor is not placed yet, call Spawn first"
  | nonPositiveRadius radius => s!"Radius must be greater than 0, got {radius}"
  | nonPositiveDimensions width height =>
    s!"Width and height must be greater than 0, got {width}x{height}"
  | invalidDirection dx dy => s!"Direction components must be -1, 0 or 1, got ({dx}, {dy})"
  | duplicateLabel name => s!"Duplicate label: {name}"
  | arity function expected given =>
    s!"Function '{function}' takes {expected} arguments, but {given} were given"
  | expectedString function place => s!"Function '{function}' expects a string as argument {place}"
  | unexpectedString text => s!"String \"{text}\" cannot be used as a number"
  | unknownFunction name => s!"Unknown function: {name}"
  | stepLimit limit => s!"Step limit of {limit} statements exceeded"
  | invalidCanvasSize size => s!"Canvas size must be positive, got {size}"

/-- The name of the kind of fault. -/
def name : Fault → String
  | undefinedVariable _ => "UndefinedVariable"
  | divisionByZero => "DivisionByZero"
  | overflow => "ArithmeticOverflow"
  | unknownColor _ => "UnknownColor"
  | transparentBrush => "TransparentBrush"
  | outOfBounds _ => "OutOfBounds"
  | cursorNotPlaced => "CursorNotPlaced"
  | nonPositiveRadius _ => "NonPositiveRadius"
  | nonPositiveDimensions _ _ => "NonPositiveDimensions"
  | invalidDirection _ _ => "InvalidDirection"
  | duplicateLabel _ => "DuplicateLabel"
  | arity _ _ _ => "Arity"
  | expectedString _ _ => "ExpectedString"
  | unexpectedString _ => "UnexpectedString"
  | unknownFunction _ => "UnknownFunction"
  | stepLimit _ => "StepLimitExceeded"
  | invalidCanvasSize _ => "InvalidCanvasSize"

/-- The particulars of the fault, with their labels. -/
def particulars : Fault → List (String × Outline)
  | divisionByZero | overflow | transparentBrush | cursorNotPlaced => []
  | undefinedVariable name | unknownColor name | duplicateLabel name | unknownFunction name =>
    [("name", .quoted name)]
  | outOfBounds p => [("x", .int p.x), ("y", .int p.y)]
  | nonPositiveRadius radius => [("radius", .int radius)]
  | nonPositiveDimensions width height => [("width", .int width), ("height", .int height)]
  | invalidDirection dx dy => [("dx", .int dx), ("dy", .int dy)]
  | arity function expected given =>
    [("function", .quoted function), ("expected", .nat expected), ("found", .nat given)]
  | expectedString function place => [("function", .quoted function), ("position", .nat place)]
  | unexpectedString text => [("value", .quoted text)]
  | stepLimit limit => [("limit", .nat limit)]
  | invalidCanvasSize size => [("size", .nat size)]

/-- How the fault is built. -/
def outline (f : Fault) : Outline :=
  if f.particulars.isEmpty then .leaf f.name else .record f.name f.particulars

end Fault

end Easel
