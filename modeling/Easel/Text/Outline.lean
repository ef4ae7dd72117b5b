import Easel.Text.Quoted

/-!
# Outlines

An outline shows how a value is built: its parts stand in brackets after its name. It can be
written on one line, or over several lines with a part on each.
-/

namespace Easel

/-- The brackets around the parts of a value. -/
inductive Bracket where
  /-- Around parts that are known by their order. -/
  | round
  /-- Around the items of a list. -/
  | square
  /-- Around parts with labels. -/
  | curly
  deriving DecidableEq

namespace Bracket

/-- The opening bracket, as it follows a name. -/
def opening : Bracket → String
  | round => "("
  | square => "["
  | curly => " \x7b"

/-- The closing bracket. -/
def closing : Bracket → String
  | round => ")"
  | square => "]"
  | curly => "\x7d"

/-- What stands between a bracket and the parts on one line. -/
def padding : Bracket → String
  | round | square => ""
  | curly => " "

end Bracket

/-- How a value is built. -/
inductive Outline where
  /-- A value without parts. -/
  | leaf (text : String)
  /-- A part with its label. -/
  | labelled (label : String) (part : Outline)
  /-- A name and the parts after it. -/
  | group (name : String) (bracket : Bracket) (parts : List Outline)

namespace Outline

/-- A text. -/
def quoted (s : String) : Outline := leaf (Text.quoted s)

/-- A number. -/
def nat (n : Nat) : Outline := leaf (toString n)

/-- A number that may be negative. -/
def int (n : Int) : Outline := leaf (toString n)

/-- A value with one part that needs no label. -/
def wrap (name : String) (part : Outline) : Outline := group name .round [part]

/-- A value with labelled parts. -/
def record (name : String) (parts : List (String × Outline)) : Outline :=
  group name .curly (parts.map fun (label, part) => labelled label part)

/-- A list. -/
def list (items : List Outline) : Outline := group "" .square items

/-! ### On one line -/

mutual

/-- The outline on one line. -/
def inline : Outline → String
  | leaf text => text
  | labelled label part => label ++ ": " ++ part.inline
  | group name bracket parts =>
    name ++ bracket.opening ++ bracket.padding ++ ", ".intercalate (inlineAll parts) ++
      bracket.padding ++ bracket.closing

/-- Each of the outlines on one line. -/
def inlineAll : List Outline → List String
  | [] => []
  | part :: parts => part.inline :: inlineAll parts

end

/-! ### Over several lines -/

/-- The lines with a text put before the first one. -/
def before (text : String) : List String → List String
  | [] => [text]
  | line :: lines => (text ++ line) :: lines

/-- The lines of a part: further to the right, and with a comma at the end. -/
def asPart (lines : List String) : List String :=
  (lines.dropLast.map ("    " ++ ·)) ++ ["    " ++ lines.getLastD "" ++ ","]

mutual

/-- The lines of an outline. Parts begin on lines of their own, and an empty list is one line. -/
def lines : Outline → List String
  | leaf text => [text]
  | labelled label part => before (label ++ ": ") part.lines
  | group name bracket parts =>
    if parts.isEmpty then [name ++ bracket.opening ++ bracket.closing]
    else (name ++ bracket.opening) :: partLines parts ++ [bracket.closing]

/-- The lines of the parts of a value. -/
def partLines : List Outline → List String
  | [] => []
  | part :: parts => asPart part.lines ++ partLines parts

end

/-- The outline over several lines. -/
def block (o : Outline) : String := "\n".intercalate o.lines

end Outline

end Easel
