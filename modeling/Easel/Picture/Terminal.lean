import Easel.Canvas.Basic

/-!
# Pictures for the terminal

A canvas in a frame, each cell two characters wide, as coloured blanks or as letters. The cell with
the cursor is marked.
-/

namespace Easel.Picture

/-- How the cells are shown. -/
inductive Style where
  /-- As blanks on a background in the colours of a palette. -/
  | blocks (palette : Palette)
  /-- As letters. -/
  | letters

/-- The letter for a colour. -/
def letterFor : Color → Char
  | .red => 'R'
  | .blue => 'B'
  | .green => 'G'
  | .yellow => 'Y'
  | .orange => 'O'
  | .purple => 'P'
  | .black => 'K'
  | .white => '.'

/-- One cell. -/
def cellText (style : Style) (color : Color) (marked : Bool) : String :=
  let mark := "@@"
  match style with
  | .letters => if marked then mark else String.ofList [letterFor color, letterFor color]
  | .blocks palette =>
    let r := (palette.red color).toNat
    let g := (palette.green color).toNat
    let b := (palette.blue color).toNat
    s!"\x1b[48;2;{r};{g};{b}m" ++ (if marked then mark else "  ") ++ "\x1b[0m"

/-- One row, without the frame. -/
def rowText (style : Style) (cursor : Option Point) (y : Nat) (colors : List Color) : String :=
  String.join (colors.zipIdx.map fun (color, x) => cellText style color (cursor = some ⟨x, y⟩))

/-- The canvas in a frame. -/
def terminal (style : Style) (c : Canvas) : String :=
  let edge := String.ofList (List.replicate (2 * c.grid.size) '─')
  let rows := c.grid.rows.zipIdx.map fun (colors, y) =>
    "│" ++ rowText style c.cursor y colors ++ "│\n"
  "┌" ++ edge ++ "┐\n" ++ String.join rows ++ "└" ++ edge ++ "┘\n"

end Easel.Picture
