import Easel.Canvas.Basic

/-!
# Pictures in files

A grid in the binary format PPM: a header in text, and then three bytes for each point of the
picture, row by row from the top. Each cell becomes a square of points.
-/

namespace Easel.Picture

/-- The red, the green and the blue of a colour. -/
def bytes (palette : Palette) (c : Color) : List UInt8 :=
  [palette.red c, palette.green c, palette.blue c]

/-- The text in front of a picture with the given side. Each of its characters is one byte. -/
def ppmHeader (side : Nat) : List UInt8 :=
  s!"P6\n{side} {side}\n255\n".toList.map Char.toUInt8

/-- One line of points for a row of cells, each cell `scale` points wide. -/
def ppmLine (palette : Palette) (scale : Nat) (colors : List Color) : List UInt8 :=
  colors.flatMap fun c => (List.replicate scale (bytes palette c)).flatten

/-- The picture of a grid, each cell `scale` points wide and high, and at least one. -/
def ppm (palette : Palette) (scale : Nat) (g : Grid) : List UInt8 :=
  let scale := max scale 1
  ppmHeader (g.size * scale) ++
    g.rows.flatMap fun colors =>
      (List.replicate scale (ppmLine palette scale colors)).flatten

end Easel.Picture
