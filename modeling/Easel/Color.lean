/-!
# Colours

The eight colours of a canvas, the names a program may call them by, and the palettes that give
them their red, green and blue for drawing.
-/

namespace Easel

/-- The colours a cell of a canvas can have. -/
inductive Color where
  | red
  | blue
  | green
  | yellow
  | orange
  | purple
  | black
  | white
  deriving DecidableEq

namespace Color

/-- The colours in order. -/
def all : List Color := [red, blue, green, yellow, orange, purple, black, white]

/-- The place of a colour in the order. -/
def index : Color → Nat
  | red => 0
  | blue => 1
  | green => 2
  | yellow => 3
  | orange => 4
  | purple => 5
  | black => 6
  | white => 7

/-- The colour at a place in the order, for hosts that keep colours as numbers. -/
def ofIndex? (i : Nat) : Option Color := all[i]?

/-- The name of a colour, as it is written out. -/
def name : Color → String
  | red => "Red"
  | blue => "Blue"
  | green => "Green"
  | yellow => "Yellow"
  | orange => "Orange"
  | purple => "Purple"
  | black => "Black"
  | white => "White"

/-- The colour of every cell of a new canvas. -/
def background : Color := white

/-- The colour in which a brush leaves no mark. Only filling can make a cell white again. -/
def unmarked : Color := white

end Color

/-! ### Names -/

/-- What a colour name in a program stands for. -/
inductive ColorName where
  /-- A colour of the canvas. -/
  | solid (color : Color)
  /-- The name `Transparent`, which no cell has and no brush can take. -/
  | transparent
  deriving DecidableEq

namespace ColorName

/-- Two words that differ at most in the case of the letters `A` to `Z`. -/
def sameWord (a b : String) : Bool :=
  a.toList.map Char.toLower == b.toList.map Char.toLower

/-- The meaning of a name, in any case. -/
def ofString? (s : String) : Option ColorName :=
  if sameWord s "transparent" then some transparent
  else (Color.all.find? fun c => sameWord c.name s).map solid

/-- The colour of the canvas that a name stands for, if it stands for one. -/
def color? : ColorName → Option Color
  | solid c => some c
  | transparent => none

/-- A name stands for the colour that has the name, but for the case of its letters. -/
theorem sameWord_of_ofString? {name : String} {color : Color}
    (h : ofString? name = some (.solid color)) : sameWord color.name name := by
  unfold ofString? at h
  split at h
  · cases h
  · obtain ⟨color', hfind, heq⟩ := Option.map_eq_some_iff.1 h
    cases heq
    have hsame := List.find?_some hfind
    exact hsame

end ColorName

namespace Color

/-- The colour of the canvas with the given name, in any case. -/
def ofName? (s : String) : Option Color := (ColorName.ofString? s).bind ColorName.color?

/-- No two colours have the same name, and none is called transparent. -/
theorem ofName?_eq_some {s : String} {c : Color} :
    ofName? s = some c ↔ ColorName.sameWord c.name s := by
  constructor
  · intro h
    obtain ⟨n, hn, hc⟩ := Option.bind_eq_some_iff.1 h
    cases n with
    | solid d =>
      cases hc
      exact ColorName.sameWord_of_ofString? hn
    | transparent => cases hc
  · intro h
    have hkey : s.toList.map Char.toLower = c.name.toList.map Char.toLower := (beq_iff_eq.1 h).symm
    simp only [ofName?, ColorName.ofString?, ColorName.sameWord, hkey]
    cases c <;> rfl

end Color

/-! ### Palettes -/

/-- Which red, green and blue each colour is drawn in. -/
structure Palette where
  /-- The code of a colour: red in bits 16 to 23, green in bits 8 to 15, blue in bits 0 to 7. -/
  rgb : Color → UInt32

namespace Palette

/-- The share of red in a colour. -/
def red (p : Palette) (c : Color) : UInt8 := (p.rgb c >>> 16).toUInt8

/-- The share of green in a colour. -/
def green (p : Palette) (c : Color) : UInt8 := (p.rgb c >>> 8).toUInt8

/-- The share of blue in a colour. -/
def blue (p : Palette) (c : Color) : UInt8 := (p.rgb c).toUInt8

/-- The palette that is used unless another is given. -/
def standard : Palette where
  rgb
    | .red => 0xE53935
    | .blue => 0x1E88E5
    | .green => 0x43A047
    | .yellow => 0xFDD835
    | .orange => 0xFB8C00
    | .purple => 0x8E24AA
    | .black => 0x000000
    | .white => 0xFFFFFF

end Palette

end Easel
