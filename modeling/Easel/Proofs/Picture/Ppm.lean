import Easel.Picture.Ppm
import Easel.Proofs.Canvas.Cells
import Mathlib.Data.List.Basic
import Mathlib.Tactic.Ring

/-!
# Pictures show the grid

The points of a picture stand in rows, three bytes each, behind the text of the header. Both the
points of a row and the rows are blocks of one length, each repeated `scale` times, so that a point
belongs to the cell whose coordinates are its own divided by `scale` (`Picture.getElem?_body`). If
the palette tells the colours apart, the bytes determine the grid (`Picture.grid_eq_of_ppm`).
-/

namespace Easel

/-! ### Blocks -/

namespace Picture

section

variable {α β : Type} {f : α → List β} {l : List α} {n r s : Nat}

theorem length_flatMap (hf : ∀ a ∈ l, (f a).length = n) : (l.flatMap f).length = l.length * n := by
  induction l with
  | nil => simp
  | cons a l ih =>
    rw [List.flatMap_cons, List.length_append, hf a List.mem_cons_self,
      ih fun b hb => hf b (List.mem_cons_of_mem a hb), List.length_cons, Nat.succ_mul, Nat.add_comm]

/-- Blocks of one length stand at the multiples of that length. -/
theorem getElem?_flatMap (hf : ∀ a ∈ l, (f a).length = n) (hr : r < n) (i : Nat) :
    (l.flatMap f)[i * n + r]? = l[i]?.bind fun a => (f a)[r]? := by
  induction l generalizing i with
  | nil => rfl
  | cons a l ih =>
    have ha : (f a).length = n := hf a List.mem_cons_self
    rw [List.flatMap_cons]
    cases i with
    | zero =>
      rw [Nat.zero_mul, Nat.zero_add, List.getElem?_append_left (ha ▸ hr)]
      rfl
    | succ i =>
      have hadd : (i + 1) * n + r = (f a).length + (i * n + r) := by
        rw [ha, Nat.succ_mul]
        omega
      rw [hadd, List.getElem?_append_right (Nat.le_add_right _ _), Nat.add_sub_cancel_left,
        ih fun b hb => hf b (List.mem_cons_of_mem a hb)]
      rfl

/-- The blocks of the elements, each of them `s` times. -/
def scaled (s : Nat) (f : α → List β) (l : List α) : List β :=
  l.flatMap fun a => (List.replicate s (f a)).flatten

/-- The blocks of the elements, when these are repeated instead. -/
theorem scaled_eq (s : Nat) (f : α → List β) (l : List α) :
    scaled s f l = (l.flatMap (List.replicate s)).flatMap f := by
  rw [List.flatMap_assoc]
  unfold scaled
  simp [List.flatMap_def]

theorem length_of_mem_replicated (hf : ∀ a ∈ l, (f a).length = n) :
    ∀ a ∈ l.flatMap (List.replicate s), (f a).length = n := by
  intro a ha
  obtain ⟨b, hb, hab⟩ := List.mem_flatMap.1 ha
  rw [List.eq_of_mem_replicate hab]
  exact hf b hb

theorem length_scaled (hf : ∀ a ∈ l, (f a).length = n) :
    (scaled s f l).length = l.length * s * n := by
  rw [scaled_eq, length_flatMap (length_of_mem_replicated hf),
    length_flatMap fun a _ => List.length_replicate]

/-- **A block that is repeated** is found by division. -/
theorem getElem?_scaled (hs : 0 < s) (hf : ∀ a ∈ l, (f a).length = n) (hr : r < n) (i : Nat) :
    (scaled s f l)[i * n + r]? = l[i / s]?.bind fun a => (f a)[r]? := by
  have hmod : i % s < s := Nat.mod_lt i hs
  have hrep : (l.flatMap (List.replicate s))[i]? = l[i / s]? := by
    rw [← Nat.div_add_mod' i s, getElem?_flatMap (fun a _ => List.length_replicate) hmod,
      Nat.div_add_mod']
    cases l[i / s]? with
    | none => rfl
    | some a => simp [hmod]
  rw [scaled_eq, getElem?_flatMap (length_of_mem_replicated hf) hr, hrep]

end

end Picture

/-! ### Rows -/

namespace Grid

variable {g : Grid} {x y : Nat}

theorem natCast_mem : (⟨x, y⟩ : Point) ∈ g ↔ x < g.size ∧ y < g.size := by
  simp [mem_def]

theorem exists_natCast_of_mem {p : Point} (hp : p ∈ g) :
    ∃ x y : Nat, x < g.size ∧ y < g.size ∧ p = ⟨x, y⟩ := by
  obtain ⟨hx, hx', hy, hy'⟩ := hp
  refine ⟨p.x.toNat, p.y.toNat, by omega, by omega, ?_⟩
  rw [Int.toNat_of_nonneg hx, Int.toNat_of_nonneg hy]

theorem Square.length_of_mem_rows (hg : g.Square) : ∀ row ∈ g.rows, row.length = g.size := by
  intro row hrow
  obtain ⟨y, hy, rfl⟩ := List.mem_map.1 hrow
  have hle : (y + 1) * g.size ≤ g.size * g.size :=
    Nat.mul_le_mul_right g.size (List.mem_range.1 hy)
  rw [Array.length_toList, Array.size_extract, hg, Nat.min_eq_left hle, Nat.succ_mul,
    Nat.add_sub_cancel_left]

/-- The rows have the colours of the points, from the top and from the left. -/
theorem Square.getElem?_rows (hg : g.Square) (hx : x < g.size) (hy : y < g.size) :
    (g.rows[y]?.bind fun row => row[x]?) = g.get? ⟨x, y⟩ := by
  have hmem : (⟨x, y⟩ : Point) ∈ g := natCast_mem.2 ⟨hx, hy⟩
  have hle : (y + 1) * g.size ≤ g.cells.size := by
    rw [hg]
    exact Nat.mul_le_mul_right g.size hy
  have hbefore : x < min ((y + 1) * g.size) g.cells.size - y * g.size := by
    rw [Nat.min_eq_left hle, Nat.succ_mul, Nat.add_sub_cancel_left]
    exact hx
  have hrow : g.rows[y]? = some (g.cells.extract (y * g.size) ((y + 1) * g.size)).toList := by
    rw [rows, List.getElem?_map, List.getElem?_range hy, Option.map_some]
  rw [hrow, Option.bind_some, Array.getElem?_toList, Array.getElem?_extract, if_pos hbefore, get?,
    if_pos hmem, index, Int.toNat_natCast, Int.toNat_natCast]

end Grid

/-! ### The header -/

namespace Picture

variable {palette : Palette} {scale s : Nat} {g : Grid}

/-- Text in which each character is one byte is encoded character by character. -/
theorem toUTF8_ofList {cs : List Char} (h : ∀ c ∈ cs, c.utf8Size = 1) :
    (String.ofList cs).toUTF8.data.toList = cs.map Char.toUInt8 := by
  have hencode : cs.flatMap String.utf8EncodeChar = cs.map Char.toUInt8 := by
    rw [List.map_eq_flatMap]
    exact List.flatMap_congr fun c hc => String.utf8EncodeChar_eq_singleton (h c hc)
  rw [String.toUTF8, String.toByteArray_ofList, List.utf8Encode, hencode]
  simp

/-- The text of the header. -/
def headerText (side : Nat) : String := s!"P6\n{side} {side}\n255\n"

theorem toList_headerText (side : Nat) :
    (headerText side).toList =
      ['P', '6', '\n'] ++ (Nat.toDigits 10 side ++
        ' ' :: (Nat.toDigits 10 side ++ ['\n', '2', '5', '5', '\n'])) := by
  show ("P6\n" ++ toString side ++ " " ++ toString side ++ "\n255\n").toList = _
  simp only [String.toList_append, Nat.toString_eq_ofList_toDigits, String.toList_ofList,
    List.append_assoc]
  rfl

theorem toNat_of_mem_toDigits {n : Nat} {c : Char} (h : c ∈ Nat.toDigits 10 n) :
    48 ≤ c.toNat ∧ c.toNat ≤ 57 :=
  Char.isDigit_iff_toNat.1 (Nat.isDigit_of_mem_toDigits (by decide) (by decide) h)

theorem toNat_lt_of_mem_headerText (side : Nat) :
    ∀ c ∈ (headerText side).toList, c.toNat < 128 := by
  have hdigits : ∀ c ∈ Nat.toDigits 10 side, c.toNat < 128 := fun c hc =>
    Nat.lt_of_le_of_lt (toNat_of_mem_toDigits hc).2 (by decide)
  rw [toList_headerText]
  simpa [or_imp, forall_and] using hdigits

/-- **The header** is its text in bytes. -/
theorem ppmHeader_eq (side : Nat) :
    ppmHeader side = (headerText side).toUTF8.data.toList := by
  have hascii : ∀ c ∈ (headerText side).toList, c.utf8Size = 1 := by
    intro c hc
    rw [Char.utf8Size_eq_one_iff]
    exact UInt32.le_iff_toNat_le.2 (Nat.le_of_lt_succ (toNat_lt_of_mem_headerText side c hc))
  rw [← String.ofList_toList (s := headerText side), toUTF8_ofList hascii]
  rfl

/-- The text that bytes stand for. -/
def text (bs : List UInt8) : List Char := bs.map fun b => Char.ofNat b.toNat

theorem text_ppmHeader (side : Nat) :
    text (ppmHeader side) = (headerText side).toList := by
  have hchar : ∀ c ∈ (headerText side).toList, Char.ofNat c.toUInt8.toNat = c := by
    intro c hc
    have hlt : c.toNat < 256 := Nat.lt_trans (toNat_lt_of_mem_headerText side c hc) (by decide)
    have htoNat : c.toUInt8.toNat = c.toNat := by
      rw [Char.toUInt8, UInt32.toNat_toUInt8]
      exact Nat.mod_eq_of_lt hlt
    rw [htoNat, Char.ofNat_toNat]
  show ((headerText side).toList.map Char.toUInt8).map _ = _
  rw [List.map_map]
  exact (List.map_congr_left hchar).trans (List.map_id _)

/-- The number that is written between the first line and the first blank. -/
def readSide (bs : List UInt8) : Nat :=
  Nat.ofDigitChars 10 (((text bs).drop 3).takeWhile (· != ' ')) 0

/-- **The header tells the side,** whatever follows it. -/
theorem readSide_ppmHeader (side : Nat) (bs : List UInt8) :
    readSide (ppmHeader side ++ bs) = side := by
  have hdrop : (text (ppmHeader side ++ bs)).drop 3 =
      Nat.toDigits 10 side ++
        ' ' :: (Nat.toDigits 10 side ++ ['\n', '2', '5', '5', '\n'] ++ text bs) := by
    rw [text, List.map_append, ← text, ← text, text_ppmHeader, toList_headerText]
    simp
  have hdigits : ∀ c ∈ Nat.toDigits 10 side, (c != ' ') = true := by
    intro c hc
    rw [bne_iff_ne]
    rintro rfl
    exact absurd (toNat_of_mem_toDigits hc).1 (by decide)
  rw [readSide, hdrop, List.takeWhile_append_of_pos hdigits]
  simp [Nat.ofDigitChars_toDigits]

/-! ### The points -/

/-- The points of a picture, without the header. -/
def body (palette : Palette) (s : Nat) (g : Grid) : List UInt8 :=
  scaled s (ppmLine palette s) g.rows

theorem ppm_eq (palette : Palette) (scale : Nat) (g : Grid) :
    ppm palette scale g =
      ppmHeader (g.size * max scale 1) ++ body palette (max scale 1) g := rfl

theorem ppmLine_eq (palette : Palette) (s : Nat) (row : List Color) :
    ppmLine palette s row = scaled s (bytes palette) row := rfl

theorem length_bytes (row : List Color) : ∀ c ∈ row, (bytes palette c).length = 3 :=
  fun _ _ => rfl

theorem length_ppmLine (hg : g.Square) :
    ∀ row ∈ g.rows, (ppmLine palette s row).length = g.size * s * 3 := by
  intro row hrow
  rw [ppmLine_eq, length_scaled (length_bytes row), hg.length_of_mem_rows row hrow]

theorem length_body (hg : g.Square) :
    (body palette s g).length = 3 * (g.size * s) * (g.size * s) := by
  have hrows : g.rows.length = g.size := by simp [Grid.rows]
  rw [body, length_scaled (length_ppmLine hg), hrows]
  ring

/-- **The point at a place of the picture** has the colour of the cell that it belongs to. -/
theorem getElem?_body (hg : g.Square) (hs : 0 < s) {i j k : Nat} (hi : i < g.size * s)
    (hj : j < g.size * s) (hk : k < 3) :
    (body palette s g)[3 * (i * (g.size * s) + j) + k]? =
      (g.get? ⟨(j / s : Nat), (i / s : Nat)⟩).bind fun c => (bytes palette c)[k]? := by
  have hplace : 3 * (i * (g.size * s) + j) + k = i * (g.size * s * 3) + (j * 3 + k) := by ring
  have hin : j * 3 + k < g.size * s * 3 := by omega
  rw [Nat.mul_comm] at hi hj
  rw [hplace, body, getElem?_scaled hs (length_ppmLine hg) hin,
    ← hg.getElem?_rows (Nat.div_lt_of_lt_mul hj) (Nat.div_lt_of_lt_mul hi), Option.bind_assoc]
  refine congrArg (Option.bind _) (funext fun row => ?_)
  rw [ppmLine_eq, getElem?_scaled hs (length_bytes row) hk]

/-! ### Colours -/

/-- The three bytes from the offset on are bits 16 to 23, bits 8 to 15 and bits 0 to 7 of the code
of the colour. -/
structure Shows (palette : Palette) (bs : List UInt8) (offset : Nat) (color : Color) : Prop where
  red : bs[offset]?.map UInt8.toNat = some ((palette.rgb color).toNat / 65536 % 256)
  green : bs[offset + 1]?.map UInt8.toNat = some ((palette.rgb color).toNat / 256 % 256)
  blue : bs[offset + 2]?.map UInt8.toNat = some ((palette.rgb color).toNat % 256)

theorem toNat_red (palette : Palette) (color : Color) :
    (palette.red color).toNat = (palette.rgb color).toNat / 65536 % 256 := by
  rw [Palette.red, UInt32.toNat_toUInt8, UInt32.toNat_shiftRight, Nat.shiftRight_eq_div_pow]
  rfl

theorem toNat_green (palette : Palette) (color : Color) :
    (palette.green color).toNat = (palette.rgb color).toNat / 256 % 256 := by
  rw [Palette.green, UInt32.toNat_toUInt8, UInt32.toNat_shiftRight, Nat.shiftRight_eq_div_pow]
  rfl

theorem toNat_blue (palette : Palette) (color : Color) :
    (palette.blue color).toNat = (palette.rgb color).toNat % 256 :=
  UInt32.toNat_toUInt8 _

theorem shows_body (hg : g.Square) (hs : 0 < s) {i j : Nat} (hi : i < g.size * s)
    (hj : j < g.size * s) {color : Color}
    (hcolor : g.get? ⟨(j / s : Nat), (i / s : Nat)⟩ = some color) :
    Shows palette (body palette s g) (3 * (i * (g.size * s) + j)) color := by
  have hbyte : ∀ k < 3, (body palette s g)[3 * (i * (g.size * s) + j) + k]? =
      (bytes palette color)[k]? := by
    intro k hk
    rw [getElem?_body hg hs hi hj hk, hcolor, Option.bind_some]
  refine ⟨?_, ?_, ?_⟩
  · rw [← toNat_red, ← Nat.add_zero (3 * _), hbyte 0 (by decide)]
    rfl
  · rw [← toNat_green, hbyte 1 (by decide)]
    rfl
  · rw [← toNat_blue, hbyte 2 (by decide)]
    rfl

/-- Three bytes show colours of one code, as far as it counts. -/
theorem Shows.rgb_eq {bs : List UInt8} {offset : Nat} {a b : Color}
    (ha : Shows palette bs offset a) (hb : Shows palette bs offset b) :
    (palette.rgb a).toNat % 16777216 = (palette.rgb b).toNat % 16777216 := by
  have hred := Option.some.inj (ha.red.symm.trans hb.red)
  have hgreen := Option.some.inj (ha.green.symm.trans hb.green)
  have hblue := Option.some.inj (ha.blue.symm.trans hb.blue)
  omega

/-- The palette tells the colours apart by the bits that a picture has of them. -/
def Distinct (palette : Palette) : Prop :=
  ∀ a b, (palette.rgb a).toNat % 16777216 = (palette.rgb b).toNat % 16777216 → a = b

/-- The first point of a cell shows its colour. -/
theorem shows_cell (hg : g.Square) (hs : 0 < s) {x y : Nat} (hx : x < g.size) (hy : y < g.size)
    {color : Color} (hcolor : g.get? ⟨x, y⟩ = some color) :
    Shows palette (body palette s g) (3 * (y * s * (g.size * s) + x * s)) color := by
  refine shows_body hg hs (Nat.mul_lt_mul_of_pos_right hy hs) (Nat.mul_lt_mul_of_pos_right hx hs) ?_
  rw [Nat.mul_div_cancel x hs, Nat.mul_div_cancel y hs]
  exact hcolor

/-- Grids of one size whose points are the same have the same cells. -/
theorem get?_eq_of_body (hpalette : Distinct palette) (hs : 0 < s) {g g' : Grid} (hg : g.Square)
    (hg' : g'.Square) (hsize : g'.size = g.size) (h : body palette s g' = body palette s g)
    (p : Point) : g'.get? p = g.get? p := by
  by_cases hp : p ∈ g
  · obtain ⟨x, y, hx, hy, rfl⟩ := Grid.exists_natCast_of_mem hp
    obtain ⟨a, ha⟩ := hg.exists_get? hp
    rw [← hsize] at hx hy
    obtain ⟨b, hb⟩ := hg'.exists_get? (Grid.natCast_mem.2 ⟨hx, hy⟩)
    have hshows' : Shows palette (body palette s g') _ b := shows_cell hg' hs hx hy hb
    rw [hsize] at hx hy hshows'
    have hshows : Shows palette (body palette s g) _ a := shows_cell hg hs hx hy ha
    rw [h] at hshows'
    rw [ha, hb, hpalette b a (hshows'.rgb_eq hshows)]
  · have hp' : p ∉ g' := by
      rwa [Grid.mem_def, hsize, ← Grid.mem_def]
    rw [Grid.get?_eq_none hp, Grid.get?_eq_none hp']

/-- **The bytes determine the grid.** -/
theorem grid_eq_of_ppm (hpalette : Distinct palette) {g g' : Grid} (hg : g.Square)
    (hg' : g'.Square) (h : ppm palette scale g' = ppm palette scale g) : g' = g := by
  have hs : 0 < max scale 1 := Nat.lt_of_lt_of_le Nat.zero_lt_one (Nat.le_max_right scale 1)
  rw [ppm_eq, ppm_eq] at h
  have hside : g'.size * max scale 1 = g.size * max scale 1 := by
    have hread := congrArg readSide h
    rwa [readSide_ppmHeader, readSide_ppmHeader] at hread
  have hsize : g'.size = g.size := Nat.eq_of_mul_eq_mul_right hs hside
  rw [hside] at h
  have hbody := List.append_cancel_left h
  exact Grid.ext_get? hg' hg hsize (get?_eq_of_body hpalette hs hg hg' hsize hbody)

/-- **A picture is exact.** Behind its header, a picture has three bytes for each of its points, row
by row, which are the red, the green and the blue of the cell that the point belongs to. If these
tell the colours apart, no other grid has the same picture. -/
theorem ppm_exact (palette : Palette) (scale : Nat) {c : Canvas} (hc : c.WellFormed) :
    ∃ s side body, s = max scale 1 ∧ side = c.grid.size * s ∧
      ppm palette scale c.grid = s!"P6\n{side} {side}\n255\n".toUTF8.data.toList ++ body ∧
      body.length = 3 * side * side ∧
      (∀ i j, i < side → j < side → ∃ color,
        c.grid.get? ⟨(j / s : Nat), (i / s : Nat)⟩ = some color ∧
          Shows palette body (3 * (i * side + j)) color) ∧
      (Distinct palette → ∀ c' : Canvas, c'.WellFormed →
        ppm palette scale c'.grid = ppm palette scale c.grid → c'.grid = c.grid) := by
  have hs : 0 < max scale 1 := Nat.lt_of_lt_of_le Nat.zero_lt_one (Nat.le_max_right scale 1)
  refine ⟨_, _, body palette (max scale 1) c.grid, rfl, rfl, ?_, length_body hc.square, ?_, ?_⟩
  · rw [ppm_eq, ppmHeader_eq]
    rfl
  · intro i j hi hj
    have hmem : (⟨(j / max scale 1 : Nat), (i / max scale 1 : Nat)⟩ : Point) ∈ c.grid := by
      rw [Nat.mul_comm] at hi hj
      exact Grid.natCast_mem.2 ⟨Nat.div_lt_of_lt_mul hj, Nat.div_lt_of_lt_mul hi⟩
    obtain ⟨color, hcolor⟩ := hc.square.exists_get? hmem
    exact ⟨color, hcolor, shows_body hc.square hs hi hj hcolor⟩
  · intro hpalette c' hc' h
    exact grid_eq_of_ppm hpalette hc.square hc'.square h

/-- A canvas of two by two cells, with the one at the top on the right in red. -/
def corner : Canvas := ⟨⟨2, #[.white, .red, .white, .white]⟩, none, ⟨.red, 1⟩⟩

theorem wellFormed_corner : corner.WellFormed where
  square := rfl
  cursor_mem p hp := by cases hp

theorem distinct_standard : Distinct .standard := by
  intro a b
  cases a <;> cases b <;> decide

/-- Each cell is two points wide and high, so that the third point of the second row is red and the
second point of the third row is not. -/
theorem ppm_exact_corner :
    corner.WellFormed ∧ Distinct .standard ∧
      ∃ body, ppm .standard 2 corner.grid = "P6\n4 4\n255\n".toUTF8.data.toList ++ body ∧
        body.length = 48 ∧ Shows .standard body 18 .red ∧ Shows .standard body 27 .white ∧
        ∀ c' : Canvas, c'.WellFormed → ppm .standard 2 c'.grid = ppm .standard 2 corner.grid →
          c'.grid = corner.grid := by
  obtain ⟨s, side, body, hs, hside, hppm, hlength, hshows, hunique⟩ :=
    ppm_exact .standard 2 wellFormed_corner
  obtain rfl : s = 2 := hs
  obtain rfl : side = 4 := hside
  obtain ⟨color, hcolor, hred⟩ := hshows 1 2 (by decide) (by decide)
  obtain rfl : .red = color := Option.some.inj hcolor
  obtain ⟨color, hcolor, hwhite⟩ := hshows 2 1 (by decide) (by decide)
  obtain rfl : .white = color := Option.some.inj hcolor
  exact ⟨wellFormed_corner, distinct_standard, body, hppm, hlength, hred, hwhite,
    hunique distinct_standard⟩

end Picture

end Easel
