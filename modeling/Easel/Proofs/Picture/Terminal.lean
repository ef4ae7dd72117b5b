import Easel.Picture.Terminal
import Easel.Proofs.Picture.Ppm

/-!
# Pictures for the terminal tell canvases apart

A picture for the terminal is text throughout: the frame, the rows and the cells follow each other
without anything that says how long they are. Yet each part shows where it ends. Cells as letters
have one length, and a number in the code of a colour ends where its digits do. So a row of cells
ends at the frame, which no cell begins with, and the rows end at the lower edge, which no row
begins with (`Picture.SelfDelimiting.run`). From two pictures that are the same the rows and the
cells can therefore be taken off in step, and each cell looks the same in both
(`Picture.terminal_eq_iff`).

What remains is how much a cell shows. Its place shows the cursor. As a letter, the cell of the
cursor hides its colour; as a blank, each cell shows the bits of its colour that are drawn.
-/

namespace Easel.Picture

/-! ### Texts that show where they end -/

section

variable {α β : Type} {f : α → List β} {l l' : List α} {d : β} {s t : List β}

/-- Whatever follows the text of an element, it can be told where that text ends. -/
def SelfDelimiting (f : α → List β) : Prop :=
  ∀ a b s t, f a ++ s = f b ++ t → f a = f b ∧ s = t

/-- The text begins with another sign than `d`. -/
def BeginsOther (d : β) (cs : List β) : Prop := ∃ e rest, cs = e :: rest ∧ e ≠ d

theorem BeginsOther.append_ne {cs : List β} (h : BeginsOther d cs) (s t : List β) :
    cs ++ s ≠ d :: t := by
  obtain ⟨e, rest, rfl, hne⟩ := h
  intro heq
  exact hne (List.cons.inj heq).1

theorem selfDelimiting_of_length {n : Nat} (h : ∀ a, (f a).length = n) : SelfDelimiting f :=
  fun a b _ _ hab => List.append_inj hab ((h a).trans (h b).symm)

/-- **A run of texts** ends at a sign that none of them begins with. -/
theorem SelfDelimiting.run (hf : SelfDelimiting f) (hl : ∀ a ∈ l, BeginsOther d (f a))
    (hl' : ∀ a ∈ l', BeginsOther d (f a)) (h : l.flatMap f ++ d :: s = l'.flatMap f ++ d :: t) :
    l.map f = l'.map f ∧ s = t := by
  induction l generalizing l' with
  | nil =>
    cases l' with
    | nil => exact ⟨rfl, (List.cons.inj h).2⟩
    | cons b l' =>
      rw [List.flatMap_cons, List.append_assoc] at h
      exact absurd h.symm ((hl' b List.mem_cons_self).append_ne _ _)
  | cons a l ih =>
    rw [List.flatMap_cons, List.append_assoc] at h
    cases l' with
    | nil => exact absurd h ((hl a List.mem_cons_self).append_ne _ _)
    | cons b l' =>
      rw [List.flatMap_cons, List.append_assoc] at h
      obtain ⟨hab, hrest⟩ := hf a b _ _ h
      obtain ⟨hmap, hst⟩ := ih (fun c hc => hl c (List.mem_cons_of_mem a hc))
        (fun c hc => hl' c (List.mem_cons_of_mem b hc)) hrest
      exact ⟨by rw [List.map_cons, List.map_cons, hab, hmap], hst⟩

/-- A run of single signs. -/
theorem eq_of_append_cons {cs ds : List β} (hcs : ∀ c ∈ cs, c ≠ d) (hds : ∀ c ∈ ds, c ≠ d)
    (h : cs ++ d :: s = ds ++ d :: t) : cs = ds ∧ s = t := by
  have hsingle : SelfDelimiting fun c : β => [c] := selfDelimiting_of_length fun _ => rfl
  rw [← List.flatMap_singleton' cs, ← List.flatMap_singleton' ds] at h
  obtain ⟨hmap, hst⟩ := hsingle.run (fun c hc => ⟨c, [], rfl, hcs c hc⟩)
    (fun c hc => ⟨c, [], rfl, hds c hc⟩) h
  exact ⟨List.map_injective_iff.2 List.singleton_injective hmap, hst⟩

end

/-! ### Cells -/

/-- How a cell looks in a certain colour, with the cursor on it or without. -/
def look (style : Style) (cell : Color × Bool) : List Char := (cellText style cell.1 cell.2).toList

variable {palette : Palette} {a b : Color} {m n : Bool} {s t : List Char}

theorem look_letters (a : Color) (m : Bool) :
    look .letters (a, m) = if m then ['@', '@'] else [letterFor a, letterFor a] := by
  cases m with
  | true => exact String.toList_ofList (l := ['@', '@'])
  | false => exact String.toList_ofList

theorem letterFor_injective (h : letterFor a = letterFor b) : a = b := by
  revert h
  cases a <;> cases b <;> decide

theorem letterFor_ne_mark (a : Color) : letterFor a ≠ '@' := by
  cases a <;> decide

/-- **A letter** shows the cursor, and the colour where the cursor is not. -/
theorem look_letters_eq_iff :
    look .letters (a, m) = look .letters (b, n) ↔ m = n ∧ (m = false → a = b) := by
  rw [look_letters, look_letters]
  cases m <;> cases n
  · simpa using ⟨letterFor_injective, congrArg letterFor⟩
  · simp [letterFor_ne_mark]
  · simp [(letterFor_ne_mark b).symm]
  · simp

theorem selfDelimiting_letters : SelfDelimiting (look .letters) := by
  refine selfDelimiting_of_length (n := 2) ?_
  rintro ⟨a, m⟩
  rw [look_letters]
  cases m <;> rfl

/-- What stands in a blank. -/
def filling (m : Bool) : List Char := if m then ['@', '@'] else [' ', ' ']

theorem filling_append (h : filling m ++ s = filling n ++ t) : m = n ∧ s = t := by
  cases m <;> cases n <;> simp_all [filling]

/-- A blank as three numbers, each with the sign that it ends at, and what stands in it. -/
theorem look_blocks (palette : Palette) (a : Color) (m : Bool) :
    look (.blocks palette) (a, m) =
      ['\x1b', '[', '4', '8', ';', '2', ';'] ++
        (Nat.toDigits 10 (palette.red a).toNat ++ ';' ::
          (Nat.toDigits 10 (palette.green a).toNat ++ ';' ::
            (Nat.toDigits 10 (palette.blue a).toNat ++ 'm' ::
              (filling m ++ ['\x1b', '[', '0', 'm'])))) := by
  have hfilling : (if m then "@@" else "  ").toList = filling m := by
    cases m <;> rfl
  show ("\x1b[48;2;" ++ toString (palette.red a).toNat ++ ";" ++
    toString (palette.green a).toNat ++ ";" ++ toString (palette.blue a).toNat ++ "m" ++
      (if m then "@@" else "  ") ++ "\x1b[0m").toList = _
  simp only [String.toList_append, Nat.toString_eq_ofList_toDigits, String.toList_ofList,
    List.append_assoc, hfilling]
  rfl

/-- A number ends at the first sign that is no digit. -/
theorem toDigits_append_cons {i j : Nat} {d : Char}
    (h : Nat.toDigits 10 i ++ d :: s = Nat.toDigits 10 j ++ d :: t)
    (hd : d.toNat < 48 ∨ 57 < d.toNat) : i = j ∧ s = t := by
  have hne : ∀ k, ∀ c ∈ Nat.toDigits 10 k, c ≠ d := by
    rintro k c hc rfl
    have hdigit := toNat_of_mem_toDigits hc
    omega
  obtain ⟨hdigits, hst⟩ := eq_of_append_cons (hne i) (hne j) h
  have hvalue := congrArg (Nat.ofDigitChars 10 · 0) hdigits
  simp only [Nat.ofDigitChars_toDigits (by decide : 1 < 10) (by decide)] at hvalue
  exact ⟨hvalue, hst⟩

/-- The bits of the code of a colour that are drawn. -/
def code (palette : Palette) (color : Color) : Nat := (palette.rgb color).toNat % 16777216

/-- They are a number for each of red, green and blue. -/
theorem code_eq_iff :
    code palette a = code palette b ↔
      (palette.red a).toNat = (palette.red b).toNat ∧
        (palette.green a).toNat = (palette.green b).toNat ∧
          (palette.blue a).toNat = (palette.blue b).toNat := by
  simp only [toNat_red, toNat_green, toNat_blue, code]
  omega

/-- **A blank** shows the cursor and the colour, as far as it is drawn, and where it ends. -/
theorem look_blocks_append
    (h : look (.blocks palette) (a, m) ++ s = look (.blocks palette) (b, n) ++ t) :
    m = n ∧ code palette a = code palette b ∧ s = t := by
  simp only [look_blocks, List.append_assoc, List.cons_append, List.nil_append, List.cons.injEq,
    true_and] at h
  obtain ⟨hred, h⟩ := toDigits_append_cons h (.inr (by decide))
  obtain ⟨hgreen, h⟩ := toDigits_append_cons h (.inr (by decide))
  obtain ⟨hblue, h⟩ := toDigits_append_cons h (.inr (by decide))
  obtain ⟨hmark, h⟩ := filling_append h
  exact ⟨hmark, code_eq_iff.2 ⟨hred, hgreen, hblue⟩, by simpa using h⟩

theorem look_blocks_eq_iff :
    look (.blocks palette) (a, m) = look (.blocks palette) (b, n) ↔
      m = n ∧ code palette a = code palette b := by
  constructor
  · intro h
    obtain ⟨hmn, hab, -⟩ := look_blocks_append (congrArg (· ++ []) h)
    exact ⟨hmn, hab⟩
  · rintro ⟨rfl, hab⟩
    obtain ⟨hred, hgreen, hblue⟩ := code_eq_iff.1 hab
    rw [look_blocks, look_blocks, hred, hgreen, hblue]

theorem selfDelimiting_look (style : Style) : SelfDelimiting (look style) := by
  cases style with
  | letters => exact selfDelimiting_letters
  | blocks palette =>
    rintro ⟨a, m⟩ ⟨b, n⟩ s t h
    obtain ⟨hmn, hab, hst⟩ := look_blocks_append h
    exact ⟨look_blocks_eq_iff.2 ⟨hmn, hab⟩, hst⟩

/-- No cell begins like the side of the frame. -/
theorem beginsOther_look (style : Style) (cell : Color × Bool) :
    BeginsOther '│' (look style cell) := by
  obtain ⟨a, m⟩ := cell
  cases style with
  | letters =>
    have hletter : letterFor a ≠ '│' := by cases a <;> decide
    rw [look_letters]
    cases m with
    | true => exact ⟨'@', ['@'], rfl, by decide⟩
    | false => exact ⟨letterFor a, [letterFor a], rfl, hletter⟩
  | blocks palette =>
    rw [look_blocks]
    exact ⟨'\x1b', _, rfl, by decide⟩

/-! ### Rows -/

variable {style : Style} {row row' : List (Color × Bool)}

/-- How a row looks in the frame. -/
def rowLook (style : Style) (row : List (Color × Bool)) : List Char :=
  '│' :: (row.flatMap (look style) ++ ['│', '\n'])

theorem rowLook_append (h : rowLook style row ++ s = rowLook style row' ++ t) :
    row.map (look style) = row'.map (look style) ∧ s = t := by
  simp only [rowLook, List.cons_append, List.append_assoc, List.cons.injEq, true_and] at h
  obtain ⟨hrow, hrest⟩ := (selfDelimiting_look style).run
    (fun cell _ => beginsOther_look style cell) (fun cell _ => beginsOther_look style cell) h
  exact ⟨hrow, (List.cons.inj hrest).2⟩

/-- **Rows look the same** if their cells do. -/
theorem rowLook_eq_iff :
    rowLook style row = rowLook style row' ↔ row.map (look style) = row'.map (look style) := by
  constructor
  · intro h
    exact (rowLook_append (congrArg (· ++ []) h)).1
  · intro h
    rw [rowLook, rowLook, List.flatMap_def, List.flatMap_def, h]

theorem selfDelimiting_rowLook (style : Style) : SelfDelimiting (rowLook style) := by
  intro row row' s t h
  obtain ⟨hrow, hst⟩ := rowLook_append h
  exact ⟨rowLook_eq_iff.2 hrow, hst⟩

/-! ### Canvases -/

variable {c c' : Canvas}

/-- The colour of a point of the canvas, and whether the cursor is there. -/
def cellAt (c : Canvas) (p : Point) : Color × Bool :=
  ((c.grid.get? p).getD .background, decide (c.cursor = some p))

/-- The cells of a row. -/
def rowAt (c : Canvas) (y : Nat) : List (Color × Bool) :=
  (List.range c.grid.size).map fun (x : Nat) => cellAt c ⟨x, y⟩

/-- A list by its places. -/
theorem map_zipIdx {α β : Type} {l : List α} {k : Nat} (h : l.length = k) (d : α)
    (f : α × Nat → β) : l.zipIdx.map f = (List.range k).map fun i => f (l[i]?.getD d, i) := by
  refine List.ext_getElem? fun i => ?_
  rw [List.getElem?_map, List.getElem?_map, List.getElem?_zipIdx]
  by_cases hi : i < k
  · simp [List.getElem?_range hi, List.getElem?_eq_getElem (h ▸ hi)]
  · rw [List.getElem?_eq_none (by omega), List.getElem?_eq_none (by simpa using hi)]
    rfl

theorem toList_rowText (hc : c.grid.Square) (style : Style) {y : Nat} (hy : y < c.grid.size) :
    (rowText style c.cursor y (c.grid.rows[y]?.getD [])).toList =
      (rowAt c y).flatMap (look style) := by
  have hrows : y < c.grid.rows.length := by simpa [Grid.rows] using hy
  obtain ⟨row, hrow⟩ : ∃ row, c.grid.rows[y]? = some row := ⟨_, List.getElem?_eq_getElem hrows⟩
  have hlength : row.length = c.grid.size :=
    hc.length_of_mem_rows row (List.mem_of_getElem? hrow)
  rw [hrow, Option.getD_some, rowText, String.toList_join, map_zipIdx hlength .background,
    List.flatMap_map, rowAt, List.flatMap_map]
  refine List.flatMap_congr fun x hx => ?_
  have hget := hc.getElem?_rows (List.mem_range.1 hx) hy
  rw [hrow, Option.bind_some] at hget
  show (cellText style (row[x]?.getD .background) (decide (c.cursor = some ⟨x, y⟩))).toList = _
  rw [hget]
  rfl

/-- **The text of a picture:** the upper edge, the rows, and the lower edge. -/
theorem toList_terminal (hc : c.grid.Square) (style : Style) :
    (terminal style c).toList =
      '┌' :: (List.replicate (2 * c.grid.size) '─' ++ '┐' :: '\n' ::
        (((List.range c.grid.size).map (rowAt c)).flatMap (rowLook style) ++
          '└' :: (List.replicate (2 * c.grid.size) '─' ++ ['┘', '\n']))) := by
  have hrows : c.grid.rows.length = c.grid.size := by simp [Grid.rows]
  have hmiddle : (List.range c.grid.size).flatMap (fun y =>
      ("│" ++ rowText style c.cursor y (c.grid.rows[y]?.getD []) ++ "│\n").toList) =
        ((List.range c.grid.size).map (rowAt c)).flatMap (rowLook style) := by
    rw [List.flatMap_map]
    refine List.flatMap_congr fun y hy => ?_
    rw [String.toList_append, String.toList_append, toList_rowText hc style (List.mem_range.1 hy)]
    rfl
  simp only [terminal, map_zipIdx hrows [], String.toList_append, String.toList_join,
    String.toList_ofList, List.flatMap_map, ← hmiddle, List.append_assoc]
  rfl

/-- The rows of canvases of one size look the same if every cell does. -/
theorem map_rowLook_eq_iff (hsize : c.grid.size = c'.grid.size) :
    ((List.range c.grid.size).map (rowAt c)).map (rowLook style) =
        ((List.range c'.grid.size).map (rowAt c')).map (rowLook style) ↔
      ∀ p ∈ c.grid, look style (cellAt c p) = look style (cellAt c' p) := by
  have hrow : ∀ y : Nat, rowLook style (rowAt c y) = rowLook style (rowAt c' y) ↔
      ∀ x < c.grid.size, look style (cellAt c ⟨x, y⟩) = look style (cellAt c' ⟨x, y⟩) := by
    intro y
    rw [rowLook_eq_iff, rowAt, rowAt, ← hsize, List.map_map, List.map_map, List.map_inj_left]
    simp only [List.mem_range, Function.comp_apply]
  rw [← hsize, List.map_map, List.map_map, List.map_inj_left]
  simp only [List.mem_range, Function.comp_apply, hrow]
  constructor
  · intro h p hp
    obtain ⟨x, y, hx, hy, rfl⟩ := Grid.exists_natCast_of_mem hp
    exact h y hy x hx
  · intro h y hy x hx
    exact h _ (Grid.natCast_mem.2 ⟨hx, hy⟩)

/-- No row begins like the lower edge. -/
theorem beginsOther_rowLook (row : List (Color × Bool)) : BeginsOther '└' (rowLook style row) :=
  ⟨'│', _, rfl, by decide⟩

/-- **Pictures are the same** if the canvases have one size and every cell looks the same. -/
theorem terminal_eq_iff_look (hc : c.grid.Square) (hc' : c'.grid.Square) :
    terminal style c = terminal style c' ↔
      c.grid.size = c'.grid.size ∧
        ∀ p ∈ c.grid, look style (cellAt c p) = look style (cellAt c' p) := by
  rw [← String.toList_inj, toList_terminal hc, toList_terminal hc']
  constructor
  · intro h
    obtain ⟨hedge, h⟩ := eq_of_append_cons (by simp) (by simp) (List.cons.inj h).2
    obtain ⟨hrows, -⟩ := (selfDelimiting_rowLook style).run
      (fun row _ => beginsOther_rowLook row) (fun row _ => beginsOther_rowLook row)
      (List.cons.inj h).2
    have hsize : c.grid.size = c'.grid.size := by
      have hlength := congrArg List.length hedge
      rw [List.length_replicate, List.length_replicate] at hlength
      omega
    exact ⟨hsize, (map_rowLook_eq_iff hsize).1 hrows⟩
  · rintro ⟨hsize, hlook⟩
    rw [List.flatMap_def, List.flatMap_def, (map_rowLook_eq_iff hsize).2 hlook, hsize]

/-! ### What a picture shows -/

/-- The cursors of canvases of one size are the same if they are so at every point. -/
theorem cursor_eq_iff (hc : c.WellFormed) (hc' : c'.WellFormed)
    (hsize : c.grid.size = c'.grid.size) :
    c.cursor = c'.cursor ↔ ∀ p ∈ c.grid, (cellAt c p).2 = (cellAt c' p).2 := by
  simp only [cellAt, decide_eq_decide]
  constructor
  · intro h p _
    rw [h]
  · intro h
    refine Option.ext fun p => ⟨fun hp => ?_, fun hp => ?_⟩
    · exact (h p (hc.cursor_mem p hp)).1 hp
    · have hmem := hc'.cursor_mem p hp
      rw [Grid.mem_def, ← hsize] at hmem
      exact (h p hmem).2 hp

/-- The colours of two canvases of one size agree in some respect wherever they are looked at. -/
theorem forall_colors_iff (hc : c.WellFormed) (hc' : c'.WellFormed)
    (hsize : c.grid.size = c'.grid.size) {κ : Type} (f : Color → κ) (P : Point → Prop) :
    (∀ p ∈ c.grid, P p → f (cellAt c p).1 = f (cellAt c' p).1) ↔
      ∀ p, P p → (c.grid.get? p).map f = (c'.grid.get? p).map f := by
  have hmem : ∀ p, p ∈ c.grid ↔ p ∈ c'.grid := by simp [Grid.mem_def, hsize]
  refine forall_congr' fun p => ?_
  by_cases hp : p ∈ c.grid
  · obtain ⟨a, ha⟩ := hc.square.exists_get? hp
    obtain ⟨b, hb⟩ := hc'.square.exists_get? ((hmem p).1 hp)
    simp [hp, cellAt, ha, hb]
  · simp [hp, Grid.get?_eq_none hp, Grid.get?_eq_none fun h => hp ((hmem p).2 h)]

/-- Pictures in a style in which a cell shows the cursor and, under some condition on its place, its
colour in some respect. -/
theorem terminal_eq_iff_of_look (style : Style) (hc : c.WellFormed) (hc' : c'.WellFormed)
    {κ : Type} (f : Color → κ) (P : Point → Prop)
    (hlook : ∀ p, look style (cellAt c p) = look style (cellAt c' p) ↔
      (cellAt c p).2 = (cellAt c' p).2 ∧ (P p → f (cellAt c p).1 = f (cellAt c' p).1)) :
    terminal style c = terminal style c' ↔
      c.grid.size = c'.grid.size ∧ c.cursor = c'.cursor ∧
        ∀ p, P p → (c.grid.get? p).map f = (c'.grid.get? p).map f := by
  rw [terminal_eq_iff_look hc.square hc'.square]
  refine and_congr_right fun hsize => ?_
  rw [cursor_eq_iff hc hc' hsize, ← forall_colors_iff hc hc' hsize]
  simp only [hlook, forall_and]

/-- **What a picture for the terminal hides.** Two canvases have the same picture in letters if they
have the same size, the same cursor and the same colour in every cell but that of the cursor. They
have the same picture in blanks if they have the same size, the same cursor and, in every cell,
colours that are drawn alike. -/
theorem terminal_eq_iff (hc : c.WellFormed) (hc' : c'.WellFormed) :
    (terminal .letters c = terminal .letters c' ↔
      c.grid.size = c'.grid.size ∧ c.cursor = c'.cursor ∧
        ∀ p, c.cursor ≠ some p → c.grid.get? p = c'.grid.get? p) ∧
    ∀ palette : Palette, terminal (.blocks palette) c = terminal (.blocks palette) c' ↔
      c.grid.size = c'.grid.size ∧ c.cursor = c'.cursor ∧
        ∀ p, (c.grid.get? p).map (code palette) = (c'.grid.get? p).map (code palette) := by
  constructor
  · have hletters := terminal_eq_iff_of_look .letters hc hc' id (c.cursor ≠ some ·) fun p =>
      look_letters_eq_iff.trans (by simp [cellAt])
    simpa only [Option.map_id, id] using hletters
  · intro palette
    have hblocks := terminal_eq_iff_of_look (.blocks palette) hc hc' (code palette)
      (fun _ => True) fun p => look_blocks_eq_iff.trans (by simp [cellAt])
    simpa only [true_imp_iff] using hblocks

/-- A canvas of two by two cells with the cursor on a cell in the given colour. -/
def covering (color : Color) : Canvas :=
  ⟨(Grid.blank 2).set ⟨1, 0⟩ color, some ⟨1, 0⟩, ⟨.red, 1⟩⟩

theorem wellFormed_covering (color : Color) : (covering color).WellFormed :=
  .of_placed ((Grid.square_blank 2).set _ _) rfl (Grid.mem_set.2 (by decide))

theorem get?_covering (color : Color) (p : Point) :
    (covering color).grid.get? p = if p = ⟨1, 0⟩ then some color else (Grid.blank 2).get? p := by
  rw [covering, Grid.get?_set (Grid.square_blank 2)]
  exact if_congr (and_iff_left (by decide)) rfl rfl

/-- A palette whose codes differ only in bits that are not drawn. -/
def undrawn : Palette where
  rgb color := .ofNat (color.index * 16777216)

/-- Under the cursor a letter does not show whether the cell is red or blue. A blank does, unless
both are drawn alike. -/
theorem terminal_eq_iff_covering :
    (covering .red).WellFormed ∧ (covering .blue).WellFormed ∧
      terminal .letters (covering .red) = terminal .letters (covering .blue) ∧
      terminal (.blocks .standard) (covering .red) ≠ terminal (.blocks .standard) (covering .blue) ∧
      terminal (.blocks undrawn) (covering .red) = terminal (.blocks undrawn) (covering .blue) := by
  obtain ⟨hletters, hblocks⟩ :=
    terminal_eq_iff (wellFormed_covering .red) (wellFormed_covering .blue)
  refine ⟨wellFormed_covering .red, wellFormed_covering .blue, hletters.2 ⟨rfl, rfl, ?_⟩, ?_,
    (hblocks undrawn).2 ⟨rfl, rfl, ?_⟩⟩
  · intro p hp
    have hne : p ≠ ⟨1, 0⟩ := fun h => hp (congrArg some h.symm)
    rw [get?_covering, get?_covering, if_neg hne, if_neg hne]
  · intro h
    obtain ⟨-, -, hcode⟩ := (hblocks .standard).1 h
    have hcell := hcode ⟨1, 0⟩
    rw [get?_covering, get?_covering, if_pos rfl, if_pos rfl] at hcell
    exact absurd (Option.some.inj hcell) (by decide)
  · intro p
    rw [get?_covering, get?_covering]
    split <;> rfl

end Easel.Picture
