import Easel.Proofs.Canvas.Changes
import Easel.Proofs.Canvas.Storage
import Easel.Proofs.Grammar.Printer
import Easel.Proofs.Program.Effects

/-!
# The life of a canvas

A canvas is made once, and then anything can be done with it any number of times: single actions and
whole programs, which may fail or be cut off half-way (`Canvas.Arises`). Whatever is done, the canvas
keeps its size, there is one colour for each cell, the cursor is on the grid, and the width of the
brush is odd (`Canvas.Sound`). So all cells are found where they are kept (`Canvas.InRange`), and a
program that asks for the cursor is told where it is (`Canvas.TellsCursor`).
-/

namespace Easel

/-! ### Actions -/

/-- What can be done with a canvas. -/
inductive Action where
  /-- Places the cursor. -/
  | spawn (x y : Int32)
  /-- Takes a brush of the named colour. -/
  | color (name : String)
  /-- Takes a brush of the width for the given one. -/
  | size (width : Int32)
  | line (dx dy distance : Int32)
  | circle (dx dy radius : Int32)
  | rectangle (dx dy distance width height : Int32)
  | fill
  | clear
  /-- Carries out a program text, within a limit if one is given. -/
  | program (source : String) (limit? : Option Nat)

/-- The canvas that a drawing action leaves, with success or without. -/
def Canvas.after {α : Type} (c : Canvas) (d : Draw α) : Canvas :=
  match d c with
  | .ok _ c' => c'
  | .error _ c' => c'

/-- The canvas that an action leaves, with success or without. There is none only if the action is a
program that runs forever. -/
def Action.leaves? (c : Canvas) : Action → Option Canvas
  | spawn x y => some (c.after (Canvas.moveTo ⟨x.toInt, y.toInt⟩))
  | color name => some (c.after (Canvas.takeColor name))
  | size width => some (c.takeWidth width.toInt)
  | line dx dy distance => some (c.after (Canvas.line dx.toInt dy.toInt distance.toInt))
  | circle dx dy radius => some (c.after (Canvas.circle dx.toInt dy.toInt radius.toInt))
  | rectangle dx dy distance width height =>
    some (c.after (Canvas.rectangle dx.toInt dy.toInt distance.toInt width.toInt height.toInt))
  | fill => some (c.after Canvas.fill)
  | clear => some c.clear
  | program source limit? => (drawOn source limit? c).map Prod.fst

namespace Canvas

/-- The canvases in the life of one that is made with the given size and colour. -/
inductive Arises (size : Nat) (color : Color) : Canvas → Prop where
  | new {c : Canvas} : Canvas.new size color = .ok c → Arises size color c
  | action {c c' : Canvas} (a : Action) : Arises size color c → a.leaves? c = some c' →
      Arises size color c'
  /-- A program has begun `n` steps. It may run forever. -/
  | within {c : Canvas} {source : String} {p : Program} (n : Nat) : Arises size color c →
      Program.ofSource source = .ok p → Arises size color (p.run n c).canvas

variable {size : Nat} {color : Color} {c c' : Canvas} {α : Type} {d : Draw α} {f : Fault}

theorem after_of_ok {a : α} (h : d c = .ok a c') : c.after d = c' := by
  rw [after, h]

theorem after_of_error (h : d c = .error f c') : c.after d = c' := by
  rw [after, h]

/-! ### Soundness -/

/-- What is true of a canvas of the given size throughout its life. -/
structure Sound (size : Nat) (c : Canvas) : Prop where
  /-- The canvas keeps its size. -/
  size_eq : c.grid.size = size
  /-- There is one colour for each cell, and the cursor, if it is placed, is on the grid. -/
  wellFormed : c.WellFormed
  /-- The width of the brush is odd, and so at least one. -/
  odd : Odd c.brush.width
  /-- The width of the brush is a 32-bit integer. -/
  width_le : c.brush.width ≤ 2147483647

theorem new_eq_ok :
    Canvas.new size color = .ok c ↔
      (1 ≤ size ∧ size ≤ 2147483647) ∧ c = ⟨.blank size, none, ⟨color, 1⟩⟩ := by
  have hmax : maxSize = 2147483647 := by decide
  unfold Canvas.new
  rw [hmax]
  split
  · next h =>
    constructor
    · intro hc
      cases hc
      exact ⟨h, rfl⟩
    · rintro ⟨-, rfl⟩
      rfl
  · next h =>
    constructor
    · intro hc
      cases hc
    · rintro ⟨h', -⟩
      exact absurd h' h

theorem sound_new (h : Canvas.new size color = .ok c) : c.Sound size := by
  obtain ⟨-, rfl⟩ := new_eq_ok.1 h
  exact ⟨rfl, ⟨Grid.square_blank size, fun p hp => by cases hp⟩, odd_one,
    show 1 ≤ 2147483647 by decide⟩

theorem Change.size_eq (h : c.Change c') : c'.grid.size = c.grid.size := by
  cases h with
  | color | width => rfl
  | stamps ps => exact size_stampAll c ps
  | cells hsize => exact hsize

theorem change_stampAll (hc : c.grid.Square) (ps : List Point) : c.Change (c.stampAll ps) := by
  rw [stampAll_eq]
  exact .cells (size_stampAll c ps) (square_stampAll hc ps)

namespace Sound

/-- Drawing keeps a canvas sound, as long as it keeps the width of the brush. -/
theorem change (hc : c.Sound size) (h : c.Change c') (hwidth : c'.brush.width = c.brush.width) :
    c'.Sound size where
  size_eq := h.size_eq.trans hc.size_eq
  wellFormed := h.wellFormed hc.wellFormed
  odd := hwidth ▸ hc.odd
  width_le := hwidth ▸ hc.width_le

theorem stampAll (hc : c.Sound size) (ps : List Point) : (c.stampAll ps).Sound size :=
  hc.change (change_stampAll hc.wellFormed.square ps) (by rw [brush_stampAll])

theorem moved (hc : c.Sound size) (ps : List Point) {p : Point} (hp : p ∈ c.grid) :
    Sound size { c.stampAll ps with cursor := some p } :=
  hc.change (.stamps ps hp) (by rw [brush_stampAll])

theorem fill (hc : c.Sound size) {painted : Option Nat} (h : fill c = .ok painted c') :
    c'.Sound size := by
  have hchange := (allOrNothing_fill hc.wellFormed).change painted c' h
  obtain ⟨grid, rfl⟩ := fill_eq_ok h
  exact hc.change hchange rfl

/-- The width for a 32-bit integer is odd and one again, also for the least of them. -/
theorem takeWidth (hc : c.Sound size) (w : Int32) : (c.takeWidth w.toInt).Sound size := by
  have hmax : Int32.maxValue.toInt = 2147483647 := by decide
  have hle : w.toInt ≤ 2147483647 := hmax ▸ w.toInt_le
  have hchange : c.Change (c.takeWidth w.toInt) := .width w.toInt
  refine ⟨hchange.size_eq.trans hc.size_eq, hchange.wellFormed hc.wellFormed, ?_, ?_⟩
  · rw [Nat.odd_iff]
    simp only [Canvas.takeWidth, Brush.widthFor]
    split <;> omega
  · simp only [Canvas.takeWidth, Brush.widthFor]
    split <;> omega

theorem clear (hc : c.Sound size) : c.clear.Sound size :=
  ⟨hc.size_eq, ⟨Grid.square_blank _, fun p hp => by cases hp⟩, hc.odd, hc.width_le⟩

/-- An action that only sets the brush down keeps a canvas sound, even if it fails. -/
theorem after_of_onlyStamps (hc : c.Sound size) (hd : OnlyStamps d c) : (c.after d).Sound size := by
  cases h : d c with
  | ok a c' =>
    rw [after_of_ok h]
    obtain ⟨ps, p, hp, rfl⟩ := hd.ok a c' h
    exact hc.moved ps hp
  | error f c' =>
    rw [after_of_error h]
    obtain ⟨ps, rfl⟩ := hd.error f c' h
    exact hc.stampAll ps

theorem after_takeColor (hc : c.Sound size) (name : String) :
    (c.after (takeColor name)).Sound size := by
  cases hname : ColorName.ofString? name with
  | none => simpa only [after, takeColor, hname] using hc
  | some color =>
    cases color with
    | solid color =>
      simp only [after, takeColor, hname]
      exact hc.change (.color color) rfl
    | transparent => simpa only [after, takeColor, hname] using hc

theorem after_fill (hc : c.Sound size) : (c.after Canvas.fill).Sound size := by
  cases h : Canvas.fill c with
  | ok painted c' =>
    rw [after_of_ok h]
    exact hc.fill h
  | error f c' =>
    rw [after_of_error h, fill_eq_error h]
    exact hc

end Sound

end Canvas

/-! ### Histories -/

variable {size : Nat} {color : Color} {c c' : Canvas}

/-- No statement makes an unsound canvas of a sound one. -/
theorem Stmt.Makes.sound {stmt : Stmt} (h : stmt.Makes c c') (hc : c.Sound size) :
    c'.Sound size := by
  cases h with
  | stamps ps => exact hc.stampAll ps
  | moved ps hp => exact hc.moved ps hp
  | color => exact hc.change (.color _) rfl
  | width w => exact hc.takeWidth w
  | fill h => exact hc.fill h

/-- **A program keeps a canvas sound**, at every point of its run. -/
theorem Program.sound_run (hc : c.Sound size) (p : Program) (n : Nat) :
    (p.run n c).canvas.Sound size :=
  (p.changes_run c n).keeps (fun _ _ _ _ hmakes hsound => hmakes.sound hsound) hc

theorem sound_drawOn (hc : c.Sound size) {source : String} {limit? : Option Nat}
    {r : Except Error Nat} (h : drawOn source limit? c = some (c', r)) : c'.Sound size := by
  unfold drawOn at h
  cases hsource : Program.ofSource source with
  | error e =>
    rw [hsource] at h
    cases h
    exact hc
  | ok p =>
    rw [hsource] at h
    obtain ⟨o, ho, heq⟩ := Option.map_eq_some_iff.1 h
    cases heq
    obtain ⟨n, rfl⟩ := Program.exists_run_of_execute ho
    exact p.sound_run hc n

/-- **Every action keeps a canvas sound**, whether it succeeds or fails. -/
theorem Action.sound_leaves? (a : Action) (hc : c.Sound size) (h : a.leaves? c = some c') :
    c'.Sound size := by
  cases a with
  | spawn x y =>
    cases h
    exact hc.after_of_onlyStamps (c.onlyStamps_moveTo _)
  | color name =>
    cases h
    exact hc.after_takeColor name
  | size width =>
    cases h
    exact hc.takeWidth width
  | line dx dy distance =>
    cases h
    exact hc.after_of_onlyStamps (c.onlyStamps_line _ _ _)
  | circle dx dy radius =>
    cases h
    exact hc.after_of_onlyStamps (c.onlyStamps_circle _ _ _)
  | rectangle dx dy distance width height =>
    cases h
    exact hc.after_of_onlyStamps (c.onlyStamps_rectangle _ _ _ _ _)
  | fill =>
    cases h
    exact hc.after_fill
  | clear =>
    cases h
    exact hc.clear
  | program source limit? =>
    obtain ⟨⟨c₁, r⟩, hdraw, rfl⟩ := Option.map_eq_some_iff.1 h
    exact sound_drawOn hc hdraw

namespace Canvas

theorem Arises.sound (h : Arises size color c) : c.Sound size := by
  induction h with
  | new h => exact sound_new h
  | action a _ hleaves ih => exact a.sound_leaves? ih hleaves
  | within n _ _ ih => exact Program.sound_run ih _ n

theorem Arises.size_le (h : Arises size color c) : size ≤ 2147483647 := by
  induction h with
  | new h => exact (new_eq_ok.1 h).1.2
  | action _ _ _ ih => exact ih
  | within _ _ _ ih => exact ih

/-! ### The place of the cursor -/

/-- A function without arguments returns a coordinate of the cursor exactly, if the cursor is placed,
and else nothing. -/
def Tells (c : Canvas) (name : String) (coordinate : Point → Int) : Prop :=
  ∀ env v, (Expr.call name []).eval env c = .ok v ↔
    ∃ p, c.cursor = some p ∧ v.toInt = coordinate p

/-- What a program is told when it asks for the cursor. -/
structure TellsCursor (c : Canvas) : Prop where
  /-- The column. -/
  x : c.Tells "GetActualX" Point.x
  /-- The row. -/
  y : c.Tells "GetActualY" Point.y
  /-- The size. -/
  size : ∀ env, ∃ n, (Expr.call "GetCanvasSize" []).eval env c = .ok n ∧ n.toInt = c.grid.size
  /-- A coordinate that is returned lies between zero and the size that is returned. -/
  between : ∀ env v n, ∀ name ∈ ["GetActualX", "GetActualY"],
    (Expr.call name []).eval env c = .ok v → (Expr.call "GetCanvasSize" []).eval env c = .ok n →
      0 ≤ v.toInt ∧ v.toInt ≤ n.toInt - 1

/-- A coordinate that is a 32-bit integer is returned as it is. -/
theorem tells_of_eval {name : String} {coordinate : Point → Int}
    (heval : ∀ env, (Expr.call name []).eval env c =
      match c.cursor with
      | none => .error .cursorNotPlaced
      | some p => .ok (Int32.ofInt (coordinate p)))
    (hfits : ∀ p, c.cursor = some p → (Int32.ofInt (coordinate p)).toInt = coordinate p) :
    c.Tells name coordinate := by
  intro env v
  rw [heval env]
  cases hcursor : c.cursor with
  | none => simp
  | some p =>
    simp only [Except.ok.injEq, Option.some.injEq, exists_eq_left']
    constructor
    · rintro rfl
      exact hfits p hcursor
    · intro hv
      exact (Int32.toInt_inj.1 (hv.trans (hfits p hcursor).symm)).symm

theorem toInt_ofInt_coordinate {n : Nat} (hn : n ≤ 2147483647) {x : Int} (hx : 0 ≤ x)
    (hx' : x < n) : (Int32.ofInt x).toInt = x := by
  apply Int32.toInt_ofInt_of_le
  · omega
  · omega

theorem tellsCursor (hc : c.WellFormed) (hsize : c.grid.size ≤ 2147483647) : c.TellsCursor := by
  have hx : c.Tells "GetActualX" Point.x := by
    refine tells_of_eval (fun env => rfl) fun p hp => ?_
    obtain ⟨h, h', -, -⟩ := hc.cursor_mem p hp
    exact toInt_ofInt_coordinate hsize h h'
  have hy : c.Tells "GetActualY" Point.y := by
    refine tells_of_eval (fun env => rfl) fun p hp => ?_
    obtain ⟨-, -, h, h'⟩ := hc.cursor_mem p hp
    exact toInt_ofInt_coordinate hsize h h'
  have hn : c.sizeValue.toInt = c.grid.size := Int32.toInt_ofNat_of_lt (by omega)
  refine ⟨hx, hy, fun env => ⟨c.sizeValue, rfl, hn⟩, fun env v n name hname hv hn' => ?_⟩
  have hn' : n = c.sizeValue := (Except.ok.inj hn').symm
  rw [hn', hn]
  simp only [List.mem_cons, List.not_mem_nil, or_false] at hname
  rcases hname with rfl | rfl
  · obtain ⟨p, hp, hvp⟩ := (hx env v).1 hv
    obtain ⟨h, h', -, -⟩ := hc.cursor_mem p hp
    omega
  · obtain ⟨p, hp, hvp⟩ := (hy env v).1 hv
    obtain ⟨-, -, h, h'⟩ := hc.cursor_mem p hp
    omega

/-- **The invariant of a canvas.** A canvas can be made of every size from one up to the greatest
32-bit integer. Whatever is then done with it, and as often as one likes, it is sound, all indices at
which its cells are read and written are in range, and a program that asks for the cursor is told
where it is. -/
theorem invariant_of_arises (size : Nat) (color : Color) :
    ((∃ c, Canvas.new size color = .ok c) ↔ 1 ≤ size ∧ size ≤ 2147483647) ∧
      ∀ c, Arises size color c → c.Sound size ∧ c.InRange ∧ c.TellsCursor := by
  refine ⟨⟨?_, fun h => ⟨_, new_eq_ok.2 ⟨h, rfl⟩⟩⟩, fun c h => ?_⟩
  · rintro ⟨c, hc⟩
    exact (new_eq_ok.1 hc).1
  · have hsound := h.sound
    have hsize : c.grid.size ≤ 2147483647 := hsound.size_eq ▸ h.size_le
    exact ⟨hsound, inRange hsound.wellFormed.square, tellsCursor hsound.wellFormed hsize⟩

/-- A program that draws a line, and takes a brush of the greatest even width. -/
def broadening : Program :=
  [.spawn (.num 0) (.num 1), .line (.num 1) (.num 0) (.num 5), .size (.num 2147483646)]

theorem writable_broadening : Program.Writable broadening := by
  refine ⟨⟨_, _, _, rfl⟩, fun s hs => ?_⟩
  simp only [broadening, List.mem_cons, List.not_mem_nil, or_false] at hs
  rcases hs with rfl | rfl | rfl
  · exact .spawn (.num (by decide)) (.num (by decide))
  · exact .line (.num (by decide)) (.num (by decide)) (.num (by decide))
  · exact .size (.num (by decide))

theorem invariant_of_arises_broadened :
    ∃ c, Arises 2 .red c ∧
      c = ⟨⟨2, #[.red, .white, .white, .red]⟩, some ⟨1, 1⟩, ⟨.red, 2147483645⟩⟩ ∧
      c.Sound 2 ∧ c.InRange ∧ c.TellsCursor := by
  have hspawn : Arises 2 .red ⟨.blank 2, some ⟨0, 0⟩, ⟨.red, 1⟩⟩ :=
    .action (.spawn 0 0) (.new rfl) rfl
  have hsize : Arises 2 .red ⟨.blank 2, some ⟨0, 0⟩, ⟨.red, 1⟩⟩ :=
    .action (.size (-2147483648)) hspawn rfl
  -- the centre of the rectangle lies beside the canvas
  have hrectangle :
      Arises 2 .red ⟨⟨2, #[.red, .white, .white, .white]⟩, some ⟨0, 0⟩, ⟨.red, 1⟩⟩ :=
    .action (.rectangle (-1) 0 1 3 1) hsize rfl
  have hrun := hrectangle.within 3 (Program.ofSource_print writable_broadening)
  exact ⟨_, hrun, rfl, (invariant_of_arises 2 .red).2 _ hrun⟩

end Canvas

end Easel
