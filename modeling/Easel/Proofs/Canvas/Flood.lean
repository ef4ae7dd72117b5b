import Easel.Proofs.Canvas.Cells
import Easel.Program.Log
import Mathlib.Data.Set.Card

/-!
# Filling floods a region

The region of a cell is what a path of single steps, across or down, can reach from it over cells
of its colour. `Canvas.fill` recolours exactly the region of the cell under the cursor, and counts
exactly the cells that it recolours.

The queue of the loop holds points more than once and points beside the grid, and the grid changes
while it is explored. So the loop is described from any of its states: it recolours what can be
reached, on the grid as it is then, from the points that are waiting (`Grid.Flooded`). Recolouring
one cell and putting its neighbours into the queue leaves that set as it was, but for the cell
itself (`Grid.reached_cons_iff`).
-/

namespace Easel

/-! ### Regions -/

/-- The points are one step apart, across or down. -/
def Point.Beside (p q : Point) : Prop := (p.x - q.x).natAbs + (p.y - q.y).natAbs = 1

theorem Point.mem_neighbours {p q : Point} : q ∈ p.neighbours ↔ p.Beside q := by
  obtain ⟨x, y⟩ := p
  obtain ⟨x', y'⟩ := q
  simp only [neighbours, Beside, List.mem_cons, Point.mk.injEq, List.not_mem_nil, or_false]
  omega

namespace Grid

variable {g g' : Grid} {old new : Color} {p q r : Point} {ps ps' : List Point}

/-- `g.Joined color p q`: a path of single steps leads from `p` to `q`, and all its cells have the
colour. -/
inductive Joined (g : Grid) (color : Color) (p : Point) : Point → Prop where
  /-- The path of no steps. -/
  | here : g.get? p = some color → Joined g color p p
  /-- One step more. -/
  | step {q r : Point} : Joined g color p q → q.Beside r → g.get? r = some color →
      Joined g color p r

theorem Joined.get?_left (h : g.Joined old p q) : g.get? p = some old := by
  induction h with
  | here hp => exact hp
  | step _ _ _ ih => exact ih

theorem Joined.get?_right (h : g.Joined old p q) : g.get? q = some old := by
  cases h with
  | here hp => exact hp
  | step _ _ hq => exact hq

/-- A path can be made longer at its beginning. -/
theorem Joined.cons (hp : g.get? p = some old) (hb : p.Beside q) (h : g.Joined old q r) :
    g.Joined old p r := by
  induction h with
  | here hq => exact .step (.here hp) hb hq
  | step _ hb' hr ih => exact .step ih hb' hr

/-- A path over one grid is a path over every other that has the colour where the first has it. -/
theorem Joined.mono (hgg : ∀ q, g.get? q = some old → g'.get? q = some old)
    (h : g.Joined old p q) : g'.Joined old p q := by
  induction h with
  | here hp => exact .here (hgg _ hp)
  | step _ hb hr ih => exact .step ih hb (hgg _ hr)

/-- A path that begins inside stays inside, if no step over a cell of the colour leads out. -/
theorem Joined.inside {inside : Point → Prop} (hp : inside p)
    (hstep : ∀ q r, inside q → q.Beside r → g.get? r = some old → inside r)
    (h : g.Joined old p q) : inside q := by
  induction h with
  | here _ => exact hp
  | step _ hb hr ih => exact hstep _ _ ih hb hr

/-- The point can be reached from one of the points `ps`. -/
def Reached (g : Grid) (color : Color) (ps : List Point) (q : Point) : Prop :=
  ∃ p ∈ ps, g.Joined color p q

/-- Only which points are waiting matters, and neither their order nor how often they wait. -/
theorem Reached.congr (hps : ∀ p, p ∈ ps ↔ p ∈ ps') :
    g.Reached old ps q ↔ g.Reached old ps' q := by
  simp only [Reached, hps]

/-- A point of another colour leads nowhere. -/
theorem reached_cons_of_ne (hp : g.get? p ≠ some old) :
    g.Reached old (p :: ps) q ↔ g.Reached old ps q := by
  constructor
  · rintro ⟨r, hr, hrq⟩
    rcases List.mem_cons.1 hr with rfl | hr
    · exact absurd hrq.get?_left hp
    · exact ⟨r, hr, hrq⟩
  · rintro ⟨r, hr, hrq⟩
    exact ⟨r, List.mem_cons_of_mem _ hr, hrq⟩

/-! ### One cell -/

section Recolour

variable (hg : g.Square) (hne : new ≠ old) (hp : g.get? p = some old)
include hg hne hp

/-- Recolouring one cell takes it, and nothing else, away from the cells of the old colour. -/
theorem get?_set_eq_some_old_iff :
    (g.set p new).get? q = some old ↔ q ≠ p ∧ g.get? q = some old := by
  have hm := mem_of_get? hp
  rw [get?_set hg]
  by_cases hq : q = p
  · simp [hq, hm, hne]
  · simp [hq]

/-- A path from a waiting point either ends at the recoloured cell, or goes on from a neighbour of
it, or never meets it. -/
theorem Joined.eq_or_reached_set (hr : r ∈ p :: ps) (h : g.Joined old r q) :
    q = p ∨ (g.set p new).Reached old (ps ++ p.neighbours) q := by
  have hset : ∀ q, q ≠ p → g.get? q = some old → (g.set p new).get? q = some old :=
    fun q hq hq' => (get?_set_eq_some_old_iff hg hne hp).2 ⟨hq, hq'⟩
  induction h with
  | here hr' =>
    rcases List.mem_cons.1 hr with rfl | hr
    · exact Or.inl rfl
    · by_cases hrp : r = p
      · exact Or.inl hrp
      · exact Or.inr ⟨r, List.mem_append_left _ hr, .here (hset r hrp hr')⟩
  | @step s t _ hb ht ih =>
    by_cases htp : t = p
    · exact Or.inl htp
    · rcases ih with rfl | ⟨u, hu, hus⟩
      · have ht' : t ∈ s.neighbours := Point.mem_neighbours.2 hb
        exact Or.inr ⟨t, List.mem_append_right _ ht', .here (hset t htp ht)⟩
      · exact Or.inr ⟨u, hu, .step hus hb (hset t htp ht)⟩

/-- What can be reached stays the same, but for the cell itself, when a waiting cell is recoloured
and its neighbours wait in its place. -/
theorem reached_cons_iff :
    g.Reached old (p :: ps) q ↔ q = p ∨ (g.set p new).Reached old (ps ++ p.neighbours) q := by
  constructor
  · rintro ⟨r, hr, hrq⟩
    exact Joined.eq_or_reached_set hg hne hp hr hrq
  · rintro (rfl | ⟨r, hr, hrq⟩)
    · exact ⟨q, List.mem_cons_self, .here hp⟩
    · have hrq' : g.Joined old r q :=
        hrq.mono fun s hs => ((get?_set_eq_some_old_iff hg hne hp).1 hs).2
      rcases List.mem_append.1 hr with hr | hr
      · exact ⟨r, List.mem_cons_of_mem _ hr, hrq'⟩
      · exact ⟨p, List.mem_cons_self, .cons hp (Point.mem_neighbours.1 hr) hrq'⟩

end Recolour

/-! ### The loop -/

/-- `g'` is `g` with the cells that can be reached from `ps` in the new colour. -/
def Flooded (old new : Color) (g : Grid) (ps : List Point) (g' : Grid) : Prop :=
  ∀ q, (g.Reached old ps q → g'.get? q = some new) ∧
    (¬g.Reached old ps q → g'.get? q = g.get? q)

theorem Flooded.nil : Flooded old new g [] g := by
  intro q
  refine ⟨?_, fun _ => rfl⟩
  rintro ⟨r, hr, -⟩
  cases hr

theorem Flooded.congr (hps : ∀ p, p ∈ ps ↔ p ∈ ps') (h : Flooded old new g ps' g') :
    Flooded old new g ps g' := by
  intro q
  rw [Reached.congr hps]
  exact h q

/-- A waiting point of another colour can be passed over. -/
theorem Flooded.skip (hp : g.get? p ≠ some old) (h : Flooded old new g ps g') :
    Flooded old new g (p :: ps) g' := by
  intro q
  rw [reached_cons_of_ne hp]
  exact h q

/-- A waiting cell of the old colour can be recoloured, if its neighbours wait in its place. -/
theorem Flooded.recolour (hg : g.Square) (hne : new ≠ old) (hp : g.get? p = some old)
    (h : Flooded old new (g.set p new) (ps ++ p.neighbours) g') :
    Flooded old new g (p :: ps) g' := by
  intro q
  have hm := mem_of_get? hp
  rw [reached_cons_iff hg hne hp]
  by_cases hq : (g.set p new).Reached old (ps ++ p.neighbours) q
  · exact ⟨fun _ => (h q).1 hq, fun hn => absurd (Or.inr hq) hn⟩
  · have hkept := (h q).2 hq
    rw [get?_set hg] at hkept
    constructor
    · rintro (rfl | hq')
      · simpa [hm] using hkept
      · exact absurd hq' hq
    · intro hn
      have hqp : q ≠ p := fun e => hn (Or.inl e)
      simpa [hqp] using hkept

/-- The points at which two grids differ. -/
def changes (g g' : Grid) : Set Point := {q | g'.get? q ≠ g.get? q}

theorem Flooded.finite_changes (h : Flooded old new g ps g') : (g.changes g').Finite := by
  refine g.finite_mem.subset fun q hq => ?_
  by_contra hn
  refine hq ((h q).2 ?_)
  rintro ⟨r, -, hrq⟩
  exact hn (mem_of_get? hrq.get?_right)

/-- Recolouring a cell before the rest is flooded makes one change more. -/
theorem Flooded.ncard_changes (hg : g.Square) (hne : new ≠ old) (hp : g.get? p = some old)
    (h : Flooded old new (g.set p new) ps g') :
    (g.changes g').ncard = ((g.set p new).changes g').ncard + 1 := by
  have hm := mem_of_get? hp
  have hnew : (g.set p new).get? p = some new := by simp [get?_set hg, hm]
  have hlast : g'.get? p = some new := by
    by_cases hr : (g.set p new).Reached old ps p
    · exact (h p).1 hr
    · rw [(h p).2 hr, hnew]
  have hnot : p ∉ (g.set p new).changes g' := by
    intro hc
    exact hc (hlast.trans hnew.symm)
  have hinsert : g.changes g' = insert p ((g.set p new).changes g') := by
    ext q
    simp only [changes, Set.mem_ofPred_eq, Set.mem_insert_iff, get?_set hg]
    by_cases hq : q = p
    · subst hq
      simp [hlast, hp, hne]
    · simp [hq]
  rw [hinsert, Set.ncard_insert_of_notMem hnot h.finite_changes]

/-- **The loop**: from every state of the queue, it recolours what can be reached from the points
that are waiting, and counts the cells that it recolours. -/
theorem flood_spec (hne : new ≠ old) (g : Grid) (front back : List Point) (painted : Nat)
    (hg : g.Square) :
    (g.flood hne front back painted).1.size = g.size ∧
      (g.flood hne front back painted).1.Square ∧
      Flooded old new g (front ++ back) (g.flood hne front back painted).1 ∧
      (g.flood hne front back painted).2 =
        painted + (g.changes (g.flood hne front back painted).1).ncard := by
  -- the induction follows the loop, so that each case is one of its branches
  fun_induction flood hne g front back painted with
  | case1 g painted =>
    refine ⟨rfl, hg, Flooded.nil, ?_⟩
    simp [changes]
  | case2 g painted q qs ih =>
    obtain ⟨hsize, hsquare, hflood, hcount⟩ := ih hg
    exact ⟨hsize, hsquare, hflood.congr fun r => by simp [or_comm], hcount⟩
  | case3 g painted p ps back hp ih =>
    obtain ⟨hsize, hsquare, hflood, hcount⟩ := ih (hg.set p new)
    have hwait : ∀ r, r ∈ (ps ++ back) ++ p.neighbours ↔
        r ∈ ps ++ (p.neighbours.reverse ++ back) := by
      intro r
      simp only [List.mem_append, List.mem_reverse]
      tauto
    refine ⟨by rw [hsize, size_set], hsquare, (hflood.congr hwait).recolour hg hne hp, ?_⟩
    rw [hcount, hflood.ncard_changes hg hne hp]
    omega
  | case4 g painted p ps back hp ih =>
    obtain ⟨hsize, hsquare, hflood, hcount⟩ := ih hg
    exact ⟨hsize, hsquare, hflood.skip hp, hcount⟩

end Grid

namespace Canvas

/-- The canvas with its region at the cursor filled, and what the filling says about it. -/
theorem fill_spec {c : Canvas} (hc : c.WellFormed) {p : Point} (hp : c.cursor = some p) :
    ∃ old painted grid, c.grid.get? p = some old ∧
      fill c = .ok painted { c with grid } ∧ grid.size = c.grid.size ∧ grid.Square ∧
      (old = c.brush.color → painted = none ∧ grid = c.grid) ∧
      (old ≠ c.brush.color → painted = some (c.grid.changes grid).ncard ∧
        Grid.Flooded old c.brush.color c.grid [p] grid) := by
  obtain ⟨old, hold⟩ := hc.square.exists_get? (hc.cursor_mem p hp)
  by_cases hb : c.brush.color = old
  · have hfill : fill c = .ok none c := by simp only [fill, hp, hold, hb, dite_true]
    exact ⟨old, none, c.grid, hold, hfill, rfl, hc.square, fun _ => ⟨rfl, rfl⟩,
      fun hn => absurd hb.symm hn⟩
  · obtain ⟨hsize, hsquare, hflood, hcount⟩ := Grid.flood_spec hb c.grid [p] [] 0 hc.square
    refine ⟨old, some (c.grid.flood hb [p] [] 0).2, (c.grid.flood hb [p] [] 0).1, hold, ?_, hsize,
      hsquare, fun hn => absurd hn.symm hb, fun _ => ⟨?_, hflood⟩⟩
    · simp only [fill, hp, hold, hb, dite_false]
    · rw [hcount, Nat.zero_add]

/-- **Walls hold**: if every step out of a set of points leads to a cell of the colour `wall`, or
beside the canvas, then a filling that begins in the set on another colour stays in it. -/
theorem fill_inside {c : Canvas} (hc : c.WellFormed) {p : Point} (hp : c.cursor = some p)
    {wall : Color} (hwall : c.grid.get? p ≠ some wall) {inside : Point → Prop} (hin : inside p)
    (hout : ∀ q r, inside q → q.Beside r → r ∈ c.grid → ¬inside r → c.grid.get? r = some wall) :
    ∃ painted c', fill c = .ok painted c' ∧
      ∀ q, c'.grid.get? q ≠ c.grid.get? q → inside q := by
  obtain ⟨old, painted, grid, hold, hfill, -, -, hsame, hdiff⟩ := fill_spec hc hp
  have hne : wall ≠ old := by
    rintro rfl
    exact hwall hold
  refine ⟨painted, _, hfill, fun q hq => ?_⟩
  by_cases hb : old = c.brush.color
  · exact absurd (by rw [(hsame hb).2]) hq
  · obtain ⟨-, hflood⟩ := hdiff hb
    have hreach : c.grid.Reached old [p] q := by
      by_contra hn
      exact hq ((hflood q).2 hn)
    obtain ⟨r, hr, hrq⟩ := hreach
    obtain rfl : r = p := List.mem_singleton.1 hr
    refine hrq.inside hin fun s t hs hst ht => ?_
    by_contra hn
    rw [hout s t hs hst (Grid.mem_of_get? ht) hn] at ht
    exact hne (Option.some.inj ht)

/-- A new colour for the brush changes neither the grid nor the cursor. -/
theorem takeColor_eq_ok {c₁ c₂ : Canvas} {name : String} (h : takeColor name c₁ = .ok () c₂) :
    c₂.grid = c₁.grid ∧ c₂.cursor = c₁.cursor := by
  unfold takeColor at h
  split at h
  · cases h
    exact ⟨rfl, rfl⟩
  · cases h
  · cases h

/-- **Stamps are walls.** Let a brush that leaves a mark be set down on the points `ps`, so that
every step out of a set of points leads onto one of them. Then a filling that begins in the set, on
another colour than that of the brush, stays in it, whatever colour is taken for it. -/
theorem fill_inside_stamps {c c₁ c₂ : Canvas} (hc : c.WellFormed)
    (hcolor : c.brush.color ≠ .unmarked) {ps : List Point} {p : Point} (hp : p ∈ c.grid)
    (hgrid : c₁.grid = (c.stampAll ps).grid) (hcursor : c₁.cursor = some p)
    (hopen : c₁.grid.get? p ≠ some c.brush.color)
    (htake : c₂ = c₁ ∨ ∃ name, takeColor name c₁ = .ok () c₂)
    {inside : Point → Prop} (hin : inside p)
    (hwall : ∀ q r, inside q → q.Beside r → ¬inside r → r ∈ ps) :
    ∃ painted c₃, fill c₂ = .ok painted c₃ ∧
      ∀ q, c₃.grid.get? q ≠ c₂.grid.get? q → inside q := by
  obtain ⟨hgrid₂, hcursor₂⟩ : c₂.grid = c₁.grid ∧ c₂.cursor = c₁.cursor := by
    rcases htake with rfl | ⟨name, htake⟩
    · exact ⟨rfl, rfl⟩
    · exact takeColor_eq_ok htake
  rw [hgrid] at hgrid₂
  rw [hcursor] at hcursor₂
  rw [hgrid] at hopen
  have hmem : ∀ q, q ∈ c₂.grid ↔ q ∈ c.grid := by
    intro q
    rw [hgrid₂, Grid.mem_def, size_stampAll, Grid.mem_def]
  have hc₂ : c₂.WellFormed :=
    .of_placed (hgrid₂ ▸ square_stampAll hc.square ps) hcursor₂ ((hmem p).2 hp)
  refine fill_inside hc₂ hcursor₂ (hgrid₂ ▸ hopen) hin fun q r hq hqr hr hr' => ?_
  rw [hgrid₂]
  exact get?_stampAll_of_mem hc.square hcolor ((hmem r).1 hr) (hwall q r hq hqr hr')

/-- A filling as a statement notes the number of cells, unless there was nothing to fill. -/
theorem exec_fill {c c' : Canvas} {painted : Option Nat} (h : fill c = .ok painted c')
    (labels : Labels) (pc : Nat) (env : Env) :
    Stmt.fill.exec labels ⟨pc, env, c⟩ =
      .ok (painted.map fun n => .filled n c'.brush.color) ⟨pc + 1, env, c'⟩ := by
  have hdraw : Exec.draw fill ⟨pc, env, c⟩ = .ok painted ⟨pc, env, c'⟩ := by
    simp only [Exec.draw, h]
  cases painted with
  | none => simp [Stmt.exec, bind, EStateM.bind, hdraw, Exec.advance]
  | some n =>
    simp only [Stmt.exec, bind, EStateM.bind, hdraw]
    rfl

/-- **Filling is flood fill.** From a placed cursor it always succeeds. A cell changes, and then has
the colour of the brush, if and only if the cell under the cursor had another colour and a path of
single steps over cells of that colour leads from the cursor to it. All else stays, and the log
tells exactly how many cells have changed. -/
theorem fill_recolours_region {c : Canvas} (hc : c.WellFormed) {p : Point}
    (hp : c.cursor = some p) :
    ∃ old painted c', c.grid.get? p = some old ∧ fill c = .ok painted c' ∧
      (∀ q, c'.grid.get? q = some c.brush.color ∧ c'.grid.get? q ≠ c.grid.get? q ↔
        old ≠ c.brush.color ∧ c.grid.Joined old p q) ∧
      (∀ q, ¬(old ≠ c.brush.color ∧ c.grid.Joined old p q) → c'.grid.get? q = c.grid.get? q) ∧
      c'.grid.size = c.grid.size ∧ c'.grid.Square ∧ c'.cursor = c.cursor ∧ c'.brush = c.brush ∧
      painted = (if old = c.brush.color then none
        else some {q | c'.grid.get? q ≠ c.grid.get? q}.ncard) ∧
      ∀ labels pc env, ∃ notice,
        Stmt.fill.exec labels ⟨pc, env, c⟩ = .ok notice ⟨pc + 1, env, c'⟩ ∧
        notice.map (fun n => (Event.noted n).text) =
          painted.map fun n => s!"Fill painted {n} pixels {c.brush.color.name}" := by
  obtain ⟨old, painted, grid, hold, hfill, hsize, hsquare, hsame, hdiff⟩ := fill_spec hc hp
  have hreach : ∀ q, c.grid.Reached old [p] q ↔ c.grid.Joined old p q := by
    intro q
    simp [Grid.Reached]
  refine ⟨old, painted, _, hold, hfill, ?_, ?_, hsize, hsquare, rfl, rfl, ?_, ?_⟩
  · intro q
    by_cases hb : old = c.brush.color
    · obtain ⟨-, rfl⟩ := hsame hb
      simp [hb]
    · obtain ⟨-, hflood⟩ := hdiff hb
      obtain ⟨hin, hout⟩ := hflood q
      rw [hreach] at hin hout
      constructor
      · rintro ⟨-, hne⟩
        refine ⟨hb, ?_⟩
        by_contra hq
        exact hne (hout hq)
      · rintro ⟨-, hq⟩
        have hq' : c.grid.get? q = some old := hq.get?_right
        refine ⟨hin hq, ?_⟩
        rw [hin hq, hq']
        intro h
        exact hb (Option.some.inj h).symm
  · intro q hq
    by_cases hb : old = c.brush.color
    · obtain ⟨-, rfl⟩ := hsame hb
      rfl
    · obtain ⟨-, hflood⟩ := hdiff hb
      refine (hflood q).2 fun hr => hq ⟨hb, ?_⟩
      exact (hreach q).1 hr
  · by_cases hb : old = c.brush.color
    · rw [if_pos hb, (hsame hb).1]
    · rw [if_neg hb, (hdiff hb).1]
      rfl
  · intro labels pc env
    refine ⟨_, exec_fill hfill labels pc env, ?_⟩
    rw [Option.map_map]
    rfl

/-- Three rows with a black diagonal between two white corners, and the cursor in one of them. -/
def cornered : Canvas where
  grid := ⟨3, #[.white, .white, .black, .white, .black, .white, .black, .white, .white]⟩
  cursor := some ⟨0, 0⟩
  brush := ⟨.red, 1⟩

theorem wellFormed_cornered : cornered.WellFormed :=
  .of_placed rfl rfl (by decide)

theorem fill_recolours_region_cornered :
    cornered.WellFormed ∧ cornered.cursor = some ⟨0, 0⟩ ∧
      ∃ n c', fill cornered = .ok (some n) c' ∧
        n = {q | c'.grid.get? q ≠ cornered.grid.get? q}.ncard ∧
        ∀ q, c'.grid.get? q = some .red ∧ c'.grid.get? q ≠ cornered.grid.get? q ↔
          cornered.grid.Joined .white ⟨0, 0⟩ q := by
  obtain ⟨old, painted, c', hold, hfill, hiff, -, -, -, -, -, hcount, -⟩ :=
    fill_recolours_region wellFormed_cornered rfl
  obtain rfl : .white = old := Option.some.inj hold
  refine ⟨wellFormed_cornered, rfl, _, c', ?_, rfl, fun q => ?_⟩
  · rw [hfill, hcount]
    rfl
  · exact (hiff q).trans (and_iff_right (by decide))

end Canvas

end Easel
