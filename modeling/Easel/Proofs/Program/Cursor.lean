import Easel.Proofs.Grammar.Printer
import Easel.Proofs.Program.Effects

/-!
# A placed cursor stays placed

Nothing that a program can do takes the cursor away again, and the first statement of every program
text places it. So a program that misses the cursor has not got beyond its first statement
(`cursor_missed_at_first_statement`), wherever its jumps lead.
-/

namespace Easel

/-! ### Statements -/

/-- No statement takes the cursor away. -/
theorem Stmt.Makes.cursor_ne_none {stmt : Stmt} {c c' : Canvas} (h : stmt.Makes c c')
    (hc : c.cursor ≠ none) : c'.cursor ≠ none := by
  cases h with
  | stamps ps => rwa [Canvas.cursor_stampAll]
  | moved => exact Option.some_ne_none _
  | color | width => exact hc
  | fill hfill =>
    obtain ⟨grid, rfl⟩ := Canvas.fill_eq_ok hfill
    exact hc

/-- The statement that places the cursor does so. -/
theorem Stmt.Steps.cursor_ne_none_of_spawn {labels : Labels} {s t : State} {x y : Expr}
    (h : (Stmt.spawn x y).Steps labels s t) : t.canvas.cursor ≠ none := by
  cases h with
  | draw hd hdraw =>
    cases hd with
    | spawn =>
      obtain ⟨ps, p, -, rfl⟩ := (Canvas.onlyStamps_moveTo s.canvas _).ok _ _ hdraw
      exact Option.some_ne_none p

/-! ### Runs -/

namespace Program

variable {p q : Program} {labels : Labels} {x y : Expr} {c c' : Canvas} {s : State}

theorem Changes.cursor_ne_none (h : p.Changes c c') (hc : c.cursor ≠ none) :
    c'.cursor ≠ none :=
  h.keeps (fun _ _ _ _ hmakes hcursor => hmakes.cursor_ne_none hcursor) hc

/-- **From its second statement on** a program that begins by placing the cursor has one. -/
theorem Reaches.cursor_ne_none {k : Nat}
    (h : Program.Reaches (.spawn x y :: q) labels (k + 1) ⟨0, .empty, c⟩ s) :
    s.canvas.cursor ≠ none := by
  cases h with
  | @succ _ _ t _ hstep hrest =>
    have hfirst : t.canvas.cursor ≠ none := by
      obtain ⟨stmt, notice, hstmt, hexec⟩ := hstep
      obtain rfl : .spawn x y = stmt := Option.some.inj hstmt
      exact (Stmt.steps_of_exec hexec).cursor_ne_none_of_spawn
    have hchanges : Changes (.spawn x y :: q) t.canvas s.canvas := by
      have hrun := runFrom_changes (.spawn x y :: q) labels 0 0 k t
      rwa [hrest.canvas_runFrom] at hrun
    exact hchanges.cursor_ne_none hfirst

/-- With a cursor, no statement misses it. -/
theorem exec_ne_cursorNotPlaced (hs : s.canvas.cursor ≠ none) (stmt : Stmt) (t : State) :
    stmt.exec labels s ≠ .error .cursorNotPlaced t :=
  fun hexec => hs (Stmt.fails_of_exec hexec).cursor_eq_none

/-- A run that misses the cursor has stopped at its first statement. -/
theorem statement_eq_zero {n statement : Nat}
    (h : (Program.run (.spawn x y :: q) n c).result = .error ⟨statement, .cursorNotPlaced⟩) :
    statement = 0 := by
  unfold run at h
  cases hlabels : Program.labels (.spawn x y :: q) with
  | error e =>
    rw [hlabels] at h
    obtain ⟨name, hname⟩ := Labels.collect_eq_error hlabels
    simp only [Except.error.injEq] at h
    rw [h] at hname
    cases hname
  | ok labels =>
    rw [hlabels] at h
    simp only at h
    rcases ends_or_reaches (.spawn x y :: q) labels n 0 n ⟨0, .empty, c⟩ with
      ⟨m, -, hends⟩ | ⟨t, -, hrun⟩
    · rcases hends.reaches with ⟨t, -, -, ho⟩ | ⟨k, t, f, u, -, hreaches, ⟨stmt, -, hexec⟩, ho⟩
      · rw [ho] at h
        cases h
      · rw [ho] at h
        cases h
        cases k with
        | zero =>
          cases hreaches
          rfl
        | succ k => exact absurd hexec (exec_ne_cursorNotPlaced hreaches.cursor_ne_none stmt u)
    · rw [hrun] at h
      cases h

/-- What keeps a text from being read is not found by carrying it out. -/
theorem ofSource_ne_run (source : String) (e : RunError) :
    ofSource source ≠ .error (.run e) := by
  unfold ofSource
  cases Token.lex source with
  | error e' => simp
  | ok ts => cases hts : ofTokens ts <;> simp [hts]

end Program

/-! ### Program texts -/

theorem statement_eq_zero_of_drawOn {source : String} {limit? : Option Nat} {c c' : Canvas}
    {statement : Nat}
    (h : drawOn source limit? c = some (c', .error (.run ⟨statement, .cursorNotPlaced⟩))) :
    statement = 0 := by
  unfold drawOn at h
  cases hsource : Program.ofSource source with
  | error e =>
    rw [hsource] at h
    cases h
    exact absurd hsource (Program.ofSource_ne_run source _)
  | ok p =>
    rw [hsource] at h
    obtain ⟨o, ho, heq⟩ := Option.map_eq_some_iff.1 h
    obtain ⟨⟨x, y, q, rfl⟩, -⟩ := Program.writable_of_ofSource hsource
    obtain ⟨n, rfl⟩ := Program.exists_run_of_execute ho
    cases hresult : (Program.run (.spawn x y :: q) n c).result with
    | ok steps =>
      rw [hresult] at heq
      cases heq
    | error e =>
      rw [hresult] at heq
      cases heq
      exact Program.statement_eq_zero hresult

/-- **The cursor is missed at the first statement or never.** When a program text is carried out, on
any canvas and with any limit or none, only its first statement can find no cursor; and once that has
succeeded there is a cursor at every later step, so that no statement at all could miss it. -/
theorem cursor_missed_at_first_statement (source : String) (limit? : Option Nat) :
    (∀ c c' statement,
      drawOn source limit? c = some (c', .error (.run ⟨statement, .cursorNotPlaced⟩)) →
      statement = 0) ∧
    (∀ settings statement,
      draw source limit? settings = some (.error (.run ⟨statement, .cursorNotPlaced⟩)) →
      statement = 0) ∧
    ∀ p labels c k s, Program.ofSource source = .ok p → p.labels = .ok labels →
      p.Reaches labels (k + 1) ⟨0, .empty, c⟩ s →
      s.canvas.cursor ≠ none ∧ ∀ stmt t, Stmt.exec labels stmt s ≠ .error .cursorNotPlaced t := by
  refine ⟨fun c c' statement => statement_eq_zero_of_drawOn, ?_, ?_⟩
  · intro settings statement h
    unfold draw at h
    cases hcanvas : settings.canvas with
    | error f =>
      rw [hcanvas] at h
      cases h
      rfl
    | ok c =>
      rw [hcanvas] at h
      obtain ⟨⟨c', r⟩, hdraw, heq⟩ := Option.map_eq_some_iff.1 h
      cases r with
      | ok steps => cases heq
      | error e =>
        cases heq
        exact statement_eq_zero_of_drawOn hdraw
  · intro p labels c k s hsource hlabels hreaches
    obtain ⟨⟨x, y, q, rfl⟩, -⟩ := Program.writable_of_ofSource hsource
    have hcursor := hreaches.cursor_ne_none
    exact ⟨hcursor, fun stmt t => Program.exec_ne_cursorNotPlaced hcursor stmt t⟩

/-- A canvas without a cursor. -/
def unplaced : Canvas := ⟨.blank 2, none, ⟨.red, 1⟩⟩

/-- A program that asks for the cursor in order to place it. -/
def Program.astray : Program := [.spawn (.call "GetActualX" []) (.num 0)]

/-- A program that jumps back forever. -/
def Program.circling : Program :=
  [.spawn (.num 0) (.num 0), .label "top", .line (.num 1) (.num 0) (.num 1),
    .goto "top" (.bool true)]

theorem Program.writable_astray : astray.Writable := by
  refine ⟨⟨_, _, _, rfl⟩, fun s hs => ?_⟩
  obtain rfl := List.mem_singleton.1 hs
  exact .spawn (.call (by decide) (by simp)) (.num (by decide))

theorem Program.writable_circling : circling.Writable := by
  have htop : Token.FreeName "top" := ⟨⟨'t', ['o', 'p'], rfl, .inl rfl, by simp⟩, by decide⟩
  refine ⟨⟨_, _, _, rfl⟩, fun s hs => ?_⟩
  simp only [circling, List.mem_cons, List.not_mem_nil, or_false] at hs
  rcases hs with rfl | rfl | rfl | rfl
  · exact .spawn (.num (by decide)) (.num (by decide))
  · exact .label htop
  · exact .line (.num (by decide)) (.num (by decide)) (.num (by decide))
  · exact .goto htop .bool

theorem cursor_missed_at_first_statement_astray :
    (∃ statement, drawOn Program.astray.print (some 9) unplaced =
        some (unplaced, .error (.run ⟨statement, .cursorNotPlaced⟩)) ∧ statement = 0) ∧
      (∃ statement, draw Program.astray.print (some 9) { size := 2 } =
        some (.error (.run ⟨statement, .cursorNotPlaced⟩)) ∧ statement = 0) ∧
      ∃ s, Program.circling.Reaches [("top", 1)] 4 ⟨0, .empty, unplaced⟩ s ∧ s.pc = 1 ∧
        s.canvas.cursor ≠ none := by
  have hdraw : drawOn Program.astray.print (some 9) unplaced =
      some (unplaced, .error (.run ⟨0, .cursorNotPlaced⟩)) := by
    unfold drawOn
    rw [Program.ofSource_print Program.writable_astray]
    rfl
  have hnew : draw Program.astray.print (some 9) { size := 2 } =
      some (.error (.run ⟨0, .cursorNotPlaced⟩)) := by
    unfold draw drawOn
    rw [Program.ofSource_print Program.writable_astray]
    rfl
  have hreaches : Program.circling.Reaches [("top", 1)] 4 ⟨0, .empty, unplaced⟩
      ⟨1, .empty, ⟨⟨2, #[.white, .red, .white, .white]⟩, some ⟨1, 0⟩, ⟨.red, 1⟩⟩⟩ :=
    .succ ⟨_, _, rfl, rfl⟩ (.succ ⟨_, _, rfl, rfl⟩ (.succ ⟨_, _, rfl, rfl⟩
      (.succ ⟨_, _, rfl, rfl⟩ .zero)))
  obtain ⟨hon, hfresh, -⟩ := cursor_missed_at_first_statement Program.astray.print (some 9)
  obtain ⟨-, -, hlater⟩ := cursor_missed_at_first_statement Program.circling.print none
  obtain ⟨hcursor, -⟩ := hlater _ _ _ _ _ (Program.ofSource_print Program.writable_circling) rfl
    hreaches
  exact ⟨⟨0, hdraw, hon _ _ _ hdraw⟩, ⟨0, hnew, hfresh _ _ hnew⟩, _, hreaches, rfl, hcursor⟩

end Easel
