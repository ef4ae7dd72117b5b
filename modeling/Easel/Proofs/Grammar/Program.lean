import Easel.Proofs.Grammar.Expr

/-!
# The grammar of programs

A program is one or more statements, and a statement is a command, an assignment, a label or a jump.
Nothing marks the end of a statement. Still a token list stands for at most one program: an
expression goes on only with an operator, and no statement begins with one. So the reader, which
takes the longest expression that it can, takes the only one that leaves a statement or nothing
(`Stmt.readerAfter_complete`).
-/

namespace Easel

namespace Grammar

/-- The commands whose arguments are expressions, each with its number of them. -/
inductive Command : String → List Expr → Stmt → Prop where
  | spawn {x y : Expr} : Command "Spawn" [x, y] (.spawn x y)
  | size {width : Expr} : Command "Size" [width] (.size width)
  | line {dx dy distance : Expr} : Command "DrawLine" [dx, dy, distance] (.line dx dy distance)
  | circle {dx dy radius : Expr} : Command "DrawCircle" [dx, dy, radius] (.circle dx dy radius)
  | rectangle {dx dy distance width height : Expr} :
      Command "DrawRectangle" [dx, dy, distance, width, height]
        (.rectangle dx dy distance width height)
  | fill : Command "Fill" [] .fill

/-- The statements. -/
inductive Statement : List Token → Stmt → Prop where
  /-- A command with its arguments in parentheses. -/
  | command {f l r : Token} {ts : List Token} {es : List Expr} {s : Stmt} : f.kind = .method →
      l.Is .parenthesis "(" → Arguments ts es → Command f.text es s → r.Is .parenthesis ")" →
      Statement (f :: l :: (ts ++ [r])) s
  /-- The choice of a colour, whose name may be quoted or bare. -/
  | color {f l t r : Token} : f.Is .method "Color" → l.Is .parenthesis "(" →
      t.kind = .string ∨ t.kind = .color → r.Is .parenthesis ")" →
      Statement [f, l, t, r] (.color (Text.trim '"' t.text))
  /-- An assignment. -/
  | assign {v a : Token} {ts : List Token} {e : Expr} : v.kind = .identifier →
      a.kind = .assignment → Phrase 3 ts e → Statement (v :: a :: ts) (.assign v.text e)
  /-- A label, without the colon at its end. -/
  | label {t : Token} : t.kind = .label → Statement [t] (.label (Text.trimEnd ':' t.text))
  /-- A jump to a label in brackets, with its condition in parentheses. -/
  | goto {g lb t rb l r : Token} {ts : List Token} {e : Expr} : g.Is .method "GoTo" →
      lb.Is .brace "[" → t.kind = .identifier → rb.Is .brace "]" → l.Is .parenthesis "(" →
      Phrase 3 ts e → r.Is .parenthesis ")" →
      Statement (g :: lb :: t :: rb :: l :: (ts ++ [r])) (.goto t.text e)

/-- One or more statements. -/
inductive Statements : List Token → Program → Prop where
  /-- The last statement. -/
  | one {ts : List Token} {s : Stmt} : Statement ts s → Statements ts [s]
  /-- A statement before others. -/
  | cons {ts us : List Token} {s : Stmt} {p : Program} : Statement ts s → Statements us p →
      Statements (ts ++ us) (s :: p)

/-- The kind of its first token tells a statement from what goes on with an expression. -/
theorem Statement.head {ts : List Token} {s : Stmt} (h : Statement ts s) :
    ∃ t tail, ts = t :: tail ∧ (t.kind = .method ∨ t.kind = .identifier ∨ t.kind = .label) := by
  cases h <;> refine ⟨_, _, rfl, ?_⟩ <;> simp_all [Token.Is]

theorem Statements.head {ts : List Token} {p : Program} (h : Statements ts p) :
    ∃ t tail, ts = t :: tail ∧ (t.kind = .method ∨ t.kind = .identifier ∨ t.kind = .label) := by
  cases h with
  | one h => exact h.head
  | cons h _ =>
    obtain ⟨t, tail, rfl, ht⟩ := h.head
    exact ⟨t, _, rfl, ht⟩

end Grammar

open Reader Grammar

variable {ts us rest : List Token} {t r : Token} {e : Expr} {es : List Expr} {s : Stmt}

/-! ### Arguments -/

namespace Expr

theorem reads_nextReader :
    nextReader.Reads ts e rest ↔
      ∃ t tail, ts = t :: tail ∧ t.Is .comma "," ∧ reader.Reads tail e rest := by
  simp only [nextReader, reads_bind, reads_sign]
  grind

/-- Expressions are read one after another, each with a comma before it. -/
def ReadsNext : List Expr → List Token → List Token → Prop
  | [], ts, rest => ts = rest
  | e :: es, ts, rest => ∃ mid, nextReader.Reads ts e mid ∧ ReadsNext es mid rest

/-- Up to a closing parenthesis, the further arguments of a call are expressions that each have a
comma before them. -/
theorem reads_moreArguments_iff (hr : r.Is .parenthesis ")") :
    Reads moreArguments ts es (r :: rest) ↔ ReadsNext es ts (r :: rest) := by
  have hcomma : ¬r.Is .comma "," := by simp [Token.Is, hr.1]
  induction es generalizing ts with
  | nil =>
    constructor
    · intro h
      cases ts with
      | nil => simpa using (reads_moreArguments_nil.1 h).2
      | cons t tail =>
        by_cases ht : t.Is .comma ","
        · obtain ⟨a, mid, as, -, -, has⟩ := (reads_moreArguments_of_comma ht).1 h
          cases has
        · exact ((reads_moreArguments_of_not_comma ht).1 h).2.symm
    · rintro rfl
      exact (reads_moreArguments_of_not_comma hcomma).2 ⟨rfl, rfl⟩
  | cons e es ih =>
    constructor
    · intro h
      cases ts with
      | nil => cases (reads_moreArguments_nil.1 h).1
      | cons t tail =>
        by_cases ht : t.Is .comma ","
        · obtain ⟨a, mid, as, ha, has, hes⟩ := (reads_moreArguments_of_comma ht).1 h
          cases hes
          exact ⟨mid, reads_nextReader.2 ⟨t, tail, rfl, ht, ha⟩, ih.1 has⟩
        · cases ((reads_moreArguments_of_not_comma ht).1 h).1
    · rintro ⟨mid, he, hes⟩
      obtain ⟨t, tail, rfl, ht, he⟩ := reads_nextReader.1 he
      exact (reads_moreArguments_of_comma ht).2 ⟨e, mid, es, he, ih.2 hes, rfl⟩

/-- Expressions are read one after another, with commas between them. -/
def ReadsEach : List Expr → List Token → List Token → Prop
  | [], ts, rest => ts = rest
  | e :: es, ts, rest => ∃ mid, reader.Reads ts e mid ∧ ReadsNext es mid rest

/-- The arguments of a call are the expressions up to a closing parenthesis. -/
theorem reads_arguments_iff (hr : r.Is .parenthesis ")") :
    Reads arguments ts es (r :: rest) ↔ ReadsEach es ts (r :: rest) := by
  by_cases hclose : ∀ t ∈ ts.head?, ¬t.Is .parenthesis ")"
  · refine (reads_arguments_of_not_close hclose).trans ⟨?_, fun h => ?_⟩
    · rintro ⟨a, mid, as, ha, has, rfl⟩
      exact ⟨mid, ha, (reads_moreArguments_iff hr).1 has⟩
    · cases es with
      | nil =>
        cases h
        exact absurd hr (hclose r rfl)
      | cons a as =>
        obtain ⟨mid, ha, has⟩ := h
        exact ⟨a, mid, as, ha, (reads_moreArguments_iff hr).2 has, rfl⟩
  · obtain ⟨t, tail, rfl, ht⟩ : ∃ t tail, ts = t :: tail ∧ t.Is .parenthesis ")" := by
      cases ts <;> simp_all
    refine (reads_arguments_of_close ht).trans ⟨?_, fun h => ?_⟩
    · rintro ⟨rfl, h⟩
      exact h.symm
    · cases es with
      | nil => exact ⟨rfl, h.symm⟩
      | cons a as =>
        -- no expression begins with a closing parenthesis
        obtain ⟨mid, ha, -⟩ := h
        obtain ⟨us, hus, hphrase⟩ := phrase_sound ha
        obtain ⟨u, tail', rfl, hu⟩ := phrase_head hphrase
        cases hus
        exact absurd ht hu

end Expr

namespace Stmt

/-- A command takes as many expressions as it has arguments. -/
theorem reads_arguments {name : String} {l : Token} (hname : name ≠ "Color") :
    (arguments name l).Reads ts s rest ↔ ∃ es, Expr.ReadsEach es ts rest ∧ Command name es s := by
  constructor
  · intro h
    unfold arguments at h
    split at h <;> simp only [reads_bind, reads_pure, not_reads_fail] at h
    · obtain ⟨x, mid₁, hx, y, mid₂, hy, rfl, rfl⟩ := h
      exact ⟨[x, y], ⟨mid₁, hx, rest, hy, rfl⟩, .spawn⟩
    · contradiction
    · obtain ⟨x, mid, hx, rfl, rfl⟩ := h
      exact ⟨[x], ⟨rest, hx, rfl⟩, .size⟩
    · obtain ⟨x, mid₁, hx, y, mid₂, hy, z, mid₃, hz, rfl, rfl⟩ := h
      exact ⟨[x, y, z], ⟨mid₁, hx, mid₂, hy, rest, hz, rfl⟩, .line⟩
    · obtain ⟨x, mid₁, hx, y, mid₂, hy, z, mid₃, hz, rfl, rfl⟩ := h
      exact ⟨[x, y, z], ⟨mid₁, hx, mid₂, hy, rest, hz, rfl⟩, .circle⟩
    · obtain ⟨x, mid₁, hx, y, mid₂, hy, z, mid₃, hz, w, mid₄, hw, v, mid₅, hv, rfl, rfl⟩ := h
      exact ⟨[x, y, z, w, v], ⟨mid₁, hx, mid₂, hy, mid₃, hz, mid₄, hw, rest, hv, rfl⟩, .rectangle⟩
    · obtain ⟨rfl, rfl⟩ := h
      exact ⟨[], rfl, .fill⟩
  · rintro ⟨es, h, hc⟩
    cases hc <;> simp only [arguments, reads_bind, reads_pure]
    case spawn =>
      obtain ⟨mid₁, hx, mid₂, hy, rfl⟩ := h
      exact ⟨_, _, hx, _, _, hy, rfl, rfl⟩
    case size =>
      obtain ⟨mid, hx, rfl⟩ := h
      exact ⟨_, _, hx, rfl, rfl⟩
    case line | circle =>
      obtain ⟨mid₁, hx, mid₂, hy, mid₃, hz, rfl⟩ := h
      exact ⟨_, _, hx, _, _, hy, _, _, hz, rfl, rfl⟩
    case rectangle =>
      obtain ⟨mid₁, hx, mid₂, hy, mid₃, hz, mid₄, hw, mid₅, hv, rfl⟩ := h
      exact ⟨_, _, hx, _, _, hy, _, _, hz, _, _, hw, _, _, hv, rfl, rfl⟩
    case fill => exact ⟨trivial, h.symm⟩

/-! ### Statements -/

theorem readerAfter_goto (h : t.Is .method "GoTo") : readerAfter t = gotoReader := by
  simp [readerAfter, h.1, h.2]

theorem readerAfter_command (hk : t.kind = .method) (h : t.text ≠ "GoTo") :
    readerAfter t = commandReader t.text := by
  simp [readerAfter, hk, h]

theorem commandReader_sound {f : Token} (hf : f.kind = .method)
    (h : (commandReader f.text).Reads ts s rest) : ∃ us, f :: ts = us ++ rest ∧ Statement us s := by
  simp only [commandReader, reads_bind, reads_sign, reads_pure] at h
  obtain ⟨l, mid, ⟨rfl, hl⟩, _, _, hs, r, _, ⟨rfl, hr⟩, rfl, rfl⟩ := h
  by_cases hname : f.text = "Color"
  · rw [hname] at hs
    simp only [arguments, reads_bind, reads_kind, reads_pure] at hs
    obtain ⟨t, _, ⟨rfl, ht⟩, rfl, rfl⟩ := hs
    exact ⟨[f, l, t, r], rfl, .color ⟨hf, hname⟩ hl (by simpa using ht) hr⟩
  · obtain ⟨es, hes, hc⟩ := (reads_arguments hname).1 hs
    obtain ⟨us, rfl, hus⟩ := Expr.arguments_sound ((Expr.reads_arguments_iff hr).2 hes)
    exact ⟨f :: l :: (us ++ [r]), by simp, .command hf hl hus hc hr⟩

theorem gotoReader_sound {g : Token} (hg : g.Is .method "GoTo") (h : gotoReader.Reads ts s rest) :
    ∃ us, g :: ts = us ++ rest ∧ Statement us s := by
  simp only [gotoReader, reads_bind, reads_sign, reads_kind, reads_pure] at h
  obtain ⟨lb, _, ⟨rfl, hlb⟩, t, _, ⟨rfl, ht⟩, rb, _, ⟨rfl, hrb⟩, l, _, ⟨rfl, hl⟩, h⟩ := h
  obtain ⟨e, _, he, r, _, ⟨rfl, hr⟩, rfl, rfl⟩ := h
  obtain ⟨us, rfl, hus⟩ := Expr.phrase_sound he
  exact ⟨g :: lb :: t :: rb :: l :: (us ++ [r]), by simp,
    .goto hg hlb (by simpa using ht) hrb hl hus hr⟩

/-- **A statement that is read is derived.** -/
theorem readerAfter_sound (h : (readerAfter t).Reads ts s rest) :
    ∃ us, t :: ts = us ++ rest ∧ Statement us s := by
  cases hk : t.kind <;> simp only [readerAfter, hk] at h
  case method =>
    split at h
    · next htext => exact gotoReader_sound ⟨hk, htext⟩ h
    · exact commandReader_sound hk h
  case identifier =>
    simp only [assignReader, reads_bind, reads_kind, reads_pure] at h
    obtain ⟨a, _, ⟨rfl, ha⟩, e, _, he, rfl, rfl⟩ := h
    obtain ⟨us, rfl, hus⟩ := Expr.phrase_sound he
    exact ⟨t :: a :: us, rfl, .assign hk (by simpa using ha) hus⟩
  case label =>
    obtain ⟨rfl, rfl⟩ := reads_pure.1 h
    exact ⟨[t], rfl, .label hk⟩
  all_goals cases h

/-- No jump is a command. -/
theorem ne_goto_of_command {name : String} (h : Command name es s) : name ≠ "GoTo" := by
  cases h <;> simp

theorem ne_color_of_command {name : String} (h : Command name es s) : name ≠ "Color" := by
  cases h <;> simp

/-- **A statement that is derived is read,** where nothing after it goes on with an expression. -/
theorem readerAfter_complete (h : Statement us s) (hrest : Expr.Stops 3 rest) :
    ∃ t ts, us ++ rest = t :: ts ∧ (readerAfter t).Reads ts s rest := by
  cases h with
  | @command f l r ts es s hf hl hes hc hr =>
    have hread := Expr.arguments_complete hes hr rest
    have hargs : (arguments f.text l).Reads (ts ++ r :: rest) s (r :: rest) :=
      (reads_arguments (ne_color_of_command hc)).2 ⟨es, (Expr.reads_arguments_iff hr).1 hread, hc⟩
    refine ⟨f, l :: (ts ++ r :: rest), by simp, ?_⟩
    rw [readerAfter_command hf (ne_goto_of_command hc)]
    simp only [commandReader, reads_bind, reads_sign, reads_pure]
    exact ⟨l, _, ⟨rfl, hl⟩, s, _, hargs, r, rest, ⟨rfl, hr⟩, rfl, rfl⟩
  | @color f l t r hf hl ht hr =>
    have ht : t.kind ∈ [.string, .color] := by simpa using ht
    refine ⟨f, [l, t, r] ++ rest, rfl, ?_⟩
    rw [readerAfter_command hf.1 (by simp [hf.2]), hf.2]
    simp only [commandReader, arguments, reads_bind, reads_sign, reads_kind, reads_pure]
    exact ⟨l, _, ⟨rfl, hl⟩, _, _, ⟨t, _, ⟨rfl, ht⟩, rfl, rfl⟩, r, _, ⟨rfl, hr⟩, rfl, rfl⟩
  | @assign v a ts e hv ha he =>
    have hread : Expr.reader.Reads (ts ++ rest) e rest := Expr.phrase_complete he hrest.extends
    refine ⟨v, a :: (ts ++ rest), rfl, ?_⟩
    simp only [readerAfter, hv, assignReader, reads_bind, reads_kind, reads_pure]
    exact ⟨a, _, ⟨rfl, by simp [ha]⟩, e, rest, hread, rfl, rfl⟩
  | @label t ht =>
    refine ⟨t, rest, rfl, ?_⟩
    simp [readerAfter, ht]
  | @goto g lb t rb l r ts e hg hlb ht hrb hl he hr =>
    have hstop : Expr.Stops 3 (r :: rest) := Expr.stops_of_parenthesis hr
    have hread : Expr.reader.Reads (ts ++ r :: rest) e (r :: rest) :=
      Expr.phrase_complete he hstop.extends
    refine ⟨g, lb :: t :: rb :: l :: (ts ++ r :: rest), by simp, ?_⟩
    rw [readerAfter_goto hg]
    simp only [gotoReader, reads_bind, reads_sign, reads_kind, reads_pure]
    exact ⟨lb, _, ⟨rfl, hlb⟩, t, _, ⟨rfl, by simp [ht]⟩, rb, _, ⟨rfl, hrb⟩, l, _, ⟨rfl, hl⟩,
      e, _, hread, r, rest, ⟨rfl, hr⟩, rfl, rfl⟩

end Stmt

/-! ### Programs -/

namespace Program

variable {p q : Program}

/-- Statements are read by reading the first of them and then the others. -/
theorem statements_cons :
    statements (t :: ts) = .ok p ↔
      ∃ s rest q, (Stmt.readerAfter t).Reads ts s rest ∧ statements rest = .ok q ∧ p = s :: q := by
  have htaken : statements (t :: ts) = .ok p ↔ allTaken (statements (t :: ts)) = .ok (p, []) := by
    rw [allTaken_eq_ok, and_iff_left rfl]
  simp only [htaken, reading_statements_cons, Reading.andThen_eq_ok, allTaken_eq_ok,
    Reader.ok_eq_ok]
  constructor
  · rintro ⟨s, rest, hs, q, _, ⟨hq, -⟩, hp, -⟩
    exact ⟨s, rest, q, hs, hq, hp⟩
  · rintro ⟨s, rest, q, hs, hq, hp⟩
    exact ⟨s, rest, hs, q, [], ⟨hq, rfl⟩, hp, rfl⟩

/-- **What is read as statements is derived.** -/
theorem statements_sound {t : Token} {ts : List Token} {p : Program}
    (h : statements (t :: ts) = .ok p) : Statements (t :: ts) p := by
  obtain ⟨s, rest, q, hs, hq, rfl⟩ := statements_cons.1 h
  obtain ⟨us, hus, hstmt⟩ := Stmt.readerAfter_sound hs
  rw [hus]
  cases rest with
  | nil =>
    rw [statements_nil] at hq
    cases hq
    rw [List.append_nil]
    exact .one hstmt
  | cons u rest => exact .cons hstmt (statements_sound hq)
termination_by ts.length
decreasing_by
  have := hs.length_le
  simp only [List.length_cons] at this
  omega

/-- **What is derived is read as statements.** -/
theorem statements_complete (h : Statements ts p) : statements ts = .ok p := by
  induction h with
  | @one ts s h =>
    have hstop : Expr.Stops 3 [] := by simp [Expr.Stops]
    obtain ⟨t, tail, hts, hs⟩ := Stmt.readerAfter_complete h hstop
    rw [List.append_nil] at hts
    rw [hts]
    exact statements_cons.2 ⟨s, [], [], hs, statements_nil, rfl⟩
  | @cons ts us s p h hp ih =>
    have hstop : Expr.Stops 3 us := by
      obtain ⟨t, tail, rfl, ht⟩ := hp.head
      refine Expr.stops_of_kind ?_ ?_ <;> rcases ht with ht | ht | ht <;> simp [ht]
    obtain ⟨t, tail, hts, hs⟩ := Stmt.readerAfter_complete h hstop
    rw [hts]
    exact statements_cons.2 ⟨s, us, p, hs, ih, rfl⟩

theorem ofTokens_eq_ok :
    ofTokens ts = .ok p ↔
      (∃ t, ts.head? = some t ∧ t.Is .method "Spawn") ∧ statements ts = .ok p := by
  cases ts with
  | nil => simp [ofTokens, ofTokens?]
  | cons t ts =>
    by_cases ht : t.Is .method "Spawn"
    · simp only [ofTokens, ofTokens?, List.head?_cons, Option.any_some, ht]
      cases statements (t :: ts) <;> simp [ht]
    · simp [ofTokens, ofTokens?, ht]

/-- **The readers accept exactly the grammar.** Tokens are taken for a program just if they begin
with the command that places the cursor and the program can be derived from them; and from no tokens
can two programs be derived. -/
theorem ofTokens_eq_ok_iff_derived (ts : List Token) :
    (∀ p, ofTokens ts = .ok p ↔
      (∃ t, ts.head? = some t ∧ t.Is .method "Spawn") ∧ Statements ts p) ∧
    ∀ p q, Statements ts p → Statements ts q → p = q := by
  refine ⟨fun p => ?_, fun p q hp hq => ?_⟩
  · refine ofTokens_eq_ok.trans (and_congr_right ?_)
    rintro ⟨t, ht, -⟩
    obtain ⟨tail, rfl⟩ := List.head?_eq_some_iff.1 ht
    exact ⟨statements_sound, statements_complete⟩
  · have h := statements_complete hp
    rw [statements_complete hq] at h
    cases h
    rfl

/-! The program `Spawn(0, -1) n <- 9 - 5 - n n <- 9 - 5 - n` has nothing between its statements. -/

/-- A word in the first line. -/
def word (k : Token.Kind) (text : String) : Token := ⟨k, text, ⟨0, 1, 1⟩⟩

/-- The tokens of `Spawn(0, -1)`. -/
def placing : List Token :=
  [word .method "Spawn", word .parenthesis "(", word .number "0", word .comma ",",
    word .operator "-", word .number "1", word .parenthesis ")"]

/-- The tokens of `n <- 9 - 5 - n`. -/
def lowering : List Token :=
  [word .identifier "n", word .assignment "<-", word .number "9", word .operator "-",
    word .number "5", word .operator "-", word .identifier "n"]

theorem operand_word_number {text : String} {n : Int32} (h : Text.readInt32? text = some n) :
    Operand [word .number text] (.num n) := .number rfl (int32Literal_iff.2 h)

theorem statement_placing :
    Statement placing (.spawn (.num 0) (.binary .sub (.num 0) (.num 1))) := by
  have hzero : Operand [word .number "0"] (.num 0) := operand_word_number (by decide)
  have hone : Operand [word .number "1"] (.num 1) := operand_word_number (by decide)
  have hminus : Operand [word .operator "-", word .number "1"] (.binary .sub (.num 0) (.num 1)) :=
    .minus ⟨rfl, rfl⟩ hone
  have hargs := Listed.cons (t := word .comma ",") (.single (.single (.single (.operand hzero))))
    ⟨rfl, rfl⟩ (.one (.single (.single (.single (.operand hminus)))))
  exact .command (f := word .method "Spawn") (l := word .parenthesis "(")
    (r := word .parenthesis ")") rfl ⟨rfl, rfl⟩ (.some hargs) .spawn ⟨rfl, rfl⟩

theorem statement_lowering :
    Statement lowering
      (.assign "n" (.binary .sub (.binary .sub (.num 9) (.num 5)) (.var "n"))) := by
  have hnine : Operand [word .number "9"] (.num 9) := operand_word_number (by decide)
  have hfive : Operand [word .number "5"] (.num 5) := operand_word_number (by decide)
  have hminus : (.operator, "-", .sub) ∈ signs 1 := by decide
  have hfirst := Phrase.more (t := word .operator "-") (.single (.single (.operand hnine))) hminus
    (.single (.operand hfive))
  have hsecond := Phrase.more (t := word .operator "-") hfirst hminus
    (.single (.operand (.name (t := word .identifier "n") rfl)))
  exact .assign (v := word .identifier "n") (a := word .assignment "<-") rfl rfl (.single hsecond)

theorem ofTokens_eq_ok_iff_derived_placing_lowering :
    ofTokens (placing ++ (lowering ++ lowering)) =
      .ok [.spawn (.num 0) (.binary .sub (.num 0) (.num 1)),
        .assign "n" (.binary .sub (.binary .sub (.num 9) (.num 5)) (.var "n")),
        .assign "n" (.binary .sub (.binary .sub (.num 9) (.num 5)) (.var "n"))] := by
  refine ((ofTokens_eq_ok_iff_derived _).1 _).2 ⟨⟨word .method "Spawn", rfl, rfl, rfl⟩, ?_⟩
  exact .cons statement_placing (.cons statement_lowering (.one statement_lowering))

end Program

end Easel
