import Easel.Proofs.Lexer.Layout

/-!
# Texts line by line

A line feed ends every lexeme but a comment that is not closed. So a text can be divided into tokens
line by line (`lexFrom_append_line`): what is written below a text changes none of its tokens, and
it is divided as if nothing were above it. Only the places of its tokens are further down
(`Position.below`).
-/

namespace Easel

namespace Position

/-- The place, when a text and a line feed are put above the text that it belongs to. -/
def below (above : String) (p : Position) : Position where
  offset := p.offset + (above.utf8ByteSize + 1)
  line := p.line + (above.toList.count '\n' + 1)
  column := p.column

/-- The lines above make no difference to how the lines below are counted. -/
theorem below_advance (above : String) (p : Position) (c : Char) :
    (p.advance c).below above = (p.below above).advance c := by
  unfold advance
  split
  · simp only [below, mk.injEq, and_true]
    omega
  · simp only [below, mk.injEq, and_true]
    omega

theorem below_advanceBy (above : String) (p : Position) (cs : List Char) :
    (p.advanceBy cs).below above = (p.below above).advanceBy cs := by
  induction cs generalizing p with
  | nil => rfl
  | cons c cs ih => rw [advanceBy_cons, advanceBy_cons, ih, below_advance]

/-- The first place below a text is the one after it and a line feed. -/
theorem below_start (above : String) :
    start.below above = (start.advanceBy above.toList).advance '\n' := by
  rw [advanceBy_start, String.ofList_toList]
  simp only [below, start, after, advance, if_true, mk.injEq, and_true]
  exact ⟨Nat.zero_add _, Nat.add_comm 1 _⟩

end Position

namespace Token

/-- The token, when a text and a line feed are put above its text. -/
def below (above : String) (t : Token) : Token := { t with pos := t.pos.below above }

/-- The error, when a text and a line feed are put above its text. -/
def LexError.below (above : String) (e : LexError) : LexError :=
  { e with pos := e.pos.below above }

theorem stop_below (above : String) (t : Token) :
    (t.below above).stop = t.stop + (above.utf8ByteSize + 1) := Nat.add_right_comm _ _ _

/-- The text ends inside a comment that is not closed. -/
inductive EndsInComment : List Char → Prop where
  /-- The comment begins here. -/
  | here {body : List Char} : ¬['*', '/'] <:+: body → EndsInComment ('/' :: '*' :: body)
  /-- The comment begins after a lexeme, or further on. -/
  | later {k : Option Kind} {p rest : List Char} : Lexeme k p rest → EndsInComment rest →
      EndsInComment (p ++ rest)

variable {k : Option Kind} {p rest cs : List Char} {ts : List Token}

theorem not_endsInComment_nil : ¬EndsInComment [] := by
  intro h
  generalize hcs : ([] : List Char) = cs at h
  cases h with
  | here _ => cases hcs
  | later hp _ => exact hp.ne_nil (List.append_eq_nil_iff.1 hcs.symm).1

/-- A lexeme at the front is the open comment itself, or it makes no difference. -/
theorem endsInComment_append_iff (h : Lexeme k p rest) :
    EndsInComment (p ++ rest) ↔
      (rest = [] ∧ ∃ body, p = '/' :: '*' :: body ∧ ¬['*', '/'] <:+: body) ∨
        EndsInComment rest := by
  constructor
  · intro hopen
    have hscan := h.scan?
    generalize hcs : p ++ rest = cs at hopen hscan
    -- the text is divided in one way only
    cases hopen with
    | @here body hbody =>
      have hwhole := (Lexeme.openComment hbody).scan?
      rw [List.append_nil, hscan] at hwhole
      cases hwhole
      exact .inl ⟨List.append_right_eq_self.1 hcs, body, rfl, hbody⟩
    | @later k' p' rest' hp' hrest' =>
      have hfirst := hp'.scan?
      rw [hscan] at hfirst
      cases hfirst
      rw [List.append_cancel_left hcs]
      exact .inr hrest'
  · rintro (⟨rfl, body, rfl, hbody⟩ | hrest)
    · rw [List.append_nil]
      exact .here hbody
    · exact .later h hrest

/-! ### Blanks across lines -/

/-- Blanks may be taken one by one. -/
theorem lexFrom_cons_of_isBlank {c : Char} (hc : Text.isBlank c) (pos : Position)
    (cs : List Char) : lexFrom pos (c :: cs) = lexFrom (pos.advance c) cs := by
  obtain ⟨rest, hcs, hrest⟩ := exists_takeWhile_append Text.isBlank cs
  have hw : ∀ d ∈ cs.takeWhile Text.isBlank, Text.isBlank d := fun d hd => List.mem_takeWhile_imp hd
  generalize cs.takeWhile Text.isBlank = w at hcs hw
  subst hcs
  have hall : Lexeme none (c :: w) rest := by
    refine .blanks (by simp) ?_ hrest
    simpa using And.intro hc hw
  rw [← List.cons_append, hall.lexFrom_none, Position.advanceBy_cons]
  cases w with
  | nil => rfl
  | cons d w =>
    have htail : Lexeme none (d :: w) rest := .blanks (by simp) hw hrest
    rw [htail.lexFrom_none]

theorem lexFrom_append_of_isBlank (hp : ∀ c ∈ p, Text.isBlank c) (pos : Position)
    (cs : List Char) : lexFrom pos (p ++ cs) = lexFrom (pos.advanceBy p) cs := by
  induction p generalizing pos with
  | nil => rfl
  | cons c p ih =>
    rw [List.cons_append, lexFrom_cons_of_isBlank (hp c (by simp)), Position.advanceBy_cons]
    exact ih (fun d hd => hp d (by simp [hd])) _

/-! ### One text above another -/

/-- A lexeme of the text above is taken whatever stands in the lines below, unless it is a comment
that could go on there. -/
theorem Lexeme.lexFrom_append_line (h : Lexeme k p rest) (hclosed : ¬EndsInComment (p ++ rest))
    (pos : Position) (cs : List Char) :
    Token.lexFrom pos (p ++ (rest ++ '\n' :: cs)) =
      (Token.lexFrom (pos.advanceBy p) (rest ++ '\n' :: cs)).map (ofPiece pos k p ++ ·) := by
  cases rest with
  | cons c rest =>
    -- the lexeme has ended before the seam
    have hlong : Lexeme k p (c :: rest ++ '\n' :: cs) := h.of_head? (by simp)
    exact hlong.lexFrom pos
  | nil =>
    rw [List.nil_append]
    cases k with
    | some k =>
      have hlong : Lexeme (some k) p ('\n' :: cs) := h.of_blank (by simp [Text.isBlank])
      exact hlong.lexFrom pos
    | none =>
      cases h with
      | @lineComment body _ hbody _ =>
        have hlong : Lexeme none ('/' :: '/' :: body) ('\n' :: cs) := .lineComment hbody (by simp)
        exact hlong.lexFrom pos
      | @blockComment body _ hbody =>
        have hlong : Lexeme none ('/' :: '*' :: (body ++ ['*', '/'])) ('\n' :: cs) :=
          .blockComment hbody
        exact hlong.lexFrom pos
      | openComment hbody =>
        rw [List.append_nil] at hclosed
        exact absurd (.here hbody) hclosed
      | blanks _ hblank _ =>
        -- the blanks may go on after the seam, and are taken one by one
        rw [lexFrom_append_of_isBlank hblank]
        cases Token.lexFrom (pos.advanceBy p) ('\n' :: cs) <;> rfl

/-- **The tokens of a text stay as they are when lines are put below it,** and what is below is
divided from the first place after the line feed on. -/
theorem lexFrom_append_line {pos : Position} (h : lexFrom pos cs = .ok ts)
    (hclosed : ¬EndsInComment cs) (ds : List Char) :
    lexFrom pos (cs ++ '\n' :: ds) =
      (lexFrom ((pos.advanceBy cs).advance '\n') ds).map (ts ++ ·) := by
  induction cs using lexeme_induction generalizing pos ts with
  | nil =>
    rw [lexFrom_nil] at h
    cases h
    rw [List.nil_append, lexFrom_cons_of_isBlank (by decide), Position.advanceBy_nil]
    cases lexFrom (pos.advance '\n') ds <;> rfl
  | stuck c tail hscan =>
    rw [lexFrom_of_scan?_eq_none hscan] at h
    cases h
  | lexeme k p rest hp ih =>
    rw [hp.lexFrom] at h
    cases hrest : lexFrom (pos.advanceBy p) rest with
    | error e =>
      rw [hrest] at h
      cases h
    | ok us =>
      rw [hrest] at h
      cases h
      have hclosed' : ¬EndsInComment rest := fun hopen => hclosed (.later hp hopen)
      rw [List.append_assoc, hp.lexFrom_append_line hclosed, ih hrest hclosed',
        Position.advanceBy_append]
      cases lexFrom (((pos.advanceBy p).advanceBy rest).advance '\n') ds with
      | ok vs => simp [Except.map]
      | error e => rfl

/-- **The text below is divided as if nothing were above it.** Only the places are further down. -/
theorem lexFrom_below (above : String) (pos : Position) (cs : List Char) :
    lexFrom (pos.below above) cs =
      ((lexFrom pos cs).map (List.map (below above))).mapError (LexError.below above) := by
  induction cs using lexeme_induction generalizing pos with
  | nil =>
    rw [lexFrom_nil, lexFrom_nil]
    rfl
  | stuck c tail hscan =>
    rw [lexFrom_of_scan?_eq_none hscan, lexFrom_of_scan?_eq_none hscan]
    rfl
  | lexeme k p rest hp ih =>
    have hpiece : ofPiece (pos.below above) k p = (ofPiece pos k p).map (below above) := by
      cases k <;> rfl
    rw [hp.lexFrom, hp.lexFrom, ← Position.below_advanceBy, ih, hpiece]
    cases lexFrom (pos.advanceBy p) rest with
    | ok ts => simp [Except.map, Except.mapError]
    | error e => rfl

/-- **Texts are divided into tokens line by line.** Let a text be divided that does not end inside a
comment. If another text stands below it, after a line feed, then all the tokens of the upper text
come first, at their places. They are followed by those of the lower text, each as many bytes and
lines further down as the upper text and the line feed take, and in the same column. If the lower
text has an error, so have both together, moved down in the same way. -/
theorem lex_append_line (upper lower : String) (ts : List Token) (h : lex upper = .ok ts)
    (hclosed : ¬EndsInComment upper.toList) :
    (∀ us, lex lower = .ok us →
      lex (upper ++ "\n" ++ lower) = .ok (ts ++ us.map (below upper)) ∧
      ∀ u ∈ us, (u.below upper).stop = u.stop + (upper.utf8ByteSize + 1)) ∧
    ∀ e, lex lower = .error e → lex (upper ++ "\n" ++ lower) = .error (e.below upper) := by
  have hsource : (upper ++ "\n" ++ lower).toList = upper.toList ++ '\n' :: lower.toList := by simp
  have hlex : lex (upper ++ "\n" ++ lower) =
      (((lex lower).map (List.map (below upper))).mapError (LexError.below upper)).map
        (ts ++ ·) := by
    rw [lex, hsource, lexFrom_append_line h hclosed, ← Position.below_start, lexFrom_below]
    rfl
  constructor
  · intro us hus
    rw [hlex, hus]
    exact ⟨rfl, fun u _ => stop_below upper u⟩
  · intro e he
    rw [hlex, he]
    rfl

/-- A text whose last line ends with a comment on comments. -/
def remarked : String := "Fill // /*"

theorem lex_remarked : lex remarked = .ok [⟨.method, "Fill", ⟨0, 1, 1⟩⟩] := by decide +kernel

theorem not_endsInComment_remarked : ¬EndsInComment remarked.toList := by
  have hfill : Lexeme (some .method) ['F', 'i', 'l', 'l'] [' ', '/', '/', ' ', '/', '*'] :=
    .word (by decide) (ends_cons.2 rfl)
  have hblank : Lexeme none [' '] ['/', '/', ' ', '/', '*'] :=
    .blanks (by simp) (by simp [Text.isBlank]) (ends_cons.2 rfl)
  have hremark : Lexeme none ['/', '/', ' ', '/', '*'] [] := .lineComment (by simp) (by simp)
  intro h
  have h₁ := (endsInComment_append_iff hfill).1 h
  have h₂ := (endsInComment_append_iff hblank).1 (by simpa using h₁)
  have h₃ := (endsInComment_append_iff hremark).1 (by simpa using h₂)
  exact not_endsInComment_nil (by simpa using h₃)

/-- What would close a comment in the lower text does not, and an error there is moved down. -/
theorem lex_append_line_remarked :
    lex remarked = .ok [⟨.method, "Fill", ⟨0, 1, 1⟩⟩] ∧ ¬EndsInComment remarked.toList ∧
      lex (remarked ++ "\n" ++ "*/") = .ok [⟨.method, "Fill", ⟨0, 1, 1⟩⟩,
        ⟨.operator, "*", ⟨11, 2, 1⟩⟩, ⟨.operator, "/", ⟨12, 2, 2⟩⟩] ∧
      lex (remarked ++ "\n" ++ "\n ?") = .error ⟨'?', ⟨13, 3, 2⟩⟩ := by
  have hsigns : lex "*/" = .ok [⟨.operator, "*", ⟨0, 1, 1⟩⟩, ⟨.operator, "/", ⟨1, 1, 2⟩⟩] := by
    decide +kernel
  have hquestion : lex "\n ?" = .error ⟨'?', ⟨2, 2, 2⟩⟩ := by decide +kernel
  have hlines := fun lower =>
    lex_append_line remarked lower _ lex_remarked not_endsInComment_remarked
  refine ⟨lex_remarked, not_endsInComment_remarked, ?_, ?_⟩
  · exact ((hlines "*/").1 _ hsigns).1
  · exact (hlines "\n ?").2 _ hquestion

end Token

end Easel
