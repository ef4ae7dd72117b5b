import Easel.Proofs.Lexer.Layout

/-!
# Words with blanks between them

Words that the lexer can find may be written one after another with any blanks between them: the
lexer finds these words and no others (`Spaced.lexFrom`). A blank ends every word and no word begins
with one, so none of them runs into the next. In particular the tokens of a text are found again,
however they are spaced (`lex_joined`).
-/

namespace Easel.Token

/-- A token without its place. -/
structure Word where
  /-- What kind of word it is. -/
  kind : Kind
  /-- The word as it stands in a text. -/
  text : String
  deriving DecidableEq

/-- The token without its place. -/
def toWord (t : Token) : Word := ⟨t.kind, t.text⟩

namespace Word

/-- The lexer takes the word for one of its kind. -/
def Lexical (w : Word) : Prop := Lexeme (some w.kind) w.text.toList []

/-- The words stand in the text one after another, with blanks between them. -/
inductive Spaced : List Word → List Char → Prop where
  /-- One word. -/
  | one {w : Word} : Spaced [w] w.text.toList
  /-- A word and some blanks before other words. -/
  | cons {w : Word} {ws : List Word} {sep cs : List Char} : sep ≠ [] →
      (∀ c ∈ sep, Text.isBlank c) → Spaced ws cs → Spaced (w :: ws) (w.text.toList ++ (sep ++ cs))

end Word

open Word

variable {ws vs : List Word} {cs ds sep : List Char}

/-- The tokens of a text are words that the lexer can find. -/
theorem lexical_of_lex {source : String} {ts : List Token} (h : lex source = .ok ts) :
    ∀ t ∈ ts, t.toWord.Lexical := by
  intro t ht
  have hlayout : Layout [] source.toList ts := layout_of_lexFrom h
  obtain ⟨between, rest, -, hlexeme, -⟩ := hlayout.slice ht
  exact hlexeme.of_head? (by simp)

/-- No word begins with a blank. -/
theorem Lexeme.ends_isBlank {k : Kind} {p rest : List Char} (h : Lexeme (some k) p rest)
    (cs : List Char) : Ends Text.isBlank (p ++ cs) := by
  have hword : ∀ c, isWordChar c → Text.isBlank c = false := by
    intro c hc
    by_contra hblank
    rw [Bool.not_eq_false] at hblank
    rw [isWordChar_of_isBlank hblank] at hc
    cases hc
  obtain ⟨c, tail, rfl⟩ := List.exists_cons_of_ne_nil h.ne_nil
  rw [List.cons_append, ends_cons]
  generalize hp : c :: tail = p at h
  cases h with
  | word hmem _ =>
    subst hp
    exact hword c (isWordChar_of_mem_words hmem c (by simp))
  | sign hmem _ =>
    have hall : ∀ s ∈ k.signs, s.toList.head?.all (!Text.isBlank ·) := by cases k <;> decide
    simpa [← hp] using hall _ hmem
  | number _ hdigit _ =>
    subst hp
    exact hword c (isWordChar_iff.2 (.inr (hdigit c (by simp))))
  | string _ =>
    obtain ⟨rfl, -⟩ := List.cons.inj hp
    rfl
  | @label w rest hname _ =>
    obtain ⟨d, w, rfl⟩ := List.exists_cons_of_ne_nil hname.ne_nil
    obtain ⟨rfl, -⟩ := List.cons.inj hp
    exact hword c (hname.isWordChar c (by simp))
  | identifier hname _ _ _ =>
    subst hp
    exact hword c (hname.isWordChar c (by simp))

theorem Word.Spaced.ends_isBlank (h : Spaced ws cs) (hws : ∀ w ∈ ws, w.Lexical) :
    Ends Text.isBlank cs := by
  cases h with
  | @one w => simpa using Lexeme.ends_isBlank (hws w (by simp)) []
  | @cons w _ _ _ _ _ _ => exact Lexeme.ends_isBlank (hws w (by simp)) _

/-- **Words with blanks between them are found,** all of them and no others. -/
theorem Word.Spaced.lexFrom (h : Spaced ws cs) (hws : ∀ w ∈ ws, w.Lexical) (pos : Position) :
    ∃ ts, Token.lexFrom pos cs = .ok ts ∧ ts.map toWord = ws := by
  induction h generalizing pos with
  | @one w =>
    have hw : w.Lexical := hws w (by simp)
    refine ⟨[⟨w.kind, w.text, pos⟩], ?_, rfl⟩
    have hstep := Lexeme.lexFrom hw pos
    rw [List.append_nil, lexFrom_nil] at hstep
    simpa [ofPiece, Except.map] using hstep
  | @cons w ws sep cs hne hblank hspaced ih =>
    have hws' : ∀ w ∈ ws, w.Lexical := fun v hv => hws v (by simp [hv])
    have hw : Lexeme (some w.kind) w.text.toList (sep ++ cs) := by
      refine Lexeme.of_blank (hws w (by simp)) fun c hc => ?_
      obtain ⟨d, tail, rfl⟩ := List.exists_cons_of_ne_nil hne
      simp only [List.cons_append, List.head?_cons, Option.mem_some_iff] at hc
      exact hblank c (by simp [hc])
    have hsep : Lexeme none sep cs := .blanks hne hblank (hspaced.ends_isBlank hws')
    obtain ⟨ts, hts, hmap⟩ := ih hws' ((pos.advanceBy w.text.toList).advanceBy sep)
    refine ⟨⟨w.kind, w.text, pos⟩ :: ts, ?_, by rw [List.map_cons, hmap]; rfl⟩
    rw [hw.lexFrom, hsep.lexFrom_none, hts]
    simp [ofPiece, Except.map]

theorem Word.Spaced.append (h : Spaced ws cs) (hne : sep ≠ []) (hblank : ∀ c ∈ sep, Text.isBlank c)
    (h' : Spaced vs ds) : Spaced (ws ++ vs) (cs ++ (sep ++ ds)) := by
  induction h with
  | one => exact .cons hne hblank h'
  | cons hne' hblank' _ ih =>
    rw [List.append_assoc, List.append_assoc]
    exact .cons hne' hblank' ih

/-- Texts with words in them may be joined by blanks. -/
theorem Word.Spaced.intercalate {α : Type} {words : α → List Word} {text : α → String}
    {sep : String} (hne : sep ≠ "") (hblank : ∀ c ∈ sep.toList, Text.isBlank c) {as : List α}
    (has : as ≠ []) (h : ∀ a ∈ as, Spaced (words a) (text a).toList) :
    Spaced (as.flatMap words) (sep.intercalate (as.map text)).toList := by
  induction as with
  | nil => exact absurd rfl has
  | cons a as ih =>
    have ha := h a (by simp)
    cases as with
    | nil => simpa using ha
    | cons b as =>
      have hrest := ih (by simp) fun a' ha' => h a' (by simp [ha'])
      have happend := ha.append (by simpa using hne) hblank hrest
      simpa [String.intercalate_cons_cons] using happend

/-! ### Tokens spaced anew -/

/-- Texts one after another, with a separator of its own in each place between two of them. -/
def joined (sep : Nat → String) : List String → String
  | [] => ""
  | [text] => text
  | text :: next :: texts => text ++ sep 0 ++ joined (fun i => sep (i + 1)) (next :: texts)

/-- Separators of blanks space the words. -/
theorem Word.spaced_joined {sep : Nat → String}
    (hsep : ∀ i, sep i ≠ "" ∧ ∀ c ∈ (sep i).toList, Text.isBlank c) (hws : ws ≠ []) :
    Spaced ws (joined sep (ws.map Word.text)).toList := by
  induction ws generalizing sep with
  | nil => exact absurd rfl hws
  | cons w ws ih =>
    cases ws with
    | nil => exact .one
    | cons v ws =>
      obtain ⟨hne, hblank⟩ := hsep 0
      have hrest := ih (fun i => hsep (i + 1)) (List.cons_ne_nil v ws)
      have hspaced := Spaced.cons (w := w) (by simpa using hne) hblank hrest
      simpa [joined] using hspaced

/-- **Tokens survive any spacing.** If the tokens of a text are written one after another, with any
blanks between them, then the lexer finds tokens of the same kinds with the same texts. -/
theorem lex_joined (source : String) (ts : List Token) (h : lex source = .ok ts)
    (sep : Nat → String) (hsep : ∀ i, sep i ≠ "" ∧ ∀ c ∈ (sep i).toList, Text.isBlank c) :
    ∃ us, lex (joined sep (ts.map Token.text)) = .ok us ∧ us.map toWord = ts.map toWord := by
  have htexts : ts.map Token.text = (ts.map toWord).map Word.text := by
    rw [List.map_map]
    rfl
  have hlexical : ∀ w ∈ ts.map toWord, w.Lexical := by
    intro w hw
    obtain ⟨t, ht, rfl⟩ := List.mem_map.1 hw
    exact lexical_of_lex h t ht
  cases ts with
  | nil => exact ⟨[], lexFrom_nil .start, rfl⟩
  | cons t ts =>
    rw [htexts]
    exact (Word.spaced_joined hsep (List.cons_ne_nil t.toWord (ts.map toWord))).lexFrom hlexical _

/-- A line feed, then a no-break space, and so on. -/
def alternating (i : Nat) : String := if i % 2 = 0 then "\n" else "\u00a0"

/-- Signs that would be others without blanks between them, and a name before a label. -/
theorem lex_joined_alternating :
    lex "< -/ /a b:" = .ok [⟨.comparison, "<", ⟨0, 1, 1⟩⟩, ⟨.operator, "-", ⟨2, 1, 3⟩⟩,
        ⟨.operator, "/", ⟨3, 1, 4⟩⟩, ⟨.operator, "/", ⟨5, 1, 6⟩⟩, ⟨.identifier, "a", ⟨6, 1, 7⟩⟩,
        ⟨.label, "b:", ⟨8, 1, 9⟩⟩] ∧
      (∀ i, alternating i ≠ "" ∧ ∀ c ∈ (alternating i).toList, Text.isBlank c) ∧
      ∃ us, lex "<\n-\u00a0/\n/\u00a0a\nb:" = .ok us ∧
        us.map toWord = [⟨.comparison, "<"⟩, ⟨.operator, "-"⟩, ⟨.operator, "/"⟩,
          ⟨.operator, "/"⟩, ⟨.identifier, "a"⟩, ⟨.label, "b:"⟩] := by
  have hlex : lex "< -/ /a b:" = .ok [⟨.comparison, "<", ⟨0, 1, 1⟩⟩, ⟨.operator, "-", ⟨2, 1, 3⟩⟩,
      ⟨.operator, "/", ⟨3, 1, 4⟩⟩, ⟨.operator, "/", ⟨5, 1, 6⟩⟩, ⟨.identifier, "a", ⟨6, 1, 7⟩⟩,
      ⟨.label, "b:", ⟨8, 1, 9⟩⟩] := by decide +kernel
  have hsep : ∀ i, alternating i ≠ "" ∧ ∀ c ∈ (alternating i).toList, Text.isBlank c := by
    intro i
    unfold alternating
    split
    · simp [Text.isBlank]
    · simp [Text.isBlank]
  exact ⟨hlex, hsep, lex_joined _ _ hlex alternating hsep⟩

end Easel.Token
