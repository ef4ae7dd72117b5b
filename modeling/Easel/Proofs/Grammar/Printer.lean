import Easel.Proofs.Grammar.Program
import Easel.Proofs.Lexer.Spacing
import Easel.Source

/-!
# Writing programs out

Which programs are there a text for? Those that can be written out again: every number is one that
digits can write, no text has a quote in it, every name is one that the lexer takes for a name, and
every call is of a word that the lexer takes for a method (`Program.Writable`). A program is written
out with each operator and its operands in parentheses and with blanks between all words
(`Program.print`), so that neither the lexer nor the grammar can join what does not belong together.
What a text is read as is writable, because each token still shows which rule has found it.
-/

namespace Easel

open Token Token.Word Grammar

/-! ### Programs in words -/

/-- The text in quotes. -/
def Text.quote (s : String) : String := "\"" ++ s ++ "\""

/-- The operator as a word. -/
def Operator.toWord (op : Operator) : Word := ⟨op.kind, op.sign⟩

/-- The words in parentheses. -/
def Token.Word.inParentheses (ws : List Word) : List Word :=
  ⟨.parenthesis, "("⟩ :: (ws ++ [⟨.parenthesis, ")"⟩])

namespace Expr

mutual

/-- The words of an expression. -/
def words : Expr → List Word
  | num n => [⟨.number, n.toInt.toNat.repr⟩]
  | bool b => [⟨.boolean, if b then "true" else "false"⟩]
  | text s => [⟨.string, Text.quote s⟩]
  | var name => [⟨.identifier, name⟩]
  | binary op left right => inParentheses (left.words ++ op.toWord :: right.words)
  | call function args => ⟨.method, function⟩ :: inParentheses (argumentWords args)

/-- The words of expressions with commas between them. -/
def argumentWords : List Expr → List Word
  | [] => []
  | [e] => e.words
  | e :: e' :: es => e.words ++ ⟨.comma, ","⟩ :: argumentWords (e' :: es)

end

end Expr

/-- The words of a statement. A command is written like a call. -/
def Stmt.words : Stmt → List Word
  | spawn x y => (Expr.call "Spawn" [x, y]).words
  | color name => ⟨.method, "Color"⟩ :: inParentheses [⟨.string, Text.quote name⟩]
  | size width => (Expr.call "Size" [width]).words
  | line dx dy distance => (Expr.call "DrawLine" [dx, dy, distance]).words
  | circle dx dy radius => (Expr.call "DrawCircle" [dx, dy, radius]).words
  | rectangle dx dy distance width height =>
    (Expr.call "DrawRectangle" [dx, dy, distance, width, height]).words
  | fill => (Expr.call "Fill" []).words
  | assign target value => ⟨.identifier, target⟩ :: ⟨.assignment, "<-"⟩ :: value.words
  | label name => [⟨.label, name ++ ":"⟩]
  | goto name condition =>
    ⟨.method, "GoTo"⟩ :: ⟨.brace, "["⟩ :: ⟨.identifier, name⟩ :: ⟨.brace, "]"⟩ ::
      inParentheses condition.words

/-- The statement as a line of text. -/
def Stmt.print (s : Stmt) : String := " ".intercalate (s.words.map Word.text)

/-- The program as a text, with a line for each statement. -/
def Program.print (p : Program) : String := "\n".intercalate (p.map Stmt.print)

example :
    Program.print [.spawn (.num 0) (.num 9), .goto "top" (.binary .lt (.var "n") (.num 5))] =
      "Spawn ( 0 , 9 )\nGoTo [ top ] ( ( n < 5 ) )" := by
  decide

/-! ### Programs that can be written -/

/-- The text is a name, and not a word that stands for itself. -/
def Token.FreeName (name : String) : Prop := IsName name.toList ∧ name ∉ reserved

/-- The expressions that can be written. -/
inductive Expr.Writable : Expr → Prop where
  /-- No number has a sign of its own. -/
  | num {n : Int32} : 0 ≤ n.toInt → Writable (.num n)
  | bool {b : Bool} : Writable (.bool b)
  /-- A text cannot have a quote in it. -/
  | text {s : String} : '"' ∉ s.toList → Writable (.text s)
  | var {name : String} : FreeName name → Writable (.var name)
  | binary {op : Operator} {left right : Expr} : Writable left → Writable right →
      Writable (.binary op left right)
  /-- Any method may be called in an expression, a command too. -/
  | call {function : String} {args : List Expr} : function ∈ methods →
      (∀ e ∈ args, Writable e) → Writable (.call function args)

/-- The statements that can be written. -/
inductive Stmt.Writable : Stmt → Prop where
  | spawn {x y : Expr} : x.Writable → y.Writable → Writable (.spawn x y)
  | color {name : String} : '"' ∉ name.toList → Writable (.color name)
  | size {width : Expr} : width.Writable → Writable (.size width)
  | line {dx dy distance : Expr} : dx.Writable → dy.Writable → distance.Writable →
      Writable (.line dx dy distance)
  | circle {dx dy radius : Expr} : dx.Writable → dy.Writable → radius.Writable →
      Writable (.circle dx dy radius)
  | rectangle {dx dy distance width height : Expr} : dx.Writable → dy.Writable →
      distance.Writable → width.Writable → height.Writable →
      Writable (.rectangle dx dy distance width height)
  | fill : Writable .fill
  | assign {target : String} {value : Expr} : FreeName target → value.Writable →
      Writable (.assign target value)
  | label {name : String} : FreeName name → Writable (.label name)
  | goto {label : String} {condition : Expr} : FreeName label → condition.Writable →
      Writable (.goto label condition)

/-- The programs that can be written: they begin by placing the cursor. -/
def Program.Writable (p : Program) : Prop :=
  (∃ x y q, p = .spawn x y :: q) ∧ ∀ s ∈ p, s.Writable

/-! ### The words of each kind -/

namespace Token

variable {p rest : List Char}

theorem Lexeme.of_method (h : Lexeme (some .method) p rest) : String.ofList p ∈ methods := by
  cases h with
  | word hmem _ => exact hmem
  | sign hmem _ => cases hmem

theorem Lexeme.of_color (h : Lexeme (some .color) p rest) : String.ofList p ∈ colors := by
  cases h with
  | word hmem _ => exact hmem
  | sign hmem _ => cases hmem

theorem Lexeme.of_number (h : Lexeme (some .number) p rest) : ∀ d ∈ p, d.isDigit := by
  cases h with
  | word hmem _ => cases hmem
  | sign hmem _ => cases hmem
  | number _ hdigit _ => exact hdigit

theorem Lexeme.of_string (h : Lexeme (some .string) p rest) :
    ∃ body, p = '"' :: (body ++ ['"']) ∧ '"' ∉ body := by
  cases h with
  | word hmem _ => cases hmem
  | sign hmem _ => cases hmem
  | string hbody => exact ⟨_, rfl, hbody⟩

theorem Lexeme.of_identifier (h : Lexeme (some .identifier) p rest) :
    IsName p ∧ String.ofList p ∉ reserved := by
  cases h with
  | word hmem _ => cases hmem
  | sign hmem _ => cases hmem
  | identifier hname hreserved _ _ => exact ⟨hname, hreserved⟩

theorem Lexeme.of_label (h : Lexeme (some .label) p rest) :
    ∃ w, p = w ++ [':'] ∧ IsName w ∧ String.ofList w ∉ reserved := by
  cases h with
  | word hmem _ => cases hmem
  | sign hmem _ => cases hmem
  | label hname hreserved => exact ⟨_, rfl, hname, hreserved⟩

end Token

/-! ### Quotes, colons and digits -/

namespace Text

variable {c : Char} {cs : List Char}

theorem dropWhile_of_not_mem (h : c ∉ cs) : cs.dropWhile (· == c) = cs := by
  cases cs with
  | nil => rfl
  | cons d cs =>
    have hne : (d == c) = false := beq_false_of_ne fun heq => h (by simp [heq])
    rw [List.dropWhile_cons, hne]
    rfl

theorem dropWhile_cons_self (c : Char) (cs : List Char) :
    (c :: cs).dropWhile (· == c) = cs.dropWhile (· == c) := by
  simp

theorem trimEndChars_of_not_mem (h : c ∉ cs) : trimEndChars c cs = cs := by
  rw [trimEndChars, dropWhile_of_not_mem (by simpa using h), List.reverse_reverse]

/-- One character at the end is taken off. -/
theorem trimEndChars_append (h : c ∉ cs) : trimEndChars c (cs ++ [c]) = cs := by
  rw [trimEndChars, List.reverse_append, List.reverse_singleton, List.singleton_append,
    dropWhile_cons_self]
  exact trimEndChars_of_not_mem h

/-- One character at each end is taken off. -/
theorem trim_eq {s : String} (h : c ∉ cs) (hs : s.toList = c :: (cs ++ [c])) :
    trim c s = String.ofList cs := by
  rw [trim, hs, dropWhile_cons_self]
  cases cs with
  | nil => simp [trimEndChars]
  | cons d cs =>
    have hne : (d == c) = false := beq_false_of_ne fun heq => h (by simp [heq])
    rw [List.cons_append, List.dropWhile_cons, hne, if_neg Bool.false_ne_true, ← List.cons_append,
      trimEndChars_append h]

theorem trim_of_not_mem {s : String} (h : c ∉ s.toList) : trim c s = s := by
  rw [trim, dropWhile_of_not_mem h, trimEndChars_of_not_mem h, String.ofList_toList]

theorem toList_quote (s : String) : (quote s).toList = '"' :: (s.toList ++ ['"']) := by
  simp [quote]

theorem trim_quote {s : String} (h : '"' ∉ s.toList) : trim '"' (quote s) = s := by
  rw [trim_eq h (toList_quote s), String.ofList_toList]

theorem trimEnd_append_colon {s : String} (h : ':' ∉ s.toList) : trimEnd ':' (s ++ ":") = s := by
  have hs : (s ++ ":").toList = s.toList ++ [':'] := by simp
  rw [trimEnd, hs, trimEndChars_append h, String.ofList_toList]

/-- The digits of a number denote it. -/
theorem ofDigits_toDigits (n : Nat) : ofDigits (Nat.toDigits 10 n) = n :=
  Nat.ofDigitChars_toDigits (by decide) (by decide)

end Text

theorem Grammar.int32Literal_repr {n : Int32} (h : 0 ≤ n.toInt) :
    Int32Literal n.toInt.toNat.repr n := by
  refine ⟨Nat.toDigits 10 n.toInt.toNat, Nat.toDigits_ne_nil, fun d hd => ?_, .inl ⟨.inl ?_, ?_⟩⟩
  · exact Nat.isDigit_of_mem_toDigits (by decide) (by decide) hd
  · exact Nat.toList_repr
  · rw [Text.ofDigits_toDigits, Int.toNat_of_nonneg h]

/-- No name has a colon in it. -/
theorem Token.FreeName.colon_not_mem {name : String} (h : FreeName name) : ':' ∉ name.toList := by
  intro hmem
  have hword := h.1.isWordChar ':' hmem
  revert hword
  decide

/-! ### What is written out is read -/

section

variable {ts : List Token} {ws : List Word} {t : Token} {e : Expr} {es : List Expr}

theorem Token.is_of_toWord {k : Kind} {text : String} (h : t.toWord = ⟨k, text⟩) : t.Is k text := by
  cases h
  exact ⟨rfl, rfl⟩

theorem Token.map_toWord_eq_inParentheses (h : ts.map toWord = inParentheses ws) :
    ∃ l us r, ts = l :: (us ++ [r]) ∧ l.Is .parenthesis "(" ∧ us.map toWord = ws ∧
      r.Is .parenthesis ")" := by
  obtain ⟨l, tail, rfl, hl, htail⟩ := List.map_eq_cons_iff.1 h
  obtain ⟨us, vs, rfl, hus, hvs⟩ := List.map_eq_append_iff.1 htail
  obtain ⟨r, rfl, hr⟩ := List.map_eq_singleton_iff.1 hvs
  exact ⟨l, us, r, rfl, is_of_toWord hl, hus, is_of_toWord hr⟩

theorem Grammar.Phrase.mono {m n : Nat} (h : Phrase m ts e) (hmn : m ≤ n) : Phrase n ts e := by
  induction hmn with
  | refl => exact h
  | step _ ih => exact .single ih

theorem Grammar.Operand.phrase (h : Operand ts e) (n : Nat) : Phrase n ts e :=
  (Phrase.operand h).mono (Nat.zero_le n)

/-- Two operands and an operator between them are an expression, whatever the operator. -/
theorem Grammar.phrase_binary {us : List Token} {op : Operator} {left right : Expr}
    (hleft : Operand ts left) (ht : t.toWord = op.toWord) (hright : Operand us right) :
    Phrase 3 (ts ++ t :: us) (.binary op left right) := by
  have hsign : (t.kind, t.text, op) ∈ signs op.level := mem_signs.2 ⟨is_of_toWord ht, rfl⟩
  have hlevel : op.level + 1 ≤ 3 := by cases op <;> decide
  exact (Phrase.more (hleft.phrase _) hsign (hright.phrase _)).mono hlevel

/-- Written arguments are arguments, if each of them is an operand. -/
theorem Expr.arguments_of_words
    (h : ∀ e ∈ es, ∀ ts : List Token, ts.map toWord = e.words → Operand ts e)
    (hts : ts.map toWord = argumentWords es) : Arguments ts es := by
  cases es with
  | nil =>
    rw [argumentWords, List.map_eq_nil_iff] at hts
    rw [hts]
    exact .none
  | cons e es =>
    refine .some ?_
    induction es generalizing e ts with
    | nil => exact .one ((h e (by simp) ts hts).phrase 3)
    | cons e' es ih =>
      obtain ⟨us, vs, rfl, hus, hvs⟩ := List.map_eq_append_iff.1 hts
      obtain ⟨t, vs, rfl, ht, hvs⟩ := List.map_eq_cons_iff.1 hvs
      have hlisted := ih e' (fun a ha => h a (List.mem_cons_of_mem e ha)) hvs
      exact .cons ((h e (by simp) us hus).phrase 3) (is_of_toWord ht) hlisted

/-- **A written expression is an operand** of the grammar, which builds it again. -/
theorem Expr.Writable.operand (h : e.Writable) : ∀ ts : List Token,
    ts.map toWord = e.words → Operand ts e := by
  induction h with
  | num hn =>
    intro ts hts
    obtain ⟨t, rfl, ht⟩ := List.map_eq_singleton_iff.1 hts
    obtain ⟨hk, htext⟩ := is_of_toWord ht
    refine .number hk ?_
    rw [htext]
    exact int32Literal_repr hn
  | @bool b =>
    intro ts hts
    obtain ⟨t, rfl, ht⟩ := List.map_eq_singleton_iff.1 hts
    obtain ⟨hk, htext⟩ := is_of_toWord ht
    have hb : decide (t.text = "true") = b := by cases b <;> simp [htext]
    rw [← hb]
    exact .boolean hk
  | @text s hs =>
    intro ts hts
    obtain ⟨t, rfl, ht⟩ := List.map_eq_singleton_iff.1 hts
    obtain ⟨hk, htext⟩ := is_of_toWord ht
    have hquote : Text.trim '"' t.text = s := by rw [htext, Text.trim_quote hs]
    rw [← hquote]
    exact .string hk
  | var hname =>
    intro ts hts
    obtain ⟨t, rfl, ht⟩ := List.map_eq_singleton_iff.1 hts
    obtain ⟨hk, rfl⟩ := is_of_toWord ht
    exact .name hk
  | binary hleft hright ihleft ihright =>
    intro ts hts
    obtain ⟨l, inner, r, rfl, hl, hinner, hr⟩ := map_toWord_eq_inParentheses hts
    obtain ⟨us, tail, rfl, hus, htail⟩ := List.map_eq_append_iff.1 hinner
    obtain ⟨t, vs, rfl, ht, hvs⟩ := List.map_eq_cons_iff.1 htail
    exact .parentheses hl (phrase_binary (ihleft us hus) ht (ihright vs hvs)) hr
  | call hf hargs ih =>
    intro ts hts
    obtain ⟨f, tail, rfl, hf, htail⟩ := List.map_eq_cons_iff.1 hts
    obtain ⟨l, us, r, rfl, hl, hus, hr⟩ := map_toWord_eq_inParentheses htail
    obtain ⟨hk, rfl⟩ := is_of_toWord hf
    exact .call hk hl (arguments_of_words ih hus) hr

/-- A written command is a statement. -/
theorem Grammar.statement_of_command {f : String} {s : Stmt} (h : Command f es s)
    (hes : ∀ e ∈ es, e.Writable) (hts : ts.map toWord = (Expr.call f es).words) :
    Statement ts s := by
  obtain ⟨t, tail, rfl, ht, htail⟩ := List.map_eq_cons_iff.1 hts
  obtain ⟨l, us, r, rfl, hl, hus, hr⟩ := map_toWord_eq_inParentheses htail
  obtain ⟨hk, rfl⟩ := is_of_toWord ht
  exact .command hk hl (Expr.arguments_of_words (fun e he => (hes e he).operand) hus) h hr

/-- **A written statement is that statement** in the grammar. -/
theorem Stmt.Writable.statement {s : Stmt} (h : s.Writable) (hts : ts.map toWord = s.words) :
    Statement ts s := by
  cases h with
  | spawn hx hy => exact statement_of_command .spawn (by simp [hx, hy]) hts
  | @color name hname =>
    obtain ⟨f, tail, rfl, hf, htail⟩ := List.map_eq_cons_iff.1 hts
    obtain ⟨l, us, r, rfl, hl, hus, hr⟩ := map_toWord_eq_inParentheses htail
    obtain ⟨t, rfl, ht⟩ := List.map_eq_singleton_iff.1 hus
    obtain ⟨hk, htext⟩ := is_of_toWord ht
    have hquote : Text.trim '"' t.text = name := by rw [htext, Text.trim_quote hname]
    rw [← hquote]
    exact .color (is_of_toWord hf) hl (.inl hk) hr
  | size hwidth => exact statement_of_command .size (by simp [hwidth]) hts
  | line hx hy hd => exact statement_of_command .line (by simp [hx, hy, hd]) hts
  | circle hx hy hr => exact statement_of_command .circle (by simp [hx, hy, hr]) hts
  | rectangle hx hy hd hw hh =>
    exact statement_of_command .rectangle (by simp [hx, hy, hd, hw, hh]) hts
  | fill => exact statement_of_command .fill (by simp) hts
  | assign htarget hvalue =>
    obtain ⟨v, tail, rfl, hv, htail⟩ := List.map_eq_cons_iff.1 hts
    obtain ⟨a, us, rfl, ha, hus⟩ := List.map_eq_cons_iff.1 htail
    obtain ⟨hk, rfl⟩ := is_of_toWord hv
    exact .assign hk (is_of_toWord ha).1 ((hvalue.operand us hus).phrase 3)
  | @label name hname =>
    obtain ⟨t, rfl, ht⟩ := List.map_eq_singleton_iff.1 hts
    obtain ⟨hk, htext⟩ := is_of_toWord ht
    have hcolon : Text.trimEnd ':' t.text = name := by
      rw [htext, Text.trimEnd_append_colon hname.colon_not_mem]
    rw [← hcolon]
    exact .label hk
  | goto hname hcond =>
    obtain ⟨g, tail, rfl, hg, htail⟩ := List.map_eq_cons_iff.1 hts
    obtain ⟨lb, tail, rfl, hlb, htail⟩ := List.map_eq_cons_iff.1 htail
    obtain ⟨t, tail, rfl, ht, htail⟩ := List.map_eq_cons_iff.1 htail
    obtain ⟨rb, tail, rfl, hrb, htail⟩ := List.map_eq_cons_iff.1 htail
    obtain ⟨l, us, r, rfl, hl, hus, hr⟩ := map_toWord_eq_inParentheses htail
    obtain ⟨hk, rfl⟩ := is_of_toWord ht
    exact .goto (is_of_toWord hg) (is_of_toWord hlb) hk (is_of_toWord hrb) hl
      ((hcond.operand us hus).phrase 3) hr

theorem Program.statements_of_words {p : Program} (hp : p ≠ []) (h : ∀ s ∈ p, s.Writable)
    (hts : ts.map toWord = p.flatMap Stmt.words) : Statements ts p := by
  induction p generalizing ts with
  | nil => exact absurd rfl hp
  | cons s p ih =>
    rw [List.flatMap_cons] at hts
    obtain ⟨us, vs, rfl, hus, hvs⟩ := List.map_eq_append_iff.1 hts
    have hs : Statement us s := (h s (by simp)).statement hus
    cases p with
    | nil =>
      rw [List.flatMap_nil, List.map_eq_nil_iff] at hvs
      rw [hvs, List.append_nil]
      exact .one hs
    | cons s' p => exact .cons hs (ih (by simp) (fun a ha => h a (by simp [ha])) hvs)

theorem Token.Word.lexical_sign {k : Kind} {text : String} (h : text ∈ k.signs) :
    Lexical ⟨k, text⟩ :=
  .sign (by simpa using h) (by simp)

theorem Token.Word.lexical_word {k : Kind} {text : String} (h : text ∈ k.words) :
    Lexical ⟨k, text⟩ :=
  .word (by simpa using h) ends_nil

theorem Token.Word.lexical_quote {s : String} (h : '"' ∉ s.toList) :
    Lexical ⟨.string, Text.quote s⟩ := by
  unfold Lexical
  rw [Text.toList_quote]
  exact .string h

theorem Token.FreeName.lexical {name : String} (h : FreeName name) :
    Lexical ⟨.identifier, name⟩ :=
  .identifier h.1 (by simpa using h.2) ends_nil ends_nil

theorem Token.Word.lexical_inParentheses (h : ∀ w ∈ ws, w.Lexical) :
    ∀ w ∈ inParentheses ws, w.Lexical := by
  intro w hw
  rcases List.mem_cons.1 hw with rfl | hw
  · exact lexical_sign (by decide)
  · rcases List.mem_append.1 hw with hw | hw
    · exact h w hw
    · rw [List.mem_singleton.1 hw]
      exact lexical_sign (by decide)

theorem Operator.lexical (op : Operator) : op.toWord.Lexical := by
  cases op <;> exact lexical_sign (by decide)

/-- The words of arguments are commas and the words of each of them. -/
theorem Expr.mem_argumentWords {w : Word} (h : w ∈ argumentWords es) :
    w = ⟨.comma, ","⟩ ∨ ∃ e ∈ es, w ∈ e.words := by
  induction es with
  | nil => cases h
  | cons e es ih =>
    cases es with
    | nil => exact .inr ⟨e, by simp, h⟩
    | cons e' es =>
      rcases List.mem_append.1 h with h | h
      · exact .inr ⟨e, by simp, h⟩
      · rcases List.mem_cons.1 h with h | h
        · exact .inl h
        · rcases ih h with h | ⟨a, ha, h⟩
          · exact .inl h
          · exact .inr ⟨a, List.mem_cons_of_mem e ha, h⟩

/-- The lexer can find every word of an expression that can be written. -/
theorem Expr.Writable.lexical (h : e.Writable) : ∀ w ∈ e.words, w.Lexical := by
  induction h with
  | @num n hn =>
    intro w hw
    rw [List.mem_singleton.1 hw]
    refine .number ?_ (fun d hd => ?_) ends_nil
    · rw [Nat.toList_repr]
      exact Nat.toDigits_ne_nil
    · rw [Nat.toList_repr] at hd
      exact Nat.isDigit_of_mem_toDigits (by decide) (by decide) hd
  | @bool b =>
    intro w hw
    rw [List.mem_singleton.1 hw]
    exact lexical_word (by cases b <;> decide)
  | text hs =>
    intro w hw
    rw [List.mem_singleton.1 hw]
    exact lexical_quote hs
  | var hname =>
    intro w hw
    rw [List.mem_singleton.1 hw]
    exact hname.lexical
  | @binary op left right hleft hright ihleft ihright =>
    refine lexical_inParentheses fun w hw => ?_
    rcases List.mem_append.1 hw with hw | hw
    · exact ihleft w hw
    · rcases List.mem_cons.1 hw with rfl | hw
      · exact op.lexical
      · exact ihright w hw
  | call hf hargs ih =>
    intro w hw
    rcases List.mem_cons.1 hw with rfl | hw
    · exact lexical_word hf
    · refine lexical_inParentheses (fun v hv => ?_) w hw
      rcases mem_argumentWords hv with rfl | ⟨a, ha, hv⟩
      · exact lexical_sign (by decide)
      · exact ih a ha v hv

theorem Stmt.Writable.lexical {s : Stmt} (h : s.Writable) : ∀ w ∈ s.words, w.Lexical := by
  have hcall : ∀ {f : String} {es : List Expr}, f ∈ methods → (∀ e ∈ es, e.Writable) →
      ∀ w ∈ (Expr.call f es).words, w.Lexical := fun hf hes => (Expr.Writable.call hf hes).lexical
  cases h with
  | spawn hx hy => exact hcall (by decide) (by simp [hx, hy])
  | color hname =>
    intro w hw
    rcases List.mem_cons.1 hw with rfl | hw
    · exact lexical_word (by decide)
    · exact lexical_inParentheses (by simpa using lexical_quote hname) w hw
  | size hwidth => exact hcall (by decide) (by simp [hwidth])
  | line hx hy hd => exact hcall (by decide) (by simp [hx, hy, hd])
  | circle hx hy hr => exact hcall (by decide) (by simp [hx, hy, hr])
  | rectangle hx hy hd hw hh => exact hcall (by decide) (by simp [hx, hy, hd, hw, hh])
  | fill => exact hcall (by decide) (by simp)
  | assign htarget hvalue =>
    intro w hw
    rcases List.mem_cons.1 hw with rfl | hw
    · exact htarget.lexical
    · rcases List.mem_cons.1 hw with rfl | hw
      · exact lexical_sign (by decide)
      · exact hvalue.lexical w hw
  | @label name hname =>
    intro w hw
    rw [List.mem_singleton.1 hw]
    have hlabel : Lexeme (some .label) (name.toList ++ [':']) [] :=
      .label hname.1 (by simpa using hname.2)
    simpa [Lexical] using hlabel
  | goto hname hcond =>
    intro w hw
    simp only [words, List.mem_cons] at hw
    rcases hw with rfl | rfl | rfl | rfl | hw
    · exact lexical_word (by decide)
    · exact lexical_sign (by decide)
    · exact hname.lexical
    · exact lexical_sign (by decide)
    · exact lexical_inParentheses hcond.lexical w hw

theorem Stmt.words_ne_nil (s : Stmt) : s.words ≠ [] := by
  cases s <;> simp [words, Expr.words]

/-- A written statement is its words with blanks between them. -/
theorem Stmt.spaced_print (s : Stmt) : Spaced s.words s.print.toList := by
  have h : Spaced (s.words.flatMap fun w => [w]) s.print.toList :=
    Spaced.intercalate (by decide) (List.all_eq_true.1 rfl) s.words_ne_nil fun w _ => .one
  simpa using h

theorem Program.spaced_print {p : Program} (hp : p ≠ []) :
    Spaced (p.flatMap Stmt.words) p.print.toList :=
  Spaced.intercalate (by decide) (List.all_eq_true.1 rfl) hp fun s _ => s.spaced_print

theorem Program.ofSource_eq_ok {source : String} {p : Program} :
    ofSource source = .ok p ↔ ∃ ts, lex source = .ok ts ∧ ofTokens ts = .ok p := by
  unfold ofSource
  cases hlex : lex source with
  | error e => simp
  | ok ts => cases hts : ofTokens ts <;> simp [hts]

/-- **A written program is read again.** -/
theorem Program.ofSource_print {p : Program} (h : p.Writable) : ofSource p.print = .ok p := by
  obtain ⟨⟨x, y, q, hq⟩, hall⟩ := h
  have hp : p ≠ [] := by simp [hq]
  have hlexical : ∀ w ∈ p.flatMap Stmt.words, w.Lexical := by
    intro w hw
    obtain ⟨s, hs, hw⟩ := List.mem_flatMap.1 hw
    exact (hall s hs).lexical w hw
  obtain ⟨ts, hlex, hts⟩ := (spaced_print hp).lexFrom hlexical .start
  refine ofSource_eq_ok.2 ⟨ts, hlex, ofTokens_eq_ok.2 ⟨?_, ?_⟩⟩
  · rw [hq, List.flatMap_cons] at hts
    obtain ⟨t, tail, rfl, ht, -⟩ := List.map_eq_cons_iff.1 hts
    exact ⟨t, rfl, is_of_toWord ht⟩
  · exact statements_complete (statements_of_words hp hall hts)

/-! ### What is read can be written -/

theorem Token.freeName_of_lexical (h : t.toWord.Lexical) (hk : t.kind = .identifier) :
    FreeName t.text := by
  unfold Lexical toWord at h
  rw [hk] at h
  obtain ⟨hname, hreserved⟩ := h.of_identifier
  exact ⟨hname, by simpa using hreserved⟩

theorem Token.quote_not_mem_trim (h : t.toWord.Lexical) (hk : t.kind = .string) :
    '"' ∉ (Text.trim '"' t.text).toList := by
  unfold Lexical toWord at h
  rw [hk] at h
  obtain ⟨body, hbody, hquote⟩ := h.of_string
  rw [Text.trim_eq hquote hbody, String.toList_ofList]
  exact hquote

/-- No colour's name has a quote in it. -/
theorem Token.quote_not_mem_color (h : t.toWord.Lexical) (hk : t.kind = .color) :
    '"' ∉ t.text.toList := by
  unfold Lexical toWord at h
  rw [hk] at h
  have hcolor : t.text ∈ colors := by simpa using h.of_color
  exact (by decide : ∀ s ∈ colors, '"' ∉ s.toList) _ hcolor

/-- A number token has no sign. -/
theorem Token.nonneg_of_int32Literal {n : Int32} (h : t.toWord.Lexical) (hk : t.kind = .number)
    (hn : Int32Literal t.text n) : 0 ≤ n.toInt := by
  unfold Lexical toWord at h
  rw [hk] at h
  obtain ⟨digits, -, -, ⟨-, hvalue⟩ | ⟨htext, -⟩⟩ := hn
  · rw [hvalue]
    exact Int.natCast_nonneg _
  · exact absurd (h.of_number '-' (by simp [htext])) (by decide)

theorem Token.mem_methods_of_lexical (h : t.toWord.Lexical) (hk : t.kind = .method) :
    t.text ∈ methods := by
  unfold Lexical toWord at h
  rw [hk] at h
  simpa using h.of_method

theorem Token.freeName_trimEnd (h : t.toWord.Lexical) (hk : t.kind = .label) :
    FreeName (Text.trimEnd ':' t.text) := by
  unfold Lexical toWord at h
  rw [hk] at h
  obtain ⟨w, hw, hname, hreserved⟩ := h.of_label
  have hfree : FreeName (String.ofList w) := ⟨by simpa using hname, hreserved⟩
  have htext : t.text = String.ofList w ++ ":" := by
    rw [← String.toList_inj, hw]
    simp
  rw [htext, Text.trimEnd_append_colon hfree.colon_not_mem]
  exact hfree

-- The recursion is on the number of tokens and the level, as in the readers.
mutual

/-- What an operand stands for can be written. -/
theorem Grammar.operand_writable {ts : List Token} {e : Expr} (h : Operand ts e)
    (hts : ∀ t ∈ ts, t.toWord.Lexical) : e.Writable := by
  cases h with
  | @number t n hk hn => exact .num (nonneg_of_int32Literal (hts t (by simp)) hk hn)
  | boolean _ => exact .bool
  | @string t hk => exact .text (quote_not_mem_trim (hts t (by simp)) hk)
  | @color t hk => exact .text (quote_not_mem_color (hts t (by simp)) hk)
  | @name t hk => exact .var (freeName_of_lexical (hts t (by simp)) hk)
  | minus _ h =>
    have hzero : Expr.Writable (.num 0) := .num (by decide)
    exact .binary hzero (operand_writable h fun t ht => hts t (by simp [ht]))
  | parentheses _ h _ => exact phrase_writable h fun t ht => hts t (by simp [ht])
  | @call f l r us es hk _ h _ =>
    have hargs := arguments_writable h fun t ht => hts t (by simp [ht])
    exact .call (mem_methods_of_lexical (hts f (by simp)) hk) hargs
termination_by (ts.length, 0)

theorem Grammar.phrase_writable {n : Nat} {ts : List Token} {e : Expr} (h : Phrase n ts e)
    (hts : ∀ t ∈ ts, t.toWord.Lexical) : e.Writable := by
  cases h with
  | operand h => exact operand_writable h hts
  | single h => exact phrase_writable h hts
  | more h _ h' =>
    exact .binary (phrase_writable h fun t ht => hts t (by simp [ht]))
      (phrase_writable h' fun t ht => hts t (by simp [ht]))
termination_by (ts.length, n + 1)

theorem Grammar.arguments_writable {ts : List Token} {es : List Expr} (h : Arguments ts es)
    (hts : ∀ t ∈ ts, t.toWord.Lexical) : ∀ e ∈ es, e.Writable := by
  cases h with
  | none => simp
  | some h => exact listed_writable h hts
termination_by (ts.length, 6)

theorem Grammar.listed_writable {ts : List Token} {es : List Expr} (h : Listed ts es)
    (hts : ∀ t ∈ ts, t.toWord.Lexical) : ∀ e ∈ es, e.Writable := by
  cases h with
  | one h =>
    intro e he
    rw [List.mem_singleton.1 he]
    exact phrase_writable h hts
  | cons h _ h' =>
    intro a ha
    rcases List.mem_cons.1 ha with rfl | ha
    · exact phrase_writable h fun t ht => hts t (by simp [ht])
    · exact listed_writable h' (fun t ht => hts t (by simp [ht])) a ha
termination_by (ts.length, 5)

end

theorem Grammar.Command.writable {f : String} {s : Stmt} (h : Command f es s)
    (hes : ∀ e ∈ es, e.Writable) : s.Writable := by
  cases h with
  | spawn => exact .spawn (hes _ (by simp)) (hes _ (by simp))
  | size => exact .size (hes _ (by simp))
  | line => exact .line (hes _ (by simp)) (hes _ (by simp)) (hes _ (by simp))
  | circle => exact .circle (hes _ (by simp)) (hes _ (by simp)) (hes _ (by simp))
  | rectangle =>
    exact .rectangle (hes _ (by simp)) (hes _ (by simp)) (hes _ (by simp)) (hes _ (by simp))
      (hes _ (by simp))
  | fill => exact .fill

/-- What a statement of the grammar stands for can be written. -/
theorem Grammar.Statement.writable {s : Stmt} (h : Statement ts s)
    (hts : ∀ t ∈ ts, t.toWord.Lexical) : s.Writable := by
  cases h with
  | command _ _ h hcommand _ =>
    exact hcommand.writable (arguments_writable h fun t ht => hts t (by simp [ht]))
  | @color f l t r _ _ hk _ =>
    have ht := hts t (by simp)
    rcases hk with hk | hk
    · exact .color (quote_not_mem_trim ht hk)
    · have hquote := quote_not_mem_color ht hk
      rw [Text.trim_of_not_mem hquote]
      exact .color hquote
  | @assign v a us e hk _ h =>
    exact .assign (freeName_of_lexical (hts v (by simp)) hk)
      (phrase_writable h fun t ht => hts t (by simp [ht]))
  | @label t hk => exact .label (freeName_trimEnd (hts t (by simp)) hk)
  | @goto g lb t rb l r us e _ _ hk _ _ h _ =>
    exact .goto (freeName_of_lexical (hts t (by simp)) hk)
      (phrase_writable h fun t ht => hts t (by simp [ht]))

theorem Grammar.Statements.writable {p : Program} (h : Statements ts p)
    (hts : ∀ t ∈ ts, t.toWord.Lexical) : ∀ s ∈ p, s.Writable := by
  induction h with
  | one h =>
    intro s hs
    rw [List.mem_singleton.1 hs]
    exact h.writable hts
  | cons h _ ih =>
    intro s hs
    rcases List.mem_cons.1 hs with rfl | hs
    · exact h.writable fun t ht => hts t (by simp [ht])
    · exact ih (fun t ht => hts t (by simp [ht])) s hs

/-- A statement that begins with the word `Spawn` places the cursor. -/
theorem Grammar.Statement.eq_spawn {s : Stmt} (h : Statement (t :: ts) s)
    (ht : t.Is .method "Spawn") : ∃ x y, s = .spawn x y := by
  obtain ⟨hk, htext⟩ := ht
  cases h with
  | command _ _ _ hcommand _ =>
    generalize t.text = f at hcommand htext
    cases hcommand with
    | spawn => exact ⟨_, _, rfl⟩
    | _ => exact absurd htext (by decide)
  | color hf _ _ _ =>
    rw [hf.2] at htext
    exact absurd htext (by decide)
  | assign hk' _ _ =>
    rw [hk] at hk'
    cases hk'
  | label hk' =>
    rw [hk] at hk'
    cases hk'
  | goto hg _ _ _ _ _ _ =>
    rw [hg.2] at htext
    exact absurd htext (by decide)

/-- The first token begins the first statement. -/
theorem Grammar.Statements.first {p : Program} (h : Statements (t :: ts) p) :
    ∃ s us q, p = s :: q ∧ Statement (t :: us) s := by
  generalize hts : t :: ts = all at h
  cases h with
  | one h =>
    subst hts
    exact ⟨_, ts, [], rfl, h⟩
  | cons h _ =>
    obtain ⟨t', us, rfl, -⟩ := h.head
    obtain ⟨rfl, -⟩ := List.cons.inj hts
    exact ⟨_, us, _, rfl, h⟩

/-- **What is read can be written.** -/
theorem Program.writable_of_ofSource {source : String} {p : Program}
    (h : ofSource source = .ok p) : p.Writable := by
  obtain ⟨ts, hlex, hparse⟩ := ofSource_eq_ok.1 h
  obtain ⟨⟨t, ht, hspawn⟩, hstatements⟩ := ofTokens_eq_ok.1 hparse
  obtain ⟨tail, rfl⟩ := List.head?_eq_some_iff.1 ht
  have hderived := statements_sound hstatements
  refine ⟨?_, hderived.writable (lexical_of_lex hlex)⟩
  obtain ⟨s, us, q, rfl, hs⟩ := hderived.first
  obtain ⟨x, y, rfl⟩ := hs.eq_spawn hspawn
  exact ⟨x, y, q, rfl⟩

end

/-- **The programs that there are texts for** are those that can be written, and each of them is
read from its own print. -/
theorem Program.exists_ofSource_iff_writable (p : Program) :
    ((∃ source, ofSource source = .ok p) ↔ p.Writable) ∧
      (p.Writable → ofSource p.print = .ok p) := by
  refine ⟨⟨?_, fun h => ⟨p.print, ofSource_print h⟩⟩, ofSource_print⟩
  rintro ⟨source, h⟩
  exact writable_of_ofSource h

/-- A difference within a difference, with a call in it. -/
def Program.nested : Program :=
  [.spawn (.num 0) (.num 9),
    .assign "n" (.binary .sub (.num 7) (.binary .sub (.var "n") (.call "GetActualX" [])))]

theorem Program.writable_nested : nested.Writable := by
  have hn : FreeName "n" := ⟨⟨'n', [], rfl, .inl rfl, by simp⟩, by decide⟩
  have hcall : (Expr.call "GetActualX" []).Writable := .call (by decide) (by simp)
  refine ⟨⟨_, _, _, rfl⟩, fun s hs => ?_⟩
  rcases List.mem_cons.1 hs with rfl | hs
  · exact .spawn (.num (by decide)) (.num (by decide))
  · obtain rfl := List.mem_singleton.1 hs
    exact .assign hn (.binary (.num (by decide)) (.binary (.var hn) hcall))

theorem Program.exists_ofSource_iff_writable_nested :
    nested.Writable ∧ (∃ source, ofSource source = .ok nested) ∧
      ofSource nested.print = .ok nested := by
  obtain ⟨hiff, hprint⟩ := exists_ofSource_iff_writable nested
  exact ⟨writable_nested, hiff.2 writable_nested, hprint writable_nested⟩

end Easel
