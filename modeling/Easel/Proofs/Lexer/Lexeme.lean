import Easel.Token.Lexer
import Mathlib.Data.List.TakeWhile

/-!
# What the lexer takes for a word

`Lexeme kind? piece rest` says that `piece` is a word of the kind, or a blank or a comment where
there is no kind, when `rest` comes after it. It says so without the rules of the lexer and without
their order. The lexer takes exactly the lexemes (`scan?_eq_some_iff`), so a text is never divided
in two ways. What comes after a piece matters only by its first character (`Lexeme.of_head?`), and a
blank ends every word (`Lexeme.of_blank`).
-/

namespace Easel.Token

/-! ### Lexemes -/

/-- The words of a kind that stand for themselves. -/
def Kind.words : Kind → List String
  | .method => methods
  | .boolean => ["true", "false"]
  | .color => colors
  | _ => []

/-- The signs of a kind. -/
def Kind.signs : Kind → List String
  | .assignment => ["←", "<-"]
  | .comparison => ["==", "!=", "<=", ">=", "<", ">"]
  | .operator => ["+", "-", "*", "/", "%"]
  | .parenthesis => ["(", ")"]
  | .brace => ["[", "]", "\x7b", "\x7d"]
  | .comma => [","]
  | _ => []

/-- What begins with a sign and is more than it: a longer sign, or the beginning of a comment. -/
def longerSigns : List String := ["<-", "<=", ">=", "//", "/*"]

/-- The words that are no names, since they stand for themselves. -/
def reserved : List String := methods ++ ["true", "false"] ++ colors

/-- A letter or an underscore, and then letters, digits and underscores. -/
def IsName (cs : List Char) : Prop :=
  ∃ c tail, cs = c :: tail ∧ (c.isAlpha ∨ c = '_') ∧ ∀ d ∈ tail, d.isAlphanum ∨ d = '_'

/-- No character of the given sort comes next. -/
def Ends (sort : Char → Bool) (rest : List Char) : Prop := ∀ c ∈ rest.head?, sort c = false

/-- The piece is a word of the kind, or a blank or a comment, when the rest comes after it. -/
inductive Lexeme : Option Kind → List Char → List Char → Prop where
  /-- A whole word that stands for itself. -/
  | word {k : Kind} {w rest : List Char} : String.ofList w ∈ k.words → Ends isWordChar rest →
      Lexeme (some k) w rest
  /-- A sign that the next character does not make more of. -/
  | sign {k : Kind} {s rest : List Char} : String.ofList s ∈ k.signs →
      (∀ c ∈ rest.head?, String.ofList (s ++ [c]) ∉ longerSigns) → Lexeme (some k) s rest
  /-- A row of digits that does not run into a word. -/
  | number {ds rest : List Char} : ds ≠ [] → (∀ d ∈ ds, d.isDigit) → Ends isWordChar rest →
      Lexeme (some .number) ds rest
  /-- A text in quotes. -/
  | string {body rest : List Char} : '"' ∉ body →
      Lexeme (some .string) ('"' :: (body ++ ['"'])) rest
  /-- A name with a colon. -/
  | label {w rest : List Char} : IsName w → String.ofList w ∉ reserved →
      Lexeme (some .label) (w ++ [':']) rest
  /-- A whole name without a colon. -/
  | identifier {w rest : List Char} : IsName w → String.ofList w ∉ reserved →
      Ends isWordChar rest → Ends (· == ':') rest → Lexeme (some .identifier) w rest
  /-- A comment up to the end of its line or of the text. -/
  | lineComment {body rest : List Char} : '\n' ∉ body → (∀ c ∈ rest.head?, c = '\n') →
      Lexeme none ('/' :: '/' :: body) rest
  /-- A comment up to its first closing sign. -/
  | blockComment {body rest : List Char} : ¬['*', '/'] <:+: body →
      Lexeme none ('/' :: '*' :: (body ++ ['*', '/'])) rest
  /-- A comment that is not closed, up to the end of the text. -/
  | openComment {body : List Char} : ¬['*', '/'] <:+: body → Lexeme none ('/' :: '*' :: body) []
  /-- All blanks up to something else. -/
  | blanks {w rest : List Char} : w ≠ [] → (∀ c ∈ w, Text.isBlank c) → Ends Text.isBlank rest →
      Lexeme none w rest

/-! ### Pieces of one sort of characters -/

section

variable {sort : Char → Bool} {c : Char} {cs w rest : List Char}

theorem ends_nil : Ends sort [] := by simp [Ends]

theorem ends_cons : Ends sort (c :: rest) ↔ sort c = false := by simp [Ends]

/-- A row of characters of one sort is taken whole, and no more. -/
theorem takeWhile_append_of_ends (hw : ∀ c ∈ w, sort c) (h : Ends sort rest) :
    (w ++ rest).takeWhile sort = w := by
  rw [List.takeWhile_append_of_pos hw]
  cases rest with
  | nil => simp
  | cons c rest => simp [ends_cons.1 h]

theorem exists_takeWhile_append (sort : Char → Bool) (cs : List Char) :
    ∃ rest, cs = cs.takeWhile sort ++ rest ∧ Ends sort rest := by
  refine ⟨cs.dropWhile sort, List.takeWhile_append_dropWhile.symm, fun c hc => ?_⟩
  have h := List.head?_dropWhile_not sort cs
  rw [hc] at h
  exact h

end

/-! ### Sorts of characters -/

section

variable {c : Char}

theorem isAlpha_iff :
    c.isAlpha ↔ 65 ≤ c.toNat ∧ c.toNat ≤ 90 ∨ 97 ≤ c.toNat ∧ c.toNat ≤ 122 := by
  show (c.isUpper || c.isLower) ↔ _
  rw [Bool.or_eq_true]
  delta Char.isUpper Char.isLower
  simp [UInt32.le_iff_toNat_le]

theorem isDigit_iff : c.isDigit ↔ 48 ≤ c.toNat ∧ c.toNat ≤ 57 := by
  simp [Char.isDigit, UInt32.le_iff_toNat_le]

theorem isNameStart_iff : isNameStart c ↔ c.isAlpha ∨ c = '_' := by
  simp [isNameStart]

theorem isWordChar_iff : isWordChar c ↔ isNameStart c ∨ c.isDigit := by
  simp only [isWordChar, isNameStart, Char.isAlphanum, Bool.or_eq_true, beq_iff_eq]
  exact or_right_comm

/-- No digit begins a name. -/
theorem isDigit_of_isNameStart (h : isNameStart c) : c.isDigit = false := by
  by_contra hd
  rw [Bool.not_eq_false, isDigit_iff] at hd
  rcases isNameStart_iff.1 h with hc | rfl
  · rw [isAlpha_iff] at hc
    omega
  · exact absurd hd (by decide)

/-- No blank belongs to a word. -/
theorem isWordChar_of_isBlank (h : Text.isBlank c) : isWordChar c = false := by
  by_contra hw
  rw [Bool.not_eq_false, isWordChar_iff, isNameStart_iff, isAlpha_iff, isDigit_iff] at hw
  rcases hw with (hw | rfl) | hw
  · simp only [Text.isBlank, Bool.or_eq_true, Bool.and_eq_true, decide_eq_true_eq, beq_iff_eq] at h
    omega
  · exact absurd h (by decide)
  · simp only [Text.isBlank, Bool.or_eq_true, Bool.and_eq_true, decide_eq_true_eq, beq_iff_eq] at h
    omega

end

/-! ### Names -/

theorem IsName.isWordChar {w : List Char} (h : IsName w) : ∀ c ∈ w, isWordChar c := by
  obtain ⟨c, tail, rfl, hc, htail⟩ := h
  intro d hd
  rcases List.mem_cons.1 hd with rfl | hd
  · exact isWordChar_iff.2 (.inl (isNameStart_iff.2 hc))
  · simpa [Token.isWordChar] using htail d hd

theorem IsName.ne_nil {w : List Char} (h : IsName w) : w ≠ [] := by
  obtain ⟨c, tail, rfl, -⟩ := h
  simp

/-- A name is a row of word characters that does not begin with a digit. -/
theorem isName_cons {c : Char} {tail : List Char} :
    IsName (c :: tail) ↔ isNameStart c ∧ ∀ d ∈ tail, isWordChar d := by
  constructor
  · rintro ⟨c, tail, ⟨⟩, hc, htail⟩
    exact ⟨isNameStart_iff.2 hc, fun d hd => by simpa [Token.isWordChar] using htail d hd⟩
  · rintro ⟨hc, htail⟩
    refine ⟨c, tail, rfl, isNameStart_iff.1 hc, fun d hd => ?_⟩
    simpa [Token.isWordChar] using htail d hd

/-! ### Pieces that are not there -/

section

variable {c : Char} {cs w rest : List Char} {words signs : List String}

theorem word_append (hw : ∀ c ∈ w, isWordChar c) (h : Ends isWordChar rest) :
    word (w ++ rest) = w := takeWhile_append_of_ends hw h

theorem wordOf_append (hw : ∀ c ∈ w, isWordChar c) (h : Ends isWordChar rest) :
    wordOf words (w ++ rest) = if String.ofList w ∈ words then w else [] := by
  rw [wordOf, word_append hw h]

theorem wordOf_cons_of_not (h : isWordChar c = false) : wordOf words (c :: cs) = [] := by
  simp [wordOf, word, h]

/-- A sign is not there where a character stands that begins none. -/
theorem signOf_cons_of_sort {sort : Char → Bool}
    (hsigns : ∀ s ∈ signs, ∃ d tail, s.toList = d :: tail ∧ sort d = false) (h : sort c) :
    signOf signs (c :: cs) = [] := by
  have hnone : (signs.map String.toList).find? (·.isPrefixOf (c :: cs)) = none := by
    rw [List.find?_eq_none]
    intro l hl
    obtain ⟨s, hs, rfl⟩ := List.mem_map.1 hl
    obtain ⟨d, tail, hd, hsort⟩ := hsigns s hs
    have hne : d ≠ c := by
      rintro rfl
      rw [h] at hsort
      cases hsort
    simp [hd, hne]
  rw [signOf, hnone]
  rfl

theorem comment_cons_of_ne (h : c ≠ '/') : comment (c :: cs) = [] := by
  unfold comment
  split <;> simp_all

theorem digits_cons_of_not (h : c.isDigit = false) : digits (c :: cs) = [] := by
  simp [digits, h]

theorem quoted_cons_of_ne (h : c ≠ '"') : quoted (c :: cs) = [] := by
  unfold quoted
  split <;> simp_all

theorem name_cons_of_not (h : isNameStart c = false) : name (c :: cs) = [] := by
  simp [name, h]

theorem nameColon_of_name (h : name cs = []) : nameColon cs = [] := by
  simp [nameColon, h]

end

/-! ### Pieces that are there -/

section

variable {c : Char} {cs w rest body : List Char} {words signs : List String}

theorem wordOf_spec (h : wordOf words cs ≠ []) :
    ∃ rest, cs = wordOf words cs ++ rest ∧ String.ofList (wordOf words cs) ∈ words ∧
      Ends isWordChar rest := by
  obtain ⟨rest, hcs, hrest⟩ := exists_takeWhile_append isWordChar cs
  unfold wordOf at h ⊢
  split
  · next hmem => exact ⟨rest, hcs, hmem, hrest⟩
  · next hmem => simp [hmem] at h

theorem signOf_spec (h : signOf signs cs ≠ []) :
    ∃ rest, cs = signOf signs cs ++ rest ∧ String.ofList (signOf signs cs) ∈ signs := by
  unfold signOf at h ⊢
  cases hfind : (signs.map String.toList).find? (·.isPrefixOf cs) with
  | none => simp [hfind] at h
  | some s =>
    have hpre : s.isPrefixOf cs := by simpa using List.find?_some hfind
    obtain ⟨rest, hrest⟩ := List.isPrefixOf_iff_prefix.1 hpre
    obtain ⟨t, ht, rfl⟩ := List.mem_map.1 (List.mem_of_find?_eq_some hfind)
    exact ⟨rest, hrest.symm, by simpa using ht⟩

/-- A block comment goes up to its first closing sign, or it is not closed. -/
theorem throughClose_spec (cs : List Char) :
    (∃ body rest, cs = body ++ ['*', '/'] ++ rest ∧ ¬['*', '/'] <:+: body ∧
      throughClose cs = body ++ ['*', '/']) ∨
    ¬['*', '/'] <:+: cs ∧ throughClose cs = cs := by
  fun_induction throughClose cs with
  | case1 rest => exact .inl ⟨[], rest, rfl, by simp, rfl⟩
  | case2 c cs hno ih =>
    -- a closing sign does not begin at `c`, so it would stand behind it
    have hcons : ∀ body, body <+: cs → ['*', '/'] <:+: c :: body → ['*', '/'] <:+: body := by
      intro body hbody hin
      rcases List.infix_cons_iff.1 hin with hpre | hin
      · obtain ⟨hc, hslash⟩ := List.cons_prefix_cons.1 hpre
        obtain ⟨tail, htail⟩ := hslash.trans hbody
        exact (hno tail hc.symm htail.symm).elim
      · exact hin
    rcases ih with ⟨body, rest, rfl, hbody, heq⟩ | ⟨hcs, heq⟩
    · refine .inl ⟨c :: body, rest, rfl, fun hin => hbody (hcons body ?_ hin), ?_⟩
      · simp
      · rw [heq]
        rfl
    · exact .inr ⟨fun hin => hcs (hcons cs (List.prefix_refl cs) hin), by rw [heq]⟩
  | case3 => exact .inr ⟨by simp, rfl⟩

theorem comment_spec (h : comment cs ≠ []) :
    ∃ rest, cs = comment cs ++ rest ∧ Lexeme none (comment cs) rest := by
  unfold comment at h ⊢
  split
  · next tail =>
    obtain ⟨rest, htail, hrest⟩ := exists_takeWhile_append (· ≠ '\n') tail
    refine ⟨rest, by simpa using htail, .lineComment ?_ fun c hc => ?_⟩
    · intro hmem
      simpa using List.mem_takeWhile_imp hmem
    · simpa using hrest c hc
  · next tail =>
    rcases throughClose_spec tail with ⟨body, rest, rfl, hbody, heq⟩ | ⟨hbody, heq⟩
    · rw [heq]
      exact ⟨rest, by simp, .blockComment hbody⟩
    · rw [heq]
      exact ⟨[], by simp, .openComment hbody⟩
  · simp_all

theorem digits_spec (h : digits cs ≠ []) :
    ∃ rest, cs = digits cs ++ rest ∧ Lexeme (some .number) (digits cs) rest := by
  obtain ⟨rest, hcs, -⟩ := exists_takeWhile_append Char.isDigit cs
  have hdrop : cs.drop (cs.takeWhile Char.isDigit).length = rest := by
    have h : (cs.takeWhile Char.isDigit ++ rest).drop (cs.takeWhile Char.isDigit).length = rest :=
      List.drop_left
    rwa [← hcs] at h
  unfold digits at h ⊢
  simp only [hdrop] at h ⊢
  split
  · next hany => simp [hany] at h
  · next hany =>
    simp only [hany] at h
    refine ⟨rest, hcs, .number h (fun d hd => List.mem_takeWhile_imp hd) fun c hc => ?_⟩
    simp only [Option.mem_def] at hc
    simpa [hc] using hany

theorem quoted_spec (h : quoted cs ≠ []) :
    ∃ rest, cs = quoted cs ++ rest ∧ Lexeme (some .string) (quoted cs) rest := by
  unfold quoted at h ⊢
  split
  · next tail =>
    obtain ⟨rest, htail, hrest⟩ := exists_takeWhile_append (· ≠ '"') tail
    have hbody : '"' ∉ tail.takeWhile (· ≠ '"') := by
      intro hmem
      simpa using List.mem_takeWhile_imp hmem
    have hlen := congrArg List.length htail
    rw [List.length_append] at hlen
    simp only at h ⊢
    split at h
    · next hlt =>
      obtain ⟨c, rest, rfl⟩ : ∃ c rest', rest = c :: rest' := by
        cases rest with
        | nil => simp only [List.length_nil] at hlen; omega
        | cons c rest => exact ⟨c, rest, rfl⟩
      obtain rfl : c = '"' := by simpa using hrest c rfl
      rw [if_pos hlt]
      refine ⟨rest, ?_, .string hbody⟩
      simpa using htail
    · simp at h
  · simp_all

theorem name_spec (h : name cs ≠ []) :
    ∃ rest, cs = name cs ++ rest ∧ name cs = word cs ∧ IsName (name cs) ∧
      Ends isWordChar rest := by
  obtain ⟨rest, hcs, hrest⟩ := exists_takeWhile_append isWordChar cs
  cases cs with
  | nil => simp [name] at h
  | cons c tail =>
    by_cases hc : isNameStart c
    · have hname : name (c :: tail) = word (c :: tail) := by simp [name, hc]
      have hcons : word (c :: tail) = c :: tail.takeWhile isWordChar := by
        simp [word, isWordChar_iff.2 (.inl hc)]
      refine ⟨rest, by rw [hname]; exact hcs, hname, ?_, hrest⟩
      rw [hname, hcons, isName_cons]
      exact ⟨hc, fun d hd => List.mem_takeWhile_imp hd⟩
    · simp [name, hc] at h

theorem nameColon_spec (h : nameColon cs ≠ []) :
    name cs ≠ [] ∧ nameColon cs = name cs ++ [':'] ∧ ∃ rest, cs = name cs ++ ':' :: rest := by
  unfold nameColon at h ⊢
  simp only at h ⊢
  split at h
  · next hcolon =>
    obtain ⟨hname, hhead⟩ := hcolon
    obtain ⟨rest, hcs, -⟩ := name_spec hname
    have hdrop : (name cs ++ rest).drop (name cs).length = rest := List.drop_left
    rw [← hcs] at hdrop
    rw [hdrop] at hhead
    obtain ⟨tail, rfl⟩ := List.head?_eq_some_iff.1 hhead
    rw [if_pos ⟨hname, by rw [hdrop]; rfl⟩]
    exact ⟨hname, rfl, tail, hcs⟩
  · simp at h

theorem nameColon_of_colon (h : name cs ≠ []) (hcs : cs = name cs ++ ':' :: rest) :
    nameColon cs = name cs ++ [':'] := by
  have hdrop : (name cs ++ ':' :: rest).drop (name cs).length = ':' :: rest := List.drop_left
  rw [← hcs] at hdrop
  simp [nameColon, h, hdrop]

theorem blanks_spec (h : blanks cs ≠ []) :
    ∃ rest, cs = blanks cs ++ rest ∧ Lexeme none (blanks cs) rest := by
  obtain ⟨rest, hcs, hrest⟩ := exists_takeWhile_append Text.isBlank cs
  exact ⟨rest, hcs, .blanks h (fun c hc => List.mem_takeWhile_imp hc) hrest⟩

/-- A word that the rules for whole words have left is none of theirs. -/
theorem not_mem_of_wordOf (h : wordOf words cs = []) (hw : word cs ≠ []) :
    String.ofList (word cs) ∉ words := by
  intro hmem
  rw [wordOf, if_pos hmem] at h
  exact hw h

end

/-! ### The rules -/

section

variable {k : Option Kind} {cs p rest : List Char}

theorem Rule.find?_eq_some {r : Rule} :
    r.find? cs = some (k, p) ↔ p ≠ [] ∧ k = r.kind? ∧ p = r.piece cs := by
  unfold find?
  split
  · next h =>
    rw [h]
    constructor
    · intro hsome
      cases hsome
    · rintro ⟨hp, -, rfl⟩
      exact absurd rfl hp
  · next h =>
    simp only [Option.some.injEq, Prod.mk.injEq]
    constructor
    · rintro ⟨rfl, rfl⟩
      exact ⟨h, rfl, rfl⟩
    · rintro ⟨-, rfl, rfl⟩
      exact ⟨rfl, rfl⟩

theorem Rule.find?_eq_none {r : Rule} : r.find? cs = none ↔ r.piece cs = [] := by
  simp [find?]

theorem findSome?_cons_eq_some {r : Rule} {rs : List Rule} :
    (r :: rs).findSome? (·.find? cs) = some (k, p) ↔
      (p ≠ [] ∧ k = r.kind? ∧ p = r.piece cs) ∨
        r.piece cs = [] ∧ rs.findSome? (·.find? cs) = some (k, p) := by
  rw [← Rule.find?_eq_some, ← Rule.find?_eq_none, List.findSome?_cons]
  cases r.find? cs <;> simp

theorem ofList_mem {l : List String} : String.ofList p ∈ l ↔ p ∈ l.map String.toList := by
  constructor
  · intro h
    exact List.mem_map.2 ⟨_, h, String.toList_ofList⟩
  · intro h
    obtain ⟨s, hs, rfl⟩ := List.mem_map.1 h
    simpa using hs

/-- The signs of which more can be made, and the characters that do so. -/
theorem mem_longerSigns {c : Char} :
    String.ofList (p ++ [c]) ∈ longerSigns ↔
      p = ['<'] ∧ '-' = c ∨ p = ['<'] ∧ '=' = c ∨ p = ['>'] ∧ '=' = c ∨ p = ['/'] ∧ '/' = c ∨
        p = ['/'] ∧ '*' = c := by
  have hsnoc : ∀ a b : Char, p ++ [c] = [a, b] ↔ p = [a] ∧ b = c := by
    intro a b
    cases p with
    | nil => simp
    | cons x xs => cases xs <;> simp [@eq_comm Char c b]
  rw [ofList_mem]
  simp [longerSigns, hsnoc]

/-- A sign that is found is a word, if no rule before finds more. -/
theorem lexeme_of_signOf {k : Kind} (hp : signOf k.signs cs ≠ [])
    (hmore : ∀ c tail, cs = signOf k.signs cs ++ c :: tail →
      String.ofList (signOf k.signs cs ++ [c]) ∉ longerSigns) :
    ∃ rest, cs = signOf k.signs cs ++ rest ∧ Lexeme (some k) (signOf k.signs cs) rest := by
  obtain ⟨rest, hcs, hmem⟩ := signOf_spec hp
  refine ⟨rest, hcs, .sign hmem fun c hc => ?_⟩
  obtain ⟨tail, rfl⟩ := List.head?_eq_some_iff.1 hc
  exact hmore c tail hcs

/-- The signs of most kinds are the beginning of no others. -/
theorem lexeme_of_signOf_of_forall {k : Kind} (hk : ∀ s ∈ k.signs, s ∉ ["<", ">", "/"])
    (hp : signOf k.signs cs ≠ []) :
    ∃ rest, cs = signOf k.signs cs ++ rest ∧ Lexeme (some k) (signOf k.signs cs) rest := by
  obtain ⟨-, -, hmem⟩ := signOf_spec hp
  refine lexeme_of_signOf hp fun c tail _ hmore => hk _ hmem ?_
  rw [ofList_mem]
  rcases mem_longerSigns.1 hmore with h | h | h | h | h <;> simp [h.1]

theorem lexeme_of_comparison (hassign : signOf ["←", "<-"] cs = [])
    (hp : signOf (Kind.signs .comparison) cs ≠ []) :
    ∃ rest, cs = signOf (Kind.signs .comparison) cs ++ rest ∧
      Lexeme (some .comparison) (signOf (Kind.signs .comparison) cs) rest := by
  refine lexeme_of_signOf hp fun c tail hcs hmore => ?_
  rcases mem_longerSigns.1 hmore with h | h | h | h | h <;> obtain ⟨hsign, rfl⟩ := h
  all_goals
    rw [hsign] at hcs
    subst hcs
    simp [signOf, Kind.signs] at hassign hsign

theorem lexeme_of_operator (hcomment : comment cs = [])
    (hp : signOf (Kind.signs .operator) cs ≠ []) :
    ∃ rest, cs = signOf (Kind.signs .operator) cs ++ rest ∧
      Lexeme (some .operator) (signOf (Kind.signs .operator) cs) rest := by
  refine lexeme_of_signOf hp fun c tail hcs hmore => ?_
  rcases mem_longerSigns.1 hmore with h | h | h | h | h <;> obtain ⟨hsign, rfl⟩ := h
  all_goals
    rw [hsign] at hcs
    subst hcs
    simp [signOf, Kind.signs, comment] at hcomment hsign

/-- **What the lexer takes is a lexeme.** -/
theorem lexeme_of_scan? (h : scan? cs = some (k, p)) :
    ∃ rest, cs = p ++ rest ∧ Lexeme k p rest := by
  simp only [scan?, rules, findSome?_cons_eq_some, List.findSome?_nil, reduceCtorEq, and_false,
    or_false] at h
  obtain ⟨hp, rfl, rfl⟩ | ⟨hmethod, h⟩ := h
  · obtain ⟨rest, hcs, hmem, hrest⟩ := wordOf_spec hp
    exact ⟨rest, hcs, .word hmem hrest⟩
  obtain ⟨hp, rfl, rfl⟩ | ⟨hboolean, h⟩ := h
  · obtain ⟨rest, hcs, hmem, hrest⟩ := wordOf_spec hp
    exact ⟨rest, hcs, .word hmem hrest⟩
  obtain ⟨hp, rfl, rfl⟩ | ⟨hcolor, h⟩ := h
  · obtain ⟨rest, hcs, hmem, hrest⟩ := wordOf_spec hp
    exact ⟨rest, hcs, .word hmem hrest⟩
  obtain ⟨hp, rfl, rfl⟩ | ⟨hassign, h⟩ := h
  · exact lexeme_of_signOf_of_forall (k := .assignment) (by decide) hp
  obtain ⟨hp, rfl, rfl⟩ | ⟨-, h⟩ := h
  · exact lexeme_of_comparison hassign hp
  obtain ⟨hp, rfl, rfl⟩ | ⟨hcomment, h⟩ := h
  · exact comment_spec hp
  obtain ⟨hp, rfl, rfl⟩ | ⟨-, h⟩ := h
  · exact lexeme_of_operator hcomment hp
  obtain ⟨hp, rfl, rfl⟩ | ⟨-, h⟩ := h
  · exact digits_spec hp
  obtain ⟨hp, rfl, rfl⟩ | ⟨-, h⟩ := h
  · exact quoted_spec hp
  obtain ⟨hp, rfl, rfl⟩ | ⟨-, h⟩ := h
  · exact lexeme_of_signOf_of_forall (k := .parenthesis) (by decide) hp
  obtain ⟨hp, rfl, rfl⟩ | ⟨-, h⟩ := h
  · exact lexeme_of_signOf_of_forall (k := .brace) (by decide) hp
  obtain ⟨hp, rfl, rfl⟩ | ⟨-, h⟩ := h
  · exact lexeme_of_signOf_of_forall (k := .comma) (by decide) hp
  have hreserved : name cs ≠ [] → String.ofList (name cs) ∉ reserved := by
    intro hname
    obtain ⟨-, -, hword, -⟩ := name_spec hname
    rw [hword] at hname ⊢
    simp only [reserved, List.mem_append, not_or]
    exact ⟨⟨not_mem_of_wordOf hmethod hname, not_mem_of_wordOf hboolean hname⟩,
      not_mem_of_wordOf hcolor hname⟩
  obtain ⟨hp, rfl, rfl⟩ | ⟨hlabel, h⟩ := h
  · obtain ⟨hname, heq, rest, hcs⟩ := nameColon_spec hp
    obtain ⟨-, -, -, hisName, -⟩ := name_spec hname
    simp only [heq]
    exact ⟨rest, by simpa using hcs, .label hisName (hreserved hname)⟩
  obtain ⟨hp, rfl, rfl⟩ | ⟨-, h⟩ := h
  · obtain ⟨rest, hcs, -, hisName, hrest⟩ := name_spec hp
    refine ⟨rest, hcs, .identifier hisName (hreserved hp) hrest fun c hc => ?_⟩
    by_contra hcolon
    obtain ⟨tail, rfl⟩ := List.head?_eq_some_iff.1 hc
    obtain rfl : c = ':' := by simpa using hcolon
    rw [nameColon_of_colon hp hcs] at hlabel
    simp at hlabel
  obtain ⟨hp, rfl, rfl⟩ := h
  exact blanks_spec hp

/-- The lexer takes what one of the rules finds, if the rules before it find nothing. -/
theorem scan?_of_take (n : Nat) {r : Rule} (hr : rules[n]? = some r)
    (hbefore : ∀ q ∈ rules.take n, q.piece cs = []) (hp : r.piece cs = p) (hne : p ≠ []) :
    scan? cs = some (r.kind?, p) := by
  obtain ⟨hn, hget⟩ := List.getElem?_eq_some_iff.1 hr
  have hnone : (rules.take n).findSome? (·.find? cs) = none := by
    rw [List.findSome?_eq_none_iff]
    intro q hq
    exact Rule.find?_eq_none.2 (hbefore q hq)
  have hsome : r.find? cs = some (r.kind?, p) := Rule.find?_eq_some.2 ⟨hne, rfl, hp.symm⟩
  rw [scan?, ← List.take_append_drop n rules, List.findSome?_append, hnone,
    List.drop_eq_getElem_cons hn, hget, List.findSome?_cons, hsome]
  rfl

/-- **A sign is taken,** unless the next character makes more of it. -/
theorem scan?_sign {k : Kind} (hs : String.ofList p ∈ k.signs)
    (hmore : ∀ c ∈ rest.head?, String.ofList (p ++ [c]) ∉ longerSigns) :
    scan? (p ++ rest) = some (some k, p) := by
  rw [ofList_mem] at hs
  simp only [mem_longerSigns, not_or] at hmore
  cases k <;> simp only [Kind.signs, List.map_cons, List.map_nil, List.mem_cons, List.not_mem_nil,
    or_false] at hs
  case assignment =>
    refine scan?_of_take 3 rfl ?_ ?_ ?_ <;> rcases hs with rfl | rfl <;>
      simp [rules, wordOf_cons_of_not, isWordChar, signOf]
  case comparison =>
    refine scan?_of_take 4 rfl ?_ ?_ ?_ <;> rcases hs with rfl | rfl | rfl | rfl | rfl | rfl <;>
      simp [rules, wordOf_cons_of_not, isWordChar, signOf]
    -- the signs `<` and `>`
    all_goals cases rest <;> simp_all
  case operator =>
    refine scan?_of_take 6 rfl ?_ ?_ ?_ <;> rcases hs with rfl | rfl | rfl | rfl | rfl <;>
      simp [rules, wordOf_cons_of_not, isWordChar, signOf, comment]
    -- a slash that begins no comment
    cases rest <;> simp_all
    split <;> simp_all
  case parenthesis =>
    refine scan?_of_take 9 rfl ?_ ?_ ?_ <;> rcases hs with rfl | rfl <;>
      simp [rules, wordOf_cons_of_not, isWordChar, signOf, comment, digits, quoted]
  case brace =>
    refine scan?_of_take 10 rfl ?_ ?_ ?_ <;> rcases hs with rfl | rfl | rfl | rfl <;>
      simp [rules, wordOf_cons_of_not, isWordChar, signOf, comment, digits, quoted]
  case comma =>
    refine scan?_of_take 11 rfl ?_ ?_ ?_ <;> subst hs <;>
      simp [rules, wordOf_cons_of_not, isWordChar, signOf, comment, digits, quoted]

theorem isWordChar_of_mem_words {k : Kind} (h : String.ofList p ∈ k.words) :
    ∀ c ∈ p, isWordChar c := by
  have hall : k.words.all fun s => s.toList.all isWordChar := by cases k <;> rfl
  simp only [List.all_eq_true] at hall
  intro c hc
  exact hall _ h c (by simpa using hc)

/-- **A word that stands for itself is taken,** if it is whole. -/
theorem scan?_word {k : Kind} (h : String.ofList p ∈ k.words) (hrest : Ends isWordChar rest) :
    scan? (p ++ rest) = some (some k, p) := by
  have hp : p ≠ [] := by
    rintro rfl
    revert h
    cases k <;> decide
  have hword : ∀ words, wordOf words (p ++ rest) = if String.ofList p ∈ words then p else [] :=
    fun _ => wordOf_append (isWordChar_of_mem_words h) hrest
  cases k <;> simp only [Kind.words, List.not_mem_nil] at h
  case method =>
    refine scan?_of_take 0 rfl (by simp) ?_ hp
    simp only [hword, if_pos h]
  case boolean =>
    have hmethod : String.ofList p ∉ methods :=
      (by decide : ∀ s ∈ ["true", "false"], s ∉ methods) _ h
    refine scan?_of_take 1 rfl ?_ ?_ hp
    · simp [rules, hword, hmethod]
    · simp only [hword, if_pos h]
  case color =>
    have hmethod : String.ofList p ∉ methods := (by decide : ∀ s ∈ colors, s ∉ methods) _ h
    have hboolean : String.ofList p ∉ ["true", "false"] :=
      (by decide : ∀ s ∈ colors, s ∉ ["true", "false"]) _ h
    refine scan?_of_take 2 rfl ?_ ?_ hp
    · simp only [rules, List.take_succ_cons, List.take_zero, List.forall_mem_cons, hword,
        if_neg hmethod, if_neg hboolean]
      simp
    · simp only [hword, if_pos h]

/-- No sign begins with a character of a sort that has none of the first characters of signs. -/
theorem signOf_cons {k : Kind} {c : Char} (sort : Char → Bool)
    (hsort : ∀ s ∈ k.signs, s.toList.head?.all (!sort ·)) (h : sort c) :
    signOf k.signs (c :: cs) = [] := by
  refine signOf_cons_of_sort (fun s hs => ?_) h
  have hne : s.toList ≠ [] := (by cases k <;> decide : ∀ s ∈ k.signs, s.toList ≠ []) s hs
  obtain ⟨d, tail, hd⟩ := List.exists_cons_of_ne_nil hne
  refine ⟨d, tail, hd, ?_⟩
  simpa [hd] using hsort s hs

theorem signOf_cons_of_isWordChar {k : Kind} {c : Char} (h : isWordChar c) :
    signOf k.signs (c :: cs) = [] := signOf_cons isWordChar (by cases k <;> decide) h

theorem comment_cons_of_isWordChar {c : Char} (h : isWordChar c) : comment (c :: cs) = [] := by
  refine comment_cons_of_ne ?_
  rintro rfl
  revert h
  decide

/-- **A row of digits is taken,** if it does not run into a word. -/
theorem scan?_number (hp : p ≠ []) (hdigit : ∀ d ∈ p, d.isDigit) (hrest : Ends isWordChar rest) :
    scan? (p ++ rest) = some (some .number, p) := by
  obtain ⟨c, tail, rfl⟩ := List.exists_cons_of_ne_nil hp
  have hc : c.isDigit := hdigit c (by simp)
  have hchars : ∀ d ∈ c :: tail, isWordChar d := fun d hd => isWordChar_iff.2 (.inr (hdigit d hd))
  have hword : ∀ k : Kind, wordOf k.words (c :: tail ++ rest) = [] := by
    intro k
    rw [wordOf_append hchars hrest, if_neg]
    intro hmem
    have hhead := (by cases k <;> decide :
      ∀ s ∈ k.words, s.toList.head?.all fun d => !d.isDigit) _ hmem
    simp [hc] at hhead
  have hsign : ∀ k : Kind, signOf k.signs (c :: tail ++ rest) = [] := fun k =>
    signOf_cons_of_isWordChar (hchars c (by simp))
  have hcomment : comment (c :: tail ++ rest) = [] :=
    comment_cons_of_isWordChar (hchars c (by simp))
  refine scan?_of_take 7 rfl ?_ ?_ hp
  · simp only [rules, List.take_succ_cons, List.take_zero, List.forall_mem_cons]
    exact ⟨hword .method, hword .boolean, hword .color, hsign .assignment, hsign .comparison,
      hcomment, hsign .operator, by simp⟩
  · have hdigits : ∀ d ∈ rest.head?, d.isDigit = false := by
      intro d hd
      by_contra hne
      have := hrest d hd
      rw [isWordChar_iff.2 (.inr (by simpa using hne))] at this
      cases this
    have hany : ¬rest.head?.any isWordChar := by
      cases rest with
      | nil => simp
      | cons d rest => simpa using hrest d rfl
    have htake : (c :: tail ++ rest).takeWhile Char.isDigit = c :: tail :=
      takeWhile_append_of_ends hdigit hdigits
    simp only [digits, htake, List.drop_left, if_neg hany]

/-- **A text in quotes is taken.** -/
theorem scan?_string {body : List Char} (hbody : '"' ∉ body) :
    scan? ('"' :: (body ++ ['"']) ++ rest) = some (some .string, '"' :: (body ++ ['"'])) := by
  have hsign : ∀ (k : Kind) (cs : List Char), signOf k.signs ('"' :: cs) = [] := fun k cs =>
    signOf_cons (· == '"') (by cases k <;> decide) rfl
  refine scan?_of_take 8 rfl ?_ ?_ (by simp)
  · simp only [rules, List.take_succ_cons, List.take_zero, List.forall_mem_cons, List.cons_append]
    exact ⟨wordOf_cons_of_not rfl, wordOf_cons_of_not rfl, wordOf_cons_of_not rfl,
      hsign .assignment _, hsign .comparison _, comment_cons_of_ne (by decide), hsign .operator _,
      digits_cons_of_not rfl, by simp⟩
  · have htake : (body ++ '"' :: rest).takeWhile (· ≠ '"') = body := by
      refine takeWhile_append_of_ends (fun c hc => ?_) (ends_cons.2 (by simp))
      simp only [ne_eq, decide_eq_true_eq]
      rintro rfl
      exact hbody hc
    have hlt : body.length < (body ++ '"' :: rest).length := by simp
    simp only [List.cons_append, List.append_assoc, List.nil_append, quoted, htake, if_pos hlt]

/-- What the rules before those for names find where a name stands that is not reserved. -/
theorem before_name {c : Char} {tail : List Char} (hname : IsName (c :: tail))
    (hreserved : String.ofList (c :: tail) ∉ reserved) (hrest : Ends isWordChar rest) :
    ∀ q ∈ rules.take 12, q.piece (c :: tail ++ rest) = [] := by
  obtain ⟨hc, -⟩ := isName_cons.1 hname
  have hcw : isWordChar c := isWordChar_iff.2 (.inl hc)
  have hword : ∀ words : List String, (∀ s ∈ words, s ∈ reserved) →
      wordOf words (c :: tail ++ rest) = [] := by
    intro words hsub
    rw [wordOf_append hname.isWordChar hrest, if_neg fun hmem => hreserved (hsub _ hmem)]
  have hsign : ∀ k : Kind, signOf k.signs (c :: tail ++ rest) = [] := fun k =>
    signOf_cons_of_isWordChar hcw
  have hquoted : quoted (c :: tail ++ rest) = [] := by
    refine quoted_cons_of_ne ?_
    rintro rfl
    revert hcw
    decide
  simp only [rules, List.take_succ_cons, List.take_zero, List.forall_mem_cons]
  exact ⟨hword _ (by decide), hword _ (by decide), hword _ (by decide), hsign .assignment,
    hsign .comparison, comment_cons_of_isWordChar hcw, hsign .operator,
    digits_cons_of_not (isDigit_of_isNameStart hc), hquoted, hsign .parenthesis, hsign .brace,
    hsign .comma, by simp⟩

theorem name_append (hname : IsName p) (hrest : Ends isWordChar rest) : name (p ++ rest) = p := by
  have hword := word_append hname.isWordChar hrest
  obtain ⟨c, tail, rfl⟩ := List.exists_cons_of_ne_nil hname.ne_nil
  obtain ⟨hc, -⟩ := isName_cons.1 hname
  rw [List.cons_append] at hword ⊢
  simp only [name, List.head?_cons, Option.any_some, hc, if_true, hword]

/-- **A name with a colon is taken.** -/
theorem scan?_label (hname : IsName p) (hreserved : String.ofList p ∉ reserved) :
    scan? (p ++ [':'] ++ rest) = some (some .label, p ++ [':']) := by
  have hcolon : Ends isWordChar (':' :: rest) := ends_cons.2 rfl
  have heq := name_append hname hcolon
  rw [List.append_assoc, List.singleton_append]
  refine scan?_of_take 12 rfl ?_ ?_ (by simp)
  · obtain ⟨c, tail, rfl⟩ := List.exists_cons_of_ne_nil hname.ne_nil
    exact before_name hname hreserved hcolon
  · have hlabel : nameColon (p ++ ':' :: rest) = name (p ++ ':' :: rest) ++ [':'] :=
      nameColon_of_colon (by rw [heq]; exact hname.ne_nil) (by rw [heq])
    rw [heq] at hlabel
    exact hlabel

/-- **A name is taken,** if it is whole and has no colon. -/
theorem scan?_identifier (hname : IsName p) (hreserved : String.ofList p ∉ reserved)
    (hrest : Ends isWordChar rest) (hcolon : Ends (· == ':') rest) :
    scan? (p ++ rest) = some (some .identifier, p) := by
  have heq := name_append hname hrest
  have hlabel : nameColon (p ++ rest) = [] := by
    have hhead : rest.head? ≠ some ':' := by
      intro hc
      simpa using hcolon _ hc
    simp [nameColon, heq, hhead]
  refine scan?_of_take 13 rfl ?_ heq hname.ne_nil
  have htake : rules.take 13 = rules.take 12 ++ [⟨some .label, nameColon⟩] := rfl
  rw [htake, List.forall_mem_append]
  constructor
  · obtain ⟨c, tail, rfl⟩ := List.exists_cons_of_ne_nil hname.ne_nil
    exact before_name hname hreserved hrest
  · simpa using hlabel

/-- **A comment is taken.** -/
theorem scan?_comment (h : comment ('/' :: cs) = p) (hp : p ≠ []) :
    scan? ('/' :: cs) = some (none, p) := by
  refine scan?_of_take 5 rfl ?_ h hp
  simp only [rules, List.take_succ_cons, List.take_zero, List.forall_mem_cons]
  have hsign : ∀ k : Kind, (∀ s ∈ k.signs, s.toList.head?.all (· != '/')) →
      signOf k.signs ('/' :: cs) = [] := by
    intro k hk
    exact signOf_cons (· == '/') hk rfl
  exact ⟨wordOf_cons_of_not rfl, wordOf_cons_of_not rfl, wordOf_cons_of_not rfl,
    hsign .assignment (by decide), hsign .comparison (by decide), by simp⟩

theorem throughClose_append {body : List Char} (hbody : ¬['*', '/'] <:+: body) :
    throughClose (body ++ '*' :: '/' :: rest) = body ++ ['*', '/'] := by
  induction body with
  | nil => rfl
  | cons c body ih =>
    have hno : ∀ tail, c = '*' → body ++ '*' :: '/' :: rest = '/' :: tail → False := by
      rintro tail rfl htail
      cases body with
      | nil => simp at htail
      | cons d body =>
        obtain ⟨rfl, -⟩ := List.cons.inj htail
        exact hbody ⟨[], body, rfl⟩
    rw [List.cons_append, throughClose.eq_2 c _ hno, ih fun hin => hbody (List.infix_cons hin)]
    rfl

theorem throughClose_eq_self (h : ¬['*', '/'] <:+: cs) : throughClose cs = cs := by
  rcases throughClose_spec cs with ⟨body, rest, rfl, -⟩ | h
  · exact absurd ⟨body, rest, rfl⟩ h
  · exact h.2

/-- **Blanks are taken,** all of them. -/
theorem scan?_blanks (hp : p ≠ []) (hblank : ∀ c ∈ p, Text.isBlank c)
    (hrest : Ends Text.isBlank rest) : scan? (p ++ rest) = some (none, p) := by
  refine scan?_of_take 14 rfl ?_ (takeWhile_append_of_ends hblank hrest) hp
  obtain ⟨c, tail, rfl⟩ := List.exists_cons_of_ne_nil hp
  have hc : Text.isBlank c := hblank c (by simp)
  have hword := isWordChar_of_isBlank hc
  have hsign : ∀ k : Kind, signOf k.signs (c :: tail ++ rest) = [] := fun k =>
    signOf_cons Text.isBlank (by cases k <;> decide) hc
  have hne : ∀ d, Text.isBlank d = false → c ≠ d := by
    rintro d hd rfl
    rw [hc] at hd
    cases hd
  have hdigit : c.isDigit = false := by
    by_contra hd
    rw [isWordChar_iff.2 (.inr (by simpa using hd))] at hword
    cases hword
  have hname : name (c :: tail ++ rest) = [] := by
    refine name_cons_of_not ?_
    by_contra hn
    rw [isWordChar_iff.2 (.inl (by simpa using hn))] at hword
    cases hword
  simp only [rules, List.take_succ_cons, List.take_zero, List.forall_mem_cons]
  exact ⟨wordOf_cons_of_not hword, wordOf_cons_of_not hword, wordOf_cons_of_not hword,
    hsign .assignment, hsign .comparison, comment_cons_of_ne (hne _ rfl), hsign .operator,
    digits_cons_of_not hdigit, quoted_cons_of_ne (hne _ rfl), hsign .parenthesis, hsign .brace,
    hsign .comma, nameColon_of_name hname, hname, by simp⟩

/-- **A lexeme is taken.** -/
theorem Lexeme.scan? (h : Lexeme k p rest) : scan? (p ++ rest) = some (k, p) := by
  cases h with
  | word hmem hrest => exact scan?_word hmem hrest
  | sign hmem hmore => exact scan?_sign hmem hmore
  | number hp hdigit hrest => exact scan?_number hp hdigit hrest
  | string hbody => exact scan?_string hbody
  | label hname hreserved => exact scan?_label hname hreserved
  | identifier hname hreserved hrest hcolon =>
    exact scan?_identifier hname hreserved hrest hcolon
  | @lineComment body rest hbody hrest =>
    have hline : (body ++ rest).takeWhile (· ≠ '\n') = body := by
      refine takeWhile_append_of_ends (fun c hc => ?_) fun c hc => by simp [hrest c hc]
      simp only [ne_eq, decide_eq_true_eq]
      rintro rfl
      exact hbody hc
    rw [List.cons_append, List.cons_append]
    refine scan?_comment ?_ (by simp)
    simp only [comment, hline]
  | @blockComment body rest hbody =>
    rw [List.cons_append, List.cons_append, List.append_assoc]
    refine scan?_comment ?_ (by simp)
    exact congrArg ('/' :: '*' :: ·) (throughClose_append hbody)
  | openComment hbody =>
    rw [List.append_nil]
    refine scan?_comment ?_ (by simp)
    simp only [comment, throughClose_eq_self hbody]
  | blanks hp hblank hrest => exact scan?_blanks hp hblank hrest

/-- **The lexer takes exactly the lexemes.** -/
theorem scan?_eq_some_iff :
    Token.scan? cs = some (k, p) ↔ ∃ rest, cs = p ++ rest ∧ Lexeme k p rest := by
  constructor
  · exact lexeme_of_scan?
  · rintro ⟨rest, rfl, h⟩
    exact h.scan?

/-! ### What comes after a lexeme -/

/-- Of what comes after a lexeme only the first character matters, and it may be missing. -/
theorem Lexeme.of_head? {rest' : List Char} (h : Lexeme k p rest)
    (hhead : ∀ c ∈ rest'.head?, c ∈ rest.head?) : Lexeme k p rest' := by
  have hends : ∀ {sort : Char → Bool}, Ends sort rest → Ends sort rest' :=
    fun hrest c hc => hrest c (hhead c hc)
  cases h with
  | word hmem hrest => exact .word hmem (hends hrest)
  | sign hmem hmore => exact .sign hmem fun c hc => hmore c (hhead c hc)
  | number hp hdigit hrest => exact .number hp hdigit (hends hrest)
  | string hbody => exact .string hbody
  | label hname hreserved => exact .label hname hreserved
  | identifier hname hreserved hrest hcolon =>
    exact .identifier hname hreserved (hends hrest) (hends hcolon)
  | lineComment hbody hrest => exact .lineComment hbody fun c hc => hrest c (hhead c hc)
  | blockComment hbody => exact .blockComment hbody
  | openComment hbody =>
    cases rest' with
    | nil => exact .openComment hbody
    | cons c rest' => simp at hhead
  | blanks hp hblank hrest => exact .blanks hp hblank (hends hrest)

/-- A blank may come after any word. -/
theorem Lexeme.of_blank {k : Kind} {rest' : List Char} (h : Lexeme (some k) p rest)
    (hblank : ∀ c ∈ rest'.head?, Text.isBlank c) : Lexeme (some k) p rest' := by
  have hends : Ends isWordChar rest' := fun c hc => isWordChar_of_isBlank (hblank c hc)
  have hne : ∀ c ∈ rest'.head?, ∀ d, Text.isBlank d = false → d ≠ c := by
    rintro c hc d hd rfl
    rw [hblank d hc] at hd
    cases hd
  cases h with
  | word hmem => exact .word hmem hends
  | sign hmem =>
    refine .sign hmem fun c hc hmore => ?_
    have hne := hne c hc
    rcases mem_longerSigns.1 hmore with h | h | h | h | h <;> exact hne _ (by decide) h.2
  | number hp hdigit => exact .number hp hdigit hends
  | string hbody => exact .string hbody
  | label hname hreserved => exact .label hname hreserved
  | identifier hname hreserved =>
    exact .identifier hname hreserved hends fun c hc => by simpa using (hne c hc ':' rfl).symm

/-! ### The lexer, lexeme by lexeme -/

theorem Lexeme.ne_nil (h : Lexeme k p rest) : p ≠ [] := ne_nil_of_scan? h.scan?

/-- One step of the lexer. -/
theorem Lexeme.lexFrom (h : Lexeme k p rest) (pos : Position) :
    Token.lexFrom pos (p ++ rest) =
      (Token.lexFrom (pos.advanceBy p) rest).map (ofPiece pos k p ++ ·) := by
  have hne : p ++ rest ≠ [] := List.append_ne_nil_of_left_ne_nil h.ne_nil rest
  rw [lexFrom_of_scan?_eq_some hne h.scan?, List.drop_left]

/-- A blank or a comment leaves no token. -/
theorem Lexeme.lexFrom_none (h : Lexeme none p rest) (pos : Position) :
    Token.lexFrom pos (p ++ rest) = Token.lexFrom (pos.advanceBy p) rest := by
  rw [h.lexFrom]
  cases Token.lexFrom (pos.advanceBy p) rest <;> rfl

/-- Induction along the lexer's steps: a text is empty, or no lexeme begins it, or one does. -/
@[elab_as_elim]
theorem lexeme_induction {motive : List Char → Prop} (nil : motive [])
    (stuck : ∀ c tail, Token.scan? (c :: tail) = none → motive (c :: tail))
    (lexeme : ∀ k p rest, Lexeme k p rest → motive rest → motive (p ++ rest))
    (cs : List Char) : motive cs := by
  induction hlen : cs.length using Nat.strong_induction_on generalizing cs with
  | _ n ih =>
    cases hscan : Token.scan? cs with
    | none =>
      cases cs with
      | nil => exact nil
      | cons c tail => exact stuck c tail hscan
    | some found =>
      obtain ⟨rest, rfl, h⟩ := lexeme_of_scan? hscan
      refine lexeme _ _ rest h (ih rest.length ?_ rest rfl)
      have hpos := List.length_pos_iff.2 h.ne_nil
      rw [← hlen, List.length_append]
      omega

end

end Easel.Token
