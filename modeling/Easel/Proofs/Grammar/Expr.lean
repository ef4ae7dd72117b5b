import Easel.Proofs.Grammar.Reads

/-!
# The grammar of expressions

The grammar is given as relations between token lists and what they stand for, without a word on how
they are read:

    phrase 0  = operand
    phrase 1  = phrase 0 { ("*" | "/" | "%") phrase 0 }
    phrase 2  = phrase 1 { ("+" | "-") phrase 1 }
    phrase 3  = phrase 2 { ("==" | "!=" | "<" | ">" | "<=" | ">=") phrase 2 }

The repetitions group to the left, which is what a rule that begins with its own phrase says. The
readers accept exactly the grammar. What they accept is derived by it (`Expr.phrase_sound`): the
proof follows the readers call by call. What it derives they accept, with any tokens after it that
do not go on with the phrase (`Expr.phrase_complete`): a reader that takes as much as it can then
takes no more than the phrase.
-/

namespace Easel

namespace Grammar

/-- The signs that stand between two phrases of a level, and the operators that they denote. -/
def signs : Nat → List (Token.Kind × String × Operator)
  | 0 => [(.operator, "*", .mul), (.operator, "/", .div), (.operator, "%", .mod)]
  | 1 => [(.operator, "+", .add), (.operator, "-", .sub)]
  | 2 => [(.comparison, "==", .eq), (.comparison, "!=", .ne), (.comparison, ">", .gt),
      (.comparison, "<", .lt), (.comparison, ">=", .ge), (.comparison, "<=", .le)]
  | _ => []

/-- The text is decimal digits after an optional sign, and denotes the 32-bit integer `n`. -/
def Int32Literal (text : String) (n : Int32) : Prop :=
  ∃ digits, digits ≠ [] ∧ (∀ d ∈ digits, d.isDigit) ∧
    ((text.toList = digits ∨ text.toList = '+' :: digits) ∧ n.toInt = Text.ofDigits digits ∨
      text.toList = '-' :: digits ∧ n.toInt = -Text.ofDigits digits)

mutual

/-- The operands. -/
inductive Operand : List Token → Expr → Prop where
  /-- A number, if it fits. -/
  | number {t : Token} {n : Int32} : t.kind = .number → Int32Literal t.text n →
      Operand [t] (.num n)
  /-- A truth value. -/
  | boolean {t : Token} : t.kind = .boolean → Operand [t] (.bool (t.text = "true"))
  /-- A text without its quotes. -/
  | string {t : Token} : t.kind = .string → Operand [t] (.text (Text.trim '"' t.text))
  /-- The bare name of a colour. -/
  | color {t : Token} : t.kind = .color → Operand [t] (.text t.text)
  /-- A variable. -/
  | name {t : Token} : t.kind = .identifier → Operand [t] (.var t.text)
  /-- A minus, which subtracts the operand after it from zero. -/
  | minus {t : Token} {ts : List Token} {e : Expr} : t.Is .operator "-" → Operand ts e →
      Operand (t :: ts) (.binary .sub (.num 0) e)
  /-- An expression in parentheses. -/
  | parentheses {l r : Token} {ts : List Token} {e : Expr} : l.Is .parenthesis "(" →
      Phrase 3 ts e → r.Is .parenthesis ")" → Operand (l :: (ts ++ [r])) e
  /-- A call with its arguments in parentheses. -/
  | call {f l r : Token} {ts : List Token} {es : List Expr} : f.kind = .method →
      l.Is .parenthesis "(" → Arguments ts es → r.Is .parenthesis ")" →
      Operand (f :: l :: (ts ++ [r])) (.call f.text es)

/-- The phrases of each level. -/
inductive Phrase : Nat → List Token → Expr → Prop where
  /-- An operand is a phrase of the lowest level. -/
  | operand {ts : List Token} {e : Expr} : Operand ts e → Phrase 0 ts e
  /-- One phrase of the level below. -/
  | single {n : Nat} {ts : List Token} {e : Expr} : Phrase n ts e → Phrase (n + 1) ts e
  /-- One phrase of the level below more, after a sign. -/
  | more {n : Nat} {t : Token} {ts us : List Token} {op : Operator} {e e' : Expr} :
      Phrase (n + 1) ts e → (t.kind, t.text, op) ∈ signs n → Phrase n us e' →
      Phrase (n + 1) (ts ++ t :: us) (.binary op e e')

/-- The arguments of a call. -/
inductive Arguments : List Token → List Expr → Prop where
  /-- A call may have no arguments. -/
  | none : Arguments [] []
  /-- Some arguments. -/
  | some {ts : List Token} {es : List Expr} : Listed ts es → Arguments ts es

/-- One or more expressions with commas between them. -/
inductive Listed : List Token → List Expr → Prop where
  /-- One expression. -/
  | one {ts : List Token} {e : Expr} : Phrase 3 ts e → Listed ts [e]
  /-- An expression before others. -/
  | cons {t : Token} {ts us : List Token} {e : Expr} {es : List Expr} : Phrase 3 ts e →
      t.Is .comma "," → Listed us es → Listed (ts ++ t :: us) (e :: es)

end

/-! ### Signs and literals -/

/-- The table of the signs holds each operator once, at its level. -/
theorem mem_signs {k : Token.Kind} {text : String} {op : Operator} {n : Nat} :
    (k, text, op) ∈ signs n ↔ (k = op.kind ∧ text = op.sign) ∧ op.level = n := by
  match n with
  | 0 | 1 | 2 | _ + 3 =>
    cases op <;> simp [signs, Operator.kind, Operator.compares, Operator.sign, Operator.level]

/-- A token is the operator that has its sign, since no two operators share one. -/
theorem ofToken?_eq_some {t : Token} {op : Operator} :
    Operator.ofToken? t = some op ↔ t.Is op.kind op.sign := by
  constructor
  · intro h
    simpa using List.find?_some h
  · rintro ⟨hk, ht⟩
    cases op <;> simp [Operator.ofToken?, Operator.all, Token.Is, hk, ht, Operator.kind,
      Operator.compares, Operator.sign]

theorem int32?_eq_some {i : Int} {n : Int32} : Text.int32? i = some n ↔ n.toInt = i := by
  unfold Text.int32?
  constructor
  · intro h
    split at h
    · next hi =>
      cases h
      exact Int32.toInt_ofInt_of_le hi.1 (Int.lt_of_le_of_lt hi.2 (by decide))
    · cases h
  · rintro rfl
    rw [if_pos ⟨Int32.minValue_le_toInt n, Int32.toInt_le n⟩, Int32.ofInt_toInt]

theorem readNat?_eq_some {cs : List Char} {n : Nat} :
    Text.readNat? cs = some n ↔ (cs ≠ [] ∧ ∀ d ∈ cs, d.isDigit) ∧ Text.ofDigits cs = n := by
  simp [Text.readNat?]

/-- A number is read just if the text is digits after an optional sign. -/
theorem readInt?_eq_some {cs : List Char} {i : Int} :
    Text.readInt? cs = some i ↔ ∃ digits, digits ≠ [] ∧ (∀ d ∈ digits, d.isDigit) ∧
      ((cs = digits ∨ cs = '+' :: digits) ∧ i = Text.ofDigits digits ∨
        cs = '-' :: digits ∧ i = -Text.ofDigits digits) := by
  constructor
  · intro h
    unfold Text.readInt? at h
    split at h
    all_goals
      obtain ⟨n, hn, rfl⟩ := Option.map_eq_some_iff.1 h
      obtain ⟨⟨hne, hds⟩, rfl⟩ := readNat?_eq_some.1 hn
      refine ⟨_, hne, hds, ?_⟩
    · exact .inl ⟨.inr rfl, rfl⟩
    · exact .inr ⟨rfl, rfl⟩
    · exact .inl ⟨.inl rfl, rfl⟩
  · rintro ⟨ds, hne, hds, ⟨rfl | rfl, rfl⟩ | ⟨rfl, rfl⟩⟩
    all_goals have hn := readNat?_eq_some.2 ⟨⟨hne, hds⟩, rfl⟩
    · -- the first digit is none of the signs
      unfold Text.readInt?
      split
      · simp at hds
      · simp at hds
      · simp [hn]
    · simp [Text.readInt?, hn]
    · simp [Text.readInt?, hn]

theorem int32Literal_iff {text : String} {n : Int32} :
    Int32Literal text n ↔ Text.readInt32? text = some n := by
  unfold Int32Literal Text.readInt32?
  simp only [Option.bind_eq_some_iff, int32?_eq_some, readInt?_eq_some, exists_eq_right']

end Grammar

namespace Expr

open Reader Grammar

variable {n : Nat} {t : Token} {ts us rest : List Token} {e left : Expr} {es : List Expr}

/-! ### What is read is derived -/

mutual

theorem operand_sound {ts rest : List Token} {e : Expr} (h : Reads operand ts e rest) :
    ∃ us, ts = us ++ rest ∧ Operand us e := by
  match ts with
  | [] => exact absurd h not_reads_operand_nil
  | t :: tail =>
    rw [reads_operand_cons] at h
    split at h
    · next hk =>
      obtain ⟨n, hn, rfl, rfl⟩ := h
      exact ⟨[t], rfl, .number hk (int32Literal_iff.2 hn)⟩
    · next hk =>
      obtain ⟨rfl, rfl⟩ := h
      exact ⟨[t], rfl, .boolean hk⟩
    · next hk =>
      obtain ⟨rfl, rfl⟩ := h
      exact ⟨[t], rfl, .string hk⟩
    · next hk =>
      obtain ⟨rfl, rfl⟩ := h
      exact ⟨[t], rfl, .color hk⟩
    · next hk =>
      obtain ⟨rfl, rfl⟩ := h
      exact ⟨[t], rfl, .name hk⟩
    · next hk =>
      obtain ⟨ht, a, ha, rfl⟩ := h
      obtain ⟨us, rfl, hus⟩ := operand_sound ha
      exact ⟨t :: us, rfl, .minus ⟨hk, ht⟩ hus⟩
    · next hk =>
      obtain ⟨ht, r, ha, hr⟩ := h
      obtain ⟨us, rfl, hus⟩ := phrase_sound ha
      exact ⟨t :: (us ++ [r]), by simp, .parentheses ⟨hk, ht⟩ hus hr⟩
    · next hk =>
      obtain ⟨l, mid, args, r, rfl, hl, hargs, hr, rfl⟩ := h
      obtain ⟨us, rfl, hus⟩ := arguments_sound hargs
      exact ⟨t :: l :: (us ++ [r]), by simp, .call hk hl hus hr⟩
    · exact h.elim
termination_by (ts.length, 0)

/-- **A phrase that is read is derived.** -/
theorem phrase_sound {n : Nat} {ts rest : List Token} {e : Expr} (h : Reads (phrase n) ts e rest) :
    ∃ us, ts = us ++ rest ∧ Phrase n us e := by
  match n with
  | 0 =>
    obtain ⟨us, rfl, hus⟩ := operand_sound (reads_phrase_zero.1 h)
    exact ⟨us, rfl, .operand hus⟩
  | n + 1 =>
    obtain ⟨a, mid, ha, hmid⟩ := reads_phrase_succ.1 h
    have hle := ha.length_le
    obtain ⟨us, rfl, hus⟩ := phrase_sound ha
    obtain ⟨vs, rfl, hvs⟩ := joined_sound hmid (.single hus)
    exact ⟨us ++ vs, by simp, hvs⟩
termination_by (ts.length, n + 1)
decreasing_by all_goals (simp only [Prod.lex_def, true_and]; omega)

/-- What is read after a phrase makes a longer one of it. -/
theorem joined_sound {n : Nat} {ts rest ls : List Token} {left e : Expr}
    (h : Reads (joined n left) ts e rest) (hl : Phrase (n + 1) ls left) :
    ∃ us, ts = us ++ rest ∧ Phrase (n + 1) (ls ++ us) e := by
  match ts with
  | [] =>
    obtain ⟨rfl, rfl⟩ := reads_joined_nil.1 h
    exact ⟨[], rfl, by simpa using hl⟩
  | t :: tail =>
    by_cases hop : ∃ op, Operator.ofToken? t = some op ∧ op.level = n
    · obtain ⟨op, ht, hn⟩ := hop
      obtain ⟨a, mid, ha, hmid⟩ := (reads_joined_of_sign ht hn).1 h
      have hle := ha.length_le
      obtain ⟨us, rfl, hus⟩ := phrase_sound ha
      have hsign : (t.kind, t.text, op) ∈ signs n := mem_signs.2 ⟨ofToken?_eq_some.1 ht, hn⟩
      obtain ⟨vs, rfl, hvs⟩ := joined_sound hmid (.more hl hsign hus)
      exact ⟨t :: (us ++ vs), by simp, by simpa using hvs⟩
    · have hno : ∀ op, Operator.ofToken? t = some op → op.level ≠ n :=
        fun op ht hn => hop ⟨op, ht, hn⟩
      obtain ⟨rfl, rfl⟩ := (reads_joined_of_not_sign hno).1 h
      exact ⟨[], rfl, by simpa using hl⟩
termination_by (ts.length, 0)

theorem arguments_sound {ts rest : List Token} {es : List Expr} (h : Reads arguments ts es rest) :
    ∃ us, ts = us ++ rest ∧ Arguments us es := by
  by_cases hclose : ∀ t ∈ ts.head?, ¬t.Is .parenthesis ")"
  · obtain ⟨a, mid, as, ha, has, rfl⟩ := (reads_arguments_of_not_close hclose).1 h
    have hle := ha.length_le
    obtain ⟨us, rfl, hus⟩ := phrase_sound ha
    obtain ⟨vs, rfl, hvs⟩ := moreArguments_sound has hus
    exact ⟨us ++ vs, by simp, .some hvs⟩
  · match ts with
    | [] => simp at hclose
    | t :: tail =>
      obtain ⟨rfl, rfl⟩ := (reads_arguments_of_close (by simpa using hclose)).1 h
      exact ⟨[], rfl, .none⟩
termination_by (ts.length, topLevel + 2)
decreasing_by all_goals (simp only [Prod.lex_def, true_and]; omega)

theorem moreArguments_sound {ts rest ls : List Token} {e : Expr} {es : List Expr}
    (h : Reads moreArguments ts es rest) (hl : Phrase 3 ls e) :
    ∃ us, ts = us ++ rest ∧ Listed (ls ++ us) (e :: es) := by
  match ts with
  | [] =>
    obtain ⟨rfl, rfl⟩ := reads_moreArguments_nil.1 h
    exact ⟨[], rfl, by simpa using .one hl⟩
  | t :: tail =>
    by_cases ht : t.Is .comma ","
    · obtain ⟨a, mid, as, ha, has, rfl⟩ := (reads_moreArguments_of_comma ht).1 h
      have hle := ha.length_le
      obtain ⟨us, rfl, hus⟩ := phrase_sound ha
      obtain ⟨vs, rfl, hvs⟩ := moreArguments_sound has hus
      exact ⟨t :: (us ++ vs), by simp, .cons hl ht hvs⟩
    · obtain ⟨rfl, rfl⟩ := (reads_moreArguments_of_not_comma ht).1 h
      exact ⟨[], rfl, by simpa using .one hl⟩
termination_by (ts.length, 0)

end

/-! ### What is derived is read -/

/-- The tokens do not begin with a sign that binds more tightly than those of the level. -/
def Stops (level : Nat) (ts : List Token) : Prop :=
  ∀ t ∈ ts.head?, ∀ op, Operator.ofToken? t = some op → level ≤ op.level

theorem Stops.mono {m : Nat} (h : Stops n ts) (hmn : m ≤ n) : Stops m ts :=
  fun t ht op hop => Nat.le_trans hmn (h t ht op hop)

/-- Nothing is joined to a phrase where the tokens after it do not go on with it. -/
theorem reads_joined_of_stops (h : Stops (n + 1) ts) : Reads (joined n e) ts e ts := by
  cases ts with
  | nil => exact reads_joined_nil.2 ⟨rfl, rfl⟩
  | cons t tail =>
    refine (reads_joined_of_not_sign fun op hop hn => ?_).2 ⟨rfl, rfl⟩
    have := h t rfl op hop
    omega

/-- A token that is no operator goes on with no phrase. -/
theorem stops_of_kind (h : t.kind ≠ .operator) (h' : t.kind ≠ .comparison) :
    Stops n (t :: ts) := by
  rintro u ⟨⟩ op hop
  obtain ⟨hk, -⟩ := ofToken?_eq_some.1 hop
  unfold Operator.kind at hk
  split at hk
  · exact absurd hk h'
  · exact absurd hk h

theorem stops_of_parenthesis {text : String} (h : t.Is .parenthesis text) : Stops n (t :: ts) :=
  stops_of_kind (by simp [h.1]) (by simp [h.1])

theorem stops_of_sign {op : Operator} (h : Operator.ofToken? t = some op) (hn : op.level = n) :
    Stops n (t :: ts) := by
  rintro u ⟨⟩ op' hop'
  rw [h] at hop'
  cases hop'
  exact Nat.le_of_eq hn.symm

/-- The tokens `ts` after a phrase `left` of a level make the phrase `e` of it and leave `rest`. -/
def Extends : Nat → Expr → List Token → Expr → List Token → Prop
  | 0, left, ts, e, rest => e = left ∧ rest = ts
  | n + 1, left, ts, e, rest => Stops n ts ∧ Reads (joined n left) ts e rest

theorem Stops.extends (h : Stops n ts) : Extends n e ts e ts := by
  cases n with
  | zero => exact ⟨rfl, rfl⟩
  | succ n => exact ⟨h.mono (Nat.le_succ n), reads_joined_of_stops h⟩

/-- No operand begins with a closing parenthesis. -/
theorem operand_head (h : Operand ts e) : ∃ t tail, ts = t :: tail ∧ ¬t.Is .parenthesis ")" := by
  cases h <;> refine ⟨_, _, rfl, ?_⟩ <;> simp_all [Token.Is]

theorem phrase_head {n : Nat} {ts : List Token} {e : Expr} (h : Phrase n ts e) :
    ∃ t tail, ts = t :: tail ∧ ¬t.Is .parenthesis ")" := by
  cases h with
  | operand h => exact operand_head h
  | single h => exact phrase_head h
  | more h _ _ =>
    obtain ⟨t, tail, rfl, ht⟩ := phrase_head h
    exact ⟨t, _, rfl, ht⟩

theorem listed_head (h : Listed ts es) : ∃ t tail, ts = t :: tail ∧ ¬t.Is .parenthesis ")" := by
  cases h with
  | one h => exact phrase_head h
  | cons h _ _ =>
    obtain ⟨t, tail, rfl, ht⟩ := phrase_head h
    exact ⟨t, _, rfl, ht⟩

-- The recursion is on the number of tokens, and on the level where that stays the same, as it is
-- in the readers.
mutual

/-- **An operand that is derived is read,** whatever comes after it. -/
theorem operand_complete {us : List Token} {e : Expr} (h : Operand us e) (rest : List Token) :
    Reads operand (us ++ rest) e rest := by
  cases h with
  | number hk hn =>
    rw [List.singleton_append, reads_operand_cons, hk]
    exact ⟨_, int32Literal_iff.1 hn, rfl, rfl⟩
  | boolean hk | string hk | color hk | name hk =>
    rw [List.singleton_append, reads_operand_cons, hk]
    exact ⟨rfl, rfl⟩
  | minus ht h =>
    rw [List.cons_append, reads_operand_cons, ht.1]
    exact ⟨ht.2, _, operand_complete h rest, rfl⟩
  | @parentheses l r us e hl h hr =>
    have hstop : Stops 3 (r :: rest) := stops_of_parenthesis hr
    have hus := phrase_complete h hstop.extends
    rw [List.cons_append, List.append_assoc, reads_operand_cons, hl.1]
    exact ⟨hl.2, r, hus, hr⟩
  | @call f l r us es hf hl h hr =>
    have hus := arguments_complete h hr rest
    rw [List.cons_append, List.cons_append, List.append_assoc, reads_operand_cons, hf]
    exact ⟨l, _, es, r, rfl, hl, hus, hr, rfl⟩
termination_by (us.length, 0)

/-- A phrase that is derived is read, with what the tokens after it make of it. -/
theorem phrase_complete {n : Nat} {us ts rest : List Token} {left e : Expr}
    (h : Phrase n us left) (ht : Extends n left ts e rest) :
    Reads (phrase n) (us ++ ts) e rest := by
  cases h with
  | operand h =>
    obtain ⟨rfl, rfl⟩ := ht
    exact reads_phrase_zero.2 (operand_complete h _)
  | single h =>
    obtain ⟨hstop, hjoin⟩ := ht
    exact reads_phrase_succ.2 ⟨_, _, phrase_complete h hstop.extends, hjoin⟩
  | @more n t us vs op a b h hsign h' =>
    obtain ⟨hstop, hjoin⟩ := ht
    obtain ⟨hop, hn⟩ := mem_signs.1 hsign
    have hop : Operator.ofToken? t = some op := ofToken?_eq_some.2 hop
    have hvs := phrase_complete h' hstop.extends
    have hjoin' := (reads_joined_of_sign hop hn).2 ⟨b, ts, hvs, hjoin⟩
    rw [List.append_assoc]
    exact phrase_complete h ⟨stops_of_sign hop hn, hjoin'⟩
termination_by (us.length, n + 1)

theorem arguments_complete {us : List Token} {es : List Expr} {r : Token} (h : Arguments us es)
    (hr : r.Is .parenthesis ")") (rest : List Token) :
    Reads arguments (us ++ r :: rest) es (r :: rest) := by
  cases h with
  | none => exact (reads_arguments_of_close hr).2 ⟨rfl, rfl⟩
  | some h =>
    refine (reads_arguments_of_not_close ?_).2 (listed_complete h hr rest)
    obtain ⟨t, tail, rfl, ht⟩ := listed_head h
    simpa using ht
termination_by (us.length, topLevel + 3)
decreasing_by
  subst_vars
  simp only [Prod.lex_def, true_and]
  omega

theorem listed_complete {us : List Token} {es : List Expr} {r : Token} (h : Listed us es)
    (hr : r.Is .parenthesis ")") (rest : List Token) :
    ∃ a mid as, Reads (phrase topLevel) (us ++ r :: rest) a mid ∧
      Reads moreArguments mid as (r :: rest) ∧ es = a :: as := by
  cases h with
  | @one us e h =>
    have hstop : Stops 3 (r :: rest) := stops_of_parenthesis hr
    have hcomma : ¬r.Is .comma "," := by simp [Token.Is, hr.1]
    exact ⟨e, r :: rest, [], phrase_complete h hstop.extends,
      (reads_moreArguments_of_not_comma hcomma).2 ⟨rfl, rfl⟩, rfl⟩
  | @cons t us vs e es h ht h' =>
    have hstop : Stops 3 (t :: (vs ++ r :: rest)) :=
      stops_of_kind (by simp [ht.1]) (by simp [ht.1])
    have hvs := listed_complete h' hr rest
    rw [List.append_assoc]
    exact ⟨e, _, es, phrase_complete h hstop.extends,
      (reads_moreArguments_of_comma ht).2 hvs, rfl⟩
termination_by (us.length, topLevel + 2)
decreasing_by
  all_goals
    subst_vars
    simp only [Prod.lex_def, true_and, topLevel, List.length_append, List.length_cons]
    omega

end

end Expr

end Easel
