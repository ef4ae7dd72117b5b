import Easel.Proofs.Grammar.Readings

/-!
# What readers accept

`r.Reads ts a rest` says that the reader `r` makes `a` of the front of the tokens `ts` and leaves
`rest`. The equations for what readers make of tokens turn into statements of what they accept: one
step after another is read by reading each (`Reading.andThen_eq_ok`).
-/

namespace Easel

open Reading

/-! ### Readers and how they are put together -/

namespace Reader

variable {α β : Type} {ts rest : List Token}

/-- The reader makes `a` of the front of the tokens and leaves `rest`. -/
def Reads (r : Reader α) (ts : List Token) (a : α) (rest : List Token) : Prop :=
  r.reading ts = .ok (a, rest)

/-- A reader never leaves more tokens than there were. -/
theorem Reads.length_le {r : Reader α} {a : α} (h : r.Reads ts a rest) :
    rest.length ≤ ts.length :=
  length_le_of_reading h

/-- A reading that is done. -/
theorem ok_eq_ok {a b : α} {mid : List Token} :
    (.ok (a, mid) : Reading α) = .ok (b, rest) ↔ b = a ∧ rest = mid := by
  simp [eq_comm]

@[simp] theorem reads_pure {a b : α} :
    (pure a : Reader α).Reads ts b rest ↔ b = a ∧ rest = ts := by
  rw [Reads, reading_pure, ok_eq_ok]

/-- One reader after another. -/
@[simp] theorem reads_bind {r : Reader α} {f : α → Reader β} {b : β} :
    (r >>= f).Reads ts b rest ↔ ∃ a mid, r.Reads ts a mid ∧ (f a).Reads mid b rest := by
  rw [Reads, reading_bind]
  exact andThen_eq_ok

@[simp] theorem not_reads_fail {c : Cause} {a : α} : ¬(fail c : Reader α).Reads ts a rest := by
  simp [Reads, reading_fail]

@[simp] theorem reads_kind {what : Wanted} {kinds : List Token.Kind} {t : Token} :
    (kind what kinds).Reads ts t rest ↔ ts = t :: rest ∧ t.kind ∈ kinds := by
  cases ts with
  | nil => simp [Reads, reading_kind_nil]
  | cons u us =>
    by_cases h : u.kind ∈ kinds
    · rw [Reads, reading_kind_of_mem h, ok_eq_ok]
      grind
    · rw [Reads, reading_kind_of_not_mem h]
      grind

@[simp] theorem reads_sign {k : Token.Kind} {text : String} {t : Token} :
    (sign k text).Reads ts t rest ↔ ts = t :: rest ∧ t.Is k text := by
  cases ts with
  | nil => simp [Reads, reading_sign_nil]
  | cons u us =>
    by_cases h : u.Is k text
    · rw [Reads, reading_sign_of_is h, ok_eq_ok]
      grind
    · rw [Reads, reading_sign_of_not_is h]
      grind

end Reader

/-! ### Readers of expressions -/

namespace Expr

open Reader

variable {t : Token} {ts tail rest : List Token} {e e' : Expr} {es : List Expr} {n : Nat}

theorem not_reads_operand_nil : ¬Reads operand [] e rest := by
  simp [Reads, reading_operand_nil]

/-- What an operand is, by the kind of its first token. -/
theorem reads_operand_cons :
    Reads operand (t :: tail) e rest ↔
      match t.kind with
      | .number => ∃ n, Text.readInt32? t.text = some n ∧ e = .num n ∧ rest = tail
      | .boolean => e = .bool (t.text = "true") ∧ rest = tail
      | .string => e = .text (Text.trim '"' t.text) ∧ rest = tail
      | .color => e = .text t.text ∧ rest = tail
      | .identifier => e = .var t.text ∧ rest = tail
      | .operator => t.text = "-" ∧ ∃ a, Reads operand tail a rest ∧ e = .binary .sub (.num 0) a
      | .parenthesis =>
        t.text = "(" ∧ ∃ r, Reads (phrase topLevel) tail e (r :: rest) ∧ r.Is .parenthesis ")"
      | .method => ∃ l mid args r, tail = l :: mid ∧ l.Is .parenthesis "(" ∧
          Reads arguments mid args (r :: rest) ∧ r.Is .parenthesis ")" ∧ e = .call t.text args
      | _ => False := by
  unfold Reads
  rw [reading_operand_cons]
  cases t.kind with
  | number =>
    cases Text.readInt32? t.text with
    | none => simp
    | some n => exact ok_eq_ok.trans (by simp)
  | boolean | string | color | identifier => exact ok_eq_ok
  | operator =>
    by_cases h : t.text = "-"
    · simp only [if_pos h, and_iff_right h, andThen_eq_ok, ok_eq_ok]
      constructor
      · rintro ⟨a, mid, ha, rfl, rfl⟩
        exact ⟨a, ha, rfl⟩
      · rintro ⟨a, ha, rfl⟩
        exact ⟨a, rest, ha, rfl, rfl⟩
    · simp [h]
  | parenthesis =>
    by_cases h : t.text = "("
    · simp only [if_pos h, and_iff_right h, andThen_eq_ok, ok_eq_ok]
      constructor
      · rintro ⟨a, mid, ha, r, mid', hr, rfl, rfl⟩
        obtain ⟨rfl, hclose⟩ := reads_sign.1 hr
        exact ⟨r, ha, hclose⟩
      · rintro ⟨r, ha, hclose⟩
        exact ⟨e, r :: rest, ha, r, rest, reads_sign.2 ⟨rfl, hclose⟩, rfl, rfl⟩
    · simp [h]
  | method =>
    simp only [andThen_eq_ok, ok_eq_ok]
    constructor
    · rintro ⟨l, mid, hl, args, mid', hargs, r, mid'', hr, rfl, rfl⟩
      obtain ⟨rfl, hopen⟩ := reads_sign.1 hl
      obtain ⟨rfl, hclose⟩ := reads_sign.1 hr
      exact ⟨l, mid, args, r, rfl, hopen, hargs, hclose, rfl⟩
    · rintro ⟨l, mid, args, r, rfl, hopen, hargs, hclose, rfl⟩
      exact ⟨l, mid, reads_sign.2 ⟨rfl, hopen⟩, args, r :: rest, hargs, r, rest,
        reads_sign.2 ⟨rfl, hclose⟩, rfl, rfl⟩
  | _ => simp

theorem reads_phrase_zero : Reads (phrase 0) ts e rest ↔ Reads operand ts e rest := by
  unfold Reads
  rw [reading_phrase_zero]

/-- A phrase is a phrase of the level below with what can be joined to it. -/
theorem reads_phrase_succ :
    Reads (phrase (n + 1)) ts e rest ↔
      ∃ a mid, Reads (phrase n) ts a mid ∧ Reads (joined n a) mid e rest := by
  unfold Reads
  rw [reading_phrase_succ]
  exact andThen_eq_ok

theorem reads_joined_nil : Reads (joined n e) [] e' rest ↔ e' = e ∧ rest = [] := by
  unfold Reads
  rw [reading_joined_nil, ok_eq_ok]

/-- After a sign of the level a further phrase is joined. -/
theorem reads_joined_of_sign {op : Operator} (h : Operator.ofToken? t = some op)
    (hn : op.level = n) :
    Reads (joined n e) (t :: tail) e' rest ↔
      ∃ a mid, Reads (phrase n) tail a mid ∧ Reads (joined n (.binary op e a)) mid e' rest := by
  unfold Reads
  rw [reading_joined_of_sign h hn]
  exact andThen_eq_ok

/-- Any other token ends the phrase. -/
theorem reads_joined_of_not_sign (h : ∀ op, Operator.ofToken? t = some op → op.level ≠ n) :
    Reads (joined n e) (t :: tail) e' rest ↔ e' = e ∧ rest = t :: tail := by
  unfold Reads
  rw [reading_joined_of_not_sign h, ok_eq_ok]

theorem reads_arguments_of_close (h : t.Is .parenthesis ")") :
    Reads arguments (t :: tail) es rest ↔ es = [] ∧ rest = t :: tail := by
  unfold Reads
  rw [reading_arguments_of_close h, ok_eq_ok]

/-- A list of one expression and of those after it. -/
theorem andThen_cons_eq_ok {x : Reading Expr} {k : List Token → Reading (List Expr)} :
    (x.andThen fun e mid => (k mid).andThen fun es rest => .ok (e :: es, rest)) = .ok (es, rest) ↔
      ∃ a mid as, x = .ok (a, mid) ∧ k mid = .ok (as, rest) ∧ es = a :: as := by
  simp only [andThen_eq_ok, ok_eq_ok]
  grind

theorem reads_arguments_of_not_close (h : ∀ t ∈ ts.head?, ¬t.Is .parenthesis ")") :
    Reads arguments ts es rest ↔
      ∃ a mid as, Reads (phrase topLevel) ts a mid ∧ Reads moreArguments mid as rest ∧
        es = a :: as := by
  unfold Reads
  rw [reading_arguments_of_not_close h]
  exact andThen_cons_eq_ok

theorem reads_moreArguments_nil : Reads moreArguments [] es rest ↔ es = [] ∧ rest = [] := by
  unfold Reads
  rw [reading_moreArguments_nil, ok_eq_ok]

theorem reads_moreArguments_of_comma (h : t.Is .comma ",") :
    Reads moreArguments (t :: tail) es rest ↔
      ∃ a mid as, Reads (phrase topLevel) tail a mid ∧ Reads moreArguments mid as rest ∧
        es = a :: as := by
  unfold Reads
  rw [reading_moreArguments_of_comma h]
  exact andThen_cons_eq_ok

theorem reads_moreArguments_of_not_comma (h : ¬t.Is .comma ",") :
    Reads moreArguments (t :: tail) es rest ↔ es = [] ∧ rest = t :: tail := by
  unfold Reads
  rw [reading_moreArguments_of_not_comma h, ok_eq_ok]

end Expr

end Easel
