import Easel.Program.Parser

/-!
# What readers make of tokens

A reader returns with the tokens that are left the proof that they are no more than there were. Here
that proof is left out, so that what a reader makes of tokens (`Reader.reading`) can be compared,
rewritten and put together (`Reading.andThen`). Each way to build a reader has an equation for what
it makes of tokens, and so has each of the readers of expressions, case by case of the first token.
The proofs about the grammar go through these equations and never open a reader of expressions.
-/

namespace Easel

/-! ### Readings -/

/-- What is made of tokens: a failure, or a value and the tokens that are left. -/
abbrev Reading (α : Type) := Except Failure (α × List Token)

variable {α β : Type} {ts us : List Token}

namespace Reading

/-- What comes of the value and of the tokens that are left, if there are any. -/
def andThen (x : Reading α) (k : α → List Token → Reading β) : Reading β :=
  match x with
  | .error f => .error f
  | .ok (a, rest) => k a rest

theorem andThen_ok (x : Reading α) : (x.andThen fun a rest => .ok (a, rest)) = x := by
  cases x with
  | error f => rfl
  | ok p => rfl

theorem andThen_assoc {γ : Type} (x : Reading α) (f : α → List Token → Reading β)
    (g : β → List Token → Reading γ) :
    (x.andThen f).andThen g = x.andThen fun a rest => (f a rest).andThen g := by
  cases x with
  | error e => rfl
  | ok p => rfl

/-- A value is made in two steps if it is made in each. -/
theorem andThen_eq_ok {x : Reading α} {k : α → List Token → Reading β} {b : β}
    {rest : List Token} :
    x.andThen k = .ok (b, rest) ↔ ∃ a mid, x = .ok (a, mid) ∧ k a mid = .ok (b, rest) := by
  cases x with
  | error f => simp [andThen]
  | ok p =>
    constructor
    · intro h
      exact ⟨p.1, p.2, rfl, h⟩
    · rintro ⟨a, mid, hp, h⟩
      cases hp
      exact h

/-- The reading without the bound on the number of tokens that are left. -/
def ofParsed (x : Except Failure (Parsed α ts)) : Reading α :=
  x.map fun p => (p.value, p.rest)

end Reading

open Reading

namespace Reader

/-- What the reader makes of tokens. -/
def reading (r : Reader α) (ts : List Token) : Reading α := .ofParsed (r ts)

theorem length_le_of_reading {r : Reader α} {a : α} {rest : List Token}
    (h : r.reading ts = .ok (a, rest)) : rest.length ≤ ts.length := by
  unfold reading ofParsed at h
  cases hr : r ts with
  | error f =>
    rw [hr] at h
    cases h
  | ok p =>
    rw [hr] at h
    cases h
    exact p.length_le

end Reader

/-- What is made of the tokens that a reader leaves. -/
theorem Reading.ofParsed_bind {r : Reader α} {f : Parsed α ts → Except Failure (Parsed β us)}
    {k : α → List Token → Reading β} (h : ∀ p, ofParsed (f p) = k p.value p.rest) :
    ofParsed (r ts >>= f) = (r.reading ts).andThen k := by
  unfold Reader.reading
  cases r ts with
  | error e => rfl
  | ok p => exact h p

namespace Reader

theorem reading_pure (a : α) : (pure a : Reader α).reading ts = .ok (a, ts) := rfl

theorem reading_fail (cause : Cause) : (fail cause : Reader α).reading ts = .error ⟨cause, ts⟩ :=
  rfl

theorem reading_bind (r : Reader α) (f : α → Reader β) :
    (r >>= f).reading ts = (r.reading ts).andThen fun a => (f a).reading := by
  change ofParsed (Reader.bind r f ts) = _
  cases hr : r ts with
  | error e =>
    simp only [Reader.bind, reading, hr]
    rfl
  | ok p =>
    obtain ⟨a, rest, hle⟩ := p
    cases hf : f a rest with
    | error e =>
      simp only [Reader.bind, reading, hr, hf]
      exact (congrArg ofParsed hf).symm
    | ok q =>
      simp only [Reader.bind, reading, hr, hf]
      exact (congrArg ofParsed hf).symm

/-! ### Single tokens -/

variable {k : Token.Kind} {text : String} {what : Wanted} {kinds : List Token.Kind} {t : Token}

theorem reading_sign_nil : (sign k text).reading [] = .error ⟨.wanted (.sign text), []⟩ := rfl

theorem reading_sign_of_is (h : t.Is k text) (tail : List Token) :
    (sign k text).reading (t :: tail) = .ok (t, tail) := by
  simp [reading, sign, h, ofParsed, Except.map]

theorem reading_sign_of_not_is (h : ¬t.Is k text) (tail : List Token) :
    (sign k text).reading (t :: tail) = .error ⟨.wanted (.sign text), t :: tail⟩ := by
  simp [reading, sign, h, ofParsed, Except.map]

theorem reading_kind_nil : (kind what kinds).reading [] = .error ⟨.wanted what, []⟩ := rfl

theorem reading_kind_of_mem (h : t.kind ∈ kinds) (tail : List Token) :
    (kind what kinds).reading (t :: tail) = .ok (t, tail) := by
  simp [reading, kind, h, ofParsed, Except.map]

theorem reading_kind_of_not_mem (h : t.kind ∉ kinds) (tail : List Token) :
    (kind what kinds).reading (t :: tail) = .error ⟨.wanted what, t :: tail⟩ := by
  simp [reading, kind, h, ofParsed, Except.map]

end Reader

/-! ### Expressions -/

namespace Expr

open Reader

variable {t : Token} {tail : List Token} {n : Nat} {left : Expr}

theorem reading_operand_nil : reading operand [] = .error ⟨.wanted .expression, []⟩ := by
  change ofParsed (operand []) = _
  rw [operand]
  rfl

/-- What an operand is, by the kind of its first token. -/
theorem reading_operand_cons :
    reading operand (t :: tail) =
      match t.kind with
      | .number =>
        match Text.readInt32? t.text with
        | some n => .ok (.num n, tail)
        | none => .error ⟨.numberTooLarge t.text, t :: tail⟩
      | .boolean => .ok (.bool (t.text = "true"), tail)
      | .string => .ok (.text (Text.trim '"' t.text), tail)
      | .color => .ok (.text t.text, tail)
      | .identifier => .ok (.var t.text, tail)
      | .operator =>
        if t.text = "-" then
          (reading operand tail).andThen fun e rest => .ok (.binary .sub (.num 0) e, rest)
        else .error ⟨.wanted .operand, t :: tail⟩
      | .parenthesis =>
        if t.text = "(" then
          (reading (phrase topLevel) tail).andThen fun e rest =>
            ((sign .parenthesis ")").reading rest).andThen fun _ rest => .ok (e, rest)
        else .error ⟨.wanted .operand, t :: tail⟩
      | .method =>
        ((sign .parenthesis "(").reading tail).andThen fun _ rest =>
          (reading arguments rest).andThen fun args rest =>
            ((sign .parenthesis ")").reading rest).andThen fun _ rest =>
              .ok (.call t.text args, rest)
      | _ => .error ⟨.wanted .operand, t :: tail⟩ := by
  change ofParsed (operand (t :: tail)) = _
  rw [operand]
  cases t.kind with
  | number =>
    cases Text.readInt32? t.text with
    | some n => rfl
    | none => rfl
  | operator =>
    by_cases h : t.text = "-"
    · simp only [if_pos h]
      exact ofParsed_bind fun _ => rfl
    · simp only [if_neg h]
      rfl
  | parenthesis =>
    by_cases h : t.text = "("
    · simp only [if_pos h]
      exact ofParsed_bind fun _ => ofParsed_bind fun _ => rfl
    · simp only [if_neg h]
      rfl
  | method => exact ofParsed_bind fun _ => ofParsed_bind fun _ => ofParsed_bind fun _ => rfl
  | _ => rfl

theorem reading_operand_of_minus (h : t.Is .operator "-") :
    reading operand (t :: tail) =
      (reading operand tail).andThen fun e rest => .ok (.binary .sub (.num 0) e, rest) := by
  rw [reading_operand_cons, h.1]
  exact if_pos h.2

theorem reading_operand_of_opening (h : t.Is .parenthesis "(") :
    reading operand (t :: tail) =
      (reading (phrase topLevel) tail).andThen fun e rest =>
        ((sign .parenthesis ")").reading rest).andThen fun _ rest => .ok (e, rest) := by
  rw [reading_operand_cons, h.1]
  exact if_pos h.2

theorem reading_operand_of_method (h : t.kind = .method) :
    reading operand (t :: tail) =
      ((sign .parenthesis "(").reading tail).andThen fun _ rest =>
        (reading arguments rest).andThen fun args rest =>
          ((sign .parenthesis ")").reading rest).andThen fun _ rest =>
            .ok (.call t.text args, rest) := by
  rw [reading_operand_cons, h]

theorem reading_phrase_zero : reading (phrase 0) ts = reading operand ts := by
  change ofParsed (phrase 0 ts) = _
  rw [phrase]
  rfl

/-- A phrase is a phrase of the level below with what can be joined to it. -/
theorem reading_phrase_succ :
    reading (phrase (n + 1)) ts =
      (reading (phrase n) ts).andThen fun e => reading (joined n e) := by
  change ofParsed (phrase (n + 1) ts) = _
  rw [phrase]
  exact ofParsed_bind fun _ => (ofParsed_bind fun _ => rfl).trans (andThen_ok _)

theorem reading_joined_nil : reading (joined n left) [] = .ok (left, []) := by
  change ofParsed (joined n left []) = _
  rw [joined]
  rfl

/-- After a sign of the level a further phrase is joined. -/
theorem reading_joined_of_sign {op : Operator} (h : Operator.ofToken? t = some op)
    (hn : op.level = n) :
    reading (joined n left) (t :: tail) =
      (reading (phrase n) tail).andThen fun right =>
        reading (joined n (.binary op left right)) := by
  change ofParsed (joined n left (t :: tail)) = _
  rw [joined, h]
  simp only [if_pos hn]
  exact ofParsed_bind fun _ => (ofParsed_bind fun _ => rfl).trans (andThen_ok _)

/-- Any other token ends the phrase. -/
theorem reading_joined_of_not_sign (h : ∀ op, Operator.ofToken? t = some op → op.level ≠ n) :
    reading (joined n left) (t :: tail) = .ok (left, t :: tail) := by
  change ofParsed (joined n left (t :: tail)) = _
  rw [joined]
  cases ht : Operator.ofToken? t with
  | none => rfl
  | some op =>
    simp only [if_neg (h op ht)]
    rfl

theorem reading_arguments_of_close (h : t.Is .parenthesis ")") :
    reading arguments (t :: tail) = .ok ([], t :: tail) := by
  change ofParsed (arguments (t :: tail)) = _
  rw [arguments, if_pos (by simpa using h)]
  rfl

theorem reading_arguments_of_not_close (h : ∀ t ∈ ts.head?, ¬t.Is .parenthesis ")") :
    reading arguments ts =
      (reading (phrase topLevel) ts).andThen fun e rest =>
        (reading moreArguments rest).andThen fun es rest => .ok (e :: es, rest) := by
  have hany : ¬(ts.head?.any fun t => t.Is .parenthesis ")") = true := by
    cases ts with
    | nil => simp
    | cons t tail => simpa using h t rfl
  change ofParsed (arguments ts) = _
  rw [arguments, if_neg hany]
  exact ofParsed_bind fun _ => ofParsed_bind fun _ => rfl

theorem reading_moreArguments_nil : reading moreArguments [] = .ok ([], []) := by
  change ofParsed (moreArguments []) = _
  rw [moreArguments]
  rfl

theorem reading_moreArguments_of_comma (h : t.Is .comma ",") :
    reading moreArguments (t :: tail) =
      (reading (phrase topLevel) tail).andThen fun e rest =>
        (reading moreArguments rest).andThen fun es rest => .ok (e :: es, rest) := by
  change ofParsed (moreArguments (t :: tail)) = _
  rw [moreArguments, if_pos h]
  exact ofParsed_bind fun _ => ofParsed_bind fun _ => rfl

theorem reading_moreArguments_of_not_comma (h : ¬t.Is .comma ",") :
    reading moreArguments (t :: tail) = .ok ([], t :: tail) := by
  change ofParsed (moreArguments (t :: tail)) = _
  rw [moreArguments, if_neg h]
  rfl

end Expr

/-! ### Programs -/

namespace Program

variable {t : Token} {tail : List Token}

/-- Statements as what is made of all tokens. -/
def allTaken (x : Except Failure Program) : Reading Program := x.map fun p => (p, [])

theorem allTaken_eq_ok {x : Except Failure Program} {p : Program} {rest : List Token} :
    allTaken x = .ok (p, rest) ↔ x = .ok p ∧ rest = [] := by
  cases x with
  | error f => simp [allTaken, Except.map]
  | ok q => simp [allTaken, Except.map, eq_comm]

theorem allTaken_injective : Function.Injective allTaken := by
  intro x y h
  cases x <;> cases y <;> cases h <;> rfl

theorem statements_nil : statements [] = .ok [] := by
  rw [statements]

/-- The statements are the first one and those of the tokens that it leaves. -/
theorem reading_statements_cons :
    allTaken (statements (t :: tail)) =
      ((Stmt.readerAfter t).reading tail).andThen fun s rest =>
        (allTaken (statements rest)).andThen fun ss rest => .ok (s :: ss, rest) := by
  rw [statements]
  unfold Reader.reading
  cases Stmt.readerAfter t tail with
  | error f => rfl
  | ok p =>
    obtain ⟨s, rest, hle⟩ := p
    change allTaken (statements rest >>= fun ss => .ok (s :: ss)) =
      (allTaken (statements rest)).andThen _
    cases statements rest with
    | error f => rfl
    | ok ss => rfl

end Program

end Easel
