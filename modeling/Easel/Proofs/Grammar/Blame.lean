import Easel.Proofs.Grammar.Program

/-!
# What a syntax error depends on

Tokens that are no program are refused with an error that blames one of them, or the end. What comes
after the blamed token makes no difference to the error. This is a statement about two runs, on
tokens that agree up to some place, and it is proved reader by reader (`LocalAt`). A reader that
succeeds has looked at the tokens that it takes and at the one after them, and at no others; a
reader that fails has looked at nothing beyond the token that is blamed. Both are kept when one
reader follows another (`LocalAt.bind`), since the one token that the first has looked at too early
is the first that the second takes or leaves.
-/

namespace Easel

variable {α β : Type} {ts : List Token}

/-! ### Locality -/

/-- The failure for a cause that blames the token `t`, with the tokens `tail` after it. That a
command is unknown is noticed one token later, after the parenthesis that is blamed for it. -/
def Cause.failure (cause : Cause) (t : Token) (tail : List Token) : Failure :=
  match cause with
  | .unknownCommand _ _ => ⟨cause, tail⟩
  | _ => ⟨cause, t :: tail⟩

/-- The cause can blame the token: an unknown command always blames its parenthesis. -/
def Cause.Blames : Cause → Token → Prop
  | .unknownCommand _ opening, t => opening = t
  | _, _ => True

/-- Something was wanted, and nothing was left. -/
def Failure.AtEnd (f : Failure) : Prop := f.rest = [] ∧ ∃ what, f.cause = .wanted what

/-- What is made of `ts` depends on no more tokens than it should. A success depends on the tokens
that are taken and on the first that is left. A failure for any other reason than that no token was
left depends on the tokens up to the one that is blamed. -/
structure LocalAt (run : List Token → Reading α) (ts : List Token) : Prop where
  reads : ∀ a rest, run ts = .ok (a, rest) → ∃ us, ts = us ++ rest ∧
    ∀ rest', rest'.head? = rest.head? → run (us ++ rest') = .ok (a, rest')
  fails : ∀ f, run ts = .error f → f.AtEnd ∨ ∃ us t tail, ts = us ++ t :: tail ∧
    f.cause.Blames t ∧ ∀ tail', run (us ++ t :: tail') = .error (f.cause.failure t tail')

namespace LocalAt

variable {run : List Token → Reading α} {t : Token} {tail : List Token}

theorem pure (a : α) (ts : List Token) : LocalAt (fun ts => .ok (a, ts)) ts where
  reads b rest h := by
    cases h
    exact ⟨[], rfl, fun _ _ => rfl⟩
  fails f h := by cases h

/-- Nothing is left, and nothing is needed. -/
theorem of_nil_ok {a : α} (h : run [] = .ok (a, [])) : LocalAt run [] where
  reads b rest hb := by
    rw [h] at hb
    cases hb
    refine ⟨[], rfl, fun rest' hrest' => ?_⟩
    rw [List.head?_nil, List.head?_eq_none_iff] at hrest'
    rw [hrest']
    exact h
  fails f hf := by
    rw [h] at hf
    cases hf

/-- Something is wanted, and nothing is left. -/
theorem of_nil_error {what : Wanted} (h : run [] = .error ⟨.wanted what, []⟩) :
    LocalAt run [] where
  reads a rest ha := by
    rw [h] at ha
    cases ha
  fails f hf := by
    rw [h] at hf
    cases hf
    exact .inl ⟨rfl, what, rfl⟩

/-- The first token is left. -/
theorem of_leave {a : α} (h : ∀ tail, run (t :: tail) = .ok (a, t :: tail)) :
    LocalAt run (t :: tail) where
  reads b rest hb := by
    rw [h] at hb
    cases hb
    refine ⟨[], rfl, fun rest' hrest' => ?_⟩
    obtain ⟨tail', rfl⟩ := List.head?_eq_some_iff.1 hrest'
    exact h tail'
  fails f hf := by
    rw [h] at hf
    cases hf

/-- The first token is blamed. -/
theorem of_refuse (cause : Cause) (hblames : cause.Blames t)
    (h : ∀ tail, run (t :: tail) = .error (cause.failure t tail)) : LocalAt run (t :: tail) where
  reads a rest ha := by
    rw [h] at ha
    cases ha
  fails f hf := by
    rw [h] at hf
    obtain rfl : cause.failure t tail = f := Except.error.inj hf
    have hcause : (cause.failure t tail).cause = cause := by cases cause <;> rfl
    rw [hcause]
    exact .inr ⟨[], t, tail, rfl, hblames, h⟩

/-- The first token is taken, and the rest is read in a way that may depend on it. -/
theorem of_take {k : List Token → Reading α} (h : ∀ tail, run (t :: tail) = k tail)
    (hk : LocalAt k tail) : LocalAt run (t :: tail) where
  reads a rest ha := by
    rw [h] at ha
    obtain ⟨us, rfl, hus⟩ := hk.reads a rest ha
    refine ⟨t :: us, rfl, fun rest' hrest' => ?_⟩
    rw [List.cons_append, h]
    exact hus rest' hrest'
  fails f hf := by
    rw [h] at hf
    refine (hk.fails f hf).imp_right ?_
    rintro ⟨us, u, tail, rfl, hblames, hus⟩
    refine ⟨t :: us, u, tail, rfl, hblames, fun tail' => ?_⟩
    rw [List.cons_append, h]
    exact hus tail'

/-- Nothing else matters than what is made of tokens that begin like the given ones. -/
theorem congr {run' : List Token → Reading α} (hrun : LocalAt run ts)
    (h : ∀ ts', ts'.head? = ts.head? → run' ts' = run ts') : LocalAt run' ts where
  reads a rest ha := by
    rw [h ts rfl] at ha
    obtain ⟨us, rfl, hus⟩ := hrun.reads a rest ha
    refine ⟨us, rfl, fun rest' hrest' => ?_⟩
    rw [h (us ++ rest') (by simp [List.head?_append, hrest'])]
    exact hus rest' hrest'
  fails f hf := by
    rw [h ts rfl] at hf
    refine (hrun.fails f hf).imp_right ?_
    rintro ⟨us, t, tail, rfl, hblames, hus⟩
    refine ⟨us, t, tail, rfl, hblames, fun tail' => ?_⟩
    rw [h (us ++ t :: tail') (by simp [List.head?_append])]
    exact hus tail'

/-- **One after the other.** -/
theorem bind {k : α → List Token → Reading β} (hrun : LocalAt run ts)
    (hk : ∀ a rest, run ts = .ok (a, rest) → LocalAt (k a) rest) :
    LocalAt (fun ts => (run ts).andThen k) ts := by
  cases h : run ts with
  | error f =>
    refine ⟨fun a rest ha => ?_, fun f' hf' => ?_⟩
    · simp only [h] at ha
      cases ha
    · simp only [h] at hf'
      cases hf'
      refine (hrun.fails f h).imp_right ?_
      rintro ⟨us, t, tail, hts, hblames, hus⟩
      refine ⟨us, t, tail, hts, hblames, fun tail' => ?_⟩
      simp only [hus tail']
      rfl
  | ok p =>
    obtain ⟨a, mid⟩ := p
    obtain ⟨us, rfl, hus⟩ := hrun.reads a mid h
    have hmid := hk a mid h
    -- what the second makes of other tokens, as long as they begin like those that it was given
    have hgo : ∀ mid', mid'.head? = mid.head? →
        (run (us ++ mid')).andThen k = k a mid' := by
      intro mid' hmid'
      rw [hus mid' hmid']
      rfl
    refine ⟨fun b rest hb => ?_, fun f hf => ?_⟩
    · simp only [hgo mid rfl] at hb
      obtain ⟨vs, rfl, hvs⟩ := hmid.reads b rest hb
      refine ⟨us ++ vs, by simp, fun rest' hrest' => ?_⟩
      rw [List.append_assoc, hgo (vs ++ rest') (by simp [List.head?_append, hrest'])]
      exact hvs rest' hrest'
    · simp only [hgo mid rfl] at hf
      refine (hmid.fails f hf).imp_right ?_
      rintro ⟨vs, t, tail, rfl, hblames, hvs⟩
      refine ⟨us ++ vs, t, tail, by simp, hblames, fun tail' => ?_⟩
      rw [List.append_assoc, hgo (vs ++ t :: tail') (by simp [List.head?_append])]
      exact hvs tail'

end LocalAt

namespace Reader

/-- The reader looks no further than it should, whatever it is given. -/
def Local (r : Reader α) : Prop := ∀ ts, LocalAt r.reading ts

theorem local_pure (a : α) : (pure a : Reader α).Local := LocalAt.pure a

theorem Local.bind {r : Reader α} {f : α → Reader β} (hr : r.Local) (hf : ∀ a, (f a).Local) :
    (r >>= f).Local := fun ts =>
  LocalAt.congr ((hr ts).bind fun a rest _ => hf a rest) fun _ _ => reading_bind r f

/-! ### Single tokens -/

theorem sign_local (k : Token.Kind) (text : String) : (sign k text).Local := by
  intro ts
  cases ts with
  | nil => exact .of_nil_error rfl
  | cons t tail =>
    by_cases h : t.Is k text
    · exact .of_take (reading_sign_of_is h) (.pure t tail)
    · exact .of_refuse (.wanted (.sign text)) trivial (reading_sign_of_not_is h)

theorem kind_local (what : Wanted) (kinds : List Token.Kind) : (kind what kinds).Local := by
  intro ts
  cases ts with
  | nil => exact .of_nil_error rfl
  | cons t tail =>
    by_cases h : t.kind ∈ kinds
    · exact .of_take (reading_kind_of_mem h) (.pure t tail)
    · exact .of_refuse (.wanted what) trivial (reading_kind_of_not_mem h)

end Reader

/-! ### Expressions -/

namespace Expr

open Reader

variable {t : Token} {tail : List Token} {n : Nat} {left : Expr}

/-- Any other token is an operand by itself, or it is blamed and left. -/
theorem reading_operand_of_other (hminus : ¬t.Is .operator "-") (hopening : ¬t.Is .parenthesis "(")
    (hmethod : t.kind ≠ .method) :
    (∃ e, ∀ tail, reading operand (t :: tail) = .ok (e, tail)) ∨
      ∃ cause : Cause, cause.Blames t ∧ (∀ tail, (cause.failure t tail).rest = t :: tail) ∧
        ∀ tail, reading operand (t :: tail) = .error (cause.failure t tail) := by
  simp only [reading_operand_cons]
  cases hk : t.kind with
  | number =>
    cases Text.readInt32? t.text with
    | some n => exact .inl ⟨.num n, fun _ => rfl⟩
    | none => exact .inr ⟨.numberTooLarge t.text, trivial, fun _ => rfl, fun _ => rfl⟩
  | boolean | string | color | identifier => exact .inl ⟨_, fun _ => rfl⟩
  | operator =>
    simp only [if_neg fun h => hminus ⟨hk, h⟩]
    exact .inr ⟨.wanted .operand, trivial, fun _ => rfl, fun _ => rfl⟩
  | parenthesis =>
    simp only [if_neg fun h => hopening ⟨hk, h⟩]
    exact .inr ⟨.wanted .operand, trivial, fun _ => rfl, fun _ => rfl⟩
  | method => exact absurd hk hmethod
  | comparison | assignment | brace | comma | label =>
    exact .inr ⟨.wanted .operand, trivial, fun _ => rfl, fun _ => rfl⟩

-- As in the readers, the recursion is on the number of tokens, and on the level where that stays
-- the same.
mutual

theorem operand_local (ts : List Token) : LocalAt (reading operand) ts := by
  match ts with
  | [] => exact .of_nil_error reading_operand_nil
  | t :: tail =>
    by_cases hminus : t.Is .operator "-"
    · exact .of_take (fun _ => reading_operand_of_minus hminus)
        ((operand_local tail).bind fun _ _ _ => .pure _ _)
    by_cases hopening : t.Is .parenthesis "("
    · exact .of_take (fun _ => reading_operand_of_opening hopening)
        ((phrase_local topLevel tail).bind fun _ rest _ =>
          (sign_local _ _ rest).bind fun _ _ _ => .pure _ _)
    by_cases hmethod : t.kind = .method
    · refine .of_take (fun _ => reading_operand_of_method hmethod)
        ((sign_local _ _ tail).bind fun _ rest hrest => ?_)
      have hle := length_le_of_reading hrest
      exact (arguments_local rest).bind fun _ rest _ =>
        (sign_local _ _ rest).bind fun _ _ _ => .pure _ _
    rcases reading_operand_of_other hminus hopening hmethod with ⟨e, h⟩ | ⟨cause, hblames, -, h⟩
    · exact .of_take h (.pure e tail)
    · exact .of_refuse cause hblames h
termination_by (ts.length, 0)

/-- **No reader of expressions looks further than it should.** -/
theorem phrase_local (n : Nat) (ts : List Token) : LocalAt (reading (phrase n)) ts := by
  match n with
  | 0 => exact (operand_local ts).congr fun _ _ => reading_phrase_zero
  | n + 1 =>
    refine LocalAt.congr ((phrase_local n ts).bind fun e rest hrest => ?_)
      fun _ _ => reading_phrase_succ
    have hle := length_le_of_reading hrest
    exact joined_local n e rest
termination_by (ts.length, n + 1)
decreasing_by all_goals (simp only [Prod.lex_def, true_and]; omega)

theorem joined_local (n : Nat) (left : Expr) (ts : List Token) :
    LocalAt (reading (joined n left)) ts := by
  match ts with
  | [] => exact .of_nil_ok reading_joined_nil
  | t :: tail =>
    by_cases hop : ∃ op, Operator.ofToken? t = some op ∧ op.level = n
    · obtain ⟨op, ht, hn⟩ := hop
      refine .of_take (fun _ => reading_joined_of_sign ht hn)
        ((phrase_local n tail).bind fun right rest hrest => ?_)
      have hle := length_le_of_reading hrest
      exact joined_local n (.binary op left right) rest
    · exact .of_leave fun _ => reading_joined_of_not_sign fun op ht hn => hop ⟨op, ht, hn⟩
termination_by (ts.length, 0)

theorem arguments_local (ts : List Token) : LocalAt (reading arguments) ts := by
  by_cases hclose : ∃ t ∈ ts.head?, t.Is .parenthesis ")"
  · obtain ⟨t, ht, hclose⟩ := hclose
    obtain ⟨tail, rfl⟩ := List.head?_eq_some_iff.1 ht
    exact .of_leave fun _ => reading_arguments_of_close hclose
  · refine LocalAt.congr ((phrase_local topLevel ts).bind fun e rest hrest => ?_) fun ts' hts' =>
      reading_arguments_of_not_close fun t ht h => hclose ⟨t, hts' ▸ ht, h⟩
    have hle := length_le_of_reading hrest
    exact (moreArguments_local rest).bind fun _ _ _ => .pure _ _
termination_by (ts.length, topLevel + 2)
decreasing_by all_goals (simp only [Prod.lex_def, true_and]; omega)

theorem moreArguments_local (ts : List Token) : LocalAt (reading moreArguments) ts := by
  match ts with
  | [] => exact .of_nil_ok reading_moreArguments_nil
  | t :: tail =>
    by_cases ht : t.Is .comma ","
    · refine .of_take (fun _ => reading_moreArguments_of_comma ht)
        ((phrase_local topLevel tail).bind fun e rest hrest => ?_)
      have hle := length_le_of_reading hrest
      exact (moreArguments_local rest).bind fun _ _ _ => .pure _ _
    · exact .of_leave fun _ => reading_moreArguments_of_not_comma ht
termination_by (ts.length, 0)

end

theorem reader_local : reader.Local := phrase_local topLevel

theorem nextReader_local : nextReader.Local := (sign_local _ _).bind fun _ => reader_local

end Expr

/-! ### Statements -/

namespace Stmt

open Reader

variable {name : String} {t : Token} {tail : List Token}

/-- The arguments of a command are read without looking too far, unless there is no such command. -/
theorem arguments_local (name : String) (opening : Token) :
    (arguments name opening).Local ∨
      arguments name opening = Reader.fail (.unknownCommand name opening) := by
  unfold arguments
  split
  · exact .inl (Expr.reader_local.bind fun _ => Expr.nextReader_local.bind fun _ => local_pure _)
  · exact .inl ((kind_local _ _).bind fun _ => local_pure _)
  · exact .inl (Expr.reader_local.bind fun _ => local_pure _)
  · exact .inl (Expr.reader_local.bind fun _ => Expr.nextReader_local.bind fun _ =>
      Expr.nextReader_local.bind fun _ => local_pure _)
  · exact .inl (Expr.reader_local.bind fun _ => Expr.nextReader_local.bind fun _ =>
      Expr.nextReader_local.bind fun _ => local_pure _)
  · exact .inl (Expr.reader_local.bind fun _ => Expr.nextReader_local.bind fun _ =>
      Expr.nextReader_local.bind fun _ => Expr.nextReader_local.bind fun _ =>
      Expr.nextReader_local.bind fun _ => local_pure _)
  · exact .inl (local_pure _)
  · exact .inr rfl

/-- The arguments and the parenthesis after them. -/
def argumentsAndClose (name : String) (opening : Token) : Reader Stmt := do
  let s ← arguments name opening
  let _ ← Reader.sign .parenthesis ")"
  return s

theorem reading_commandReader :
    (commandReader name).reading ts =
      ((sign .parenthesis "(").reading ts).andThen fun opening =>
        (argumentsAndClose name opening).reading :=
  reading_bind _ _

theorem commandReader_local (name : String) : (commandReader name).Local := by
  intro ts
  cases ts with
  | nil => exact .of_nil_error (reading_commandReader.trans rfl)
  | cons t tail =>
    by_cases ht : t.Is .parenthesis "("
    · have hgo : ∀ tail, (commandReader name).reading (t :: tail) =
          (argumentsAndClose name t).reading tail := by
        intro tail
        rw [reading_commandReader, reading_sign_of_is ht]
        rfl
      rcases arguments_local name t with hargs | hargs
      · exact .of_take hgo ((hargs.bind fun _ => (sign_local _ _).bind fun _ => local_pure _) tail)
      · refine .of_refuse (.unknownCommand name t) rfl fun tail => ?_
        rw [hgo, argumentsAndClose, hargs, reading_bind]
        rfl
    · refine .of_refuse (.wanted (.sign "(")) trivial fun tail => ?_
      rw [reading_commandReader, reading_sign_of_not_is ht]
      rfl

/-- The rest of a statement is read without looking too far, unless none begins with this token. -/
theorem readerAfter_local (t : Token) :
    (readerAfter t).Local ∨
      ∀ tail, (readerAfter t).reading tail = .error ⟨.wanted .statement, t :: tail⟩ := by
  unfold readerAfter
  cases t.kind with
  | method =>
    refine .inl ?_
    by_cases h : t.text = "GoTo"
    · simp only [if_pos h]
      exact (sign_local _ _).bind fun _ => (kind_local _ _).bind fun _ =>
        (sign_local _ _).bind fun _ => (sign_local _ _).bind fun _ =>
        Expr.reader_local.bind fun _ => (sign_local _ _).bind fun _ => local_pure _
    · simp only [if_neg h]
      exact commandReader_local t.text
  | identifier =>
    exact .inl ((kind_local _ _).bind fun _ => Expr.reader_local.bind fun _ => local_pure _)
  | label => exact .inl (local_pure _)
  | _ => exact .inr fun _ => rfl

end Stmt

/-! ### Programs -/

namespace Program

open Reader

variable {t : Token} {tail : List Token}

theorem eq_error_of_allTaken {x : Except Failure Program} {f : Failure}
    (h : allTaken x = .error f) : x = .error f :=
  allTaken_injective h

/-- What comes of the tokens after a statement comes of all of them. -/
theorem reading_statements_append {us rest : List Token} {s : Stmt} (h : Grammar.Statement us s)
    (hrest : Expr.Stops 3 rest) :
    allTaken (statements (us ++ rest)) =
      (allTaken (statements rest)).andThen fun ss rest => .ok (s :: ss, rest) := by
  obtain ⟨t, tail, hcons, hread⟩ := Stmt.readerAfter_complete h hrest
  rw [hcons, reading_statements_cons, hread]
  rfl

theorem statements_local (ts : List Token) : LocalAt (fun ts => allTaken (statements ts)) ts := by
  cases ts with
  | nil => exact .of_nil_ok (congrArg allTaken statements_nil)
  | cons t tail =>
    rcases Stmt.readerAfter_local t with h | h
    · refine .of_take (fun _ => reading_statements_cons) ((h tail).bind fun s rest hrest => ?_)
      have hle := length_le_of_reading hrest
      exact (statements_local rest).bind fun _ _ _ => .pure _ _
    · refine .of_refuse (.wanted .statement) trivial fun tail => ?_
      rw [reading_statements_cons, h]
      rfl
termination_by ts.length

theorem ofTokens?_local (ts : List Token) : LocalAt (fun ts => allTaken (ofTokens? ts)) ts := by
  cases ts with
  | nil => exact .of_nil_error rfl
  | cons t tail =>
    by_cases ht : t.Is .method "Spawn"
    · refine (statements_local (t :: tail)).congr fun ts' hts' => ?_
      obtain ⟨tail', rfl⟩ := List.head?_eq_some_iff.1 hts'
      simp [ofTokens?, ht]
    · refine .of_refuse (.wanted .start) trivial fun tail => ?_
      simp [ofTokens?, ht, allTaken, Except.map, Cause.failure]

/-! ### Errors -/

theorem ofTokens?_of_ofTokens {ts : List Token} {e : SyntaxError} (h : ofTokens ts = .error e) :
    ∃ f, ofTokens? ts = .error f ∧ e = f.locate ts := by
  unfold ofTokens at h
  cases hf : ofTokens? ts with
  | error f =>
    simp only [hf] at h
    cases h
    exact ⟨f, rfl, rfl⟩
  | ok p =>
    simp only [hf] at h
    cases h

theorem ofTokens_of_ofTokens? {ts : List Token} {f : Failure} (h : ofTokens? ts = .error f) :
    ofTokens ts = .error (f.locate ts) := by
  simp only [ofTokens, h]

/-- At the end of the tokens the error is in the line of the last of them. -/
theorem locate_of_atEnd {f : Failure} (h : f.AtEnd) (ts : List Token) :
    (∃ what : Wanted,
      (f.locate ts).message = s!"Expected {what.text}, but reached end of input") ∧
      (f.locate ts).line = (ts.getLast?.map Token.line).getD 1 := by
  obtain ⟨cause, rest⟩ := f
  obtain ⟨rfl, what, rfl⟩ : rest = [] ∧ ∃ what, cause = .wanted what := h
  exact ⟨⟨what, rfl⟩, rfl⟩

/-- The line is that of the token that is blamed, whatever comes after it. -/
theorem line_locate_failure {cause : Cause} (h : cause.Blames t) (tail ts : List Token) :
    ((cause.failure t tail).locate ts).line = t.line := by
  cases cause with
  | unknownCommand name opening => exact congrArg Token.line h
  | _ => rfl

theorem message_locate_failure (cause : Cause) (t : Token) (tail tail' ts ts' : List Token) :
    ((cause.failure t tail).locate ts).message = ((cause.failure t tail').locate ts').message := by
  cases cause with
  | _ => rfl

/-- Tokens that agree with others up to some token go on differently after it at most. -/
theorem exists_eq_append_of_agree {us ts' : List Token}
    (h : ∀ j ≤ us.length, ts'[j]? = (us ++ t :: tail)[j]?) : ∃ tail', ts' = us ++ t :: tail' := by
  have hprefix : us ++ [t] <+: ts' := by
    refine List.prefix_iff_getElem?.2 fun j hj => ?_
    rw [List.length_append, List.length_singleton] at hj
    rw [h j (Nat.le_of_lt_succ hj), List.append_cons, List.getElem?_append_left (by simpa using hj),
      List.getElem?_eq_getElem]
  obtain ⟨tail', rfl⟩ := hprefix
  exact ⟨tail', by simp⟩

/-- **A syntax error depends on nothing after the token that is blamed.** Let tokens be refused.
Then either the end was reached too early, and the error is in the line of the last token, or in the
first line if there is none; or the error is in the line of one of the tokens, and all tokens that
agree with the given ones up to that one are refused with the same error. -/
theorem error_depends_on_tokens_before {ts : List Token} {e : SyntaxError}
    (h : ofTokens ts = .error e) :
    ((∃ what : Wanted, e.message = s!"Expected {what.text}, but reached end of input") ∧
        (∀ t, ts.getLast? = some t → e.line = t.line) ∧ (ts = [] → e.line = 1)) ∨
      ∃ (i : Nat) (t : Token), ts[i]? = some t ∧ e.line = t.line ∧
        ∀ ts' : List Token, (∀ j ≤ i, ts'[j]? = ts[j]?) →
          ∃ e', ofTokens ts' = .error e' ∧ e'.line = e.line ∧ e'.message = e.message := by
  obtain ⟨f, hf, rfl⟩ := ofTokens?_of_ofTokens h
  have hrefused : allTaken (ofTokens? ts) = .error f := congrArg allTaken hf
  rcases (ofTokens?_local ts).fails f hrefused with hend | ⟨us, t, tail, rfl, hblames, hlocal⟩
  · obtain ⟨hmessage, hline⟩ := locate_of_atEnd hend ts
    refine .inl ⟨hmessage, fun t ht => ?_, ?_⟩
    · rw [hline, ht]
      rfl
    · rintro rfl
      exact hline
  · have hrefuse : ∀ tail', ofTokens? (us ++ t :: tail') = .error (f.cause.failure t tail') :=
      fun tail' => eq_error_of_allTaken (hlocal tail')
    have hfail : f = f.cause.failure t tail := Except.error.inj (hf.symm.trans (hrefuse tail))
    have hline := line_locate_failure hblames
    rw [hfail, hline]
    refine .inr ⟨us.length, t, by simp, rfl, fun ts' hagree => ?_⟩
    obtain ⟨tail', rfl⟩ := exists_eq_append_of_agree hagree
    exact ⟨_, ofTokens_of_ofTokens? (hrefuse tail'), hline _ _, message_locate_failure _ _ _ _ _ _⟩

/-- The tokens of `Spawn(0, -1)`, of a function in the place of a command in the second line, and of
a label in the third. -/
def misplaced : List Token :=
  placing ++ [⟨.method, "GetActualX", ⟨13, 2, 1⟩⟩, ⟨.parenthesis, "(", ⟨23, 2, 11⟩⟩,
    ⟨.label, "end:", ⟨25, 3, 1⟩⟩]

/-- The error for them, which blames the parenthesis and was noticed after it. -/
def unknownCommand : SyntaxError where
  line := 2
  cause := .unknownCommand "GetActualX" ⟨.parenthesis, "(", ⟨23, 2, 11⟩⟩
  found? := some ⟨.label, "end:", ⟨25, 3, 1⟩⟩

theorem ofTokens_misplaced : ofTokens misplaced = .error unknownCommand := by
  have hspawn : ofTokens? misplaced = statements misplaced := rfl
  have hstatements : allTaken (statements misplaced) =
      .error ⟨unknownCommand.cause, [⟨.label, "end:", ⟨25, 3, 1⟩⟩]⟩ := by
    rw [misplaced, reading_statements_append statement_placing
        (Expr.stops_of_kind (by decide) (by decide)),
      reading_statements_cons, Stmt.readerAfter_command rfl (by decide),
      Stmt.reading_commandReader]
    rfl
  exact ofTokens_of_ofTokens? (hspawn.trans (eq_error_of_allTaken hstatements))

/-- The label after the blamed parenthesis, or whatever else stands there, makes no difference. -/
theorem error_depends_on_tokens_before_misplaced :
    ofTokens misplaced = .error unknownCommand ∧
      ∃ (i : Nat) (t : Token), misplaced[i]? = some t ∧ unknownCommand.line = t.line ∧
        ∀ ts' : List Token, (∀ j ≤ i, ts'[j]? = misplaced[j]?) →
          ∃ e', ofTokens ts' = .error e' ∧ e'.line = unknownCommand.line ∧
            e'.message = unknownCommand.message := by
  refine ⟨ofTokens_misplaced,
    (error_depends_on_tokens_before ofTokens_misplaced).resolve_left ?_⟩
  -- the error is not in the line of the last token
  rintro ⟨-, hlast, -⟩
  exact absurd (hlast _ rfl) (by decide)

end Program

end Easel
