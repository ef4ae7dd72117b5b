import Easel.Proofs.Grammar.Blame
import Mathlib.Order.Bounds.Basic

/-!
# Where tokens stop being the beginning of a program

Tokens are viable if some program begins with them. A reader that goes on as long as it can should
fail at the first token that makes the tokens read so far no longer viable. What comes after the
token that is blamed makes no difference, so that token is always one too many; it remains to see
that what was read before it can be completed.

This is proved reader by reader (`Completable`). Where one reader follows another, either the first
fails, and what completes it is followed by anything that the second could read; or the second fails
on what the first has left, and what completes the second completes both.

There is one exception. The name of a command is looked at only after the parenthesis behind it, so
that a name that no command has is read as if a command could go on with it, and the token after it
is blamed (`Program.Offending`).
-/

namespace Easel

open Grammar Reader

variable {α β : Type} {ts : List Token}

/-! ### Completions -/

/-- If the run fails, the tokens before the place of failure can be completed to what stands for a
value by `G`. -/
def Completable (run : List Token → Reading α) (G : List Token → α → Prop) (ts : List Token) :
    Prop :=
  ∀ f, run ts = .error f → ∃ us vs a, ts = us ++ f.rest ∧ G (us ++ vs) a

namespace Completable

variable {run : List Token → Reading α} {G : List Token → α → Prop} {H : List Token → β → Prop}
  {t : Token} {tail : List Token}

theorem of_ok {p : α × List Token} (h : run ts = .ok p) : Completable run G ts := by
  intro f hf
  rw [h] at hf
  cases hf

/-- Nothing is taken. -/
theorem of_refuse {f : Failure} (h : run ts = .error f) (hrest : f.rest = ts)
    (hG : ∃ us a, G us a) : Completable run G ts := by
  intro f' hf'
  rw [h] at hf'
  cases hf'
  obtain ⟨us, a, ha⟩ := hG
  exact ⟨[], us, a, hrest.symm, ha⟩

/-- The first token is taken. -/
theorem of_take {k : List Token → Reading α} (h : run (t :: tail) = k tail)
    (hk : Completable k (fun us => G (t :: us)) tail) : Completable run G (t :: tail) := by
  intro f hf
  rw [h] at hf
  obtain ⟨us, vs, a, rfl, ha⟩ := hk f hf
  exact ⟨t :: us, vs, a, rfl, ha⟩

theorem congr {run' : List Token → Reading α} (hrun : Completable run G ts)
    (h : run' ts = run ts) : Completable run' G ts := by
  intro f hf
  rw [h] at hf
  exact hrun f hf

theorem mono {G' : List Token → α → Prop} (hrun : Completable run G ts)
    (h : ∀ us a, G us a → G' us a) : Completable run G' ts := by
  intro f hf
  obtain ⟨us, vs, a, hts, ha⟩ := hrun f hf
  exact ⟨us, vs, a, hts, h _ a ha⟩

/-- Another value is made of the value. -/
theorem map {g : α → β} (hrun : Completable run G ts) (h : ∀ us a, G us a → H us (g a)) :
    Completable (fun ts => (run ts).andThen fun a rest => .ok (g a, rest)) H ts := by
  intro f hf
  cases hrunts : run ts with
  | error f' =>
    simp only [hrunts] at hf
    cases hf
    obtain ⟨us, vs, a, hts, ha⟩ := hrun f hrunts
    exact ⟨us, vs, g a, hts, h _ a ha⟩
  | ok p =>
    simp only [hrunts] at hf
    cases hf

/-- **One after the other.** -/
theorem bind {k : α → List Token → Reading β} (hrun : Completable run G ts)
    (hfails : ∀ us a, G us a → ∃ vs b, H (us ++ vs) b)
    (hreads : ∀ a rest, run ts = .ok (a, rest) →
      ∃ us, ts = us ++ rest ∧ Completable (k a) (fun vs => H (us ++ vs)) rest) :
    Completable (fun ts => (run ts).andThen k) H ts := by
  intro f hf
  cases hrunts : run ts with
  | error f' =>
    simp only [hrunts] at hf
    cases hf
    obtain ⟨us, vs, a, hts, ha⟩ := hrun f hrunts
    obtain ⟨ws, b, hb⟩ := hfails _ a ha
    exact ⟨us, vs ++ ws, b, hts, by simpa using hb⟩
  | ok p =>
    obtain ⟨a, mid⟩ := p
    simp only [hrunts] at hf
    obtain ⟨us, rfl, hk⟩ := hreads a mid hrunts
    obtain ⟨us', vs, b, hmid, hb⟩ := hk f hf
    exact ⟨us ++ us', vs, b, by rw [hmid, List.append_assoc], by simpa using hb⟩

end Completable

namespace Reader

/-- What the reader takes stands for its value by `G`, and where it fails, what it has taken can be
completed to such tokens. -/
structure Follows (r : Reader α) (G : List Token → α → Prop) : Prop where
  sound : ∀ ts a rest, r.reading ts = .ok (a, rest) → ∃ us, ts = us ++ rest ∧ G us a
  completable : ∀ ts, Completable r.reading G ts

namespace Follows

variable {r : Reader α} {f : α → Reader β} {G : List Token → α → Prop}
  {H : List Token → β → Prop}

/-- There are tokens that the reader could take: what it makes of no tokens shows some. -/
theorem exists_language (hr : r.Follows G) : ∃ us a, G us a := by
  cases h : r.reading [] with
  | error f =>
    obtain ⟨us, vs, a, -, ha⟩ := hr.completable [] f h
    exact ⟨us ++ vs, a, ha⟩
  | ok p =>
    obtain ⟨us, -, hus⟩ := hr.sound [] p.1 p.2 h
    exact ⟨us, p.1, hus⟩

theorem pure {a : α} (h : G [] a) : (Pure.pure a : Reader α).Follows G where
  sound ts b rest hb := by
    cases hb
    exact ⟨[], rfl, h⟩
  completable ts := .of_ok rfl

theorem bind (hr : r.Follows G)
    (hf : ∀ us a, G us a → (f a).Follows fun vs => H (us ++ vs)) : (r >>= f).Follows H where
  sound ts b rest hb := by
    obtain ⟨a, mid, ha, hmid⟩ := reads_bind.1 hb
    obtain ⟨us, rfl, hus⟩ := hr.sound ts a mid ha
    obtain ⟨vs, rfl, hvs⟩ := (hf us a hus).sound mid b rest hmid
    exact ⟨us ++ vs, by simp, hvs⟩
  completable ts := by
    refine Completable.congr ((hr.completable ts).bind ?_ ?_) (reading_bind r f)
    · intro us a ha
      exact (hf us a ha).exists_language
    · intro a rest ha
      obtain ⟨us, hts, hus⟩ := hr.sound ts a rest ha
      exact ⟨us, hts, (hf us a hus).completable rest⟩

end Follows

/-! ### Single tokens -/

/-- The reader takes one token with a certain property, or fails where it stands. -/
theorem follows_of_token {r : Reader Token} {P : Token → Prop} (hP : ∃ t, P t)
    (htake : ∀ t tail, P t → r.reading (t :: tail) = .ok (t, tail))
    (hrefuse : ∀ ts, (∀ t ∈ ts.head?, ¬P t) → ∃ cause, r.reading ts = .error ⟨cause, ts⟩) :
    r.Follows fun us t => us = [t] ∧ P t := by
  have hcases : ∀ ts, (∃ t tail, ts = t :: tail ∧ P t ∧ r.reading ts = .ok (t, tail)) ∨
      ∃ cause, r.reading ts = .error ⟨cause, ts⟩ := by
    intro ts
    by_cases h : ∃ t ∈ ts.head?, P t
    · obtain ⟨t, ht, hPt⟩ := h
      obtain ⟨tail, rfl⟩ := List.head?_eq_some_iff.1 ht
      exact .inl ⟨t, tail, rfl, hPt, htake t tail hPt⟩
    · exact .inr (hrefuse ts fun t ht hPt => h ⟨t, ht, hPt⟩)
  constructor
  · intro ts t rest h
    rcases hcases ts with ⟨t', tail, rfl, hPt, h'⟩ | ⟨cause, h'⟩
    · cases h'.symm.trans h
      exact ⟨[t], rfl, rfl, hPt⟩
    · cases h'.symm.trans h
  · intro ts
    rcases hcases ts with ⟨t, tail, -, -, h⟩ | ⟨cause, h⟩
    · exact .of_ok h
    · obtain ⟨t, hPt⟩ := hP
      exact .of_refuse h rfl ⟨[t], t, rfl, hPt⟩

theorem sign_follows (k : Token.Kind) (text : String) :
    (sign k text).Follows fun us t => us = [t] ∧ t.Is k text := by
  refine follows_of_token ⟨⟨k, text, .start⟩, rfl, rfl⟩ ?_ ?_
  · intro t tail ht
    exact reading_sign_of_is ht tail
  intro ts hts
  cases ts with
  | nil => exact ⟨_, rfl⟩
  | cons t tail => exact ⟨_, reading_sign_of_not_is (hts t rfl) tail⟩

theorem kind_follows (what : Wanted) {kinds : List Token.Kind} (hkinds : kinds ≠ []) :
    (kind what kinds).Follows fun us t => us = [t] ∧ t.kind ∈ kinds := by
  obtain ⟨k, hk⟩ := List.exists_mem_of_ne_nil kinds hkinds
  refine follows_of_token ⟨⟨k, "", .start⟩, hk⟩ ?_ ?_
  · intro t tail ht
    exact reading_kind_of_mem ht tail
  · intro ts hts
    cases ts with
    | nil => exact ⟨_, rfl⟩
    | cons t tail => exact ⟨_, reading_kind_of_not_mem (hts t rfl) tail⟩

end Reader

/-! ### Expressions -/

namespace Expr

variable {tail : List Token}

/-- The shortest expression. -/
theorem operand_zero : Operand [⟨.number, "0", .start⟩] (.num 0) :=
  .number rfl (int32Literal_iff.2 rfl)

/-- The closing parenthesis, wherever it is missing. -/
def close : Token := ⟨.parenthesis, ")", .start⟩

theorem close_is : close.Is .parenthesis ")" := ⟨rfl, rfl⟩

/-- Where a closing parenthesis is all that is missing. -/
theorem completable_close {e : α} {G : List Token → α → Prop}
    (h : ∀ r : Token, r.Is .parenthesis ")" → G [r] e) (ts : List Token) :
    Completable (fun ts => ((sign .parenthesis ")").reading ts).andThen fun _ rest => .ok (e, rest))
      G ts := by
  refine ((sign_follows .parenthesis ")").completable ts).map (g := fun _ => e) ?_
  rintro us r ⟨rfl, hr⟩
  exact h r hr

-- The recursion is that of the readers. What they have taken before they fail is derived, which is
-- known from `operand_sound` and its companions.
mutual

theorem operand_completable (ts : List Token) : Completable (reading operand) Operand ts := by
  match ts with
  | [] => exact .of_refuse reading_operand_nil rfl ⟨_, _, operand_zero⟩
  | t :: tail =>
    by_cases hminus : t.Is .operator "-"
    · exact .of_take (reading_operand_of_minus hminus)
        ((operand_completable tail).map fun us e he => .minus hminus he)
    by_cases hopening : t.Is .parenthesis "("
    · refine .of_take (reading_operand_of_opening hopening)
        ((phrase_completable topLevel tail).bind ?_ ?_)
      · intro us e he
        exact ⟨[close], e, .parentheses hopening he close_is⟩
      · intro e rest h
        obtain ⟨us, rfl, hus⟩ := phrase_sound h
        exact ⟨us, rfl, completable_close (fun r hr => .parentheses hopening hus hr) rest⟩
    by_cases hmethod : t.kind = .method
    · refine .of_take (reading_operand_of_method hmethod)
        (((sign_follows .parenthesis "(").completable tail).bind ?_ ?_)
      · rintro us l ⟨rfl, hl⟩
        exact ⟨[close], _, .call hmethod hl .none close_is⟩
      · intro l rest h
        obtain ⟨rfl, hl⟩ := reads_sign.1 h
        refine ⟨[l], rfl, (arguments_completable rest).bind ?_ ?_⟩
        · intro us es hes
          exact ⟨[close], _, .call hmethod hl hes close_is⟩
        · intro es rest' h'
          obtain ⟨us, rfl, hus⟩ := arguments_sound h'
          exact ⟨us, rfl, completable_close (fun r hr => .call hmethod hl hus hr) rest'⟩
    rcases reading_operand_of_other hminus hopening hmethod with ⟨e, h⟩ | ⟨cause, -, hrest, h⟩
    · exact .of_ok (h tail)
    · exact .of_refuse (h tail) (hrest tail) ⟨_, _, operand_zero⟩
termination_by (ts.length, 0)

/-- **What a reader of expressions has taken can be completed to an expression.** -/
theorem phrase_completable (n : Nat) (ts : List Token) :
    Completable (reading (phrase n)) (Phrase n) ts := by
  match n with
  | 0 =>
    exact ((operand_completable ts).mono fun us e he => .operand he).congr reading_phrase_zero
  | n + 1 =>
    refine Completable.congr ((phrase_completable n ts).bind ?_ ?_) reading_phrase_succ
    · intro us e he
      exact ⟨[], e, by simpa using .single he⟩
    · intro e rest h
      have hle := length_le_of_reading h
      obtain ⟨us, rfl, hus⟩ := phrase_sound h
      exact ⟨us, rfl, joined_completable n e rest (.single hus)⟩
termination_by (ts.length, n + 1)
decreasing_by all_goals (simp only [Prod.lex_def, true_and]; omega)

theorem joined_completable (n : Nat) (left : Expr) (ts : List Token) {ls : List Token}
    (hl : Phrase (n + 1) ls left) :
    Completable (reading (joined n left)) (fun us => Phrase (n + 1) (ls ++ us)) ts := by
  match ts with
  | [] => exact .of_ok reading_joined_nil
  | t :: tail =>
    by_cases hop : ∃ op, Operator.ofToken? t = some op ∧ op.level = n
    · obtain ⟨op, ht, hn⟩ := hop
      have hsign : (t.kind, t.text, op) ∈ signs n := mem_signs.2 ⟨ofToken?_eq_some.1 ht, hn⟩
      refine .of_take (reading_joined_of_sign ht hn) ((phrase_completable n tail).bind ?_ ?_)
      · intro us e he
        exact ⟨[], _, by simpa using .more hl hsign he⟩
      · intro right rest h
        have hle := length_le_of_reading h
        obtain ⟨us, rfl, hus⟩ := phrase_sound h
        refine ⟨us, rfl, ?_⟩
        refine (joined_completable n _ rest (.more hl hsign hus)).mono fun vs e he => ?_
        simpa using he
    · exact .of_ok (reading_joined_of_not_sign fun op ht hn => hop ⟨op, ht, hn⟩)
termination_by (ts.length, 0)

theorem arguments_completable (ts : List Token) :
    Completable (reading arguments) Arguments ts := by
  by_cases hclose : ∃ t ∈ ts.head?, t.Is .parenthesis ")"
  · obtain ⟨t, ht, hclose⟩ := hclose
    obtain ⟨tail, rfl⟩ := List.head?_eq_some_iff.1 ht
    exact .of_ok (reading_arguments_of_close hclose)
  · refine Completable.congr ((phrase_completable topLevel ts).bind ?_ ?_)
      (reading_arguments_of_not_close fun t ht h => hclose ⟨t, ht, h⟩)
    · intro us e he
      exact ⟨[], [e], by simpa using .some (.one he)⟩
    · intro e rest h
      have hle := length_le_of_reading h
      obtain ⟨us, rfl, hus⟩ := phrase_sound h
      exact ⟨us, rfl, (moreArguments_completable rest hus).map fun vs es hes => .some hes⟩
termination_by (ts.length, topLevel + 2)
decreasing_by all_goals (simp only [Prod.lex_def, true_and]; omega)

theorem moreArguments_completable (ts : List Token) {ls : List Token} {e : Expr}
    (hl : Phrase 3 ls e) :
    Completable (reading moreArguments) (fun us es => Listed (ls ++ us) (e :: es)) ts := by
  match ts with
  | [] => exact .of_ok reading_moreArguments_nil
  | t :: tail =>
    by_cases ht : t.Is .comma ","
    · refine .of_take (reading_moreArguments_of_comma ht)
        ((phrase_completable topLevel tail).bind ?_ ?_)
      · intro us a ha
        exact ⟨[], [a], by simpa using Listed.cons hl ht (.one ha)⟩
      · intro a rest h
        have hle := length_le_of_reading h
        obtain ⟨us, rfl, hus⟩ := phrase_sound h
        exact ⟨us, rfl, (moreArguments_completable rest hus).map fun vs es hes => .cons hl ht hes⟩
    · exact .of_ok (reading_moreArguments_of_not_comma ht)
termination_by (ts.length, 0)

end

theorem reader_follows : reader.Follows (Phrase 3) where
  sound _ _ _ h := phrase_sound h
  completable := phrase_completable topLevel

/-- The tokens after a first argument that make a list of arguments of it, with further ones. -/
def Further (us : List Token) (es : List Expr) : Prop :=
  ∀ ls e, Phrase 3 ls e → Listed (ls ++ us) (e :: es)

theorem further_nil : Further [] [] := by
  intro ls e he
  simpa using .one he

/-- A comma and an expression. -/
def Next (us : List Token) (e : Expr) : Prop :=
  ∃ t vs, us = t :: vs ∧ t.Is .comma "," ∧ Phrase 3 vs e

theorem Next.further {us vs : List Token} {e : Expr} {es : List Expr} (h : Next us e)
    (hes : Further vs es) : Further (us ++ vs) (e :: es) := by
  obtain ⟨t, us, rfl, ht, he⟩ := h
  intro ls a ha
  exact .cons ha ht (hes us e he)

theorem nextReader_follows : nextReader.Follows Next := by
  refine (sign_follows .comma ",").bind ?_
  rintro us t ⟨rfl, ht⟩
  refine ⟨fun ts e rest h => ?_, fun ts => (reader_follows.completable ts).mono fun us e he => ?_⟩
  · obtain ⟨us, hts, hus⟩ := reader_follows.sound ts e rest h
    exact ⟨us, hts, t, us, rfl, ht, hus⟩
  · exact ⟨t, us, rfl, ht, he⟩

end Expr

/-! ### Statements -/

namespace Stmt

variable {name : String} {t : Token} {tail : List Token}

/-- The arguments of the named command, without the parentheses around them. -/
def ArgumentTokens (name : String) (us : List Token) (s : Stmt) : Prop :=
  (∃ es, Arguments us es ∧ Command name es s) ∨
    name = "Color" ∧ ∃ t, (t.kind = .string ∨ t.kind = .color) ∧ us = [t] ∧
      s = .color (Text.trim '"' t.text)

theorem ArgumentTokens.statement {f l r : Token} {us : List Token} {s : Stmt}
    (h : ArgumentTokens f.text us s) (hf : f.kind = .method) (hl : l.Is .parenthesis "(")
    (hr : r.Is .parenthesis ")") : Statement (f :: l :: (us ++ [r])) s := by
  rcases h with ⟨es, hes, hc⟩ | ⟨hname, t, ht, rfl, rfl⟩
  · exact .command hf hl hes hc hr
  · exact .color ⟨hf, hname⟩ hl ht hr

theorem argumentTokens_of_further {us vs : List Token} {e : Expr} {es : List Expr} {s : Stmt}
    (he : Phrase 3 us e) (hes : Expr.Further vs es) (hc : Command name (e :: es) s) :
    ArgumentTokens name (us ++ vs) s :=
  .inl ⟨e :: es, .some (hes us e he), hc⟩

/-- The arguments of a command can be completed, unless there is no such command. -/
theorem arguments_follows (name : String) :
    (∀ l, (arguments name l).Follows (ArgumentTokens name)) ∨
      ∀ l, arguments name l = Reader.fail (.unknownCommand name l) := by
  unfold arguments
  split
  · exact .inl fun l => Expr.reader_follows.bind fun us x hx =>
      Expr.nextReader_follows.bind fun vs y hy =>
      .pure (argumentTokens_of_further hx (hy.further Expr.further_nil) .spawn)
  · refine .inl fun l => (kind_follows _ (by simp)).bind ?_
    rintro us t ⟨rfl, ht⟩
    exact .pure (.inr ⟨rfl, t, by simpa using ht, rfl, rfl⟩)
  · exact .inl fun l => Expr.reader_follows.bind fun us x hx =>
      .pure (argumentTokens_of_further hx Expr.further_nil .size)
  · exact .inl fun l => Expr.reader_follows.bind fun us x hx =>
      Expr.nextReader_follows.bind fun vs y hy => Expr.nextReader_follows.bind fun ws z hz =>
      .pure (argumentTokens_of_further hx (hy.further (hz.further Expr.further_nil)) .line)
  · exact .inl fun l => Expr.reader_follows.bind fun us x hx =>
      Expr.nextReader_follows.bind fun vs y hy => Expr.nextReader_follows.bind fun ws z hz =>
      .pure (argumentTokens_of_further hx (hy.further (hz.further Expr.further_nil)) .circle)
  · exact .inl fun l => Expr.reader_follows.bind fun us x hx =>
      Expr.nextReader_follows.bind fun vs y hy => Expr.nextReader_follows.bind fun ws z hz =>
      Expr.nextReader_follows.bind fun xs w hw => Expr.nextReader_follows.bind fun ys v hv =>
      .pure (argumentTokens_of_further hx
        (hy.further (hz.further (hw.further (hv.further Expr.further_nil)))) .rectangle)
  · exact .inl fun l => .pure (.inl ⟨[], .none, .fill⟩)
  · exact .inr fun l => rfl

/-- The token stands where a command begins, but no command has its name. -/
structure Unknown (t : Token) : Prop where
  kind_eq : t.kind = .method
  readerAfter_eq : readerAfter t = commandReader t.text
  arguments_eq : ∀ l, arguments t.text l = Reader.fail (.unknownCommand t.text l)

/-- **What is read of a statement can be completed to one,** unless it begins with an unknown name or
with a token that begins no statement. -/
theorem readerAfter_follows (t : Token) :
    ((readerAfter t).Follows fun us => Statement (t :: us)) ∨ Unknown t ∨
      t.kind ≠ .method ∧
        ∀ tail, (readerAfter t).reading tail = .error ⟨.wanted .statement, t :: tail⟩ := by
  by_cases hgoto : t.Is .method "GoTo"
  · rw [readerAfter_goto hgoto]
    refine .inl ((sign_follows _ _).bind ?_)
    rintro _ lb ⟨rfl, hlb⟩
    refine (kind_follows _ (by simp)).bind ?_
    rintro _ label ⟨rfl, hlabel⟩
    refine (sign_follows _ _).bind ?_
    rintro _ rb ⟨rfl, hrb⟩
    refine (sign_follows _ _).bind ?_
    rintro _ l ⟨rfl, hl⟩
    refine Expr.reader_follows.bind fun us e he => (sign_follows _ _).bind ?_
    rintro _ r ⟨rfl, hr⟩
    exact .pure (.goto hgoto hlb (by simpa using hlabel) hrb hl he hr)
  cases hk : t.kind with
  | method =>
    have hafter := readerAfter_command hk fun htext => hgoto ⟨hk, htext⟩
    rcases arguments_follows t.text with hargs | hargs
    · rw [hafter]
      refine .inl ((sign_follows _ _).bind ?_)
      rintro _ l ⟨rfl, hl⟩
      refine (hargs l).bind fun us s hs => (sign_follows _ _).bind ?_
      rintro _ r ⟨rfl, hr⟩
      exact .pure (hs.statement hk hl hr)
    · exact .inr (.inl ⟨hk, hafter, hargs⟩)
  | identifier =>
    simp only [readerAfter, hk]
    refine .inl ((kind_follows _ (by simp)).bind ?_)
    rintro _ a ⟨rfl, ha⟩
    refine Expr.reader_follows.bind fun us e he => .pure ?_
    simpa using .assign hk (by simpa using ha) he
  | label =>
    simp only [readerAfter, hk]
    exact .inl (.pure (.label hk))
  | _ =>
    simp only [readerAfter, hk]
    exact .inr (.inr ⟨by simp, fun _ => rfl⟩)

/-- Nothing is read after an unknown name. -/
theorem Unknown.not_reads {s : Stmt} {rest : List Token} (h : Unknown t) :
    ¬(readerAfter t).Reads ts s rest := by
  rw [h.readerAfter_eq]
  simp [commandReader, reads_bind, h.arguments_eq]

/-- After an unknown name the next token is blamed, or the end. -/
theorem Unknown.reading (h : Unknown t) (tail : List Token) :
    ∃ f, (readerAfter t).reading tail = .error f ∧ (tail = [] ∧ f.AtEnd ∨
      ∃ u tail', tail = u :: tail' ∧ f.cause.Blames u ∧ f = f.cause.failure u tail') := by
  rw [h.readerAfter_eq, reading_commandReader]
  cases tail with
  | nil => exact ⟨_, rfl, .inl ⟨rfl, rfl, _, rfl⟩⟩
  | cons u tail =>
    by_cases hu : u.Is .parenthesis "("
    · rw [reading_sign_of_is hu]
      refine ⟨⟨.unknownCommand t.text u, tail⟩, ?_, .inr ⟨u, tail, rfl, rfl, rfl⟩⟩
      change (argumentsAndClose t.text u).reading tail = _
      rw [argumentsAndClose, h.arguments_eq, reading_bind]
      rfl
    · rw [reading_sign_of_not_is hu]
      exact ⟨_, rfl, .inr ⟨u, tail, rfl, trivial, rfl⟩⟩

end Stmt

/-! ### Programs -/

theorem Cause.rest_failure (cause : Cause) (t : Token) (tail : List Token) :
    (cause.failure t tail).rest = t :: tail ∨ (cause.failure t tail).rest = tail := by
  cases cause with
  | wanted | numberTooLarge => exact .inl rfl
  | unknownCommand => exact .inr rfl

namespace Program

variable {p : Program} {t : Token} {us rest tail : List Token} {f : Failure} {e : SyntaxError}

/-- What begins with a statement goes on with no expression. -/
theorem stops_append (h : statements us = .ok p) (hrest : Expr.Stops 3 rest) :
    Expr.Stops 3 (us ++ rest) := by
  cases us with
  | nil => exact hrest
  | cons u us =>
    obtain ⟨t, tail, hcons, ht⟩ := (statements_sound h).head
    cases hcons
    refine Expr.stops_of_kind ?_ ?_ <;> rcases ht with ht | ht | ht <;> simp [ht]

theorem stops_of_statements (h : statements us = .ok p) : Expr.Stops 3 us := by
  have hnil : Expr.Stops 3 [] := by simp [Expr.Stops]
  have hstops := stops_append h hnil
  rwa [List.append_nil] at hstops

theorem statements_of_statement {s : Stmt} (h : Statement us s) (hrest : Expr.Stops 3 rest) :
    statements (us ++ rest) = (statements rest).map (s :: ·) := by
  apply allTaken_injective
  rw [reading_statements_append h hrest]
  cases statements rest with
  | error f => rfl
  | ok ss => rfl

/-- Statements after others are read as they would be by themselves. -/
theorem statements_append {us : List Token} {p : Program} (hp : statements us = .ok p)
    (hrest : Expr.Stops 3 rest) : statements (us ++ rest) = (statements rest).map (p ++ ·) := by
  match us with
  | [] =>
    rw [statements_nil] at hp
    cases hp
    cases h : statements rest with
    | error f => simp [h, Except.map]
    | ok q => simp [h, Except.map]
  | u :: us =>
    obtain ⟨s, mid, q, hs, hq, rfl⟩ := statements_cons.1 hp
    have hle := hs.length_le
    obtain ⟨vs, hvs, hstmt⟩ := Stmt.readerAfter_sound hs
    rw [hvs, List.append_assoc, statements_of_statement hstmt (stops_append hq hrest),
      statements_append hq hrest]
    cases statements rest with
    | error f => rfl
    | ok ss => rfl
termination_by us.length
decreasing_by
  simp only [List.length_cons]
  omega

/-- **What is read of statements can be completed to statements,** unless one of them begins with an
unknown name. -/
theorem completable_or_unknown (ts : List Token) (h : statements ts = .error f) :
    (∃ us vs p, ts = us ++ f.rest ∧ statements (us ++ vs) = .ok p) ∨
      ∃ us t tail p, ts = us ++ t :: tail ∧ statements us = .ok p ∧ Stmt.Unknown t := by
  match ts with
  | [] =>
    rw [statements_nil] at h
    cases h
  | t :: tail =>
    have hfails : allTaken (statements (t :: tail)) = .error f := congrArg allTaken h
    rw [reading_statements_cons] at hfails
    cases hs : (Stmt.readerAfter t).reading tail with
    | error f' =>
      rw [hs] at hfails
      cases hfails
      rcases Stmt.readerAfter_follows t with hfollows | hunknown | ⟨-, hrefuse⟩
      · obtain ⟨us, vs, s, rfl, hstmt⟩ := hfollows.completable tail f hs
        exact .inl ⟨t :: us, vs, [s], rfl, statements_complete (.one hstmt)⟩
      · exact .inr ⟨[], t, tail, [], rfl, statements_nil, hunknown⟩
      · cases (hrefuse tail).symm.trans hs
        exact .inl ⟨[], [], [], rfl, statements_nil⟩
    | ok q =>
      obtain ⟨s, rest⟩ := q
      have hle := length_le_of_reading hs
      obtain ⟨us, hus, hstmt⟩ := Stmt.readerAfter_sound hs
      have hrest : statements rest = .error f := by
        rw [hs] at hfails
        change (allTaken (statements rest)).andThen _ = _ at hfails
        cases hr : statements rest with
        | error f' =>
          rw [hr] at hfails
          cases hfails
          rfl
        | ok p =>
          rw [hr] at hfails
          cases hfails
      rw [hus]
      rcases completable_or_unknown rest hrest with
        ⟨vs, ws, p, hvs, hp⟩ | ⟨vs, u, tail', p, rfl, hp, hu⟩
      · refine .inl ⟨us ++ vs, ws, s :: p, ?_, ?_⟩
        · rw [List.append_assoc, ← hvs]
        · rw [List.append_assoc, statements_of_statement hstmt (stops_of_statements hp), hp]
          rfl
      · refine .inr ⟨us ++ vs, u, tail', s :: p, by simp, ?_, hu⟩
        rw [statements_of_statement hstmt (stops_of_statements hp), hp]
        rfl
termination_by ts.length

/-! ### Viable tokens -/

/-- The tokens are a program. -/
def IsProgram (ts : List Token) : Prop := ∃ p, ofTokens ts = .ok p

/-- Some program begins with the tokens. -/
def Viable (us : List Token) : Prop := ∃ vs, IsProgram (us ++ vs)

/-- The places up to which, and including which, the tokens are the beginning of no program. -/
def refused (ts : List Token) : Set Nat := {i | i < ts.length ∧ ¬Viable (ts.take (i + 1))}

theorem Viable.of_append {vs : List Token} (h : Viable (us ++ vs)) : Viable us := by
  obtain ⟨ws, hws⟩ := h
  exact ⟨vs ++ ws, by rwa [← List.append_assoc]⟩

theorem isProgram_placing : IsProgram placing :=
  ⟨_, ofTokens_eq_ok.2
    ⟨⟨word .method "Spawn", rfl, rfl, rfl⟩, statements_complete (.one statement_placing)⟩⟩

theorem viable_nil : Viable [] := ⟨placing, isProgram_placing⟩

theorem refused_eq_empty (h : Viable ts) : refused ts = ∅ := by
  refine Set.eq_empty_iff_forall_notMem.2 fun i hi => hi.2 ?_
  rw [← List.take_append_drop (i + 1) ts] at h
  exact h.of_append

/-- The first token that cannot follow. -/
theorem isLeast_refused (h : Viable us) (ht : ¬Viable (us ++ [t])) :
    IsLeast (refused (us ++ t :: tail)) us.length := by
  constructor
  · refine ⟨by simp, ?_⟩
    rwa [List.append_cons, List.take_left' (by simp)]
  · rintro i ⟨-, hi⟩
    apply Nat.le_of_not_lt
    intro hlt
    rw [List.take_append_of_le_length hlt] at hi
    rw [← List.take_append_drop (i + 1) us] at h
    exact hi h.of_append

/-! ### Unknown names -/

/-- The command that every program begins with is known. -/
theorem not_unknown_spawn (ht : t.Is .method "Spawn") : ¬Stmt.Unknown t := by
  intro h
  have hnil : Expr.Stops 3 [] := by simp [Expr.Stops]
  obtain ⟨u, tail, hcons, hread⟩ := Stmt.readerAfter_complete statement_placing hnil
  cases hcons
  have hsame : Stmt.readerAfter (word .method "Spawn") = Stmt.readerAfter t := by
    simp [Stmt.readerAfter, word, ht.1, ht.2]
  rw [hsame] at hread
  exact h.not_reads hread

theorem ofTokens?_append (h : ofTokens us = .ok p) (vs : List Token) :
    ofTokens? (us ++ vs) = statements (us ++ vs) := by
  obtain ⟨⟨t, ht, hspawn⟩, -⟩ := ofTokens_eq_ok.1 h
  obtain ⟨tail, rfl⟩ := List.head?_eq_some_iff.1 ht
  simp [ofTokens?, hspawn]

/-- After a program, an unknown name is refused with the line of the token after it. -/
theorem ofTokens?_unknown (hus : IsProgram us) (ht : Stmt.Unknown t) (tail : List Token) :
    ∃ f, ofTokens? (us ++ t :: tail) = .error f ∧
      (f.locate (us ++ t :: tail)).line = (tail.head?.getD t).line := by
  obtain ⟨p, hp⟩ := hus
  obtain ⟨f, hf, hplace⟩ := ht.reading tail
  have hstops : Expr.Stops 3 (t :: tail) :=
    Expr.stops_of_kind (by simp [ht.kind_eq]) (by simp [ht.kind_eq])
  have hfails : statements (t :: tail) = .error f := by
    apply eq_error_of_allTaken
    rw [reading_statements_cons, hf]
    rfl
  refine ⟨f, ?_, ?_⟩
  · rw [ofTokens?_append hp, statements_append (ofTokens_eq_ok.1 hp).2 hstops, hfails]
    rfl
  · rcases hplace with ⟨rfl, hend⟩ | ⟨u, tail', rfl, hblames, hfailure⟩
    · rw [(locate_of_atEnd hend _).2]
      simp
    · rw [hfailure, line_locate_failure hblames]
      rfl

theorem not_viable_of_unknown (hus : IsProgram us) (ht : Stmt.Unknown t) :
    ¬Viable (us ++ [t]) := by
  rintro ⟨vs, p, hp⟩
  obtain ⟨f, hf, -⟩ := ofTokens?_unknown hus ht vs
  rw [List.append_assoc, List.singleton_append, ofTokens_of_ofTokens? hf] at hp
  cases hp

/-- A name that cannot follow a program is unknown. -/
theorem unknown_of_not_viable (hus : IsProgram us) (hk : t.kind = .method)
    (ht : ¬Viable (us ++ [t])) : Stmt.Unknown t := by
  rcases Stmt.readerAfter_follows t with hfollows | hunknown | ⟨hne, -⟩
  · obtain ⟨p, hp⟩ := hus
    obtain ⟨hspawn, hstatements⟩ := ofTokens_eq_ok.1 hp
    obtain ⟨vs, s, hstmt⟩ := hfollows.exists_language
    have hs : statements (t :: vs) = .ok [s] := statements_complete (.one hstmt)
    have hall : statements (us ++ t :: vs) = .ok (p ++ [s]) := by
      rw [statements_append hstatements (stops_of_statements hs), hs]
      rfl
    refine absurd ⟨vs, p ++ [s], ofTokens_eq_ok.2 ⟨?_, ?_⟩⟩ ht
    · obtain ⟨u, hu, hspawn⟩ := hspawn
      exact ⟨u, by simp [List.head?_append, hu], hspawn⟩
    · rwa [List.append_assoc, List.singleton_append]
  · exact hunknown
  · exact absurd hk hne

/-! ### The line of an error -/

/-- What has been read when tokens are refused is viable, unless there was an unknown name. -/
theorem viable_or_unknown (h : ofTokens? ts = .error f) :
    (∃ us, ts = us ++ f.rest ∧ Viable us) ∨
      ∃ us t tail, ts = us ++ t :: tail ∧ IsProgram us ∧ Stmt.Unknown t := by
  by_cases hspawn : ∃ t, ts.head? = some t ∧ t.Is .method "Spawn"
  · obtain ⟨t, ht, hspawn⟩ := hspawn
    obtain ⟨tail, rfl⟩ := List.head?_eq_some_iff.1 ht
    have hstatements : statements (t :: tail) = .error f := by simpa [ofTokens?, hspawn] using h
    -- tokens that begin like these ones are a program if they are statements
    have hprogram : ∀ us rest p, t :: tail = us ++ rest → us ≠ [] → ∀ vs,
        statements (us ++ vs) = .ok p → ofTokens (us ++ vs) = .ok p := by
      intro us rest p hus hne vs hp
      obtain ⟨u, us, rfl⟩ := List.exists_cons_of_ne_nil hne
      cases hus
      exact ofTokens_eq_ok.2 ⟨⟨t, rfl, hspawn⟩, hp⟩
    rcases completable_or_unknown _ hstatements with
      ⟨us, vs, p, hus, hp⟩ | ⟨us, u, tail', p, hus, hp, hu⟩
    · refine .inl ⟨us, hus, ?_⟩
      by_cases hne : us = []
      · rw [hne]
        exact viable_nil
      · exact ⟨vs, p, hprogram us _ p hus hne vs hp⟩
    · by_cases hne : us = []
      · rw [hne] at hus
        cases hus
        exact absurd hu (not_unknown_spawn hspawn)
      · refine .inr ⟨us, u, tail', hus, ⟨p, ?_⟩, hu⟩
        have hus' := hprogram us _ p hus hne [] (by rwa [List.append_nil])
        rwa [List.append_nil] at hus'
  · refine .inl ⟨[], ?_, viable_nil⟩
    have hany : ¬(ts.head?.any fun t => t.Is .method "Spawn") = true := by
      cases ts with
      | nil => simp
      | cons t tail => simpa using hspawn
    rw [ofTokens?, if_neg hany] at h
    cases h
    rfl

/-- The token `t` at the place `i` is the first that makes the tokens the beginning of no program,
and the error is in the line that it should be in on its account. -/
structure Offending (ts : List Token) (e : SyntaxError) (i : Nat) (t : Token) : Prop where
  /-- No place before is refused. -/
  isLeast : IsLeast (refused ts) i
  getElem?_eq : ts[i]? = some t
  /-- The token is blamed, unless it is a name after what is a program by itself. -/
  line_eq : ¬(t.kind = .method ∧ IsProgram (ts.take i)) → e.line = t.line
  /-- Such a name belongs to no command, and the token after it is blamed, if there is one. -/
  line_of_name : t.kind = .method → IsProgram (ts.take i) → e.line = (ts[i + 1]?.getD t).line

theorem offending_of_not_viable (hf : ofTokens? (us ++ t :: tail) = .error f) (hviable : Viable us)
    (hnot : ¬Viable (us ++ [t]))
    (hline : ¬(t.kind = .method ∧ IsProgram us) → (f.locate (us ++ t :: tail)).line = t.line) :
    Offending (us ++ t :: tail) (f.locate (us ++ t :: tail)) us.length t where
  isLeast := isLeast_refused hviable hnot
  getElem?_eq := by simp
  line_eq := by rwa [List.take_left' rfl]
  line_of_name := by
    rw [List.take_left' rfl]
    intro hk hus
    obtain ⟨f', hf', hline'⟩ := ofTokens?_unknown hus (unknown_of_not_viable hus hk hnot) tail
    cases hf.symm.trans hf'
    rw [hline']
    simp [List.getElem?_append_right, List.head?_eq_getElem?]

/-- **A syntax error is in the line of the first token that can no longer follow,** with one
exception. If a program begins with all of the tokens, the error is in the line of the last one, or
in the first line if there is none. Otherwise it is in the line of the first token that makes them
the beginning of no program, unless that token is a name that no command has: this is noticed one
token later, and the error is in the line of the next token. -/
theorem error_line_of_offending (h : ofTokens ts = .error e) :
    refused ts = ∅ ∧ e.line = (ts.getLast?.map Token.line).getD 1 ∨
      ∃ i t, Offending ts e i t := by
  obtain ⟨f, hf, rfl⟩ := ofTokens?_of_ofTokens h
  rcases viable_or_unknown hf with ⟨us, hts, hviable⟩ | ⟨us, t, tail, rfl, hus, ht⟩
  · rcases (ofTokens?_local ts).fails f (congrArg allTaken hf) with
      hend | ⟨us', t, tail, rfl, hblames, hlocal⟩
    · rw [hend.1, List.append_nil] at hts
      exact .inl ⟨refused_eq_empty (hts ▸ hviable), (locate_of_atEnd hend ts).2⟩
    · have hrefuse : ∀ tail', ofTokens? (us' ++ t :: tail') = .error (f.cause.failure t tail') :=
        fun tail' => eq_error_of_allTaken (hlocal tail')
      have hfailure : f = f.cause.failure t tail := Except.error.inj (hf.symm.trans (hrefuse tail))
      have hnot : ¬Viable (us' ++ [t]) := by
        rintro ⟨vs, p, hp⟩
        rw [List.append_assoc, List.singleton_append, ofTokens_of_ofTokens? (hrefuse vs)] at hp
        cases hp
      -- the blamed token is among those that are left, since with it the others are not viable
      have hus : us' = us := by
        rcases f.cause.rest_failure t tail with hrest | hrest
        · rw [hfailure, hrest] at hts
          exact List.append_cancel_right hts
        · rw [hfailure, hrest, List.append_cons] at hts
          rw [List.append_cancel_right hts] at hnot
          exact absurd hviable hnot
      subst hus
      refine .inr ⟨us'.length, t, offending_of_not_viable hf hviable hnot fun _ => ?_⟩
      rw [hfailure, line_locate_failure hblames]
  · have hviable : Viable us := ⟨[], by rwa [List.append_nil]⟩
    refine .inr ⟨us.length, t,
      offending_of_not_viable hf hviable (not_viable_of_unknown hus ht) fun hnot => ?_⟩
    exact absurd ⟨ht.kind_eq, hus⟩ hnot

/-- The parenthesis and the label at the end of `sizeless`. -/
def sizelessEnd : List Token :=
  [⟨.parenthesis, ")", ⟨20, 4, 1⟩⟩, ⟨.label, "end:", ⟨22, 5, 1⟩⟩]

/-- The tokens of `Spawn(0, -1)`, and of `Size()` and a label in further lines, one in each. -/
def sizeless : List Token :=
  placing ++ ⟨.method, "Size", ⟨13, 2, 1⟩⟩ :: ⟨.parenthesis, "(", ⟨18, 3, 1⟩⟩ :: sizelessEnd

theorem reading_reader_sizelessEnd :
    Expr.reader.reading sizelessEnd = .error ⟨.wanted .operand, sizelessEnd⟩ := by
  have hoperand : reading Expr.operand sizelessEnd = .error ⟨.wanted .operand, sizelessEnd⟩ := by
    rw [sizelessEnd, Expr.reading_operand_cons]
    rfl
  show reading (Expr.phrase 3) sizelessEnd = _
  rw [Expr.reading_phrase_succ, Expr.reading_phrase_succ, Expr.reading_phrase_succ,
    Expr.reading_phrase_zero, hoperand]
  rfl

theorem ofTokens_sizeless :
    ofTokens sizeless =
      .error ⟨4, .wanted .operand, some ⟨.parenthesis, ")", ⟨20, 4, 1⟩⟩⟩ := by
  have hcommand : (Stmt.commandReader "Size").reading
      (⟨.parenthesis, "(", ⟨18, 3, 1⟩⟩ :: sizelessEnd) = .error ⟨.wanted .operand, sizelessEnd⟩ := by
    rw [Stmt.reading_commandReader]
    show (((Expr.reader >>= fun e => pure (Stmt.size e)) >>= fun s =>
      sign .parenthesis ")" >>= fun _ => pure s).reading sizelessEnd) = _
    rw [reading_bind, reading_bind, reading_reader_sizelessEnd]
    rfl
  have hstatements : allTaken (statements sizeless) = .error ⟨.wanted .operand, sizelessEnd⟩ := by
    rw [sizeless, reading_statements_append statement_placing
        (Expr.stops_of_kind (by simp) (by simp)),
      reading_statements_cons, Stmt.readerAfter_command rfl (by simp), hcommand]
    rfl
  have hspawn : ofTokens? sizeless = statements sizeless := rfl
  exact ofTokens_of_ofTokens? (hspawn.trans (eq_error_of_allTaken hstatements))

theorem error_line_of_offending_sizeless :
    ∃ e, ofTokens sizeless = .error e ∧ e.line = 4 ∧ ∃ i t, Offending sizeless e i t := by
  refine ⟨_, ofTokens_sizeless, rfl, (error_line_of_offending ofTokens_sizeless).resolve_left ?_⟩
  -- the error is not in the line of the last token
  rintro ⟨-, hline⟩
  cases hline

/-- The tokens of `Spawn(0, -1)`, and of `GetActualX()` in the place of a command, with its name in
the second line and the parentheses in the third. -/
def spread : List Token :=
  placing ++ [⟨.method, "GetActualX", ⟨13, 2, 1⟩⟩, ⟨.parenthesis, "(", ⟨24, 3, 1⟩⟩,
    ⟨.parenthesis, ")", ⟨25, 3, 2⟩⟩]

/-- The name is the first token that cannot follow, and the error is not in its line. -/
theorem offending_name_not_blamed :
    ∃ e i t, ofTokens spread = .error e ∧ IsLeast (refused spread) i ∧ spread[i]? = some t ∧
      t.line = 2 ∧ e.line = 3 := by
  have hplacing := isProgram_placing
  have hunknown : Stmt.Unknown ⟨.method, "GetActualX", ⟨13, 2, 1⟩⟩ :=
    ⟨rfl, Stmt.readerAfter_command rfl (by simp), fun _ => rfl⟩
  obtain ⟨f, hf, hline⟩ := ofTokens?_unknown hplacing hunknown
    [⟨.parenthesis, "(", ⟨24, 3, 1⟩⟩, ⟨.parenthesis, ")", ⟨25, 3, 2⟩⟩]
  exact ⟨_, placing.length, _, ofTokens_of_ofTokens? hf,
    isLeast_refused ⟨[], hplacing⟩ (not_viable_of_unknown hplacing hunknown), rfl, rfl, hline⟩

end Program

end Easel
