import Easel.Proofs.Grammar.Blame
import Easel.Proofs.Grammar.Scan

/-!
# Reading makes progress

The procedures of `Scan` move a place among the tokens without any check, and call each other
without any bound. Still each of them comes to an end, wherever among the tokens it begins. The
place where it ends is not before the one where it began and not beyond the tokens, and after a
success at least one token has been taken. And what the procedure makes of the tokens is what the
reader makes of them.

All of this is one statement (`Scan.Ends`), which is kept when one procedure follows another
(`Scan.Ends.bind`). It is proved first for the procedures for expressions, which call each other,
and then for statements, where each procedure is put together like its reader (`Scan.Tracks`).

A procedure that checks what it has been called for fails on the spot if this does not begin there
(`Scan.Headed`). No procedure calls it at such a place, so that these failures never come out.
-/

namespace Easel

open Reader Reading

namespace Scan

variable {α β : Type} {s : Scan α} {k : α → Scan β} {ts : List Token} {start stop least : Nat}
  {t : Token}

/-! ### Running a procedure -/

/-- What comes of a procedure that is carried out on the tokens from the place `start` on: its
outcome and the place where it ends, if it does. -/
def run (s : Scan α) (ts : List Token) (start : Nat) : Option (Except Stuck α × Nat) := s ts start

theorem run_bind_of_ok {a : α} (h : s.run ts start = some (.ok a, stop)) :
    (s >>= k).run ts start = (k a).run ts stop := by
  change (s.run ts start).bind _ = _
  rw [h]
  rfl

theorem run_bind_of_error {stuck : Stuck} (h : s.run ts start = some (.error stuck, stop)) :
    (s >>= k).run ts start = some (.error stuck, stop) := by
  change (s.run ts start).bind _ = _
  rw [h]
  rfl

theorem run_peek {k : Option Token → Scan α} :
    (peek >>= k).run ts start = (k ts[start]?).run ts start := rfl

/-- The outcome of a procedure that ended at the place `stop`, with the tokens that are left. -/
def ended (ts : List Token) (stop : Nat) : Except Cause α → Reading α
  | .ok a => .ok (a, ts.drop stop)
  | .error cause => .error ⟨cause, ts.drop stop⟩

/-- Carried out from the place `start` on, the procedure comes to an end, and its outcome is `x`:
it fails for no other causes than a reader. The place where it ends is not before `start` and not
beyond the tokens, also if the procedure fails. If it succeeds, it ends at the place `least` or
later. -/
def Ends (s : Scan α) (ts : List Token) (start least : Nat) (x : Reading α) : Prop :=
  ∃ (outcome : Except Cause α) (stop : Nat),
    s.run ts start = some (outcome.mapError .cause, stop) ∧ start ≤ stop ∧ stop ≤ ts.length ∧
      (∀ a, outcome = .ok a → least ≤ stop) ∧ x = ended ts stop outcome

namespace Ends

variable {x : Reading α}

theorem mono {least' : Nat} (h : Ends s ts start least x) (hle : least' ≤ least) :
    Ends s ts start least' x := by
  obtain ⟨outcome, stop, hrun, hstart, hstop, hleast, hx⟩ := h
  exact ⟨outcome, stop, hrun, hstart, hstop, fun a ha => Nat.le_trans hle (hleast a ha), hx⟩

protected theorem pure (a : α) (h : start ≤ ts.length) :
    Ends (pure a) ts start start (.ok (a, ts.drop start)) :=
  ⟨.ok a, start, rfl, Nat.le_refl _, h, fun _ _ => Nat.le_refl _, rfl⟩

protected theorem fail (cause : Cause) (h : start ≤ ts.length) :
    Ends (fail cause : Scan α) ts start least (.error ⟨cause, ts.drop start⟩) :=
  ⟨.error cause, start, rfl, Nat.le_refl _, h, nofun, rfl⟩

/-- **One after the other.** -/
protected theorem bind {mid : Nat} {g : α → List Token → Reading β} (hs : Ends s ts start mid x)
    (hk : ∀ a stop, start ≤ stop → mid ≤ stop → stop ≤ ts.length →
      Ends (k a) ts stop least (g a (ts.drop stop))) :
    Ends (s >>= k) ts start least (x.andThen g) := by
  obtain ⟨outcome, stop, hrun, hstart, hstop, hmid, rfl⟩ := hs
  cases outcome with
  | error cause =>
    exact ⟨.error cause, stop, run_bind_of_error hrun, hstart, hstop, nofun, rfl⟩
  | ok a =>
    obtain ⟨outcome, stop', hrun', hstart', hstop', hleast, hx⟩ :=
      hk a stop hstart (hmid a rfl) hstop
    exact ⟨outcome, stop', (run_bind_of_ok hrun).trans hrun', Nat.le_trans hstart hstart', hstop',
      hleast, hx⟩

/-- A look at the token at the place, which does not move it. -/
protected theorem peek {k : Option Token → Scan α} (h : Ends (k ts[start]?) ts start least x) :
    Ends (peek >>= k) ts start least x := h

/-- A look whether a token is left. -/
protected theorem atEnd {k : Bool → Scan α}
    (h : Ends (k (decide (ts.length ≤ start))) ts start least x) :
    Ends (atEnd >>= k) ts start least x := h

/-- The place is moved on by one. -/
protected theorem advance {k : Unit → Scan α} (h : Ends (k ()) ts (start + 1) least x) :
    Ends (advance >>= k) ts start least x := by
  obtain ⟨outcome, stop, hrun, hstart, hstop, hleast, hx⟩ := h
  exact ⟨outcome, stop, hrun, Nat.le_of_succ_le hstart, hstop, hleast, hx⟩

end Ends

/-! ### Single tokens -/

theorem drop_of_getElem?_eq_none (h : ts[start]? = none) : ts.drop start = [] :=
  List.drop_eq_nil_of_le (List.getElem?_eq_none_iff.1 h)

theorem lt_length_of_getElem? (h : ts[start]? = some t) : start < ts.length :=
  (List.getElem?_eq_some_iff.1 h).1

theorem drop_of_getElem? (h : ts[start]? = some t) : ts.drop start = t :: ts.drop (start + 1) := by
  obtain ⟨hlt, rfl⟩ := List.getElem?_eq_some_iff.1 h
  exact List.drop_eq_getElem_cons hlt

/-- Looking at the next token is to see how the tokens that are left begin. -/
theorem Ends.look {k : Option Token → Scan α} {r : List Token → Reading α}
    (hnone : ts[start]? = none → Ends (k none) ts start least (r []))
    (hsome : ∀ t, ts[start]? = some t →
      Ends (k (some t)) ts start least (r (t :: ts.drop (start + 1)))) :
    Ends (do k (← peek)) ts start least (r (ts.drop start)) := by
  refine .peek ?_
  cases ht : ts[start]? with
  | none =>
    rw [drop_of_getElem?_eq_none ht]
    exact hnone ht
  | some t =>
    rw [drop_of_getElem? ht]
    exact hsome t ht

/-- Nothing is left, and something is missed. -/
theorem Ends.miss (cause : Cause) (hle : start ≤ ts.length) (h : ts[start]? = none) :
    Ends (fail cause : Scan α) ts start least (.error ⟨cause, []⟩) := by
  rw [← drop_of_getElem?_eq_none h]
  exact .fail cause hle

/-- Nothing is left, and nothing is missed. -/
theorem Ends.done (a : α) (hle : start ≤ ts.length) (h : ts[start]? = none) :
    Ends (pure a) ts start start (.ok (a, [])) := by
  rw [← drop_of_getElem?_eq_none h]
  exact .pure a hle

/-- The token at the place is taken, and a value is made. -/
theorem Ends.take (a : α) (h : ts[start]? = some t) :
    Ends (do advance; return a) ts start (start + 1) (.ok (a, ts.drop (start + 1))) :=
  .advance (.pure a (lt_length_of_getElem? h))

/-- The token at the place is blamed, and left. -/
theorem Ends.refuse (cause : Cause) (h : ts[start]? = some t) :
    Ends (fail cause : Scan α) ts start least (.error ⟨cause, t :: ts.drop (start + 1)⟩) := by
  rw [← drop_of_getElem? h]
  exact .fail cause (Nat.le_of_lt (lt_length_of_getElem? h))

/-- The token at the place is left. -/
theorem Ends.leave (a : α) (h : ts[start]? = some t) :
    Ends (pure a) ts start start (.ok (a, t :: ts.drop (start + 1))) := by
  rw [← drop_of_getElem? h]
  exact .pure a (Nat.le_of_lt (lt_length_of_getElem? h))

theorem sign_ends (kind : Token.Kind) (text : String) (h : start ≤ ts.length) :
    Ends (sign kind text) ts start (start + 1)
      ((Reader.sign kind text).reading (ts.drop start)) := by
  refine .look (.miss _ h) fun t ht => ?_
  by_cases his : t.Is kind text
  · rw [reading_sign_of_is his]
    simp only [if_pos his]
    exact .take t ht
  · rw [reading_sign_of_not_is his]
    simp only [if_neg his]
    exact .refuse _ ht

theorem run_kind_of_mem (stuck : Stuck) {kinds : List Token.Kind} (ht : ts[start]? = some t)
    (h : t.kind ∈ kinds) : (kind stuck kinds).run ts start = some (.ok t, start + 1) := by
  rw [kind, run_peek, ht]
  simp only [if_pos h]
  rfl

theorem run_kind_of_not_mem (stuck : Stuck) {kinds : List Token.Kind}
    (h : ∀ t, ts[start]? = some t → t.kind ∉ kinds) :
    (kind stuck kinds).run ts start = some (.error stuck, start) := by
  rw [kind, run_peek]
  cases ht : ts[start]? with
  | none => rfl
  | some t =>
    simp only [if_neg (h t ht)]
    rfl

theorem kind_ends (what : Wanted) (kinds : List Token.Kind) (h : start ≤ ts.length) :
    Ends (kind (.cause (.wanted what)) kinds) ts start (start + 1)
      ((Reader.kind what kinds).reading (ts.drop start)) := by
  refine .look (.miss _ h) fun t ht => ?_
  by_cases hmem : t.kind ∈ kinds
  · rw [reading_kind_of_mem hmem]
    simp only [if_pos hmem]
    exact .take t ht
  · rw [reading_kind_of_not_mem hmem]
    simp only [if_neg hmem]
    exact .refuse _ ht

/-- The procedure reads what begins with a token of the kind `k`. Where such a token stands, it ends
with the outcome `x`. Anywhere else it fails on the spot. -/
structure Headed (s : Scan α) (what : String) (k : Token.Kind) (ts : List Token) (start : Nat)
    (x : Token → Reading α) : Prop where
  ends : ∀ t, ts[start]? = some t → t.kind = k → Ends s ts start (start + 1) (x t)
  fails : (∀ t, ts[start]? = some t → t.kind ≠ k) →
    s.run ts start = some (.error (.head what), start)

theorem headed_kind (what : String) (k : Token.Kind) (ts : List Token) (start : Nat) :
    Headed (kind (.head what) [k]) what k ts start fun t => .ok (t, ts.drop (start + 1)) where
  ends t ht hk :=
    ⟨.ok t, start + 1, run_kind_of_mem _ ht (List.mem_singleton.2 hk), Nat.le_succ _,
      lt_length_of_getElem? ht, fun _ _ => Nat.le_refl _, rfl⟩
  fails h := run_kind_of_not_mem _ fun t ht hk => h t ht (List.mem_singleton.1 hk)

/-- The token is checked and taken, and what comes after it is read. -/
theorem Headed.of_kind {what : String} {k : Token.Kind} {f : Token → Scan α}
    {x : Token → Reading α}
    (hf : ∀ t, ts[start]? = some t → t.kind = k → Ends (f t) ts (start + 1) (start + 1) (x t)) :
    Headed (do f (← kind (.head what) [k])) what k ts start x where
  ends t ht hk := by
    obtain ⟨outcome, stop, hrun, hstart, hstop, hleast, hx⟩ := hf t ht hk
    have hname := run_kind_of_mem (.head what) ht (List.mem_singleton.2 hk)
    exact ⟨outcome, stop, (run_bind_of_ok hname).trans hrun, Nat.le_of_succ_le hstart, hstop,
      hleast, hx⟩
  fails h := run_bind_of_error ((headed_kind what k ts start).fails h)

/-! ### Expressions -/

-- The recursion is on the number of tokens that are left. Where that stays the same, it is on the
-- level of the phrase: an operand comes below all levels, and a call below that.
open Procedure in
mutual

theorem call_headed (ts : List Token) (start : Nat) :
    Headed (scan call) "a function name" .method ts start fun _ =>
      reading Expr.operand (ts.drop start) := by
  rw [scan]
  refine .of_kind fun t ht hmethod => ?_
  have hlt := lt_length_of_getElem? ht
  rw [drop_of_getElem? ht, Expr.reading_operand_of_method hmethod]
  refine (sign_ends _ _ hlt).bind fun _ stop _ hle hstop => ?_
  refine (arguments_ends ts stop hstop).bind fun args stop hstart _ hstop => ?_
  refine (sign_ends _ _ hstop).bind fun _ stop _ _ hstop => ?_
  exact (Ends.pure _ hstop).mono (by omega)
termination_by (ts.length - start, 0)

theorem operand_ends (ts : List Token) (start : Nat) (h : start ≤ ts.length) :
    Ends (scan operand) ts start (start + 1) (reading Expr.operand (ts.drop start)) := by
  rw [scan]
  refine .look (fun hend => ?_) fun t ht => ?_
  · rw [Expr.reading_operand_nil]
    exact .miss _ h hend
  have hlt := lt_length_of_getElem? ht
  by_cases hmethod : t.kind = .method
  · simp only [hmethod]
    rw [← drop_of_getElem? ht]
    exact (call_headed ts start).ends t ht hmethod
  simp only [Expr.reading_operand_cons]
  cases hk : t.kind with
  | number =>
    cases Text.readInt32? t.text with
    | some n => exact .take _ ht
    | none => exact .refuse _ ht
  | boolean | string | color | identifier => exact .take _ ht
  | operator =>
    by_cases hminus : t.text = "-"
    · simp only [if_pos hminus]
      refine .advance ((operand_ends ts (start + 1) hlt).bind fun e stop _ hle hstop => ?_)
      exact (Ends.pure _ hstop).mono (by omega)
    · simp only [if_neg hminus]
      exact .refuse _ ht
  | parenthesis =>
    by_cases hopening : t.text = "("
    · simp only [if_pos hopening]
      refine .advance ((phrase_ends _ ts (start + 1) hlt).bind fun e stop _ hle hstop => ?_)
      refine (sign_ends _ _ hstop).bind fun _ stop _ _ hstop => ?_
      exact (Ends.pure _ hstop).mono (by omega)
    · simp only [if_neg hopening]
      exact .refuse _ ht
  | method => exact absurd hk hmethod
  | comparison | assignment | brace | comma | label => exact .refuse _ ht
termination_by (ts.length - start, 1)

theorem phrase_ends (n : Nat) (ts : List Token) (start : Nat) (h : start ≤ ts.length) :
    Ends (scan (phrase n)) ts start (start + 1) (reading (Expr.phrase n) (ts.drop start)) := by
  cases n with
  | zero =>
    rw [scan, Expr.reading_phrase_zero]
    exact operand_ends ts start h
  | succ n =>
    rw [scan, Expr.reading_phrase_succ]
    refine (phrase_ends n ts start h).bind fun e stop _ hle hstop => ?_
    exact (joined_ends n e ts stop hstop).mono hle
termination_by (ts.length - start, n + 2)

theorem joined_ends (n : Nat) (left : Expr) (ts : List Token) (start : Nat)
    (h : start ≤ ts.length) :
    Ends (scan (joined n left)) ts start start (reading (Expr.joined n left) (ts.drop start)) := by
  rw [scan]
  refine .look (fun hend => ?_) fun t ht => ?_
  · rw [Expr.reading_joined_nil]
    exact .done _ h hend
  have hlt := lt_length_of_getElem? ht
  by_cases hop : ∃ op, Operator.ofToken? t = some op ∧ op.level = n
  · obtain ⟨op, hop, hn⟩ := hop
    rw [Expr.reading_joined_of_sign hop hn]
    simp only [hop, if_pos hn]
    refine .advance ((phrase_ends n ts (start + 1) hlt).bind fun right stop _ hle hstop => ?_)
    exact (joined_ends n (.binary op left right) ts stop hstop).mono (by omega)
  · rw [Expr.reading_joined_of_not_sign fun op hsome hn => hop ⟨op, hsome, hn⟩]
    cases hsome : Operator.ofToken? t with
    | none =>
      simp only [hsome]
      exact .leave left ht
    | some op =>
      simp only [hsome, if_neg fun hn => hop ⟨op, hsome, hn⟩]
      exact .leave left ht
termination_by (ts.length - start, 0)

theorem arguments_ends (ts : List Token) (start : Nat) (h : start ≤ ts.length) :
    Ends (scan arguments) ts start start (reading Expr.arguments (ts.drop start)) := by
  rw [scan]
  refine .peek ?_
  by_cases hclose : ∃ t, ts[start]? = some t ∧ t.Is .parenthesis ")"
  · obtain ⟨t, ht, hclose⟩ := hclose
    rw [drop_of_getElem? ht, Expr.reading_arguments_of_close hclose, ht,
      if_pos (by simpa using hclose)]
    exact .leave [] ht
  · rw [Expr.reading_arguments_of_not_close (by simpa [List.head?_drop] using hclose),
      if_neg fun hany => hclose (by simpa [Option.any_eq_true] using hany)]
    refine (phrase_ends _ ts start h).bind fun e stop _ hle hstop => ?_
    refine (moreArguments_ends ts stop hstop).bind fun es stop hstart _ hstop => ?_
    exact (Ends.pure _ hstop).mono (by omega)
termination_by (ts.length - start, Expr.topLevel + 3)

theorem moreArguments_ends (ts : List Token) (start : Nat) (h : start ≤ ts.length) :
    Ends (scan moreArguments) ts start start (reading Expr.moreArguments (ts.drop start)) := by
  rw [scan]
  refine .look (fun hend => ?_) fun t ht => ?_
  · rw [Expr.reading_moreArguments_nil]
    exact .done _ h hend
  have hlt := lt_length_of_getElem? ht
  by_cases hcomma : t.Is .comma ","
  · rw [Expr.reading_moreArguments_of_comma hcomma]
    simp only [if_pos hcomma]
    refine .advance ((phrase_ends _ ts (start + 1) hlt).bind fun e stop _ hle hstop => ?_)
    refine (moreArguments_ends ts stop hstop).bind fun es stop hstart _ hstop => ?_
    exact (Ends.pure _ hstop).mono (by omega)
  · rw [Expr.reading_moreArguments_of_not_comma hcomma]
    simp only [if_neg hcomma]
    exact .leave _ ht
termination_by (ts.length - start, 0)

end

/-! ### Statements -/

/-- Wherever it begins, the procedure ends with the outcome of the reader. If it succeeds, it has
taken `n` tokens or more. -/
def Tracks (s : Scan α) (r : Reader α) (n : Nat) : Prop :=
  ∀ (ts : List Token) (start : Nat), start ≤ ts.length →
    Ends s ts start (start + n) (r.reading (ts.drop start))

theorem tracks_pure (a : α) : Tracks (pure a) (pure a) 0 := fun _ _ => .pure a

theorem tracks_fail (cause : Cause) (n : Nat) :
    Tracks (fail cause : Scan α) (Reader.fail cause) n := fun _ _ => .fail cause

theorem tracks_sign (kind : Token.Kind) (text : String) :
    Tracks (sign kind text) (Reader.sign kind text) 1 := fun _ _ => sign_ends kind text

theorem tracks_kind (what : Wanted) (kinds : List Token.Kind) :
    Tracks (kind (.cause (.wanted what)) kinds) (Reader.kind what kinds) 1 :=
  fun _ _ => kind_ends what kinds

theorem tracks_expression : Tracks expression Expr.reader 1 := phrase_ends Expr.topLevel

theorem Tracks.bind {r : Reader α} {f : α → Reader β} {m n : Nat} (hs : Tracks s r m)
    (hk : ∀ a, Tracks (k a) (f a) n) : Tracks (s >>= k) (r >>= f) (m + n) := by
  intro ts start h
  rw [reading_bind]
  refine (hs ts start h).bind fun a stop _ hmid hstop => ?_
  exact (hk a ts stop hstop).mono (by omega)

theorem Tracks.any {r : Reader α} {n : Nat} (hs : Tracks s r n) : Tracks s r 0 :=
  fun ts start h => (hs ts start h).mono (Nat.le_add_right start n)

/-- The procedure begins after the token at the place. -/
theorem Tracks.after {r : Reader α} {n : Nat} (hs : Tracks s r n) (ht : ts[start]? = some t) :
    Ends s ts (start + 1) (start + 1) (r.reading (ts.drop (start + 1))) :=
  hs.any ts (start + 1) (lt_length_of_getElem? ht)

theorem tracks_next : Tracks next Expr.nextReader 2 :=
  (tracks_sign _ _).bind fun _ => tracks_expression

/-- So many expressions, each with a comma before it. -/
def followingReader : (n : Nat) → Builder n → Reader Stmt
  | 0, s => return s
  | n + 1, build => do
    let e ← Expr.nextReader
    followingReader n (build e)

/-- One expression and so many more, with commas between them. -/
def listedReader (n : Nat) (build : Builder (n + 1)) : Reader Stmt := do
  let e ← Expr.reader
  followingReader n (build e)

theorem tracks_following (n : Nat) (build : Builder n) :
    Tracks (following n build) (followingReader n build) (2 * n) := by
  induction n with
  | zero => exact tracks_pure build
  | succ n ih =>
    rw [Nat.mul_succ, Nat.add_comm (2 * n)]
    exact tracks_next.bind fun e => ih (build e)

theorem tracks_listed (n : Nat) (build : Builder (n + 1)) :
    Tracks (listed n build) (listedReader n build) (1 + 2 * n) :=
  tracks_expression.bind fun e => tracks_following n (build e)

theorem tracks_commandArguments (name : String) (opening : Token) :
    Tracks (commandArguments name opening) (Stmt.arguments name opening) 0 := by
  unfold commandArguments
  split
  · exact (tracks_listed 1 .spawn).any
  · exact ((tracks_kind _ _).bind fun _ => tracks_pure _).any
  · exact (tracks_listed 0 .size).any
  · exact (tracks_listed 2 .line).any
  · exact (tracks_listed 2 .circle).any
  · exact (tracks_listed 4 .rectangle).any
  · exact tracks_pure _
  · rw [Stmt.arguments]
    · exact tracks_fail _ _
    all_goals assumption

theorem command_headed (ts : List Token) (start : Nat) :
    Headed command "a command" .method ts start fun t =>
      (Stmt.commandReader t.text).reading (ts.drop (start + 1)) :=
  .of_kind fun t ht _ => ((tracks_sign _ _).bind fun opening =>
    (tracks_commandArguments t.text opening).bind fun _ => (tracks_sign _ _).bind fun _ =>
    tracks_pure _).after ht

theorem assignment_headed (ts : List Token) (start : Nat) :
    Headed assignment "a variable name" .identifier ts start fun t =>
      (Stmt.assignReader t.text).reading (ts.drop (start + 1)) :=
  .of_kind fun _ ht _ => ((tracks_kind _ _).bind fun _ => tracks_expression.bind fun _ =>
    tracks_pure _).after ht

/-- The first token of a jump is taken without a look, and must be there. -/
theorem goto_ends (ht : ts[start]? = some t) :
    Ends goto ts start (start + 1) (Stmt.gotoReader.reading (ts.drop (start + 1))) :=
  .advance (((tracks_sign _ _).bind fun _ => (tracks_kind _ _).bind fun _ =>
    (tracks_sign _ _).bind fun _ => (tracks_sign _ _).bind fun _ => tracks_expression.bind fun _ =>
    (tracks_sign _ _).bind fun _ => tracks_pure _).after ht)

/-- The token at the place tells which procedure to carry out, which is called at that token. -/
theorem statement_ends (ht : ts[start]? = some t) :
    Ends statement ts start (start + 1)
      ((Stmt.readerAfter t).reading (ts.drop (start + 1))) := by
  refine .peek ?_
  simp only [ht]
  unfold Stmt.readerAfter
  cases hk : t.kind with
  | method =>
    by_cases hgoto : t.text = "GoTo"
    · simp only [if_pos hgoto]
      exact goto_ends ht
    · simp only [if_neg hgoto]
      exact (command_headed ts start).ends t ht hk
  | identifier => exact (assignment_headed ts start).ends t ht hk
  | label => exact .take _ ht
  | _ => exact .refuse _ ht

theorem run_statement_of_atEnd (h : ts[start]? = none) :
    statement.run ts start = some (.error (.head "a statement"), start) := by
  rw [statement, run_peek, h]
  rfl

/-! ### Programs -/

/-- The loop goes on until all tokens are taken. -/
theorem scanAfter_ends (done : Program) (ts : List Token) (start : Nat) (h : start ≤ ts.length) :
    Ends (Program.scanAfter done) ts start ts.length
      ((Program.allTaken (Program.statements (ts.drop start))).andThen fun ss rest =>
        .ok (done ++ ss, rest)) := by
  rw [Program.scanAfter]
  refine .atEnd ?_
  by_cases hend : ts.length ≤ start
  · rw [if_pos (decide_eq_true hend)]
    have ht : ts[start]? = none := List.getElem?_eq_none hend
    rw [drop_of_getElem?_eq_none ht, Program.statements_nil]
    change Ends (pure done) ts start ts.length (.ok (done ++ [], []))
    rw [List.append_nil]
    exact (Ends.done done h ht).mono hend
  · rw [if_neg (by simpa using hend)]
    have ht := List.getElem?_eq_getElem (Nat.lt_of_not_le hend)
    rw [drop_of_getElem? ht, Program.reading_statements_cons, Reading.andThen_assoc]
    refine (statement_ends ht).bind fun s stop _ hle hstop => ?_
    have hmore := scanAfter_ends (done ++ [s]) ts stop hstop
    simp only [List.append_assoc, List.singleton_append] at hmore
    rw [Reading.andThen_assoc]
    exact hmore
termination_by ts.length - start

theorem program_ends (ts : List Token) :
    Ends program ts 0 1 (Program.allTaken (Program.ofTokens? ts)) := by
  refine .peek ?_
  rw [Program.ofTokens?, List.head?_eq_getElem?]
  by_cases hspawn : (ts[0]?.any fun t => t.Is .method "Spawn") = true
  · rw [if_pos hspawn, if_pos hspawn]
    have hlength : 1 ≤ ts.length := by
      cases ts with
      | nil => simp at hspawn
      | cons t tail => exact Nat.le_add_left 1 _
    have hall := (scanAfter_ends [] ts 0 (Nat.zero_le _)).mono hlength
    simp only [List.nil_append, Reading.andThen_ok] at hall
    exact hall
  · rw [if_neg hspawn, if_neg hspawn]
    exact .fail _ (Nat.zero_le _)

/-! ### Progress -/

/-- **Every procedure makes progress** when it begins at the place `start`. The procedure for jumps
moves the place on without a look, so that a token must stand there. -/
structure Progress (ts : List Token) (start : Nat) : Prop where
  sign : ∀ (kind : Token.Kind) (text : String),
    Ends (sign kind text) ts start (start + 1) ((Reader.sign kind text).reading (ts.drop start))
  kind : ∀ (what : Wanted) (kinds : List Token.Kind),
    Ends (kind (.cause (.wanted what)) kinds) ts start (start + 1)
      ((Reader.kind what kinds).reading (ts.drop start))
  head : ∀ (what : String) (k : Token.Kind),
    Headed (Scan.kind (.head what) [k]) what k ts start fun t => .ok (t, ts.drop (start + 1))
  operand : Ends (Procedure.scan .operand) ts start (start + 1)
    (reading Expr.operand (ts.drop start))
  call : Headed (Procedure.scan .call) "a function name" .method ts start fun _ =>
    reading Expr.operand (ts.drop start)
  phrase : ∀ n, Ends (Procedure.scan (.phrase n)) ts start (start + 1)
    (reading (Expr.phrase n) (ts.drop start))
  /-- Nothing need be joined to a phrase, and then no token is taken. -/
  joined : ∀ n left, Ends (Procedure.scan (.joined n left)) ts start start
    (reading (Expr.joined n left) (ts.drop start))
  /-- A call need not have arguments. -/
  arguments : Ends (Procedure.scan .arguments) ts start start
    (reading Expr.arguments (ts.drop start))
  moreArguments : Ends (Procedure.scan .moreArguments) ts start start
    (reading Expr.moreArguments (ts.drop start))
  /-- Of `n + 1` arguments each takes a token, and so does each comma. -/
  listed : ∀ (n : Nat) (build : Builder (n + 1)),
    Ends (listed n build) ts start (start + (1 + 2 * n))
      ((listedReader n build).reading (ts.drop start))
  command : Headed command "a command" .method ts start fun t =>
    (Stmt.commandReader t.text).reading (ts.drop (start + 1))
  assignment : Headed assignment "a variable name" .identifier ts start fun t =>
    (Stmt.assignReader t.text).reading (ts.drop (start + 1))
  goto : ∀ t, ts[start]? = some t → Ends goto ts start (start + 1)
    (Stmt.gotoReader.reading (ts.drop (start + 1)))
  statement : ∀ t, ts[start]? = some t → Ends statement ts start (start + 1)
    ((Stmt.readerAfter t).reading (ts.drop (start + 1)))
  /-- Where nothing is left there is no statement, and the place is not moved. -/
  statementAtEnd : ts[start]? = none →
    Scan.statement.run ts start = some (.error (.head "a statement"), start)

/-- **Reading always makes progress.** Whatever the tokens are, the procedure for programs comes to
an end, with the program or the failure of `Program.ofTokens?`, and so does every procedure for the
parts of a program, wherever it begins. The place among the tokens is never moved back, and never
beyond them, also if there is a failure. A success takes at least one token, unless the part can be
empty. -/
theorem reading_makes_progress (ts : List Token) :
    Ends program ts 0 1 (Program.allTaken (Program.ofTokens? ts)) ∧
      ∀ start ≤ ts.length, Progress ts start := by
  refine ⟨program_ends ts, fun start hle => ?_⟩
  exact {
    sign := fun kind text => sign_ends kind text hle
    kind := fun what kinds => kind_ends what kinds hle
    head := fun what k => headed_kind what k ts start
    operand := operand_ends ts start hle
    call := call_headed ts start
    phrase := fun n => phrase_ends n ts start hle
    joined := fun n left => joined_ends n left ts start hle
    arguments := arguments_ends ts start hle
    moreArguments := moreArguments_ends ts start hle
    listed := fun n build => tracks_listed n build ts start hle
    command := command_headed ts start
    assignment := assignment_headed ts start
    goto := fun _ => goto_ends
    statement := fun _ => statement_ends
    statementAtEnd := run_statement_of_atEnd }

/-- The name of a command. -/
def fillName : Token := ⟨.method, "Fill", ⟨13, 2, 1⟩⟩

/-- The tokens of `Spawn(0, -1)`, and of a command that breaks off after its name. -/
def brokenOff : List Token := Program.placing ++ [fillName]

theorem reading_fillName :
    (Stmt.readerAfter fillName).reading [] = .error ⟨.wanted (.sign "("), []⟩ := by
  rw [Stmt.readerAfter_command rfl (by decide), Stmt.reading_commandReader]
  rfl

theorem allTaken_ofTokens?_brokenOff :
    Program.allTaken (Program.ofTokens? brokenOff) = .error ⟨.wanted (.sign "("), []⟩ := by
  change Program.allTaken (Program.statements brokenOff) = _
  rw [brokenOff, Program.reading_statements_append Program.statement_placing
      (Expr.stops_of_kind (by decide) (by decide)),
    Program.reading_statements_cons, reading_fillName]
  rfl

/-- What is missing is noticed behind the last token, by the procedure for the second statement.
That is as far as the place can be moved. -/
theorem reading_makes_progress_brokenOff :
    program.run brokenOff 0 = some (.error (.cause (.wanted (.sign "("))), 8) ∧
      7 ≤ brokenOff.length ∧ brokenOff[7]? = some fillName ∧
      Ends statement brokenOff 7 8 (.error ⟨.wanted (.sign "("), []⟩) := by
  obtain ⟨⟨outcome, stop, hrun, -, hstop, -, hx⟩, hall⟩ := reading_makes_progress brokenOff
  have hstatement := (hall 7 (by decide)).statement fillName rfl
  refine ⟨?_, by decide, rfl, reading_fillName ▸ hstatement⟩
  rw [allTaken_ofTokens?_brokenOff] at hx
  cases outcome with
  | ok p => cases hx
  | error cause =>
    obtain ⟨rfl, hrest⟩ := Failure.mk.inj (Except.error.inj hx)
    have hle := List.drop_eq_nil_iff.1 hrest.symm
    rw [hrun, Nat.le_antisymm hstop hle]
    rfl

end Scan

end Easel
