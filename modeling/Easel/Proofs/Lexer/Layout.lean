import Easel.Proofs.Lexer.Lexeme
import Mathlib.Data.List.DropRight

/-!
# The layout of a text

A text that the lexer accepts is its tokens with gaps before, between and after them, where a gap is
blanks and comments and nothing else. Every token stands where its place says (`Layout`), and a
place is what counting bytes, lines and characters of the text before it gives (`Position.after`).
Where the lexer fails, it has accepted everything before the character that it names.
-/

namespace Easel

namespace Position

/-- The place after a text, counted out. -/
def after (before : String) : Position where
  offset := before.utf8ByteSize
  line := before.toList.count '\n' + 1
  column := (before.toList.rtakeWhile (· ≠ '\n')).length + 1

/-- Going on character by character counts out the place. -/
theorem advanceBy_start (cs : List Char) : start.advanceBy cs = after (String.ofList cs) := by
  induction cs using List.reverseRecOn with
  | nil => rfl
  | append_singleton cs c ih =>
    have hsize : (String.ofList (cs ++ [c])).utf8ByteSize =
        (String.ofList cs).utf8ByteSize + c.utf8Size := by
      simp [String.ofList_append]
    rw [advanceBy_append, ih, advanceBy_cons, advanceBy_nil]
    simp only [advance, after, hsize, String.toList_ofList]
    split
    · next hc => simp [List.count_append, hc]
    · next hc => simp [List.count_append, hc]

end Position

namespace Token

/-- Blanks and comments, one after the other, when the rest comes after them. -/
inductive Gap : List Char → List Char → Prop where
  /-- Nothing. -/
  | nil {rest : List Char} : Gap [] rest
  /-- A blank or a comment, and a gap after it. -/
  | cons {p gap rest : List Char} : Lexeme none p (gap ++ rest) → Gap gap rest →
      Gap (p ++ gap) rest

/-- The text after `before` is the tokens in their places, with gaps around them. -/
inductive Layout : List Char → List Char → List Token → Prop where
  /-- Only a gap. -/
  | nil {before gap : List Char} : Gap gap [] → Layout before gap []
  /-- A gap, a token and what comes after it. -/
  | cons {before gap rest p : List Char} {k : Kind} {ts : List Token} : Gap gap (p ++ rest) →
      Lexeme (some k) p rest → Layout (before ++ gap ++ p) rest ts →
      Layout before (gap ++ (p ++ rest))
        (⟨k, String.ofList p, .after (String.ofList (before ++ gap))⟩ :: ts)

/-- Between these two numbers of bytes, the text has blanks and comments and nothing else. -/
def GapBetween (source : String) (i j : Nat) : Prop :=
  ∃ before gap rest : String, source = before ++ gap ++ rest ∧ before.utf8ByteSize = i ∧
    (before ++ gap).utf8ByteSize = j ∧ Gap gap.toList rest.toList

section

variable {before cs p rest : List Char} {ts : List Token}

theorem stop_after (k : Kind) : stop ⟨k, String.ofList p, .after (String.ofList before)⟩ =
    (String.ofList (before ++ p)).utf8ByteSize := by
  rw [String.ofList_append, String.utf8ByteSize_append]
  rfl

/-- A blank or a comment more at the front. -/
theorem Layout.skip (h : Lexeme none p rest) (hlayout : Layout (before ++ p) rest ts) :
    Layout before (p ++ rest) ts := by
  cases hlayout with
  | nil hgap => exact .nil (.cons (by simpa using h) hgap)
  | @cons _ gap rest q k ts hgap hq hrest =>
    rw [← List.append_assoc, List.append_assoc before p gap]
    refine .cons (.cons h hgap) hq ?_
    rwa [← List.append_assoc before p gap]

/-- **What the lexer accepts is laid out so.** The induction is on the lexer's steps. -/
theorem layout_of_lexFrom (h : lexFrom (Position.start.advanceBy before) cs = .ok ts) :
    Layout before cs ts := by
  induction cs using lexeme_induction generalizing before ts with
  | nil =>
    rw [lexFrom_nil] at h
    cases h
    exact .nil .nil
  | stuck c tail hscan =>
    rw [lexFrom_of_scan?_eq_none hscan] at h
    cases h
  | lexeme k p rest hp ih =>
    rw [hp.lexFrom, ← Position.advanceBy_append] at h
    cases hrest : lexFrom (Position.start.advanceBy (before ++ p)) rest with
    | error e => rw [hrest] at h; cases h
    | ok ts' =>
      rw [hrest] at h
      cases h
      have hlayout := ih hrest
      cases k with
      | none => exact hlayout.skip hp
      | some k =>
        have hcons : Layout before ([] ++ (p ++ rest)) _ :=
          .cons .nil hp (by simpa using hlayout)
        simpa [ofPiece, Position.advanceBy_start] using hcons

/-- **Where the lexer fails,** no lexeme begins, and everything before is accepted. -/
theorem lexFrom_eq_error {pos : Position} {e : LexError} (h : lexFrom pos cs = .error e) :
    ∃ before rest, cs = before ++ e.found :: rest ∧ e.pos = pos.advanceBy before ∧
      (∃ ts, lexFrom pos before = .ok ts) ∧ scan? (e.found :: rest) = none := by
  induction cs using lexeme_induction generalizing pos with
  | nil =>
    rw [lexFrom_nil] at h
    cases h
  | stuck c tail hscan =>
    rw [lexFrom_of_scan?_eq_none hscan] at h
    cases h
    exact ⟨[], tail, rfl, rfl, ⟨[], lexFrom_nil pos⟩, hscan⟩
  | lexeme k p rest hp ih =>
    rw [hp.lexFrom] at h
    cases hrest : lexFrom (pos.advanceBy p) rest with
    | ok ts => rw [hrest] at h; cases h
    | error e' =>
      rw [hrest] at h
      cases h
      obtain ⟨before, rest', rfl, hpos, ⟨ts, hts⟩, hscan⟩ := ih hrest
      refine ⟨p ++ before, rest', by simp, by rw [hpos, Position.advanceBy_append], ?_, hscan⟩
      -- the text is cut off before the character, which no lexeme before it can tell
      have hcut : Lexeme k p before := hp.of_head? fun c hc => by
        cases before with
        | nil => simp at hc
        | cons d before => simpa using hc
      rw [hcut.lexFrom, hts]
      exact ⟨_, rfl⟩

/-- A token is a lexeme of its kind that stands in the text where its place says. -/
theorem Layout.slice (h : Layout before cs ts) {t : Token} (ht : t ∈ ts) :
    ∃ between rest, cs = between ++ t.text.toList ++ rest ∧
      Lexeme (some t.kind) t.text.toList rest ∧
      t.pos = .after (String.ofList (before ++ between)) := by
  induction h with
  | nil => cases ht
  | @cons before gap rest p k ts hgap hp hrest ih =>
    rcases List.mem_cons.1 ht with rfl | ht
    · exact ⟨gap, rest, by simp, by simpa using hp, rfl⟩
    · obtain ⟨between, rest', rfl, hlexeme, hpos⟩ := ih ht
      exact ⟨gap ++ p ++ between, rest', by simp, hlexeme, by simpa using hpos⟩

/-- No token begins before the text does. -/
theorem Layout.le_offset (h : Layout before cs ts) {t : Token} (ht : t ∈ ts) :
    (String.ofList before).utf8ByteSize ≤ t.pos.offset := by
  obtain ⟨between, rest, -, -, hpos⟩ := h.slice ht
  rw [hpos, String.ofList_append]
  simp [Position.after]

theorem Layout.pairwise (h : Layout before cs ts) :
    ts.Pairwise fun t u => t.stop ≤ u.pos.offset := by
  induction h with
  | nil => exact .nil
  | @cons before gap rest p k ts hgap hp hrest ih =>
    refine .cons (fun u hu => ?_) ih
    rw [stop_after]
    exact hrest.le_offset hu

/-- Before, between and after the tokens there are gaps. -/
theorem Layout.gaps (h : Layout before cs ts) :
    ∀ q ∈ ((String.ofList before).utf8ByteSize :: ts.map stop).zip
        (ts.map (·.pos.offset) ++ [(String.ofList (before ++ cs)).utf8ByteSize]),
      GapBetween (String.ofList (before ++ cs)) q.1 q.2 := by
  induction h with
  | @nil before gap hgap =>
    intro q hq
    obtain rfl := List.mem_singleton.1 hq
    exact ⟨String.ofList before, String.ofList gap, "", by simp [String.ofList_append], rfl,
      by rw [String.ofList_append], by simpa using hgap⟩
  | @cons before gap rest p k ts hgap hp hrest ih =>
    intro q hq
    rw [List.map_cons, List.map_cons, List.cons_append, List.zip_cons_cons] at hq
    rcases List.mem_cons.1 hq with rfl | hq
    · exact ⟨String.ofList before, String.ofList gap, String.ofList (p ++ rest),
        by simp [String.ofList_append, String.append_assoc], rfl,
        by simp [Position.after, String.ofList_append], by simpa using hgap⟩
    · have hsource : before ++ (gap ++ (p ++ rest)) = before ++ gap ++ p ++ rest := by simp
      rw [stop_after, hsource] at hq
      rw [hsource]
      exact ih q hq

/-- **Every byte of a text is accounted for.** Each token is a piece of the text at its place, no
two overlap, and from the end of one (or the beginning of the text) to the next (or the end of the
text) there is a gap. Otherwise the text is accepted up to a character that begins no lexeme. -/
theorem lex_accounts_for_text (source : String) :
    match lex source with
    | .ok ts =>
      (∀ t ∈ ts, t.pos.offset < t.stop ∧ ∃ before rest : String,
        source = before ++ t.text ++ rest ∧ t.pos = .after before ∧
        Lexeme (some t.kind) t.text.toList rest.toList) ∧
      (ts.Pairwise fun t u => t.stop ≤ u.pos.offset) ∧
      ∀ q ∈ (0 :: ts.map stop).zip (ts.map (·.pos.offset) ++ [source.utf8ByteSize]),
        GapBetween source q.1 q.2
    | .error e => ∃ before rest : String,
      source = before ++ String.singleton e.found ++ rest ∧ e.pos = .after before ∧
      (∃ ts, lex before = .ok ts) ∧
      ∀ k p rest', e.found :: rest.toList = p ++ rest' → ¬Lexeme k p rest' := by
  split
  · next ts hts =>
    have hlayout : Layout [] source.toList ts := layout_of_lexFrom hts
    refine ⟨fun t ht => ?_, hlayout.pairwise, by simpa using hlayout.gaps⟩
    obtain ⟨between, rest, hsource, hlexeme, hpos⟩ := hlayout.slice ht
    constructor
    · have hne : t.text ≠ "" := by simpa using hlexeme.ne_nil
      exact Nat.lt_add_of_pos_right (Nat.pos_of_ne_zero (mt String.utf8ByteSize_eq_zero_iff.1 hne))
    · refine ⟨String.ofList between, String.ofList rest, ?_, hpos, by simpa using hlexeme⟩
      rw [← String.toList_inj, hsource]
      simp
  · next e he =>
    obtain ⟨before, rest, hsource, hpos, ⟨ts, hts⟩, hscan⟩ := lexFrom_eq_error he
    refine ⟨String.ofList before, String.ofList rest, ?_, ?_, ⟨ts, by simpa [lex] using hts⟩, ?_⟩
    · rw [← String.toList_inj, hsource]
      simp
    · rw [hpos, Position.advanceBy_start]
    · intro k p rest' heq hlexeme
      rw [String.toList_ofList] at heq
      rw [heq, hlexeme.scan?] at hscan
      cases hscan

end

end Token

end Easel
