import Easel.Text.Blank
import Easel.Token.Basic

/-!
# From text to tokens

A rule of the lexer names a kind of word and says which piece at the front of a text is such a
word. The rules are tried in order and the first that finds a piece wins, also over rules that
would find a longer one. Blanks and comments are pieces without a kind, and leave no token.
-/

namespace Easel.Token

/-! ### Pieces of text -/

/-- A character of a word: a letter, a digit or an underscore. -/
def isWordChar (c : Char) : Bool := c.isAlphanum || c == '_'

/-- A character that a name may begin with. -/
def isNameStart (c : Char) : Bool := c.isAlpha || c == '_'

/-- The whole word at the front of a text. -/
def word (cs : List Char) : List Char := cs.takeWhile isWordChar

/-- The whole word at the front, if it is one of the given words. -/
def wordOf (words : List String) (cs : List Char) : List Char :=
  if String.ofList (word cs) ∈ words then word cs else []

/-- The first of the given signs that the text begins with. -/
def signOf (signs : List String) (cs : List Char) : List Char :=
  ((signs.map String.toList).find? (·.isPrefixOf cs)).getD []

/-- The text up to and including the first `*/`, or all of it. -/
def throughClose : List Char → List Char
  | '*' :: '/' :: _ => ['*', '/']
  | c :: cs => c :: throughClose cs
  | [] => []

/-- The comment at the front: `//` to the end of the line, or `/*` to the next `*/`. A comment that
is not closed extends to the end of the text. -/
def comment : List Char → List Char
  | '/' :: '/' :: cs => '/' :: '/' :: cs.takeWhile (· ≠ '\n')
  | '/' :: '*' :: cs => '/' :: '*' :: throughClose cs
  | _ => []

/-- The digits at the front, unless they run into a word. -/
def digits (cs : List Char) : List Char :=
  let ds := cs.takeWhile Char.isDigit
  if ((cs.drop ds.length).head?.any isWordChar) then [] else ds

/-- The text in quotes at the front. It ends at the next quote, and may hold line feeds. -/
def quoted : List Char → List Char
  | '"' :: cs =>
    let body := cs.takeWhile (· ≠ '"')
    if body.length < cs.length then '"' :: body ++ ['"'] else []
  | _ => []

/-- The name at the front. -/
def name (cs : List Char) : List Char :=
  if cs.head?.any isNameStart then word cs else []

/-- The name at the front together with the colon that follows it. -/
def nameColon (cs : List Char) : List Char :=
  let n := name cs
  if n ≠ [] ∧ (cs.drop n.length).head? = some ':' then n ++ [':'] else []

/-- The blanks at the front. -/
def blanks (cs : List Char) : List Char := cs.takeWhile Text.isBlank

/-! ### Rules -/

/-- The names of commands and functions. -/
def methods : List String :=
  ["Spawn", "Color", "Size", "DrawLine", "DrawCircle", "DrawRectangle", "Fill", "GetActualX",
    "GetActualY", "GetCanvasSize", "GetColorCount", "IsBrushColor", "IsCanvasColor", "GoTo"]

/-- The words for colours. -/
def colors : List String :=
  ["Red", "Blue", "Green", "Yellow", "Orange", "Purple", "Black", "White", "Transparent"]

/-- A rule of the lexer. -/
structure Rule where
  /-- The kind of token that the rule makes, if it makes one. -/
  kind? : Option Kind
  /-- The piece at the front of a text that the rule finds. It finds none if this is empty. -/
  piece : List Char → List Char

/-- The rules, in the order in which they are tried. -/
def rules : List Rule :=
  [⟨some .method, wordOf methods⟩,
    ⟨some .boolean, wordOf ["true", "false"]⟩,
    ⟨some .color, wordOf colors⟩,
    ⟨some .assignment, signOf ["←", "<-"]⟩,
    ⟨some .comparison, signOf ["==", "!=", "<=", ">=", "<", ">"]⟩,
    ⟨none, comment⟩,
    ⟨some .operator, signOf ["+", "-", "*", "/", "%"]⟩,
    ⟨some .number, digits⟩,
    ⟨some .string, quoted⟩,
    ⟨some .parenthesis, signOf ["(", ")"]⟩,
    ⟨some .brace, signOf ["[", "]", "\x7b", "\x7d"]⟩,
    ⟨some .comma, signOf [","]⟩,
    ⟨some .label, nameColon⟩,
    ⟨some .identifier, name⟩,
    ⟨none, blanks⟩]

/-- What a rule finds at the front of a text: the kind, and a piece that is not empty. -/
def Rule.find? (r : Rule) (cs : List Char) : Option (Option Kind × List Char) :=
  if r.piece cs = [] then none else some (r.kind?, r.piece cs)

/-- What the first rule that finds a piece finds. -/
def scan? (cs : List Char) : Option (Option Kind × List Char) := rules.findSome? (·.find? cs)

theorem ne_nil_of_scan? {cs piece : List Char} {kind? : Option Kind}
    (h : scan? cs = some (kind?, piece)) : piece ≠ [] := by
  obtain ⟨r, -, hr⟩ := List.exists_of_findSome?_eq_some h
  unfold Rule.find? at hr
  split at hr
  · cases hr
  · next hne => cases hr; exact hne

/-! ### The lexer -/

/-- A character that begins no word, and its place. -/
structure LexError where
  /-- The character. -/
  found : Char
  /-- The place before it. -/
  pos : Position
  deriving DecidableEq

/-- The token that a piece of text is, if it is one. -/
def ofPiece (pos : Position) (kind? : Option Kind) (piece : List Char) : List Token :=
  kind?.toList.map fun kind => ⟨kind, String.ofList piece, pos⟩

/-- The tokens of a text that begins at the given place. -/
def lexFrom (pos : Position) (cs : List Char) : Except LexError (List Token) :=
  match cs with
  | [] => .ok []
  | c :: tail =>
    match _h : scan? (c :: tail) with
    | none => .error ⟨c, pos⟩
    | some (kind?, piece) =>
      (lexFrom (pos.advanceBy piece) ((c :: tail).drop piece.length)).map
        (ofPiece pos kind? piece ++ ·)
termination_by cs.length
decreasing_by
  have := List.length_pos_iff.2 (ne_nil_of_scan? _h)
  simp only [List.length_drop, List.length_cons]
  omega

@[simp] theorem lexFrom_nil (pos : Position) : lexFrom pos [] = .ok [] := by rw [lexFrom]

theorem lexFrom_of_scan?_eq_none {pos : Position} {c : Char} {tail : List Char}
    (h : scan? (c :: tail) = none) : lexFrom pos (c :: tail) = .error ⟨c, pos⟩ := by
  rw [lexFrom]
  split
  · rfl
  · next hs => rw [h] at hs; cases hs

theorem lexFrom_of_scan?_eq_some {pos : Position} {cs piece : List Char} {kind? : Option Kind}
    (hcs : cs ≠ []) (h : scan? cs = some (kind?, piece)) :
    lexFrom pos cs =
      (lexFrom (pos.advanceBy piece) (cs.drop piece.length)).map
        (ofPiece pos kind? piece ++ ·) := by
  obtain ⟨c, tail, rfl⟩ := List.exists_cons_of_ne_nil hcs
  rw [lexFrom]
  split
  · next hs => rw [h] at hs; cases hs
  · next hs => rw [h] at hs; cases hs; rfl

/-- The tokens of a program text. -/
def lex (source : String) : Except LexError (List Token) := lexFrom .start source.toList

end Easel.Token
