/-!
# Tokens

The words of a program with their kinds, and the places where they stand in the text.
-/

namespace Easel

/-- A place in a text. -/
structure Position where
  /-- The number of bytes before the place, with the text written in UTF-8. -/
  offset : Nat
  /-- The line, counted from one. Only a line feed begins a new line. -/
  line : Nat
  /-- The number of the next character in its line, counted from one. -/
  column : Nat
  deriving DecidableEq

namespace Position

/-- The place before a text. -/
def start : Position := ⟨0, 1, 1⟩

/-- The place after one more character. -/
def advance (p : Position) (c : Char) : Position :=
  if c = '\n' then ⟨p.offset + c.utf8Size, p.line + 1, 1⟩
  else ⟨p.offset + c.utf8Size, p.line, p.column + 1⟩

/-- The place after more text. -/
def advanceBy (p : Position) (cs : List Char) : Position := cs.foldl advance p

@[simp] theorem advanceBy_nil (p : Position) : p.advanceBy [] = p := rfl

@[simp] theorem advanceBy_cons (p : Position) (c : Char) (cs : List Char) :
    p.advanceBy (c :: cs) = (p.advance c).advanceBy cs := rfl

theorem advanceBy_append (p : Position) (as bs : List Char) :
    p.advanceBy (as ++ bs) = (p.advanceBy as).advanceBy bs := by
  simp [advanceBy]

end Position

namespace Token

/-- The kinds of words in a program. -/
inductive Kind where
  /-- The name of a command or of a function, such as `Spawn` or `GetActualX`. -/
  | method
  /-- One of `true` and `false`. -/
  | boolean
  /-- A colour's name that stands without quotes. -/
  | color
  /-- One of `==`, `!=`, `<=`, `>=`, `<`, `>`. -/
  | comparison
  /-- The arrow of an assignment, `<-` or `←`. -/
  | assignment
  /-- One of `+`, `-`, `*`, `/`, `%`. -/
  | operator
  /-- A row of decimal digits. -/
  | number
  /-- A text in double quotes. -/
  | string
  /-- One of `(` and `)`. -/
  | parenthesis
  /-- One of the square and curly brackets. -/
  | brace
  /-- The comma between arguments. -/
  | comma
  /-- The name of a variable, or of a label where it is not set. -/
  | identifier
  /-- A name with a colon after it, which sets a label. -/
  | label
  deriving DecidableEq

/-- The name of a kind, as it is written out. -/
def Kind.name : Kind → String
  | method => "Method"
  | boolean => "Boolean"
  | color => "Color"
  | comparison => "Comparison"
  | assignment => "Assignment"
  | operator => "Operator"
  | number => "Number"
  | string => "String"
  | parenthesis => "Parenthesis"
  | brace => "Brace"
  | comma => "Comma"
  | identifier => "Identifier"
  | label => "Label"

end Token

/-- A word of a program. -/
structure Token where
  /-- What kind of word it is. -/
  kind : Token.Kind
  /-- The word as it stands in the text, with its quotes or its colon. -/
  text : String
  /-- The place before the word. -/
  pos : Position
  deriving DecidableEq

namespace Token

/-- The line that a token begins in. -/
def line (t : Token) : Nat := t.pos.line

/-- The number of bytes of the text up to the end of the token. -/
def stop (t : Token) : Nat := t.pos.offset + t.text.utf8ByteSize

/-- The token is the given word of the given kind. -/
def Is (t : Token) (kind : Kind) (text : String) : Prop := t.kind = kind ∧ t.text = text

instance (t : Token) (kind : Kind) (text : String) : Decidable (t.Is kind text) :=
  inferInstanceAs (Decidable (_ ∧ _))

end Token

end Easel
