import Easel.Program.Parser
import Easel.Program.Run
import Easel.Text.Outline
import Easel.Token.Lexer

/-!
# Errors

Everything that can keep a program text from being carried out to its end: the text cannot be
divided into tokens, the tokens are no program, or a statement meets a fault.
-/

namespace Easel

/-- Why a program text was not carried out to its end. -/
inductive Error where
  /-- A character begins no token. -/
  | lex (e : Token.LexError)
  /-- The tokens are no program. -/
  | parse (e : SyntaxError)
  /-- A statement met a fault. -/
  | run (e : RunError)

namespace Error

/-- The error in words, with its place. -/
def message : Error → String
  | lex ⟨found, pos⟩ =>
    s!"Lexer error at line {pos.line}, column {pos.column} (offset {pos.offset}): " ++
      s!"unexpected character '{found}'"
  | parse e => s!"Syntax error at line {e.line}: {e.message}"
  | run e => s!"Runtime error at statement {e.statement}: {e.fault.message}"

/-- The error in fewer words. -/
def short : Error → String
  | lex ⟨found, pos⟩ => s!"unexpected character '{found}' at offset {pos.offset}"
  | parse e => e.message
  | run e => e.fault.message

end Error

/-- How a lexical error is built. -/
def Token.LexError.outline (e : Token.LexError) : Outline :=
  .record "Lexer" [("found", .leaf (Text.quotedChar e.found)), ("offset", .nat e.pos.offset),
    ("line", .nat e.pos.line), ("column", .nat e.pos.column)]

end Easel
