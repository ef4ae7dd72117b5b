import Easel.CommandLine.Run

/-!
# Listings

Lists of the tokens and statements of a program file, of the colours, and of the formats for
pictures.
-/

namespace Easel.CommandLine

/-! ### Listing a program -/

/-- A token in a listing, with its place. -/
def tokenLine (t : Token) : String :=
  let line := Text.alignRight 3 (toString t.pos.line)
  let column := Text.alignLeft 3 (toString t.pos.column)
  let start := Text.alignRight 5 (toString t.pos.offset)
  let stop := Text.alignLeft 5 (toString t.stop)
  s!"{line}:{column} {start}..{stop} {t.kind.name} {t.text}\n"

/-- A statement in a listing, with its number. -/
def stmtLine (i : Nat) (s : Stmt) : String :=
  s!"{Text.alignRight 4 (toString i)}  {s.outline.inline}\n"

/-- The script that lists the statements of a program text. -/
def statementsScript (source : String) : Script :=
  match Program.ofSource source with
  | .error e => .warn s!"Error: {e.message}\n" (.exit 0)
  | .ok p => .print (String.join (p.zipIdx.map fun (s, i) => stmtLine i s)) (.exit 0)

/-- The script of the command that lists a program. -/
def parseScript (input : String) : Script :=
  .print s!"Parsing {input}...\n" <| .read input fun
    | .error e => .fail e.outline
    | .ok source =>
      .print s!"=== SOURCE ===\n{source}\n=== TOKENS ===\n" <|
        match Token.lex source with
        | .error e => .fail e.outline
        | .ok ts =>
          .print (String.join (ts.map tokenLine) ++ "=== AST ===\n") (statementsScript source)

/-! ### Listing colours and formats -/

/-- A colour in the list of colours. -/
def colorLine (c : Color) : String :=
  let name := Text.alignLeft 8 c.name
  let code := Text.hexUpper 6 (Palette.standard.rgb c).toNat
  s!"  {c.index} {name} #{code}\n"

/-- The list of colours. -/
def colorsText : String :=
  "Palette:\n" ++ String.join (Color.all.map colorLine) ++
    "  - Transparent (readable only, cannot be used as the brush color)\n"

/-- The list of formats. -/
def formatsText : String :=
  "Supported formats:\n" ++ String.join (Format.all.map fun f =>
    s!"  {Text.alignLeft 8 f.name} - {f.description}\n")

end Easel.CommandLine
