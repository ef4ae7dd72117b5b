import Easel.Text.Graphic
import Easel.Text.Number

/-!
# Quoted text

Texts and characters between quotes, on one line and with signs only: what does not show as a sign
of its own is written with a backslash.
-/

namespace Easel.Text

/-- A character as it is written between the given quotes. -/
def escape (quote c : Char) : List Char :=
  if c = '\x00' then ['\\', '0']
  else if c = '\t' then ['\\', 't']
  else if c = '\r' then ['\\', 'r']
  else if c = '\n' then ['\\', 'n']
  else if c = '\\' ∨ c = quote then ['\\', c]
  else if isGraphic c then [c]
  else ("\\u\x7b" ++ hex c.toNat ++ "\x7d").toList

/-- Characters between the given quotes. -/
def enclose (quote : Char) (cs : List Char) : String :=
  String.ofList (quote :: cs.flatMap (escape quote) ++ [quote])

/-- A text in double quotes. -/
def quoted (s : String) : String := enclose '"' s.toList

/-- A character in single quotes. -/
def quotedChar (c : Char) : String := enclose '\'' [c]

end Easel.Text
