/-!
# Trimming

What is left of a text when a character or a word is taken off its ends as often as it stands there.
-/

namespace Easel.Text

/-- The text without the given character at its end. -/
def trimEndChars (c : Char) (cs : List Char) : List Char :=
  (cs.reverse.dropWhile (· == c)).reverse

/-- The text without the given character at its end. -/
def trimEnd (c : Char) (s : String) : String := String.ofList (trimEndChars c s.toList)

/-- The text without the given character at either end. -/
def trim (c : Char) (s : String) : String :=
  String.ofList (trimEndChars c (s.toList.dropWhile (· == c)))

/-- The list without a word at its front, as often as the word stands there. -/
def dropWord (first : Char) (more : List Char) (cs : List Char) : List Char :=
  if (first :: more).isPrefixOf cs then dropWord first more (cs.drop (more.length + 1)) else cs
termination_by cs.length
decreasing_by
  have h := (List.isPrefixOf_iff_prefix.1 ‹_›).length_le
  simp only [List.length_cons, List.length_drop] at h ⊢
  omega

/-- The text without a word at its end, as often as the word stands there. -/
def trimEndWord (w : String) (s : String) : String :=
  match w.toList.reverse with
  | [] => s
  | c :: cs => String.ofList (dropWord c cs s.toList.reverse).reverse

end Easel.Text
