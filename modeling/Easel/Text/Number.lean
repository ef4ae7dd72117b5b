/-!
# Numbers in text

Whole numbers as they are written in programs and on the command line: decimal digits with an
optional sign, and the fixed-width columns and hexadecimal codes of the listings.
-/

namespace Easel.Text

/-! ### Reading -/

/-- The value of a decimal digit. -/
def digitValue (c : Char) : Nat := c.toNat - '0'.toNat

/-- The number that a row of decimal digits denotes, the most significant first. -/
def ofDigits (ds : List Char) : Nat := ds.foldl (fun n d => 10 * n + digitValue d) 0

/-- The number written by one or more of the digits `0` to `9`. -/
def readNat? (cs : List Char) : Option Nat :=
  if cs ≠ [] ∧ cs.all Char.isDigit then some (ofDigits cs) else none

/-- The number written by digits after an optional `+` or `-`. -/
def readInt? : List Char → Option Int
  | '+' :: cs => (readNat? cs).map Int.ofNat
  | '-' :: cs => (readNat? cs).map fun n => -Int.ofNat n
  | cs => (readNat? cs).map Int.ofNat

/-- The 32-bit integer with the given value, if there is one. -/
def int32? (n : Int) : Option Int32 :=
  if Int32.minValue.toInt ≤ n ∧ n ≤ Int32.maxValue.toInt then some (Int32.ofInt n) else none

/-- The 32-bit integer written by a text. -/
def readInt32? (s : String) : Option Int32 := (readInt? s.toList).bind int32?

/-- The number below `2 ^ 64` written by digits after an optional `+`. -/
def readSize? (s : String) : Option Nat :=
  let digits := match s.toList with
    | '+' :: cs => cs
    | cs => cs
  (readNat? digits).filter (· < UInt64.size)

/-! ### Writing -/

/-- The text in a column of the given width, to the right. -/
def alignRight (width : Nat) (s : String) : String :=
  String.ofList (List.replicate (width - s.length) ' ') ++ s

/-- The text in a column of the given width, to the left. -/
def alignLeft (width : Nat) (s : String) : String :=
  s ++ String.ofList (List.replicate (width - s.length) ' ')

/-- A number in hexadecimal, with the digits `a` to `f`. -/
def hex (n : Nat) : String := String.ofList (Nat.toDigits 16 n)

/-- A number in hexadecimal, with the digits `A` to `F` and zeros in front up to the width. -/
def hexUpper (width : Nat) (n : Nat) : String :=
  let digits := (Nat.toDigits 16 n).map Char.toUpper
  String.ofList (List.replicate (width - digits.length) '0' ++ digits)

end Easel.Text
