import Easel.Canvas.Grid

/-!
# Words of 64 bits

A machine computes with words, and the result of an operation on words is the exact one only if that
fits in a word. Here an operation has no result at all if it does not (`Word64.add?`), and neither
has a conversion that would change the value (`Word64.toIndex?`). So a computation that is put
together from these operations and has a result has gone wrong nowhere.

Each operation comes with one lemma that carries it out on the words for two integers, under bounds
on these and on the exact result. Read from left to right, the lemmas turn a computation with words
into one with integers.
-/

namespace Easel

/-- The integer is the value of a signed word. -/
abbrev FitsWord (n : Int) : Prop := -9223372036854775808 ≤ n ∧ n ≤ 9223372036854775807

/-- The number is the value of an unsigned word. -/
abbrev FitsIndex (n : Nat) : Prop := n < 18446744073709551616

namespace Word64

variable {m n : Int} {i j : Nat}

/-! ### Signed words -/

/-- The word for an integer. -/
def word (n : Int) : Int64 := .ofInt n

/-- The word for an integer, if it fits. -/
def ofInt? (n : Int) : Option Int64 := if FitsWord n then some (word n) else none

/-- The sum of two words, if it fits. -/
def add? (a b : Int64) : Option Int64 := if FitsWord (a.toInt + b.toInt) then some (a + b) else none

/-- The difference of two words, if it fits. -/
def sub? (a b : Int64) : Option Int64 := if FitsWord (a.toInt - b.toInt) then some (a - b) else none

/-- The product of two words, if it fits. -/
def mul? (a b : Int64) : Option Int64 := if FitsWord (a.toInt * b.toInt) then some (a * b) else none

/-- The words from `a` to `b`, both included. -/
def span? (a b : Int64) : Option (List Int64) := (span a.toInt b.toInt).mapM ofInt?

theorem toInt_word (h : FitsWord n) : (word n).toInt = n :=
  Int64.toInt_ofInt_of_le h.1 (Int.lt_add_one_of_le h.2)

theorem toInt64_eq_word (a : Int32) : a.toInt64 = word a.toInt := rfl

theorem toInt_bounds (a : Int32) : -2147483648 ≤ a.toInt ∧ a.toInt ≤ 2147483647 :=
  ⟨a.le_toInt, Int.le_of_lt_add_one a.toInt_lt⟩

theorem toInt_max (a b : Int32) : (max a b).toInt = max a.toInt b.toInt := by
  change (if a ≤ b then b else a).toInt = _
  rw [Int.max_def, apply_ite Int32.toInt]
  simp only [Int32.le_iff_toInt_le]

theorem toInt_min (a b : Int32) : (min a b).toInt = min a.toInt b.toInt := by
  change (if a ≤ b then a else b).toInt = _
  rw [Int.min_def, apply_ite Int32.toInt]
  simp only [Int32.le_iff_toInt_le]

/-- Half of a number that is not negative, rounded down. -/
theorem toInt_div_two {a : Int32} (h : 0 ≤ a.toInt) : (a / 2).toInt = a.toInt / 2 := by
  have ha := toInt_bounds a
  have htwo : (2 : Int32).toInt = 2 := rfl
  rw [Int32.toInt_div, htwo, Int.tdiv_eq_ediv_of_nonneg h]
  exact Int.bmod_eq_of_le (by omega) (by omega)

theorem ofInt?_eq (h : FitsWord n) : ofInt? n = some (word n) := if_pos h

theorem add?_word (hm : FitsWord m) (hn : FitsWord n) (h : FitsWord (m + n)) :
    add? (word m) (word n) = some (word (m + n)) := by
  rw [add?, toInt_word hm, toInt_word hn, if_pos h]
  exact congrArg some (Int64.ofInt_add m n).symm

/-- A sum that is too large is noticed. -/
example : add? (word 9223372036854775807) (word 1) = none := by decide

theorem sub?_word (hm : FitsWord m) (hn : FitsWord n) (h : FitsWord (m - n)) :
    sub? (word m) (word n) = some (word (m - n)) := by
  rw [sub?, toInt_word hm, toInt_word hn, if_pos h]
  exact congrArg some (Int64.ofInt_sub m n).symm

theorem mul?_word (hm : FitsWord m) (hn : FitsWord n) (h : FitsWord (m * n)) :
    mul? (word m) (word n) = some (word (m * n)) := by
  rw [mul?, toInt_word hm, toInt_word hn, if_pos h]
  exact congrArg some (Int64.ofInt_mul m n).symm

theorem word_le_word (hm : FitsWord m) (hn : FitsWord n) : word m ≤ word n ↔ m ≤ n := by
  rw [Int64.le_iff_toInt_le, toInt_word hm, toInt_word hn]

theorem word_lt_word (hm : FitsWord m) (hn : FitsWord n) : word m < word n ↔ m < n := by
  rw [Int64.lt_iff_toInt_lt, toInt_word hm, toInt_word hn]

theorem max_word (hm : FitsWord m) (hn : FitsWord n) : max (word m) (word n) = word (max m n) := by
  change (if word m ≤ word n then word n else word m) = _
  rw [Int.max_def, apply_ite word]
  simp only [word_le_word hm hn]

theorem min_word (hm : FitsWord m) (hn : FitsWord n) : min (word m) (word n) = word (min m n) := by
  change (if word m ≤ word n then word m else word n) = _
  rw [Int.min_def, apply_ite word]
  simp only [word_le_word hm hn]

/-- A list of computations that all have a result. -/
theorem mapM_eq_some {α β : Type} {f : α → Option β} {g : α → β} {l : List α}
    (h : ∀ a ∈ l, f a = some (g a)) : l.mapM f = some (l.map g) := by
  induction l with
  | nil => rfl
  | cons a l ih =>
    rw [List.mapM_cons, h a List.mem_cons_self, ih fun b hb => h b (List.mem_cons_of_mem a hb)]
    rfl

theorem span?_word (hm : FitsWord m) (hn : FitsWord n) :
    span? (word m) (word n) = some ((span m n).map word) := by
  rw [span?, toInt_word hm, toInt_word hn]
  refine mapM_eq_some fun k hk => ofInt?_eq ?_
  rw [mem_span] at hk
  omega

/-! ### Unsigned words -/

/-- The index for a number, if it fits. -/
def index? (i : Nat) : Option UInt64 := if FitsIndex i then some (.ofNat i) else none

/-- The index for a signed word, if it is not negative. -/
def toIndex? (a : Int64) : Option UInt64 := if 0 ≤ a then some a.toUInt64 else none

/-- The sum of two indices, if it fits. -/
def addIndex? (a b : UInt64) : Option UInt64 :=
  if FitsIndex (a.toNat + b.toNat) then some (a + b) else none

/-- The product of two indices, if it fits. -/
def mulIndex? (a b : UInt64) : Option UInt64 :=
  if FitsIndex (a.toNat * b.toNat) then some (a * b) else none

theorem toNat_ofNat (h : FitsIndex i) : (UInt64.ofNat i).toNat = i := UInt64.toNat_ofNat_of_lt h

theorem index?_eq (h : FitsIndex i) : index? i = some (.ofNat i) := if_pos h

theorem toIndex?_word (h : FitsWord n) (hn : 0 ≤ n) :
    toIndex? (word n) = some (.ofNat n.toNat) := by
  have hnonneg : 0 ≤ word n := (word_le_word (m := 0) (by omega) h).2 hn
  rw [toIndex?, if_pos hnonneg]
  refine congrArg some (UInt64.toNat_inj.1 ?_)
  rw [Int64.toNat_toUInt64_of_le hnonneg, Int64.toNatClampNeg, toInt_word h,
    toNat_ofNat (by omega)]

theorem addIndex?_ofNat (hi : FitsIndex i) (hj : FitsIndex j) (h : FitsIndex (i + j)) :
    addIndex? (.ofNat i) (.ofNat j) = some (.ofNat (i + j)) := by
  rw [addIndex?, toNat_ofNat hi, toNat_ofNat hj, if_pos h]
  exact congrArg some (UInt64.ofNat_add i j).symm

theorem mulIndex?_ofNat (hi : FitsIndex i) (hj : FitsIndex j) (h : FitsIndex (i * j)) :
    mulIndex? (.ofNat i) (.ofNat j) = some (.ofNat (i * j)) := by
  rw [mulIndex?, toNat_ofNat hi, toNat_ofNat hj, if_pos h]
  exact congrArg some (UInt64.ofNat_mul i j).symm

end Word64

end Easel
