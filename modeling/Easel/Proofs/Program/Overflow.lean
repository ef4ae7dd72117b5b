import Easel.Proofs.Program.Meaning

/-!
# Where an overflow comes from

An expression is evaluated part by part, and only an operator can report an overflow. So where an
expression reports one, some operator in it has two values before it and does not take them
(`Expr.exists_refused`). Which values an operator does not take is told by its exact result, with
one exception: a remainder is always a 32-bit integer, yet that of the least integer by minus one is
refused, since the quotient that goes with it is too large (`Operator.apply_eq_overflow`).
-/

namespace Easel

/-! ### Operators -/

/-- The integer is one of 32 bits. -/
def InInt32 (n : Int) : Prop := -2147483648 ≤ n ∧ n ≤ 2147483647

instance (n : Int) : Decidable (InInt32 n) :=
  inferInstanceAs (Decidable (-2147483648 ≤ n ∧ n ≤ 2147483647))

theorem inInt32_toInt (a : Int32) : InInt32 a.toInt :=
  ⟨a.minValue_le_toInt, a.toInt_le⟩

theorem checked_eq_overflow {n : Int} : checked n = .error .overflow ↔ ¬InInt32 n := by
  constructor
  · intro h hn
    have hvalue : (Int32.ofInt n).toInt = n :=
      Int32.toInt_ofInt_of_le hn.1 (Int.lt_add_one_of_le hn.2)
    rw [checked_eq_ok.2 hvalue] at h
    cases h
  · intro hn
    cases h : checked n with
    | ok v => exact absurd (checked_eq_ok.1 h ▸ inInt32_toInt v) hn
    | error f => rw [checked_eq_error h]

theorem bind_eq_error {α β : Type} {r : Except Fault α} {k : α → Except Fault β} {f : Fault} :
    (r >>= k) = .error f ↔ r = .error f ∨ ∃ a, r = .ok a ∧ k a = .error f := by
  cases r with
  | ok a => simp [bind, Except.bind]
  | error f' => simp [bind, Except.bind]

/-- Of all quotients only one is not a 32-bit integer. -/
theorem not_inInt32_tdiv {a b : Int32} (hb : b ≠ 0) :
    ¬InInt32 (a.toInt.tdiv b.toInt) ↔ a = Int32.minValue ∧ b = -1 := by
  have ha := inInt32_toInt a
  have hb' : b.toInt ≠ 0 := fun h => hb (Int32.toInt_inj.1 h)
  have habs : (a.toInt.tdiv b.toInt).natAbs = a.toInt.natAbs / b.toInt.natAbs := Int.natAbs_tdiv _ _
  have hmin : a = Int32.minValue ↔ a.toInt = -2147483648 := Int32.toInt_inj.symm
  have hone : b = -1 ↔ b.toInt = -1 := Int32.toInt_inj.symm
  rw [hmin, hone]
  unfold InInt32 at *
  by_cases h1 : b.toInt = 1
  · rw [h1, Int.tdiv_one]
    omega
  by_cases h2 : b.toInt = -1
  · rw [h2, Int.tdiv_neg, Int.tdiv_one]
    omega
  -- by any other divisor the quotient is at most half as large
  · have hhalf : a.toInt.natAbs / b.toInt.natAbs ≤ a.toInt.natAbs / 2 :=
      Nat.div_le_div_left (by omega) (by omega)
    omega

/-- Every remainder is a 32-bit integer. -/
theorem inInt32_tmod {a b : Int32} (hb : b ≠ 0) : InInt32 (a.toInt.tmod b.toInt) := by
  have hb' : b.toInt ≠ 0 := fun h => hb (Int32.toInt_inj.1 h)
  have hlt : (a.toInt.tmod b.toInt).natAbs < b.toInt.natAbs := by
    rw [Int.natAbs_tmod]
    exact Nat.mod_lt _ (by omega)
  have := inInt32_toInt b
  unfold InInt32 at *
  omega

namespace Operator

/-- The operator calculates and does not divide by zero, and its exact result is no 32-bit integer.
-/
def Overflows (op : Operator) (a b : Int32) : Prop :=
  op.compares = false ∧ (op.divides → b ≠ 0) ∧ ¬InInt32 (op.exact a.toInt b.toInt)

/-- **When an operator reports an overflow**: when there is one, and for the remainder of the least
integer by minus one. -/
theorem apply_eq_overflow {op : Operator} {a b : Int32} :
    op.apply a b = .error .overflow ↔
      op.Overflows a b ∨ op = .mod ∧ a = Int32.minValue ∧ b = -1 := by
  cases op with
  | add | sub | mul => simp [apply, Overflows, compares, divides, exact, checked_eq_overflow]
  | div =>
    by_cases hb : b = 0
    · simp [apply, Overflows, divides, hb]
    · simp [apply, Overflows, compares, divides, exact, checked_eq_overflow, hb]
  | mod =>
    by_cases hb : b = 0
    · simp [apply, Overflows, divides, hb]
    · have hfits := inInt32_tmod (a := a) hb
      have hexact : checked (a.toInt.tmod b.toInt) ≠ .error .overflow := fun h =>
        checked_eq_overflow.1 h hfits
      simp only [apply, if_neg hb, bind_eq_error, checked_eq_overflow, not_inInt32_tdiv hb, hexact,
        Overflows, exact, hfits]
      simp
  | eq | ne | gt | lt | ge | le => simp [apply, Overflows, compares]

end Operator

/-! ### Expressions -/

namespace Expr

variable {env : Env} {c : Canvas} {op : Operator} {e left right node : Expr} {args : List Expr}

/-- `Within node e`: the expression `node` is `e` itself or stands somewhere in it. -/
inductive Within (node : Expr) : Expr → Prop where
  | self : Within node node
  | left {op : Operator} {left right : Expr} : Within node left →
      Within node (binary op left right)
  | right {op : Operator} {left right : Expr} : Within node right →
      Within node (binary op left right)
  | argument {function : String} {args : List Expr} {e : Expr} : e ∈ args → Within node e →
      Within node (call function args)

theorem within_binary :
    Within node (binary op left right) ↔
      node = binary op left right ∨ Within node left ∨ Within node right := by
  constructor
  · intro h
    cases h with
    | self => exact .inl rfl
    | left h => exact .inr (.inl h)
    | right h => exact .inr (.inr h)
  · rintro (rfl | h | h)
    · exact .self
    · exact .left h
    · exact .right h

theorem not_within_num {n : Int32} : ¬Within (binary op left right) (num n) := by
  intro h
  cases h

/-- The expression is an operator between two values that it does not take. -/
def Refused (env : Env) (c : Canvas) (node : Expr) : Prop :=
  ∃ op left right a b, node = binary op left right ∧ left.eval env c = .ok a ∧
    right.eval env c = .ok b ∧ op.apply a b = .error .overflow

mutual

/-- **An overflow is reported by an operator** in the expression. -/
theorem exists_refused {e : Expr} (h : e.eval env c = .error .overflow) :
    ∃ node, Within node e ∧ Refused env c node := by
  match e with
  | num _ | bool _ | text _ =>
    rw [eval] at h
    cases h
  | var name =>
    rw [eval] at h
    split at h <;> cases h
  | binary op left right =>
    rw [eval] at h
    rcases bind_eq_error.1 h with h | ⟨a, ha, h⟩
    · obtain ⟨node, hnode, hrefused⟩ := exists_refused h
      exact ⟨node, .left hnode, hrefused⟩
    rcases bind_eq_error.1 h with h | ⟨b, hb, h⟩
    · obtain ⟨node, hnode, hrefused⟩ := exists_refused h
      exact ⟨node, .right hnode, hrefused⟩
    · exact ⟨_, .self, op, left, right, a, b, rfl, ha, hb, h⟩
  | call function args =>
    have hask : ∀ (q : Query) color vs, q.ask c color vs ≠ .error .overflow := by
      intro q color vs hq
      rcases Query.ask_eq_error hq with ⟨hf, -⟩ | ⟨n, hf⟩ <;> cases hf
    rw [eval] at h
    split at h
    · cases h
    · next q _ =>
      split at h
      · cases h
      · split at h
        · exact absurd h (hask _ _ _)
        · next color rest _ =>
          rcases bind_eq_error.1 h with h | ⟨vs, -, h⟩
          · obtain ⟨e, he, node, hnode, hrefused⟩ := exists_refused_of_evalAll h
            exact ⟨node, .argument (List.mem_cons_of_mem _ he) hnode, hrefused⟩
          · exact absurd h (hask _ _ _)
        · cases h

/-- The same of several expressions. -/
theorem exists_refused_of_evalAll {es : List Expr} (h : evalAll env c es = .error .overflow) :
    ∃ e ∈ es, ∃ node, Within node e ∧ Refused env c node := by
  match es with
  | [] =>
    rw [evalAll] at h
    cases h
  | e :: es =>
    rw [evalAll] at h
    rcases bind_eq_error.1 h with h | ⟨v, -, h⟩
    · exact ⟨e, List.mem_cons_self, exists_refused h⟩
    rcases bind_eq_error.1 h with h | ⟨vs, -, h⟩
    · obtain ⟨e', he', hnode⟩ := exists_refused_of_evalAll h
      exact ⟨e', List.mem_cons_of_mem _ he', hnode⟩
    · cases h

end

theorem eval_binary {a b : Int32} (ha : left.eval env c = .ok a) (hb : right.eval env c = .ok b) :
    (binary op left right).eval env c = op.apply a b := by
  rw [eval, ha, hb]
  rfl

theorem not_overflows_of_eval {a b a' b' : Int32} (ha : left.eval env c = .ok a)
    (hb : right.eval env c = .ok b) (hfits : InInt32 (op.exact a.toInt b.toInt))
    (ha' : left.eval env c = .ok a') (hb' : right.eval env c = .ok b') : ¬op.Overflows a' b' := by
  rw [ha] at ha'
  rw [hb] at hb'
  cases ha'
  cases hb'
  exact fun hover => hover.2.2 hfits

/-- **An overflow comes from an operator.** If an expression reports an overflow, then an operator
in it has two values before it, does not divide by zero, and either its exact result is no 32-bit
integer, or it is the remainder of the least integer by minus one. Every such operator reports an
overflow, and between two values no other does. -/
theorem overflow_comes_from_operator (env : Env) (c : Canvas) :
    (∀ e : Expr, e.eval env c = .error .overflow →
      ∃ op left right a b, Within (binary op left right) e ∧ left.eval env c = .ok a ∧
        right.eval env c = .ok b ∧
        (op.Overflows a b ∨ op = .mod ∧ a = Int32.minValue ∧ b = -1)) ∧
    ∀ (op : Operator) (left right : Expr) (a b : Int32), left.eval env c = .ok a →
      right.eval env c = .ok b →
      ((binary op left right).eval env c = .error .overflow ↔
        op.Overflows a b ∨ op = .mod ∧ a = Int32.minValue ∧ b = -1) := by
  constructor
  · intro e h
    obtain ⟨_, hnode, op, left, right, a, b, rfl, ha, hb, happly⟩ := exists_refused h
    exact ⟨op, left, right, a, b, hnode, ha, hb, Operator.apply_eq_overflow.1 happly⟩
  · intro op left right a b ha hb
    rw [eval_binary ha hb]
    exact Operator.apply_eq_overflow

/-- A question about a cell that is one column too far away. -/
def tooFar : Expr :=
  call "IsCanvasColor" [text "Red", binary .sub (num 0) (num 1),
    binary .add (var "n") (num 2147483647)]

theorem overflow_comes_from_operator_tooFar :
    tooFar.eval (Env.empty.set "n" 1) Canvas.threeRed = .error .overflow ∧
      ∃ op left right a b, Within (binary op left right) tooFar ∧
        left.eval (Env.empty.set "n" 1) Canvas.threeRed = .ok a ∧
        right.eval (Env.empty.set "n" 1) Canvas.threeRed = .ok b ∧
        (op.Overflows a b ∨ op = .mod ∧ a = Int32.minValue ∧ b = -1) := by
  have heval : tooFar.eval (Env.empty.set "n" 1) Canvas.threeRed = .error .overflow := rfl
  exact ⟨heval, (overflow_comes_from_operator _ _).1 tooFar heval⟩

/-- The least integer modulo minus one, as a program can write it. -/
def leastRemainder : Expr :=
  binary .mod (binary .sub (binary .sub (num 0) (num 2147483647)) (num 1))
    (binary .sub (num 0) (num 1))

/-- **An overflow can be reported where there is none.** No operator in the expression has a result
beyond 32 bits, and the expression means zero. -/
theorem overflow_reported_without_overflow :
    leastRemainder.eval Env.empty Canvas.threeRed = .error .overflow ∧
      (∀ op left right a b, Within (binary op left right) leastRemainder →
        left.eval Env.empty Canvas.threeRed = .ok a →
        right.eval Env.empty Canvas.threeRed = .ok b → ¬op.Overflows a b) ∧
      Means Env.empty Canvas.threeRed leastRemainder 0 := by
  refine ⟨rfl, fun op left right a b hnode => ?_, ?_⟩
  · simp only [leastRemainder, within_binary, not_within_num, or_false, binary.injEq] at hnode
    rcases hnode with ⟨rfl, rfl, rfl⟩ | (⟨rfl, rfl, rfl⟩ | ⟨rfl, rfl, rfl⟩) | ⟨rfl, rfl, rfl⟩
    · exact not_overflows_of_eval (a := -2147483648) (b := -1) rfl rfl (by decide)
    · exact not_overflows_of_eval (a := -2147483647) (b := 1) rfl rfl (by decide)
    · exact not_overflows_of_eval (a := 0) (b := 2147483647) rfl rfl (by decide)
    · exact not_overflows_of_eval (a := 0) (b := 1) rfl rfl (by decide)
  · have hleast : Means Env.empty Canvas.threeRed
        (binary .sub (binary .sub (num 0) (num 2147483647)) (num 1)) (-2147483648) :=
      .binary (.binary (.num 0) (.num 2147483647) (by decide)) (.num 1) (by decide)
    have hone : Means Env.empty Canvas.threeRed (binary .sub (num 0) (num 1)) (-1) :=
      .binary (.num 0) (.num 1) (by decide)
    exact .binary hleast hone (by decide)

end Expr

end Easel
