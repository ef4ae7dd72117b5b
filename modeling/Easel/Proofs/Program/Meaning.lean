import Easel.Proofs.Canvas.Counting
import Easel.Proofs.Program.Histories

/-!
# What expressions mean

An expression is computed in 32 bits, but what it means is an integer of any size. The rules of the
meaning (`Expr.Means`) are those of arithmetic and of the picture: they know of no overflow, and what
is asked about a canvas is answered from its cells. An expression in which something is out of place
has no meaning: a quotient by zero, a call of no known function or with the wrong number of arguments,
a text where a number is wanted (`Expr.Proper`).

What is computed is what is meant (`Expr.exact_of_eval`), on a canvas whose cells can be counted in
32 bits.
-/

namespace Easel

/-- The integer is one if the statement is true, and zero if not. -/
def IsTruth (n : Int) (p : Prop) : Prop := p ∧ n = 1 ∨ ¬p ∧ n = 0

theorem isTruth_truth {b : Bool} {p : Prop} (h : b = true ↔ p) : IsTruth (truth b).toInt p := by
  cases b with
  | true => exact .inl ⟨h.1 rfl, rfl⟩
  | false => exact .inr ⟨fun hp => Bool.false_ne_true (h.2 hp), rfl⟩

theorem IsTruth.unique {m n : Int} {p : Prop} (hm : IsTruth m p) (hn : IsTruth n p) : m = n := by
  rcases hm with ⟨hp, rfl⟩ | ⟨hp, rfl⟩ <;> rcases hn with ⟨hp', rfl⟩ | ⟨hp', rfl⟩
  · rfl
  · exact absurd hp hp'
  · exact absurd hp' hp
  · rfl

/-! ### Operators -/

namespace Operator

/-- What an operator does with integers of any size. A quotient is cut off toward zero, and a
remainder has the sign of the left operand. A comparison is one if it is true, and zero if not. -/
def exact (op : Operator) (a b : Int) : Int :=
  match op with
  | add => a + b
  | sub => a - b
  | mul => a * b
  | div => a.tdiv b
  | mod => a.tmod b
  | eq => if a = b then 1 else 0
  | ne => if a ≠ b then 1 else 0
  | gt => if a > b then 1 else 0
  | lt => if a < b then 1 else 0
  | ge => if a ≥ b then 1 else 0
  | le => if a ≤ b then 1 else 0

/-- The operator divides by its right operand. -/
def divides : Operator → Bool
  | div | mod => true
  | _ => false

end Operator

theorem bind_eq_ok {α β : Type} {r : Except Fault α} {k : α → Except Fault β} {b : β} :
    (r >>= k) = .ok b ↔ ∃ a, r = .ok a ∧ k a = .ok b := by
  cases r with
  | ok a => simp [bind, Except.bind]
  | error f => simp [bind, Except.bind]

theorem checked_eq_ok {n : Int} {v : Int32} : checked n = .ok v ↔ v.toInt = n := by
  rw [← Grammar.int32?_eq_some]
  unfold checked
  cases Text.int32? n with
  | none => simp
  | some w => simp

theorem toInt_truth (p : Prop) [Decidable p] : (truth (decide p)).toInt = if p then 1 else 0 := by
  by_cases h : p
  · simp [truth, h]
  · simp [truth, h]

/-- **An operator that succeeds is exact**, and does not divide by zero. -/
theorem Operator.apply_eq_ok {op : Operator} {a b v : Int32} (h : op.apply a b = .ok v) :
    v.toInt = op.exact a.toInt b.toInt ∧ (op.divides → b ≠ 0) := by
  cases op with
  | add | sub | mul => exact ⟨checked_eq_ok.1 h, fun hdiv => by cases hdiv⟩
  | div =>
    simp only [apply] at h
    split at h
    · cases h
    · next hb => exact ⟨checked_eq_ok.1 h, fun _ => hb⟩
  | mod =>
    simp only [apply] at h
    split at h
    · cases h
    · next hb =>
      obtain ⟨_, -, h⟩ := bind_eq_ok.1 h
      exact ⟨checked_eq_ok.1 h, fun _ => hb⟩
  | eq | ne =>
    cases h
    exact ⟨by simp only [toInt_truth, exact, ne_eq, Int32.toInt_inj], fun hdiv => by cases hdiv⟩
  | gt | lt | ge | le =>
    cases h
    exact ⟨toInt_truth _, fun hdiv => by cases hdiv⟩

/-! ### Meaning -/

namespace Expr

/-- The rules of the meaning of expressions. -/
inductive Means (env : Env) (c : Canvas) : Expr → Int → Prop where
  | num (n : Int32) : Means env c (num n) n.toInt
  | bool {b : Bool} {n : Int} : IsTruth n (b = true) → Means env c (bool b) n
  | var {name : String} {v : Int32} : env.get? name = some v → Means env c (var name) v.toInt
  | binary {op : Operator} {left right : Expr} {a b : Int} : Means env c left a →
      Means env c right b → (op.divides → b ≠ 0) → Means env c (binary op left right) (op.exact a b)
  | canvasSize : Means env c (call "GetCanvasSize" []) c.grid.size
  | cursorX {p : Point} : c.cursor = some p → Means env c (call "GetActualX" []) p.x
  | cursorY {p : Point} : c.cursor = some p → Means env c (call "GetActualY" []) p.y
  | colorCount {name : String} {e₁ e₂ e₃ e₄ : Expr} {x₁ y₁ x₂ y₂ : Int} : Means env c e₁ x₁ →
      Means env c e₂ y₁ → Means env c e₃ x₂ → Means env c e₄ y₂ →
      Means env c (call "GetColorCount" [text name, e₁, e₂, e₃, e₄])
        (c.cellCount name ⟨x₁, y₁⟩ ⟨x₂, y₂⟩)
  | isBrushColor {name : String} {n : Int} :
      IsTruth n (ColorName.sameWord c.brush.color.name name) →
      Means env c (call "IsBrushColor" [text name]) n
  /-- The cell is so far below the cursor, and then so far to the right of it. -/
  | isCellColor {name : String} {e₁ e₂ : Expr} {p : Point} {down right n : Int} :
      c.cursor = some p → Means env c e₁ down → Means env c e₂ right →
      IsTruth n (∃ color : Color, ColorName.sameWord color.name name ∧
        c.grid.get? ⟨p.x + right, p.y + down⟩ = some color) →
      Means env c (call "IsCanvasColor" [text name, e₁, e₂]) n

/-- Nothing in the expression is out of place. Where it divides, the divisor has a value other than
zero. It calls known functions only, each with as many arguments as it takes. A text is the first
argument of one of the three functions that take the name of a colour. -/
inductive Proper (env : Env) (c : Canvas) : Expr → Prop where
  | num (n : Int32) : Proper env c (num n)
  | bool (b : Bool) : Proper env c (bool b)
  | var (name : String) : Proper env c (var name)
  | binary {op : Operator} {left right : Expr} : Proper env c left → Proper env c right →
      (op.divides → ∃ b, right.eval env c = .ok b ∧ b ≠ 0) → Proper env c (binary op left right)
  | plain {function : String} : function ∈ ["GetCanvasSize", "GetActualX", "GetActualY"] →
      Proper env c (call function [])
  | colored {function color : String} {args : List Expr} :
      (function, args.length) ∈ [("GetColorCount", 4), ("IsBrushColor", 0), ("IsCanvasColor", 2)] →
      (∀ e ∈ args, Proper env c e) → Proper env c (call function (text color :: args))

variable {env : Env} {c : Canvas} {e : Expr} {v : Int32} {q : Query} {color : String}
  {args : List Expr} {vs : List Int32}

/-- An expression means one integer at most. -/
theorem Means.unique {m n : Int} (h : Means env c e m) (h' : Means env c e n) : m = n := by
  induction h generalizing n with
  | num => cases h'; rfl
  | bool hb =>
    cases h' with
    | bool hb' => exact hb.unique hb'
  | var hget =>
    cases h' with
    | var hget' => rw [Option.some.inj (hget.symm.trans hget')]
  | binary _ _ _ ihleft ihright =>
    cases h' with
    | binary hleft hright _ => rw [ihleft hleft, ihright hright]
  | canvasSize =>
    generalize hcall : call "GetCanvasSize" [] = e at h'
    cases h' with
    | canvasSize => rfl
    | _ => simp at hcall
  | cursorX hp =>
    generalize hcall : call "GetActualX" [] = e at h'
    cases h' with
    | cursorX hp' => rw [Option.some.inj (hp.symm.trans hp')]
    | _ => simp at hcall
  | cursorY hp =>
    generalize hcall : call "GetActualY" [] = e at h'
    cases h' with
    | cursorY hp' => rw [Option.some.inj (hp.symm.trans hp')]
    | _ => simp at hcall
  | colorCount _ _ _ _ ih₁ ih₂ ih₃ ih₄ =>
    generalize hcall : call "GetColorCount" _ = e at h'
    cases h' with
    | colorCount h₁ h₂ h₃ h₄ =>
      simp only [call.injEq, List.cons.injEq, text.injEq] at hcall
      obtain ⟨-, rfl, rfl, rfl, rfl, rfl, -⟩ := hcall
      rw [ih₁ h₁, ih₂ h₂, ih₃ h₃, ih₄ h₄]
    | _ => simp at hcall
  | isBrushColor hn =>
    generalize hcall : call "IsBrushColor" _ = e at h'
    cases h' with
    | isBrushColor hn' =>
      simp only [call.injEq, List.cons.injEq, text.injEq] at hcall
      obtain ⟨-, rfl, -⟩ := hcall
      exact hn.unique hn'
    | _ => simp at hcall
  | isCellColor hp _ _ hn ih₁ ih₂ =>
    generalize hcall : call "IsCanvasColor" _ = e at h'
    cases h' with
    | isCellColor hp' h₁ h₂ hn' =>
      simp only [call.injEq, List.cons.injEq, text.injEq] at hcall
      obtain ⟨-, rfl, rfl, rfl, -⟩ := hcall
      rw [← ih₁ h₁, ← ih₂ h₂, ← Option.some.inj (hp.symm.trans hp')] at hn'
      exact hn.unique hn'
    | _ => simp at hcall

/-! ### Calls -/

theorem proper_plain (harity : q.arity = 0) : Proper env c (call q.name []) := by
  refine .plain ?_
  cases q with
  | canvasSize | cursorX | cursorY => simp [Query.name]
  | colorCount | isBrushColor | isCellColor => cases harity

theorem proper_colored (harity : args.length + 1 = q.arity) (hargs : ∀ e ∈ args, Proper env c e) :
    Proper env c (call q.name (text color :: args)) := by
  refine .colored ?_ hargs
  cases q with
  | canvasSize | cursorX | cursorY => cases harity
  | colorCount | isBrushColor | isCellColor => simpa [Query.name, Query.arity] using harity

end Expr

theorem Query.name_eq_of_ofName? {q : Query} {function : String} (h : ofName? function = some q) :
    q.name = function := by
  have hname := List.find?_some h
  exact of_decide_eq_true hname

namespace Canvas

variable {c : Canvas} {name : String}

theorem isBrushColor_eq_true :
    c.isBrushColor name = true ↔ ColorName.sameWord c.brush.color.name name := by
  rw [isBrushColor, decide_eq_true_eq, Color.ofName?_eq_some]

/-- What is asked about a cell is answered from the picture. -/
theorem isCellColor_eq_ok {down right : Int} {b : Bool} (h : c.isCellColor name down right = .ok b) :
    ∃ p, c.cursor = some p ∧ (b = true ↔ ∃ color : Color, ColorName.sameWord color.name name ∧
      c.grid.get? ⟨p.x + right, p.y + down⟩ = some color) := by
  unfold isCellColor at h
  cases hcursor : c.cursor with
  | none =>
    rw [hcursor] at h
    cases h
  | some p =>
    rw [hcursor] at h
    refine ⟨p, rfl, ?_⟩
    cases hname : Color.ofName? name with
    | none =>
      rw [hname] at h
      cases h
      simp only [Bool.false_eq_true, false_iff, ← Color.ofName?_eq_some, hname]
      simp
    | some color =>
      rw [hname] at h
      cases h
      simp only [decide_eq_true_eq, ← Color.ofName?_eq_some, hname, Option.some.injEq,
        exists_eq_left']

end Canvas

namespace Expr

open Canvas

variable {env : Env} {c : Canvas} {e : Expr} {v : Int32} {q : Query} {color : String}
  {args : List Expr} {vs : List Int32}

/-- A function without arguments answers with what is meant. -/
theorem means_plain (hc : c.WellFormed) (hsize : c.grid.size ≤ 46340) (harity : q.arity = 0)
    (h : q.ask c "" [] = .ok v) : Means env c (call q.name []) v.toInt := by
  have htells := c.tellsCursor hc (Nat.le_trans hsize (by decide))
  cases q with
  | canvasSize =>
    obtain ⟨n, hn, hvalue⟩ := htells.size env
    obtain rfl : n = v := Except.ok.inj (hn.symm.trans h)
    rw [hvalue]
    exact .canvasSize
  | cursorX =>
    obtain ⟨p, hp, hvalue⟩ := (htells.x env v).1 h
    rw [hvalue]
    exact .cursorX hp
  | cursorY =>
    obtain ⟨p, hp, hvalue⟩ := (htells.y env v).1 h
    rw [hvalue]
    exact .cursorY hp
  | colorCount | isBrushColor | isCellColor => cases harity

/-- A function that takes the name of a colour answers with what is meant, if its other arguments
have the values that they mean. -/
theorem means_colored (hc : c.WellFormed) (hsize : c.grid.size ≤ 46340)
    (hargs : List.Forall₂ (fun e v => Means env c e v.toInt) args vs)
    (harity : args.length + 1 = q.arity) (h : q.ask c color vs = .ok v) :
    Means env c (call q.name (text color :: args)) v.toInt := by
  cases q with
  | canvasSize | cursorX | cursorY => cases harity
  | colorCount =>
    rcases hargs with _ | ⟨h₁, _ | ⟨h₂, _ | ⟨h₃, _ | ⟨h₄, _ | ⟨_, _⟩⟩⟩⟩⟩
    case cons.cons.cons.cons.nil =>
      cases h
      rw [Canvas.toInt_colorCount hc hsize]
      exact .colorCount h₁ h₂ h₃ h₄
    all_goals cases harity
  | isBrushColor =>
    rcases hargs with _ | ⟨_, _⟩
    case nil =>
      cases h
      exact .isBrushColor (isTruth_truth Canvas.isBrushColor_eq_true)
    all_goals cases harity
  | isCellColor =>
    rcases hargs with _ | ⟨h₁, _ | ⟨h₂, _ | ⟨_, _⟩⟩⟩
    case cons.cons.nil =>
      obtain ⟨b, hb, h⟩ := bind_eq_ok.1 h
      cases h
      obtain ⟨p, hp, hpicture⟩ := Canvas.isCellColor_eq_ok hb
      exact .isCellColor hp h₁ h₂ (isTruth_truth hpicture)
    all_goals cases harity

/-! ### Evaluation -/

mutual

/-- **What is computed is what is meant,** and nothing in the expression is out of place. -/
theorem exact_of_eval (hc : c.WellFormed) (hsize : c.grid.size ≤ 46340) {e : Expr} {v : Int32}
    (h : e.eval env c = .ok v) : Means env c e v.toInt ∧ Proper env c e := by
  match e with
  | num n =>
    rw [eval] at h
    cases h
    exact ⟨.num _, .num _⟩
  | bool b =>
    rw [eval] at h
    cases h
    exact ⟨.bool (isTruth_truth Iff.rfl), .bool b⟩
  | text s =>
    rw [eval] at h
    cases h
  | var name =>
    rw [eval] at h
    cases hget : env.get? name with
    | none =>
      rw [hget] at h
      cases h
    | some w =>
      rw [hget] at h
      cases h
      exact ⟨.var hget, .var name⟩
  | binary op left right =>
    rw [eval] at h
    obtain ⟨a, ha, h⟩ := bind_eq_ok.1 h
    obtain ⟨b, hb, h⟩ := bind_eq_ok.1 h
    obtain ⟨hleft, hleft'⟩ := exact_of_eval hc hsize ha
    obtain ⟨hright, hright'⟩ := exact_of_eval hc hsize hb
    obtain ⟨hvalue, hdivides⟩ := Operator.apply_eq_ok h
    rw [hvalue]
    refine ⟨.binary hleft hright fun hdiv hzero => ?_,
      .binary hleft' hright' fun hdiv => ⟨b, hb, hdivides hdiv⟩⟩
    exact hdivides hdiv (Int32.toInt_inj.1 hzero)
  | call function args =>
    rw [eval] at h
    cases hq : Query.ofName? function with
    | none =>
      rw [hq] at h
      cases h
    | some q =>
      obtain rfl := Query.name_eq_of_ofName? hq
      rw [hq] at h
      simp only at h
      split at h
      · cases h
      · next harity =>
        rw [Decidable.not_not] at harity
        match args with
        | [] => exact ⟨means_plain hc hsize harity.symm h, proper_plain harity.symm⟩
        | text color :: rest =>
          obtain ⟨vs, hvs, h⟩ := bind_eq_ok.1 h
          obtain ⟨hmeans, hproper⟩ := exact_of_evalAll hc hsize hvs
          exact ⟨means_colored hc hsize hmeans harity h, proper_colored harity hproper⟩
        | num _ :: _ | bool _ :: _ | var _ :: _ | binary _ _ _ :: _ | call _ _ :: _ => cases h

/-- The same of several expressions. -/
theorem exact_of_evalAll (hc : c.WellFormed) (hsize : c.grid.size ≤ 46340) {es : List Expr}
    {vs : List Int32} (h : evalAll env c es = .ok vs) :
    List.Forall₂ (fun e v => Means env c e v.toInt) es vs ∧ ∀ e ∈ es, Proper env c e := by
  match es with
  | [] =>
    rw [evalAll] at h
    cases h
    exact ⟨.nil, by simp⟩
  | e :: es =>
    rw [evalAll] at h
    obtain ⟨v, hv, h⟩ := bind_eq_ok.1 h
    obtain ⟨vs, hvs, h⟩ := bind_eq_ok.1 h
    cases h
    obtain ⟨hmeans, hproper⟩ := exact_of_eval hc hsize hv
    obtain ⟨hall, hall'⟩ := exact_of_evalAll hc hsize hvs
    exact ⟨.cons hmeans hall, List.forall_mem_cons.2 ⟨hproper, hall'⟩⟩

end

/-- **Every value is exact.** On a canvas of a size up to 46340, if an expression has a value, then the
expression means the value and nothing else: by the rules of arithmetic in integers of any size, and
by what the picture shows. Nothing is out of place in it: no divisor is zero, all calls are of known
functions with the right number of arguments, and a text is always the first argument of a function
that takes the name of a colour. -/
theorem eval_is_exact (hc : c.WellFormed) (hsize : c.grid.size ≤ 46340)
    (h : e.eval env c = .ok v) : (∀ n, Means env c e n ↔ n = v.toInt) ∧ Proper env c e := by
  obtain ⟨hmeans, hproper⟩ := exact_of_eval hc hsize h
  refine ⟨fun n => ⟨fun hn => hn.unique hmeans, ?_⟩, hproper⟩
  rintro rfl
  exact hmeans

/-- The red cells from the cursor to the column `0` and the row `n / 2`, as a negative number, and what
remains of it modulo two. -/
def remainder : Expr :=
  binary .mod
    (binary .sub (num 0) (call "GetColorCount"
      [text "rED", call "GetActualX" [], call "GetActualY" [], num 0, binary .div (var "n") (num 2)]))
    (num 2)

theorem eval_is_exact_remainder :
    threeRed.WellFormed ∧ threeRed.grid.size ≤ 46340 ∧
      remainder.eval (Env.empty.set "n" 3) threeRed = .ok (-1) ∧
      Means (Env.empty.set "n" 3) threeRed remainder (-1) ∧
      Proper (Env.empty.set "n" 3) threeRed remainder := by
  have heval : remainder.eval (Env.empty.set "n" 3) threeRed = .ok (-1) := rfl
  obtain ⟨hmeans, hproper⟩ := eval_is_exact wellFormed_threeRed (by decide) heval
  exact ⟨wellFormed_threeRed, by decide, heval, (hmeans (-1)).2 rfl, hproper⟩

end Expr

end Easel
