import Easel.Proofs.Program.Runs
import Mathlib.Logic.Embedding.Basic

/-!
# Names have no meaning

A program uses the names of its variables to tell them apart, and so it does with its labels. If
both get new names, and different names stay different, then each step does the same as before
(`Stmt.exec_rename`) and so does every run (`Program.runFrom_rename`, `Program.runOnFrom_rename`).
The two sorts of names have nothing to do with each other: a variable and a label of the same name
may get different names, and those of different names the same one.
-/

namespace Easel

/-- New names for variables and, apart from them, for labels. Different names stay different. -/
structure Renaming where
  /-- The new name of a variable. -/
  var : String ↪ String
  /-- The new name of a label. -/
  label : String ↪ String

/-! ### What has names -/

/-- The table with new names for its entries. -/
def renameKeys {α : Type} (f : String ↪ String) (table : List (String × α)) : List (String × α) :=
  table.map (Prod.map f id)

namespace Expr

mutual

/-- The expression with new names. The names of functions are kept. -/
def rename (ρ : Renaming) : Expr → Expr
  | num n => num n
  | bool b => bool b
  | text s => text s
  | var name => var (ρ.var name)
  | binary op left right => binary op (left.rename ρ) (right.rename ρ)
  | call function args => call function (renameAll ρ args)

/-- The expressions with new names. -/
def renameAll (ρ : Renaming) : List Expr → List Expr
  | [] => []
  | e :: es => e.rename ρ :: renameAll ρ es

end

end Expr

/-- The statement with new names. -/
def Stmt.rename (ρ : Renaming) : Stmt → Stmt
  | spawn x y => spawn (x.rename ρ) (y.rename ρ)
  | color name => color name
  | size width => size (width.rename ρ)
  | line dx dy distance => line (dx.rename ρ) (dy.rename ρ) (distance.rename ρ)
  | circle dx dy radius => circle (dx.rename ρ) (dy.rename ρ) (radius.rename ρ)
  | rectangle dx dy distance width height =>
    rectangle (dx.rename ρ) (dy.rename ρ) (distance.rename ρ) (width.rename ρ) (height.rename ρ)
  | fill => fill
  | assign target value => assign (ρ.var target) (value.rename ρ)
  | label name => label (ρ.label name)
  | goto name condition => goto (ρ.label name) (condition.rename ρ)

/-- The program with new names. -/
def Program.rename (ρ : Renaming) (p : Program) : Program := p.map (Stmt.rename ρ)

/-- The fault with new names. -/
def Fault.rename (ρ : Renaming) : Fault → Fault
  | undefinedVariable name => undefinedVariable (ρ.var name)
  | duplicateLabel name => duplicateLabel (ρ.label name)
  | f => f

/-- The error with new names. -/
def RunError.rename (ρ : Renaming) (e : RunError) : RunError := { e with fault := e.fault.rename ρ }

/-- The variables with new names. -/
def Env.rename (ρ : Renaming) (env : Env) : Env := ⟨renameKeys ρ.var env.bindings⟩

/-- The labels with new names. -/
def Labels.rename (ρ : Renaming) (labels : Labels) : Labels := renameKeys ρ.label labels

/-- The notice with new names. -/
def Notice.rename (ρ : Renaming) : Notice → Notice
  | jumped label target => jumped (ρ.label label) target
  | noLabel label => noLabel (ρ.label label)
  | filled cells color => filled cells color

/-- The state with new names. -/
def State.rename (ρ : Renaming) (s : State) : State := { s with env := s.env.rename ρ }

@[simp] theorem State.pc_rename (ρ : Renaming) (s : State) : (s.rename ρ).pc = s.pc := rfl

@[simp] theorem State.env_rename (ρ : Renaming) (s : State) :
    (s.rename ρ).env = s.env.rename ρ := rfl

@[simp] theorem State.canvas_rename (ρ : Renaming) (s : State) :
    (s.rename ρ).canvas = s.canvas := rfl

/-- How a statement ended, with new names. -/
def renameResult (ρ : Renaming) :
    EStateM.Result Fault State (Option Notice) → EStateM.Result Fault State (Option Notice)
  | .ok notice s => .ok (notice.map (Notice.rename ρ)) (s.rename ρ)
  | .error f s => .error (f.rename ρ) (s.rename ρ)

/-- How a run ended, with new names. -/
def Outcome.rename (ρ : Renaming) (o : Outcome) : Outcome :=
  { o with env := o.env.rename ρ, result := o.result.mapError (RunError.rename ρ) }

/-- The interpreter with new names. Its canvas, its limit and its number of steps are kept. -/
def Interpreter.rename (ρ : Renaming) (i : Interpreter) : Interpreter :=
  { i with env := i.env.rename ρ, labels := i.labels.rename ρ }

variable (ρ : Renaming)

/-! ### Tables -/

/-- An entry is found under its new name, if names that differ have new names that differ. -/
theorem lookup_renameKeys {α : Type} (f : String ↪ String) (table : List (String × α))
    (name : String) : (renameKeys f table).lookup (f name) = table.lookup name := by
  induction table with
  | nil => rfl
  | cons entry table ih =>
    obtain ⟨n, a⟩ := entry
    show ((f n, a) :: renameKeys f table).lookup (f name) = _
    rw [List.lookup_cons, List.lookup_cons, ih]
    by_cases h : name = n
    · subst h
      simp
    · have hf : f name ≠ f n := fun heq => h (f.injective heq)
      rw [beq_false_of_ne h, beq_false_of_ne hf]

theorem Env.get?_rename (env : Env) (name : String) :
    (env.rename ρ).get? (ρ.var name) = env.get? name := lookup_renameKeys ρ.var _ name

theorem Labels.lookup_rename (labels : Labels) (name : String) :
    (labels.rename ρ).lookup (ρ.label name) = labels.lookup name :=
  lookup_renameKeys ρ.label labels name

theorem Env.renameKeys_assign (name : String) (v : Int32) (bs : List (String × Int32)) :
    renameKeys ρ.var (assign name v bs) = assign (ρ.var name) v (renameKeys ρ.var bs) := by
  induction bs with
  | nil => rfl
  | cons b bs ih =>
    obtain ⟨n, w⟩ := b
    show renameKeys ρ.var (if n = name then (n, v) :: bs else (n, w) :: assign name v bs) =
      if ρ.var n = ρ.var name then (ρ.var n, v) :: renameKeys ρ.var bs
      else (ρ.var n, w) :: assign (ρ.var name) v (renameKeys ρ.var bs)
    by_cases h : n = name
    · rw [if_pos h, if_pos (congrArg ρ.var h)]
      rfl
    · rw [if_neg h, if_neg fun heq => h (ρ.var.injective heq), ← ih]
      rfl

theorem Env.set_rename (env : Env) (name : String) (v : Int32) :
    (env.set name v).rename ρ = (env.rename ρ).set (ρ.var name) v :=
  congrArg Env.mk (renameKeys_assign ρ name v env.bindings)

/-! ### Faults -/

/-- A fault of drawing has no name of a variable or of a label in it. -/
theorem Fault.rename_of_inDraw {f : Fault} (h : f.inDraw) : f.rename ρ = f := by
  cases f with
  | undefinedVariable name => cases h
  | duplicateLabel name => cases h
  | _ => rfl

/-- The faults of operators have no names in them. -/
theorem Operator.mapError_apply (op : Operator) (a b : Int32) :
    (op.apply a b).mapError (Fault.rename ρ) = op.apply a b := by
  cases h : op.apply a b with
  | ok v => rfl
  | error f => rcases apply_eq_error h with rfl | rfl <;> rfl

/-- The faults of functions have no names of variables or labels in them. -/
theorem Query.mapError_ask (q : Query) (c : Canvas) (color : String) (args : List Int32) :
    (q.ask c color args).mapError (Fault.rename ρ) = q.ask c color args := by
  cases h : q.ask c color args with
  | ok v => rfl
  | error f => rcases ask_eq_error h with ⟨rfl, -⟩ | ⟨n, rfl⟩ <;> rfl

/-! ### Expressions -/

namespace Expr

theorem length_renameAll (es : List Expr) : (renameAll ρ es).length = es.length := by
  induction es with
  | nil => rfl
  | cons e es ih => exact congrArg (· + 1) ih

variable (env : Env) (c : Canvas)

mutual

/-- **An expression has the same value under new names,** or the same fault, which may name a
variable. -/
theorem eval_rename (e : Expr) :
    (e.rename ρ).eval (env.rename ρ) c = (e.eval env c).mapError (Fault.rename ρ) := by
  match e with
  | num n => rfl
  | bool b => rfl
  | text s => rfl
  | var name =>
    rw [rename, eval, eval, Env.get?_rename]
    cases env.get? name <;> rfl
  | binary op left right =>
    rw [rename, eval, eval, eval_rename left, eval_rename right]
    cases left.eval env c with
    | error f => rfl
    | ok a =>
      cases right.eval env c with
      | error f => rfl
      | ok b => exact (op.mapError_apply ρ a b).symm
  | call name args =>
    rw [rename, eval, eval, length_renameAll]
    cases Query.ofName? name with
    | none => rfl
    | some q =>
      simp only
      split
      · rfl
      · -- only a text in the first place lets the others be evaluated
        cases args with
        | nil => exact (q.mapError_ask ρ c "" []).symm
        | cons first rest =>
          cases first with
          | text color =>
            simp only [renameAll, rename, evalAll_rename rest]
            cases evalAll env c rest with
            | error f => rfl
            | ok vs => exact (q.mapError_ask ρ c color vs).symm
          | num | bool | var | binary | call => rfl

theorem evalAll_rename (es : List Expr) :
    evalAll (env.rename ρ) c (renameAll ρ es) =
      (evalAll env c es).mapError (Fault.rename ρ) := by
  match es with
  | [] => rfl
  | e :: es =>
    rw [renameAll, evalAll, evalAll, eval_rename e, evalAll_rename es]
    cases e.eval env c with
    | error f => rfl
    | ok v => cases evalAll env c es <;> rfl

end

end Expr

/-! ### Statements -/

namespace Exec

variable {ρ} {s : State}

/-- An argument under new names, before what corresponds to the rest of the statement. -/
theorem value_bind_rename {e : Expr} {k k' : Int32 → Exec (Option Notice)}
    (h : ∀ v, e.eval s.env s.canvas = .ok v → k' v (s.rename ρ) = renameResult ρ (k v s)) :
    (value (e.rename ρ) >>= k') (s.rename ρ) = renameResult ρ ((value e >>= k) s) := by
  rw [value_bind, value_bind, State.env_rename, State.canvas_rename, e.eval_rename]
  cases hv : e.eval s.env s.canvas with
  | ok v => exact h v hv
  | error f => rfl

/-- A drawing, before what corresponds to the rest of the statement. -/
theorem draw_bind_rename {α : Type} {d : Draw α} {k k' : α → Exec (Option Notice)} {stmt : Stmt}
    (hd : stmt.Draws s.env s.canvas d)
    (h : ∀ a c, k' a ⟨s.pc, s.env.rename ρ, c⟩ = renameResult ρ (k a ⟨s.pc, s.env, c⟩)) :
    (draw d >>= k') (s.rename ρ) = renameResult ρ ((draw d >>= k) s) := by
  rw [draw_bind, draw_bind, State.canvas_rename]
  cases hc : d s.canvas with
  | ok a c => exact h a c
  | error f c =>
    have hf : f.rename ρ = f := Fault.rename_of_inDraw ρ (hd.inDraw hc).1
    simp only [renameResult, hf]
    rfl

end Exec

open Exec in
/-- **A statement does the same under new names.** -/
theorem Stmt.exec_rename (labels : Labels) (stmt : Stmt) (s : State) :
    (stmt.rename ρ).exec (labels.rename ρ) (s.rename ρ) = renameResult ρ (stmt.exec labels s) := by
  cases stmt with
  | spawn x y =>
    apply value_bind_rename
    intro a ha
    apply value_bind_rename
    intro b hb
    exact draw_bind_rename (.spawn ha hb) fun _ _ => rfl
  | color name => exact draw_bind_rename .color fun _ _ => rfl
  | size width =>
    apply value_bind_rename
    intro w hw
    exact draw_bind_rename (.size hw) fun _ _ => rfl
  | line dx dy distance =>
    apply value_bind_rename
    intro a ha
    apply value_bind_rename
    intro b hb
    apply value_bind_rename
    intro n hn
    exact draw_bind_rename (.line ha hb hn) fun _ _ => rfl
  | circle dx dy radius =>
    apply value_bind_rename
    intro a ha
    apply value_bind_rename
    intro b hb
    apply value_bind_rename
    intro r hr
    exact draw_bind_rename (.circle ha hb hr) fun _ _ => rfl
  | rectangle dx dy distance width height =>
    apply value_bind_rename
    intro a ha
    apply value_bind_rename
    intro b hb
    apply value_bind_rename
    intro n hn
    apply value_bind_rename
    intro w hw
    apply value_bind_rename
    intro h hh
    exact draw_bind_rename (.rectangle ha hb hn hw hh) fun _ _ => rfl
  | fill =>
    apply draw_bind_rename .fill
    intro cells? c
    cases cells? <;> rfl
  | assign target value =>
    apply value_bind_rename
    intro v _
    show EStateM.Result.ok none (State.mk (s.pc + 1) ((s.env.rename ρ).set (ρ.var target) v)
      s.canvas) = _
    rw [← Env.set_rename]
    rfl
  | label name => rfl
  | goto name condition =>
    apply value_bind_rename
    intro v _
    by_cases hzero : v = 0
    · rw [if_pos hzero, if_pos hzero]
      rfl
    · rw [if_neg hzero, if_neg hzero, Labels.lookup_rename]
      cases labels.lookup name <;> rfl

/-! ### Labels -/

/-- **The labels are collected alike,** and a label that is set twice is found at the same
statement. -/
theorem Labels.collect_rename (found : Labels) (i : Nat) (ss : List Stmt) :
    collect (found.rename ρ) i (Program.rename ρ ss) =
      ((collect found i ss).map (Labels.rename ρ)).mapError (RunError.rename ρ) := by
  induction ss generalizing found i with
  | nil => rfl
  | cons stmt ss ih =>
    cases stmt with
    | label name =>
      rw [Program.rename, List.map_cons, Stmt.rename, collect, collect, lookup_rename]
      cases found.lookup name with
      | some t => rfl
      | none => exact ih ((name, i) :: found) (i + 1)
    | spawn | color | size | line | circle | rectangle | fill | assign | goto =>
      exact ih found (i + 1)

/-! ### Runs -/

namespace Program

theorem labels_rename (p : Program) :
    (p.rename ρ).labels = (p.labels.map (Labels.rename ρ)).mapError (RunError.rename ρ) :=
  Labels.collect_rename ρ [] 0 p

theorem getElem?_rename (p : Program) (i : Nat) :
    (p.rename ρ)[i]? = p[i]?.map (Stmt.rename ρ) := List.getElem?_map

/-- **A run with a limit** goes the same way under new names. -/
theorem runFrom_rename (p : Program) (labels : Labels) (limit taken left : Nat) (s : State) :
    (p.rename ρ).runFrom (labels.rename ρ) limit taken left (s.rename ρ) =
      (p.runFrom labels limit taken left s).rename ρ := by
  induction left generalizing taken s with
  | zero =>
    rw [runFrom, runFrom, State.pc_rename, getElem?_rename]
    cases p[s.pc]? <;> rfl
  | succ left ih =>
    rw [runFrom, runFrom, State.pc_rename, getElem?_rename]
    cases p[s.pc]? with
    | none => rfl
    | some stmt =>
      simp only [Option.map_some, stmt.exec_rename]
      cases stmt.exec labels s with
      | ok notice t => exact ih (taken + 1) t
      | error f t => rfl

/-- New names do not make a run end because of its limit. -/
theorem rename_eq_stepLimit {o : Outcome} {pc limit : Nat} :
    (o.rename ρ).result = .error ⟨pc, .stepLimit limit⟩ ↔
      o.result = .error ⟨pc, .stepLimit limit⟩ := by
  obtain ⟨env, canvas, steps, result⟩ := o
  cases result with
  | ok n => simp [Outcome.rename, Except.mapError]
  | error e =>
    obtain ⟨i, f⟩ := e
    cases f <;> simp [Outcome.rename, Except.mapError, RunError.rename, Fault.rename]

/-- **A run without a limit** goes the same way under new names, or forever as before. -/
theorem runOnFrom_rename (p : Program) (labels : Labels) (taken : Nat) (s : State) :
    (p.rename ρ).runOnFrom (labels.rename ρ) taken (s.rename ρ) =
      (p.runOnFrom labels taken s).map (Outcome.rename ρ) := by
  ext o
  rw [runOnFrom_eq_some_iff_runFrom 0, Option.map_eq_some_iff]
  constructor
  · rintro ⟨hne, left, rfl⟩
    rw [runFrom_rename] at hne ⊢
    refine ⟨_, (runOnFrom_eq_some_iff_runFrom 0).2 ⟨fun pc limit h => ?_, left, rfl⟩, rfl⟩
    exact hne pc limit ((rename_eq_stepLimit ρ).2 h)
  · rintro ⟨o, ho, rfl⟩
    obtain ⟨hne, left, rfl⟩ := (runOnFrom_eq_some_iff_runFrom 0).1 ho
    refine ⟨fun pc limit h => hne pc limit ((rename_eq_stepLimit ρ).1 h), left, ?_⟩
    rw [runFrom_rename]

end Program

namespace Interpreter

theorem goOn_rename (i : Interpreter) (p : Program) (labels : Labels) (s : State) :
    i.goOn (p.rename ρ) (labels.rename ρ) (s.rename ρ) =
      (i.goOn p labels s).map (Outcome.rename ρ) := by
  unfold goOn
  cases i.limit? with
  | none => exact p.runOnFrom_rename ρ labels i.steps s
  | some limit => exact congrArg some (p.runFrom_rename ρ labels limit i.steps _ s)

/-- **Names have no meaning of their own.** Whatever an interpreter has carried out before, and with
whatever limit or none, a program under new names leaves the same canvas after the same number of
steps, or the same error at the same statement. Only the names are new: of the variables in the
table at the end and in a fault, and, apart from them, of the labels. It runs forever just if it did
so before. -/
theorem execute_rename (i : Interpreter) (p : Program) :
    i.execute (p.rename ρ) =
      (i.execute p).map (Prod.map (Interpreter.rename ρ) (Except.mapError (RunError.rename ρ))) := by
  have hlabels := p.labels_rename ρ
  cases h : p.labels with
  | error e =>
    rw [h] at hlabels
    rw [execute_of_labels_error h, execute_of_labels_error hlabels]
    rfl
  | ok labels =>
    rw [h] at hlabels
    -- no variable has a value at the start, so that the state has no names in it
    have hrun := i.clear.goOn_rename ρ p labels i.start
    rw [execute_of_labels h, execute_of_labels hlabels, Option.map_map]
    exact (congrArg (Option.map _) hrun).trans (Option.map_map ..)

/-- New names that tell variables and labels apart by their first letter. -/
def marking : Renaming where
  var := ⟨("v" ++ ·), fun _ _ h => (String.append_right_inj "v").1 h⟩
  label := ⟨("l" ++ ·), fun _ _ h => (String.append_right_inj "l").1 h⟩

/-- A program in which a variable and a label have the same name, and another variable has no
value. -/
def namesakes : Program := [.label "n", .assign "n" (.num 3), .goto "n" (.var "m")]

/-- An interpreter that has carried out nothing yet. -/
def unused : Interpreter where
  canvas := ⟨.blank 1, none, ⟨.red, 1⟩⟩
  limit? := some 5

/-- The namesakes are told apart, and the fault has the new name of the other variable. -/
theorem execute_rename_namesakes :
    namesakes.rename marking = [.label "ln", .assign "vn" (.num 3), .goto "ln" (.var "vm")] ∧
      unused.execute (namesakes.rename marking) =
        some ({ unused with env := ⟨[("vn", 3)]⟩, labels := [("ln", 0)], steps := 3 },
          .error ⟨2, .undefinedVariable "vm"⟩) := by
  refine ⟨rfl, ?_⟩
  rw [execute_rename]
  rfl

end Interpreter

end Easel
