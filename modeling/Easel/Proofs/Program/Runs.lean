import Easel.Program.Interpreter
import Easel.Proofs.Program.Faults

/-!
# Runs

A program is carried out step by step (`Program.Step`). A run without a limit ends just if finitely
many steps lead to the end of the program or to a statement that fails (`Program.Ends`); a run with
a limit ends the same way if it is not cut off before that, and where it is cut off it has made
exactly the steps that the limit allows. What an interpreter did before makes no difference.
-/

namespace Easel

/-! ### Labels -/

/-- The labels that a program sets, in their order. -/
def Program.labelNames (p : Program) : List String :=
  p.filterMap fun
    | .label name => some name
    | _ => none

namespace Labels

variable {found labels : Labels} {i : Nat} {ss : List Stmt}

theorem getElem?_cons_sub {s : Stmt} {t : Nat} {name : String} :
    i ≤ t ∧ (s :: ss)[t - i]? = some (.label name) ↔
      t = i ∧ s = .label name ∨ i + 1 ≤ t ∧ ss[t - (i + 1)]? = some (.label name) := by
  by_cases hlt : i + 1 ≤ t
  · have hsub : t - i = t - (i + 1) + 1 := by omega
    rw [hsub, List.getElem?_cons_succ]
    have hne : t ≠ i := by omega
    have hle : i ≤ t := by omega
    simp [hne, hle, hlt]
  · by_cases heq : t = i
    · have hlt' : ¬i + 1 ≤ i := by omega
      simp [heq, hlt']
    · have hle : ¬i ≤ t := by omega
      simp [heq, hle, hlt]

/-- A label stands for the statement that sets it. -/
theorem lookup_collect (h : collect found i ss = .ok labels) (name : String) (t : Nat) :
    labels.lookup name = some t ↔
      found.lookup name = some t ∨ i ≤ t ∧ ss[t - i]? = some (.label name) := by
  fun_induction collect found i ss with
  | case1 found i =>
    cases h
    simp
  | case2 => cases h
  | case3 found i n ss hn ih =>
    rw [ih h, getElem?_cons_sub, ← or_assoc]
    refine or_congr_left ?_
    rw [List.lookup_cons]
    by_cases hname : name = n
    · simp [hname, hn, eq_comm]
    · have hne : n ≠ name := fun heq => hname heq.symm
      have hbeq : (name == n) = false := beq_false_of_ne hname
      simp [hbeq, hne]
  | case4 found i s ss hs ih =>
    rw [ih h, getElem?_cons_sub]
    refine or_congr_right ?_
    have hne : s ≠ .label name := fun heq => hs name heq
    simp [hne]

/-- Labels that are set once each can be collected. -/
theorem exists_collect (hfound : ∀ name ∈ Program.labelNames ss, found.lookup name = none)
    (hss : (Program.labelNames ss).Nodup) : ∃ labels, collect found i ss = .ok labels := by
  fun_induction collect found i ss with
  | case1 found i => exact ⟨found, rfl⟩
  | case2 found i n ss t hn =>
    have hnone := hfound n (by simp [Program.labelNames])
    rw [hn] at hnone
    cases hnone
  | case3 found i n ss hn ih =>
    have hcons : Program.labelNames (.label n :: ss) = n :: Program.labelNames ss := rfl
    rw [hcons] at hfound hss
    obtain ⟨hn', hss⟩ := List.nodup_cons.1 hss
    refine ih (fun name hname => ?_) hss
    have hne : (name == n) = false := beq_false_of_ne fun heq => hn' (heq ▸ hname)
    rw [List.lookup_cons, hne]
    exact hfound name (List.mem_cons_of_mem n hname)
  | case4 found i s ss hs ih =>
    have hcons : Program.labelNames (s :: ss) = Program.labelNames ss := by
      unfold Program.labelNames
      rw [List.filterMap_cons]
      split
      · rfl
      · next name hname =>
        split at hname
        · next n => exact absurd rfl (hs n)
        · cases hname
    rw [hcons] at hfound hss
    exact ih hfound hss

/-- Labels are refused only because one of them is set twice. -/
theorem collect_eq_error {e : RunError} (h : collect found i ss = .error e) :
    ∃ name, e.fault = .duplicateLabel name := by
  fun_induction collect found i ss with
  | case1 => cases h
  | case2 found i name =>
    cases h
    exact ⟨name, rfl⟩
  | case3 found i name ss hname ih => exact ih h
  | case4 found i s ss hs ih => exact ih h

end Labels

namespace Program

variable {p : Program} {labels : Labels}

theorem lookup_labels (h : p.labels = .ok labels) (name : String) (t : Nat) :
    labels.lookup name = some t ↔ p[t]? = some (.label name) := by
  simpa using Labels.lookup_collect h name t

/-- The labels of a program that sets none of them twice. -/
theorem exists_labels (h : p.labelNames.Nodup) :
    ∃ labels, p.labels = .ok labels ∧
      ∀ name t, labels.lookup name = some t ↔ p[t]? = some (.label name) := by
  obtain ⟨labels, hlabels⟩ := Labels.exists_collect (fun name _ => List.lookup_nil) h
  exact ⟨labels, hlabels, lookup_labels hlabels⟩

/-! ### Steps -/

variable {s t u : State} {f : Fault} {k n taken limit left : Nat} {o : Outcome}

/-- The statement that is next leads from one state to the other. -/
def Step (p : Program) (labels : Labels) (s t : State) : Prop :=
  ∃ stmt notice, p[s.pc]? = some stmt ∧ stmt.exec labels s = .ok notice t

/-- The statement that is next fails, and leaves the given state. -/
def FailsAt (p : Program) (labels : Labels) (s : State) (f : Fault) (t : State) : Prop :=
  ∃ stmt, p[s.pc]? = some stmt ∧ stmt.exec labels s = .error f t

/-- So many steps lead from one state to the other. -/
inductive Reaches (p : Program) (labels : Labels) : Nat → State → State → Prop where
  | zero {s : State} : Reaches p labels 0 s s
  | succ {k : Nat} {s t u : State} : p.Step labels s t → Reaches p labels k t u →
      Reaches p labels (k + 1) s u

/-- From a state, after some steps taken, the program ends with the outcome, having begun so many
more. -/
inductive Ends (p : Program) (labels : Labels) : Nat → Nat → State → Outcome → Prop where
  | done {taken : Nat} {s : State} : p[s.pc]? = none →
      Ends p labels taken 0 s ⟨s.env, s.canvas, taken, .ok taken⟩
  | fault {taken : Nat} {s t : State} {f : Fault} : p.FailsAt labels s f t →
      Ends p labels taken 1 s ⟨t.env, t.canvas, taken + 1, .error ⟨s.pc, f⟩⟩
  | step {taken n : Nat} {s t : State} {o : Outcome} : p.Step labels s t →
      Ends p labels (taken + 1) n t o → Ends p labels taken (n + 1) s o

/-- A program that is not done makes a step or fails. -/
theorem step_or_failsAt (labels : Labels) (h : p[s.pc]? ≠ none) :
    (∃ t, p.Step labels s t) ∨ ∃ f t, p.FailsAt labels s f t := by
  obtain ⟨stmt, hstmt⟩ := Option.ne_none_iff_exists'.1 h
  cases hexec : stmt.exec labels s with
  | ok notice t => exact .inl ⟨t, stmt, notice, hstmt, hexec⟩
  | error f t => exact .inr ⟨f, t, stmt, hstmt, hexec⟩

/-- From a state that is reached the program goes on as before. -/
theorem Reaches.ends (h : p.Reaches labels k s t) (ht : p.Ends labels (taken + k) n t o) :
    p.Ends labels taken (k + n) s o := by
  induction h generalizing taken with
  | zero => simpa using ht
  | @succ k s t u hstep _ ih =>
    have hadd : taken + (k + 1) = taken + 1 + k := by omega
    rw [hadd] at ht
    rw [Nat.add_right_comm]
    exact .step hstep (ih ht)

/-- An end is reached. -/
theorem Ends.reaches (h : p.Ends labels taken n s o) :
    (∃ t, p.Reaches labels n s t ∧ p[t.pc]? = none ∧
      o = ⟨t.env, t.canvas, taken + n, .ok (taken + n)⟩) ∨
    ∃ k t f u, n = k + 1 ∧ p.Reaches labels k s t ∧ p.FailsAt labels t f u ∧
      o = ⟨u.env, u.canvas, taken + n, .error ⟨t.pc, f⟩⟩ := by
  induction h with
  | @done taken s hdone => exact .inl ⟨s, .zero, hdone, rfl⟩
  | @fault taken s t f hfault => exact .inr ⟨0, s, f, t, rfl, .zero, hfault, rfl⟩
  | @step taken n s t o hstep _ ih =>
    have hadd : taken + 1 + n = taken + (n + 1) := by omega
    rw [hadd] at ih
    rcases ih with ⟨u, hu, hdone, ho⟩ | ⟨k, u, f, v, rfl, hu, hfault, ho⟩
    · exact .inl ⟨u, .succ hstep hu, hdone, ho⟩
    · exact .inr ⟨k + 1, u, f, v, rfl, .succ hstep hu, hfault, ho⟩

/-- No program ends by itself because of a limit. -/
theorem Ends.ne_stepLimit (h : p.Ends labels taken n s o) (pc limit : Nat) :
    o.result ≠ .error ⟨pc, .stepLimit limit⟩ := by
  rcases h.reaches with ⟨t, -, -, rfl⟩ | ⟨k, t, f, u, -, -, ⟨stmt, -, hexec⟩, rfl⟩
  · simp
  · have hne := (Stmt.fails_of_exec hexec).ne_stepLimit limit
    simp [hne]

/-! ### Runs with and without a limit -/

theorem Step.runFrom (h : p.Step labels s t) :
    p.runFrom labels limit taken (left + 1) s = p.runFrom labels limit (taken + 1) left t := by
  obtain ⟨stmt, notice, hstmt, hexec⟩ := h
  rw [Program.runFrom]
  simp only [hstmt, hexec]

theorem Step.runOnFrom (h : p.Step labels s t) :
    p.runOnFrom labels taken s = p.runOnFrom labels (taken + 1) t := by
  obtain ⟨stmt, notice, hstmt, hexec⟩ := h
  rw [Program.runOnFrom]
  simp only [hstmt, hexec]

/-- A run goes on from every state that it reaches. -/
theorem Reaches.runFrom (h : p.Reaches labels k s t) :
    p.runFrom labels limit taken (k + left) s = p.runFrom labels limit (taken + k) left t := by
  induction h generalizing taken with
  | zero => rw [Nat.zero_add, Nat.add_zero]
  | succ hstep _ ih => rw [Nat.add_right_comm, hstep.runFrom, ih, Nat.add_right_comm, Nat.add_assoc]

theorem Reaches.runOnFrom (h : p.Reaches labels k s t) :
    p.runOnFrom labels taken s = p.runOnFrom labels (taken + k) t := by
  induction h generalizing taken with
  | zero => rw [Nat.add_zero]
  | succ hstep _ ih => rw [hstep.runOnFrom, ih, Nat.add_right_comm, Nat.add_assoc]

/-- **A run that the limit does not cut off** ends as the program ends. -/
theorem Ends.runFrom (h : p.Ends labels taken n s o) (hn : n ≤ left) :
    p.runFrom labels limit taken left s = o := by
  induction h generalizing left with
  | done hdone => rw [Program.runFrom, hdone]
  | fault hfault =>
    obtain ⟨stmt, hstmt, hexec⟩ := hfault
    obtain ⟨left, rfl⟩ := Nat.exists_eq_add_of_le' hn
    simp only [Program.runFrom, hstmt, hexec]
  | step hstep _ ih =>
    obtain ⟨left, rfl⟩ := Nat.exists_eq_add_of_le' (Nat.le_trans (Nat.le_add_left 1 _) hn)
    rw [hstep.runFrom]
    exact ih (by omega)

/-- A program ends in one way. -/
theorem Ends.unique {m : Nat} {o' : Outcome} (h : p.Ends labels taken m s o)
    (h' : p.Ends labels taken n s o') : o = o' := by
  have hrun : p.runFrom labels 0 taken (max m n) s = o := h.runFrom (Nat.le_max_left m n)
  have hrun' : p.runFrom labels 0 taken (max m n) s = o' := h'.runFrom (Nat.le_max_right m n)
  exact hrun.symm.trans hrun'

/-- **A run with a limit** ends as the program ends, or is cut off after all the steps that the
limit allows. -/
theorem ends_or_reaches (p : Program) (labels : Labels) (limit taken left : Nat) (s : State) :
    (∃ n ≤ left, p.Ends labels taken n s (p.runFrom labels limit taken left s)) ∨
    ∃ t, p.Reaches labels left s t ∧
      p.runFrom labels limit taken left s =
        ⟨t.env, t.canvas, taken + left, .error ⟨t.pc, .stepLimit limit⟩⟩ := by
  induction left generalizing taken s with
  | zero =>
    cases hstmt : p[s.pc]? with
    | none =>
      have hends : p.Ends labels taken 0 s _ := .done hstmt
      exact .inl ⟨0, Nat.le_refl 0, by rwa [hends.runFrom (Nat.le_refl 0)]⟩
    | some stmt =>
      refine .inr ⟨s, .zero, ?_⟩
      rw [Program.runFrom]
      simp only [hstmt, Nat.add_zero]
  | succ left ih =>
    by_cases hdone : p[s.pc]? = none
    · have hends : p.Ends labels taken 0 s _ := .done hdone
      exact .inl ⟨0, Nat.zero_le _, by rwa [hends.runFrom (Nat.zero_le _)]⟩
    · rcases step_or_failsAt labels hdone with ⟨t, hstep⟩ | ⟨f, t, hfault⟩
      · rw [hstep.runFrom]
        rcases ih (taken + 1) t with ⟨n, hn, hends⟩ | ⟨u, hu, hrun⟩
        · exact .inl ⟨n + 1, by omega, .step hstep hends⟩
        · refine .inr ⟨u, .succ hstep hu, ?_⟩
          rw [hrun, Nat.add_right_comm, Nat.add_assoc]
      · have hends : p.Ends labels taken 1 s _ := .fault hfault
        exact .inl ⟨1, by omega, by rwa [hends.runFrom (by omega)]⟩

theorem Ends.runOnFrom (h : p.Ends labels taken n s o) : p.runOnFrom labels taken s = some o := by
  induction h with
  | done hdone => rw [Program.runOnFrom, hdone]
  | fault hfault =>
    obtain ⟨stmt, hstmt, hexec⟩ := hfault
    rw [Program.runOnFrom]
    simp only [hstmt, hexec]
  | step hstep _ ih =>
    rw [hstep.runOnFrom]
    exact ih

/-- **A run without a limit** has an outcome just if the program ends. -/
theorem runOnFrom_eq_some :
    p.runOnFrom labels taken s = some o ↔ ∃ n, p.Ends labels taken n s o := by
  constructor
  · intro h
    refine Program.runOnFrom.partial_correctness p labels
      (fun taken s o => ∃ n, p.Ends labels taken n s o) ?_ taken s o h
    intro run ih taken s o h
    by_cases hdone : p[s.pc]? = none
    · rw [hdone] at h
      cases h
      exact ⟨0, .done hdone⟩
    · obtain ⟨stmt, hstmt⟩ := Option.ne_none_iff_exists'.1 hdone
      cases hexec : stmt.exec labels s with
      | ok notice t =>
        simp only [hstmt, hexec] at h
        obtain ⟨n, hn⟩ := ih _ _ _ h
        exact ⟨n + 1, .step ⟨stmt, notice, hstmt, hexec⟩ hn⟩
      | error f t =>
        simp only [hstmt, hexec] at h
        cases h
        exact ⟨1, .fault ⟨stmt, hstmt, hexec⟩⟩
  · rintro ⟨n, h⟩
    exact h.runOnFrom

/-- A run without a limit ends as some run with a limit does that the limit does not cut off. -/
theorem runOnFrom_eq_some_iff_runFrom (limit : Nat) :
    p.runOnFrom labels taken s = some o ↔
      (∀ pc limit, o.result ≠ .error ⟨pc, .stepLimit limit⟩) ∧
        ∃ left, p.runFrom labels limit taken left s = o := by
  rw [runOnFrom_eq_some]
  constructor
  · rintro ⟨n, hends⟩
    exact ⟨hends.ne_stepLimit, n, hends.runFrom (Nat.le_refl n)⟩
  · rintro ⟨hne, left, rfl⟩
    rcases p.ends_or_reaches labels limit taken left s with ⟨n, -, hends⟩ | ⟨t, -, hrun⟩
    · exact ⟨n, hends⟩
    · exact absurd (congrArg Outcome.result hrun) (hne t.pc limit)

/-! ### The end of a program -/

theorem Step.pc_le (hlabels : ∀ name t, labels.lookup name = some t → t < p.length)
    (h : p.Step labels s t) : t.pc ≤ p.length := by
  obtain ⟨stmt, notice, hstmt, hexec⟩ := h
  obtain ⟨hlt, -⟩ := List.getElem?_eq_some_iff.1 hstmt
  cases Stmt.steps_of_exec hexec with
  | jump _ _ hlookup => exact Nat.le_of_lt (hlabels _ _ hlookup)
  | draw | assign | label | stay => exact hlt

/-- The next statement is one of the program, or the program is at its end. -/
theorem Reaches.pc_le (hlabels : ∀ name t, labels.lookup name = some t → t < p.length)
    (h : p.Reaches labels k s t) (hs : s.pc ≤ p.length) : t.pc ≤ p.length := by
  induction h with
  | zero => exact hs
  | succ hstep _ ih => exact ih (hstep.pc_le hlabels)

/-- Where a program comes to its end, it ends. -/
theorem Reaches.ends_of_pc_eq (h : p.Reaches labels k s t) (ht : t.pc = p.length) :
    p.Ends labels 0 k s ⟨t.env, t.canvas, k, .ok k⟩ := by
  have hdone : p.Ends labels (0 + k) 0 t ⟨t.env, t.canvas, 0 + k, .ok (0 + k)⟩ :=
    .done (by simp [ht])
  simpa using h.ends hdone

/-- Where a statement fails, the program ends. -/
theorem Reaches.ends_of_failsAt (h : p.Reaches labels k s t) (ht : p.FailsAt labels t f u) :
    p.Ends labels 0 (k + 1) s ⟨u.env, u.canvas, k + 1, .error ⟨t.pc, f⟩⟩ := by
  have hfault : p.Ends labels (0 + k) 1 t _ := .fault ht
  simpa using h.ends hfault

end Program

/-! ### Interpreters -/

namespace Interpreter

variable {p : Program} {labels : Labels} {i : Interpreter} {n limit : Nat} {o : Outcome}

/-- A program begins with its first statement, without variables, on the canvas as it is. -/
def start (i : Interpreter) : State := ⟨0, .empty, i.canvas⟩

/-- A program whose labels are set once each is carried out from its beginning. What the interpreter
has kept of other programs makes no difference. -/
theorem execute_of_labels (h : p.labels = .ok labels) (i : Interpreter) :
    i.execute p = (i.clear.goOn p labels i.start).map (i.clear.after labels) := by
  unfold Program.labels at h
  simp only [execute, clear, h]
  rfl

/-- A label that is set twice keeps a program from being carried out. -/
theorem execute_of_labels_error {e : RunError} (h : p.labels = .error e) (i : Interpreter) :
    i.execute p = some (i.clear, .error e) := by
  unfold Program.labels at h
  simp only [execute, clear, h]

theorem execute_withLimit? (h : p.labels = .ok labels) (i : Interpreter) (limit : Nat) :
    (i.withLimit? (some limit)).execute p =
      some ((i.withLimit? (some limit)).after labels
        (p.runFrom labels limit 0 limit i.start)) := by
  rw [execute_of_labels h]
  rfl

theorem execute_withoutLimit (h : p.labels = .ok labels) (i : Interpreter) :
    (i.withLimit? none).execute p =
      (p.runOnFrom labels 0 i.start).map ((i.withLimit? none).after labels) := by
  rw [execute_of_labels h]
  rfl

theorem execute_of_ends (h : p.labels = .ok labels) (hends : p.Ends labels 0 n i.start o)
    (hn : n ≤ limit) :
    (i.withLimit? (some limit)).execute p = some ((i.withLimit? (some limit)).after labels o) := by
  rw [execute_withLimit? h, hends.runFrom hn]

/-- An interpreter goes on from every state that it reaches within its limit. -/
theorem execute_of_reaches (h : p.labels = .ok labels) {k : Nat} {s : State}
    (hs : p.Reaches labels k i.start s) (hk : ∀ limit ∈ i.limit?, k ≤ limit) :
    i.execute p = ({ i with steps := k }.goOn p labels s).map (i.after labels) := by
  rw [execute_of_labels h]
  show (i.clear.goOn p labels i.start).map (i.after labels) = _
  refine congrArg (Option.map (i.after labels)) ?_
  unfold goOn clear
  cases hlimit : i.limit? with
  | none =>
    have hrun : p.runOnFrom labels 0 i.start = p.runOnFrom labels (0 + k) s := hs.runOnFrom
    rwa [Nat.zero_add] at hrun
  | some limit =>
    obtain ⟨left, rfl⟩ := Nat.exists_eq_add_of_le (hk limit hlimit)
    have hrun : p.runFrom labels (k + left) 0 (k + left) i.start =
      p.runFrom labels (k + left) (0 + k) left s := hs.runFrom
    simpa using hrun

/-- What an interpreter returns is how the program ends, or what it has come to at the limit. -/
theorem execute_eq_some (h : p.labels = .ok labels) {j : Interpreter} {r : Except RunError Nat}
    (hexec : i.execute p = some (j, r)) :
    (∃ n o, p.Ends labels 0 n i.start o ∧ i.after labels o = (j, r)) ∨
      ∃ limit s, i.limit? = some limit ∧ p.Reaches labels limit i.start s ∧
        i.after labels ⟨s.env, s.canvas, limit, .error ⟨s.pc, .stepLimit limit⟩⟩ = (j, r) := by
  rw [execute_of_labels h] at hexec
  obtain ⟨o, ho, hafter⟩ := Option.map_eq_some_iff.1 hexec
  have hlimit : i.clear.limit? = i.limit? := rfl
  rw [goOn, hlimit] at ho
  cases hlimit? : i.limit? with
  | none =>
    rw [hlimit?] at ho
    obtain ⟨n, hends⟩ := Program.runOnFrom_eq_some.1 ho
    exact .inl ⟨n, o, hends, hafter⟩
  | some limit =>
    rw [hlimit?] at ho
    obtain rfl : p.runFrom labels limit 0 limit i.start = o := Option.some.inj ho
    rcases p.ends_or_reaches labels limit 0 limit i.start with ⟨n, -, hends⟩ | ⟨s, hs, hrun⟩
    · exact .inl ⟨n, _, hends, hafter⟩
    · rw [hrun, Nat.zero_add] at hafter
      exact .inr ⟨limit, s, rfl, hs, hafter⟩

/-- With the limit, the interpreter makes the first steps of the program and no others. -/
structure MakesFirstSteps (p : Program) (labels : Labels) (i : Interpreter) (limit : Nat) :
    Prop where
  /-- A program that is at its end within the limit has its number of steps as result. -/
  finished : ∀ k s, k ≤ limit → p.Reaches labels k i.start s → s.pc = p.length →
    (i.withLimit? (some limit)).execute p =
      some ((i.withLimit? (some limit)).after labels ⟨s.env, s.canvas, k, .ok k⟩)
  /-- A statement that fails within the limit gives its fault as result. -/
  failed : ∀ k s f t, k + 1 ≤ limit → p.Reaches labels k i.start s → p.FailsAt labels s f t →
    (i.withLimit? (some limit)).execute p =
      some ((i.withLimit? (some limit)).after labels
        ⟨t.env, t.canvas, k + 1, .error ⟨s.pc, f⟩⟩)
  /-- Otherwise the program is cut off after all the steps that the limit allows. -/
  cutOff : (∀ k s, k ≤ limit → p.Reaches labels k i.start s → s.pc ≠ p.length) →
    (∀ k s f t, k + 1 ≤ limit → p.Reaches labels k i.start s → ¬p.FailsAt labels s f t) →
    ∃ s, p.Reaches labels limit i.start s ∧
      (i.withLimit? (some limit)).execute p =
        some ((i.withLimit? (some limit)).after labels
          ⟨s.env, s.canvas, limit, .error ⟨s.pc, .stepLimit limit⟩⟩)

theorem makesFirstSteps (h : p.labels = .ok labels)
    (hlabels : ∀ name t, labels.lookup name = some t → t < p.length) (i : Interpreter)
    (limit : Nat) : MakesFirstSteps p labels i limit where
  finished k s hk hs hpc := execute_of_ends h (hs.ends_of_pc_eq hpc) hk
  failed k s f t hk hs hf := execute_of_ends h (hs.ends_of_failsAt hf) hk
  cutOff hfinished hfailed := by
    rw [execute_withLimit? h]
    rcases p.ends_or_reaches labels limit 0 limit i.start with ⟨n, hn, hends⟩ | ⟨s, hs, hrun⟩
    · rcases hends.reaches with ⟨s, hs, hdone, -⟩ | ⟨k, s, f, t, rfl, hs, hf, -⟩
      · have hle : s.pc ≤ p.length := hs.pc_le hlabels (Nat.zero_le _)
        have hge : p.length ≤ s.pc := List.getElem?_eq_none_iff.1 hdone
        exact absurd (Nat.le_antisymm hle hge) (hfinished n s hn hs)
      · exact absurd hf (hfailed k s f t hn hs)
    · exact ⟨s, hs, by rw [hrun, Nat.zero_add]⟩

/-- What an interpreter keeps of an outcome does not depend on its limit. -/
theorem after_withLimit?_eq {j : Interpreter} {r : Except RunError Nat} {limit? : Option Nat}
    (h : (i.withLimit? limit?).after labels o = (j.withLimit? limit?, r)) (limit?' : Option Nat) :
    (i.withLimit? limit?').after labels o = (j.withLimit? limit?', r) :=
  congrArg (fun q => (q.1.withLimit? limit?', q.2)) h

/-- Without a limit there is a result just if the program ends. -/
theorem execute_withoutLimit_eq_some (h : p.labels = .ok labels) {j : Interpreter}
    {r : Except RunError Nat} :
    (i.withLimit? none).execute p = some (j.withLimit? none, r) ↔
      ∃ n o, p.Ends labels 0 n i.start o ∧
        ∀ limit?, (i.withLimit? limit?).after labels o = (j.withLimit? limit?, r) := by
  rw [execute_withoutLimit h, Option.map_eq_some_iff]
  constructor
  · rintro ⟨o, ho, heq⟩
    obtain ⟨n, hends⟩ := Program.runOnFrom_eq_some.1 ho
    exact ⟨n, o, hends, after_withLimit?_eq heq⟩
  · rintro ⟨n, o, hends, heq⟩
    exact ⟨o, hends.runOnFrom, heq none⟩

/-- **Without a limit** the result is the one that some limit gives, if it is not the limit that
stops the program. -/
theorem execute_withoutLimit_iff (h : p.labels = .ok labels) (i j : Interpreter)
    (r : Except RunError Nat) :
    (i.withLimit? none).execute p = some (j.withLimit? none, r) ↔
      (∀ pc limit, r ≠ .error ⟨pc, .stepLimit limit⟩) ∧
        ∃ limit, (i.withLimit? (some limit)).execute p = some (j.withLimit? (some limit), r) := by
  rw [execute_withoutLimit_eq_some h]
  constructor
  · rintro ⟨n, o, hends, heq⟩
    have hr : o.result = r := congrArg Prod.snd (heq none)
    refine ⟨fun pc limit => hr ▸ hends.ne_stepLimit pc limit, n, ?_⟩
    rw [execute_of_ends h hends (Nat.le_refl n), heq]
  · rintro ⟨hr, limit, hexec⟩
    rw [execute_withLimit? h, Option.some.injEq] at hexec
    rcases p.ends_or_reaches labels limit 0 limit i.start with ⟨n, -, hends⟩ | ⟨s, -, hrun⟩
    · exact ⟨n, _, hends, after_withLimit?_eq hexec⟩
    · rw [hrun] at hexec
      exact absurd (congrArg Prod.snd hexec).symm (hr _ _)

/-- A program that ends after `k` steps is cut off by every smaller limit. -/
theorem execute_of_lt (h : p.labels = .ok labels) {k : Nat}
    (hends : p.Ends labels 0 n i.start o) (hok : o.result = .ok k) (hk : limit < k) :
    ∃ s, p.Reaches labels limit i.start s ∧
      (i.withLimit? (some limit)).execute p =
        some ((i.withLimit? (some limit)).after labels
          ⟨s.env, s.canvas, limit, .error ⟨s.pc, .stepLimit limit⟩⟩) := by
  rw [execute_withLimit? h]
  rcases p.ends_or_reaches labels limit 0 limit i.start with ⟨m, hm, hends'⟩ | ⟨s, hs, hrun⟩
  · -- the limit would not matter, so that the program would end after fewer steps
    rw [hends'.unique hends] at hends'
    rcases hends'.reaches with ⟨s, -, -, rfl⟩ | ⟨_, s, f, t, -, -, -, rfl⟩
    · simp only [Except.ok.injEq] at hok
      omega
    · cases hok
  · exact ⟨s, hs, by rw [hrun, Nat.zero_add]⟩

/-- **A run with a limit is the beginning of the run without one,** whatever the interpreter has
carried out before. So a program that ends after `k` steps ends so with every limit from `k` on, and
every smaller limit cuts it off. -/
theorem execute_is_beginning (p : Program) (hp : p.labelNames.Nodup) :
    ∃ labels, p.labels = .ok labels ∧
      (∀ name t, labels.lookup name = some t ↔ p[t]? = some (.label name)) ∧
      ∀ i : Interpreter,
        (∀ limit, MakesFirstSteps p labels i limit) ∧
        (∀ (j : Interpreter) (r : Except RunError Nat),
          (i.withLimit? none).execute p = some (j.withLimit? none, r) ↔
            (∀ pc limit, r ≠ .error ⟨pc, .stepLimit limit⟩) ∧
            ∃ limit, (i.withLimit? (some limit)).execute p =
              some (j.withLimit? (some limit), r)) ∧
        ∀ (j : Interpreter) (k : Nat),
          (i.withLimit? none).execute p = some (j.withLimit? none, .ok k) →
          (∀ limit, k ≤ limit →
            (i.withLimit? (some limit)).execute p = some (j.withLimit? (some limit), .ok k)) ∧
          ∀ limit < k, ∃ s, p.Reaches labels limit i.start s ∧
            (i.withLimit? (some limit)).execute p =
              some ((i.withLimit? (some limit)).after labels
                ⟨s.env, s.canvas, limit, .error ⟨s.pc, .stepLimit limit⟩⟩) := by
  obtain ⟨labels, hlabels, hlookup⟩ := Program.exists_labels hp
  have hlt : ∀ name t, labels.lookup name = some t → t < p.length := by
    intro name t ht
    obtain ⟨hlt, -⟩ := List.getElem?_eq_some_iff.1 ((hlookup name t).1 ht)
    exact hlt
  refine ⟨labels, hlabels, hlookup, fun i => ⟨makesFirstSteps hlabels hlt i,
    execute_withoutLimit_iff hlabels i, fun j k hexec => ?_⟩⟩
  obtain ⟨n, o, hends, heq⟩ := (execute_withoutLimit_eq_some hlabels).1 hexec
  have hok : o.result = .ok k := congrArg Prod.snd (heq none)
  have hn : n = k := by
    rcases hends.reaches with ⟨s, -, -, rfl⟩ | ⟨_, s, f, t, -, -, -, rfl⟩
    · simpa using hok
    · cases hok
  refine ⟨fun limit hk => ?_, fun limit hk => execute_of_lt hlabels hends hok hk⟩
  rw [execute_of_ends hlabels hends (hn ▸ hk), heq]

/-- A program that counts down from three to zero. -/
def countdown : Program :=
  [.assign "n" (.num 3), .label "top", .assign "n" (.binary .sub (.var "n") (.num 1)),
    .goto "top" (.var "n")]

/-- An interpreter that still has the variables, labels and steps of another program. -/
def used : Interpreter where
  canvas := ⟨.blank 1, none, ⟨.red, 1⟩⟩
  env := ⟨[("n", 7), ("m", 8)]⟩
  labels := [("top", 0)]
  steps := 5

theorem execute_is_beginning_countdown :
    countdown.labelNames.Nodup ∧
      ∃ j : Interpreter, j.env = ⟨[("n", 0)]⟩ ∧
        (used.withLimit? none).execute countdown = some (j.withLimit? none, .ok 10) ∧
        ∀ limit, 10 ≤ limit →
          (used.withLimit? (some limit)).execute countdown =
            some (j.withLimit? (some limit), .ok 10) := by
  obtain ⟨labels, -, -, h⟩ := execute_is_beginning countdown (by decide)
  obtain ⟨-, hiff, hmore⟩ := h used
  let j : Interpreter := { used with env := ⟨[("n", 0)]⟩, labels := [("top", 1)], steps := 10 }
  have hten : (used.withLimit? (some 10)).execute countdown =
      some (j.withLimit? (some 10), .ok 10) := rfl
  have hrun : (used.withLimit? none).execute countdown = some (j.withLimit? none, .ok 10) :=
    (hiff j (.ok 10)).2 ⟨by simp, 10, hten⟩
  exact ⟨by decide, j, rfl, hrun, (hmore j 10 hrun).1⟩

end Interpreter

end Easel
