import Easel.Proofs.Program.Runs
import Mathlib.Order.Bounds.Basic

/-!
# Labels and jumps

A program that sets a label twice is not carried out: the fault names the first statement that
repeats a label (`Program.Repeats`), and nothing has been done. In every other program a jump leads
to the one statement that sets its label, or to the next statement if there is none
(`Program.LeadsTo`). If no jump leads back (`Program.Forward`), every step goes on to a later
statement, so that the program ends.
-/

namespace Easel

/-! ### Labels that are set again -/

namespace Program

/-- The statement sets a label that an earlier one has set. -/
def Repeats (p : Program) (k : Nat) : Prop :=
  ∃ name, p[k]? = some (.label name) ∧ ∃ a < k, p[a]? = some (.label name)

/-- Two statements set the label. -/
def SetsTwice (p : Program) (name : String) : Prop :=
  ∃ a b : Nat, a ≠ b ∧ p[a]? = some (.label name) ∧ p[b]? = some (.label name)

theorem exists_repeats {p : Program} : (∃ k, p.Repeats k) ↔ ∃ name, p.SetsTwice name := by
  constructor
  · rintro ⟨k, name, hk, a, hlt, ha⟩
    exact ⟨name, a, k, Nat.ne_of_lt hlt, ha, hk⟩
  · rintro ⟨name, a, b, hne, ha, hb⟩
    rcases Nat.lt_or_gt_of_ne hne with hlt | hlt
    · exact ⟨b, name, hb, a, hlt, ha⟩
    · exact ⟨a, name, ha, b, hlt, hb⟩

end Program

namespace Labels

variable {found labels : Labels} {i k : Nat} {n : String} {s : Stmt} {ss : List Stmt}

/-- The statement sets a label that has been found before, or that an earlier statement has set. -/
def Repeats (found : Labels) (ss : List Stmt) (k : Nat) : Prop :=
  ∃ name, ss[k]? = some (.label name) ∧
    (found.lookup name ≠ none ∨ ∃ a < k, ss[a]? = some (.label name))

theorem repeats_nil_iff {p : Program} : Repeats [] p k ↔ p.Repeats k := by
  simp [Repeats, Program.Repeats]

theorem not_repeats_label_zero (hn : found.lookup n = none) :
    ¬Repeats found (.label n :: ss) 0 := by
  rintro ⟨name, ⟨⟩, hfound | ⟨a, hlt, -⟩⟩
  · exact hfound hn
  · exact absurd hlt (Nat.not_lt_zero a)

theorem not_repeats_zero (hs : ∀ name, s ≠ .label name) : ¬Repeats found (s :: ss) 0 := by
  rintro ⟨name, hname, -⟩
  exact hs name (Option.some.inj hname)

/-- The label that the first statement sets is one that has been found. -/
theorem repeats_label_succ :
    Repeats found (.label n :: ss) (k + 1) ↔ Repeats ((n, i) :: found) ss k := by
  unfold Repeats
  simp only [List.getElem?_cons_succ, Nat.exists_lt_succ_left, List.getElem?_cons_zero]
  refine exists_congr fun name => and_congr_right fun _ => ?_
  rw [← or_assoc, List.lookup_cons]
  refine or_congr_left ?_
  by_cases hname : name = n
  · simp [hname]
  · have hbeq : (name == n) = false := beq_false_of_ne hname
    have hne : n ≠ name := fun heq => hname heq.symm
    simp [hbeq, hne]

theorem repeats_succ (hs : ∀ name, s ≠ .label name) :
    Repeats found (s :: ss) (k + 1) ↔ Repeats found ss k := by
  unfold Repeats
  simp only [List.getElem?_cons_succ, Nat.exists_lt_succ_left, List.getElem?_cons_zero,
    Option.some.injEq, hs, false_or]

/-- Labels that can be collected are set once each. -/
theorem not_repeats_of_collect (h : collect found i ss = .ok labels) (k : Nat) :
    ¬Repeats found ss k := by
  fun_induction collect found i ss generalizing k with
  | case1 => simp [Repeats]
  | case2 => cases h
  | case3 found i n ss hn ih =>
    cases k with
    | zero => exact not_repeats_label_zero hn
    | succ k =>
      rw [repeats_label_succ]
      exact ih h k
  | case4 found i s ss hs ih =>
    cases k with
    | zero => exact not_repeats_zero hs
    | succ k =>
      rw [repeats_succ hs]
      exact ih h k

/-- What the first statement does not do is done first among the others. -/
theorem isLeast_succ {P Q : Nat → Prop} (hzero : ¬P 0) (hsucc : ∀ k, P (k + 1) ↔ Q k)
    (h : IsLeast {k | Q k} k) : IsLeast {k | P k} (k + 1) := by
  refine ⟨(hsucc k).2 h.1, ?_⟩
  intro a ha
  cases a with
  | zero => exact absurd ha hzero
  | succ a => exact Nat.succ_le_succ (h.2 ((hsucc a).1 ha))

/-- **Labels are refused** at the first statement that repeats one. -/
theorem isLeast_of_collect {e : RunError} (h : collect found i ss = .error e) :
    ∃ k name, e = ⟨i + k, .duplicateLabel name⟩ ∧ ss[k]? = some (.label name) ∧
      IsLeast {k | Repeats found ss k} k := by
  fun_induction collect found i ss with
  | case1 => cases h
  | case2 found i n ss t hn =>
    cases h
    have hrepeats : Repeats found (.label n :: ss) 0 := ⟨n, rfl, .inl (by rw [hn]; simp)⟩
    exact ⟨0, n, rfl, rfl, hrepeats, fun a _ => Nat.zero_le a⟩
  | case3 found i n ss hn ih =>
    obtain ⟨k, name, he, hk, hleast⟩ := ih h
    exact ⟨k + 1, name, by rw [he, Nat.add_right_comm, Nat.add_assoc], hk,
      isLeast_succ (not_repeats_label_zero hn) (fun _ => repeats_label_succ) hleast⟩
  | case4 found i s ss hs ih =>
    obtain ⟨k, name, he, hk, hleast⟩ := ih h
    exact ⟨k + 1, name, by rw [he, Nat.add_right_comm, Nat.add_assoc], hk,
      isLeast_succ (not_repeats_zero hs) (fun _ => repeats_succ hs) hleast⟩

end Labels

namespace Program

variable {p : Program}

/-- The labels are refused just if one of them is set twice. -/
theorem labels_eq_error_iff :
    (∃ k name, p.labels = .error ⟨k, .duplicateLabel name⟩) ↔ ∃ name, p.SetsTwice name := by
  rw [← exists_repeats]
  constructor
  · rintro ⟨k, name, hlabels⟩
    obtain ⟨k', _, -, -, hk', -⟩ := Labels.isLeast_of_collect hlabels
    exact ⟨k', Labels.repeats_nil_iff.1 hk'⟩
  · rintro ⟨k, hk⟩
    cases hlabels : p.labels with
    | ok labels =>
      exact absurd (Labels.repeats_nil_iff.2 hk) (Labels.not_repeats_of_collect hlabels k)
    | error e =>
      obtain ⟨k', name, rfl, -, -⟩ := Labels.isLeast_of_collect hlabels
      exact ⟨_, name, rfl⟩

theorem labels_eq_ok_of_not (h : ¬∃ name, p.SetsTwice name) : ∃ labels, p.labels = .ok labels := by
  cases hlabels : p.labels with
  | ok labels => exact ⟨labels, rfl⟩
  | error e =>
    obtain ⟨k, name, rfl, -, -⟩ := Labels.isLeast_of_collect hlabels
    exact absurd (labels_eq_error_iff.1 ⟨_, name, hlabels⟩) h

theorem isLeast_of_labels {k : Nat} {name : String}
    (h : p.labels = .error ⟨k, .duplicateLabel name⟩) :
    p[k]? = some (.label name) ∧ IsLeast {k | p.Repeats k} k := by
  obtain ⟨k', name', he, hk, hleast⟩ := Labels.isLeast_of_collect h
  simp only [Labels.repeats_nil_iff] at hleast
  rw [Nat.zero_add] at he
  cases he
  exact ⟨hk, hleast⟩

end Program

/-! ### Jumps -/

/-- The statement that follows a jump from the statement `pc`, whose condition has the given
value. -/
def Labels.destination (labels : Labels) (pc : Nat) (name : String) (v : Int32) : Nat :=
  if v = 0 then pc + 1 else (labels.lookup name).getD (pc + 1)

namespace Stmt

variable {s : State} {condition : Expr} {v : Int32}

/-- A jump changes nothing but the next statement. -/
theorem exec_goto (labels : Labels) (name : String)
    (hv : condition.eval s.env s.canvas = .ok v) :
    ∃ notice, (goto name condition).exec labels s =
      .ok notice ⟨labels.destination s.pc name v, s.env, s.canvas⟩ := by
  show ∃ notice, (Exec.value condition >>= _) s = _
  rw [Exec.value_bind, hv]
  unfold Labels.destination
  by_cases hzero : v = 0
  · simp only [if_pos hzero]
    exact ⟨none, rfl⟩
  · simp only [if_neg hzero]
    cases labels.lookup name with
    | none => exact ⟨some (.noLabel name), rfl⟩
    | some target => exact ⟨some (.jumped name target), rfl⟩

end Stmt

namespace Program

variable {p : Program} {labels : Labels} {s t u : State} {stmt : Stmt} {notice : Option Notice}
  {name : String} {condition : Expr} {v : Int32} {k : Nat}

/-- The statement that follows a jump to a label, where the condition of the jump has the given
value. -/
inductive LeadsTo (p : Program) (pc : Nat) (name : String) (v : Int32) : Nat → Prop where
  | label {target : Nat} : v ≠ 0 → p[target]? = some (.label name) →
      (∀ a : Nat, p[a]? = some (.label name) → a = target) → LeadsTo p pc name v target
  | noLabel : v ≠ 0 → (∀ a : Nat, p[a]? ≠ some (.label name)) → LeadsTo p pc name v (pc + 1)
  | zero : v = 0 → LeadsTo p pc name v (pc + 1)

/-- A label that has been found is set nowhere else. -/
theorem eq_of_lookup_labels (h : p.labels = .ok labels) {target a : Nat}
    (htarget : labels.lookup name = some target) (ha : p[a]? = some (.label name)) :
    a = target := by
  have hsome := (lookup_labels h name a).2 ha
  rw [htarget] at hsome
  exact (Option.some.inj hsome).symm

theorem leadsTo_destination (h : p.labels = .ok labels) (pc : Nat) (name : String) (v : Int32) :
    p.LeadsTo pc name v (labels.destination pc name v) := by
  have hlookup := lookup_labels h name
  unfold Labels.destination
  by_cases hzero : v = 0
  · rw [if_pos hzero]
    exact .zero hzero
  · rw [if_neg hzero]
    cases htarget : labels.lookup name with
    | none =>
      refine .noLabel hzero fun a ha => ?_
      have hsome := (hlookup a).2 ha
      rw [htarget] at hsome
      cases hsome
    | some target =>
      exact .label hzero ((hlookup target).1 htarget) fun a => eq_of_lookup_labels h htarget

theorem step_iff_of_exec (hstmt : p[s.pc]? = some stmt)
    (hexec : stmt.exec labels s = .ok notice u) : p.Step labels s t ↔ t = u := by
  constructor
  · rintro ⟨stmt', notice', hstmt', hexec'⟩
    rw [hstmt] at hstmt'
    cases hstmt'
    rw [hexec] at hexec'
    cases hexec'
    rfl
  · rintro rfl
    exact ⟨stmt, notice, hstmt, hexec⟩

/-- **A jump leads where its label is set,** and to the next statement without one. -/
theorem step_goto_iff (hstmt : p[s.pc]? = some (.goto name condition))
    (hv : condition.eval s.env s.canvas = .ok v) :
    p.Step labels s t ↔ t = ⟨labels.destination s.pc name v, s.env, s.canvas⟩ := by
  obtain ⟨notice, hexec⟩ := Stmt.exec_goto labels name hv
  exact step_iff_of_exec hstmt hexec

theorem Reaches.snoc (h : p.Reaches labels k s t) (hstep : p.Step labels t u) :
    p.Reaches labels (k + 1) s u := by
  induction h with
  | zero => exact .succ hstep .zero
  | succ hfirst _ ih => exact .succ hfirst (ih hstep)

end Program

namespace Interpreter

variable {p : Program} {i j : Interpreter} {k : Nat} {name : String}

/-- A label that is set twice is reported only by the labels. -/
theorem labels_eq_error_of_execute
    (h : i.execute p = some (j, .error ⟨k, .duplicateLabel name⟩)) :
    p.labels = .error ⟨k, .duplicateLabel name⟩ ∧ j = i.clear := by
  cases hlabels : p.labels with
  | error e =>
    rw [execute_of_labels_error hlabels] at h
    cases h
    exact ⟨rfl, rfl⟩
  | ok labels =>
    rcases execute_eq_some hlabels h with ⟨n, o, hends, ho⟩ | ⟨limit, s, -, -, ho⟩
    · rcases hends.reaches with ⟨s, -, -, rfl⟩ | ⟨_, s, f, t, -, -, ⟨stmt, -, hexec⟩, rfl⟩
      · cases ho
      · cases ho
        exact absurd rfl ((Stmt.fails_of_exec hexec).ne_duplicateLabel name)
    · cases ho

/-- **Labels are found before a program begins.** Whatever an interpreter has carried out before, a
program that sets a label twice is refused at the first statement that repeats a label, and nothing
is done. In every other program, whatever state it has come to, a jump leads to the one statement
that sets its label, or else to the next statement, and the interpreter goes on from there. -/
theorem labels_resolve (p : Program) (i : Interpreter) :
    ((∃ j k name, i.execute p = some (j, .error ⟨k, .duplicateLabel name⟩)) ↔
      ∃ name, p.SetsTwice name) ∧
    (∀ j k name, i.execute p = some (j, .error ⟨k, .duplicateLabel name⟩) →
      p[k]? = some (.label name) ∧ IsLeast {k | p.Repeats k} k ∧
        j.steps = 0 ∧ j.env = .empty ∧ j.canvas = i.canvas) ∧
    ((¬∃ name, p.SetsTwice name) → ∃ labels, p.labels = .ok labels ∧
      ∀ k s name condition v, p.Reaches labels k i.start s →
        p[s.pc]? = some (.goto name condition) → condition.eval s.env s.canvas = .ok v →
        ∃ target, p.LeadsTo s.pc name v target ∧
          (∀ t, p.Step labels s t ↔ t = ⟨target, s.env, s.canvas⟩) ∧
          ((∀ limit ∈ i.limit?, k + 1 ≤ limit) →
            i.execute p = ({ i with steps := k + 1 }.goOn p labels ⟨target, s.env, s.canvas⟩).map
              (i.after labels))) := by
  refine ⟨?_, ?_, ?_⟩
  · rw [← Program.labels_eq_error_iff]
    constructor
    · rintro ⟨j, k, name, h⟩
      exact ⟨k, name, (labels_eq_error_of_execute h).1⟩
    · rintro ⟨k, name, hlabels⟩
      exact ⟨i.clear, k, name, execute_of_labels_error hlabels i⟩
  · intro j k name h
    obtain ⟨hlabels, rfl⟩ := labels_eq_error_of_execute h
    obtain ⟨hk, hleast⟩ := Program.isLeast_of_labels hlabels
    exact ⟨hk, hleast, rfl, rfl, rfl⟩
  · intro hnot
    obtain ⟨labels, hlabels⟩ := Program.labels_eq_ok_of_not hnot
    refine ⟨labels, hlabels, fun k s name condition v hs hstmt hv => ?_⟩
    have hstep : ∀ t, p.Step labels s t ↔ t = ⟨labels.destination s.pc name v, s.env, s.canvas⟩ :=
      fun t => Program.step_goto_iff hstmt hv
    refine ⟨_, Program.leadsTo_destination hlabels s.pc name v, hstep, fun hlimit => ?_⟩
    exact execute_of_reaches hlabels (hs.snoc ((hstep _).2 rfl)) hlimit

/-- A program that sets one label after the other, and both of them again. -/
def tangled : Program :=
  [.label "a", .label "b", .goto "a" (.num 1), .label "b", .label "a"]

/-- The second label is the first to be repeated. The countdown goes back to its top while the
variable is not zero. -/
theorem labels_resolve_tangled :
    used.execute tangled = some (used.clear, .error ⟨3, .duplicateLabel "b"⟩) ∧
      IsLeast {k | tangled.Repeats k} 3 ∧
      (¬∃ name, countdown.SetsTwice name) ∧ countdown.LeadsTo 3 "top" 2 1 ∧
      countdown.Step [("top", 1)] ⟨3, ⟨[("n", 2)]⟩, used.canvas⟩
        ⟨1, ⟨[("n", 2)]⟩, used.canvas⟩ := by
  have hrefused : used.execute tangled = some (used.clear, .error ⟨3, .duplicateLabel "b"⟩) := rfl
  obtain ⟨-, hleast, -⟩ := (labels_resolve tangled used).2.1 _ _ _ hrefused
  have honce : ¬∃ name, countdown.SetsTwice name := by
    rw [← (labels_resolve countdown { used with limit? := some 0 }).1]
    rintro ⟨j, k, name, h⟩
    cases h
  obtain ⟨labels, hlabels, hjump⟩ := (labels_resolve countdown used).2.2 honce
  cases hlabels
  have hreaches : countdown.Reaches [("top", 1)] 3 used.start ⟨3, ⟨[("n", 2)]⟩, used.canvas⟩ :=
    .succ ⟨_, _, rfl, rfl⟩ <| .succ ⟨_, _, rfl, rfl⟩ <| .succ ⟨_, _, rfl, rfl⟩ .zero
  obtain ⟨target, hleads, hstep, -⟩ := hjump 3 _ "top" (.var "n") 2 hreaches rfl rfl
  have hgoes : countdown.Step [("top", 1)] ⟨3, ⟨[("n", 2)]⟩, used.canvas⟩
      ⟨1, ⟨[("n", 2)]⟩, used.canvas⟩ := ⟨_, _, rfl, rfl⟩
  obtain ⟨⟩ := (hstep _).1 hgoes
  exact ⟨hrefused, hleast, honce, hleads, hgoes⟩

end Interpreter

/-! ### Programs without jumps back -/

namespace Program

variable {p : Program} {labels : Labels} {s t u : State} {k m n taken : Nat} {o : Outcome}

/-- Every jump leads on: its label is set nowhere, or by a later statement. -/
def Forward (p : Program) : Prop :=
  ∀ (k : Nat) (name : String) (condition : Expr), p[k]? = some (.goto name condition) →
    (∀ t : Nat, p[t]? ≠ some (.label name)) ∨ ∃ t, k < t ∧ p[t]? = some (.label name)

theorem Step.pc_lt (h : p.Step labels s t) (hlabels : p.labels = .ok labels) (hp : p.Forward) :
    s.pc < t.pc := by
  obtain ⟨stmt, notice, hstmt, hexec⟩ := h
  cases Stmt.steps_of_exec hexec with
  | draw | assign | label | stay => exact Nat.lt_succ_self s.pc
  | @jump name _ _ target _ _ htarget =>
    rcases hp s.pc name _ hstmt with hnone | ⟨a, hlt, ha⟩
    · exact absurd ((lookup_labels hlabels name target).1 htarget) (hnone target)
    · rwa [eq_of_lookup_labels hlabels htarget ha] at hlt

/-- So many steps lead on by so many statements at least. -/
theorem Reaches.pc_add_le (h : p.Reaches labels k s t) (hlabels : p.labels = .ok labels)
    (hp : p.Forward) : s.pc + k ≤ t.pc := by
  induction h with
  | zero => exact Nat.le_refl _
  | succ hstep _ ih =>
    have hlt := hstep.pc_lt hlabels hp
    omega

/-- Steps lead to one state. -/
theorem Reaches.split (h : p.Reaches labels (m + k) s u) (hs : p.Reaches labels m s t) :
    p.Reaches labels k t u := by
  induction hs with
  | zero => rwa [Nat.zero_add] at h
  | @succ m s t v hstep _ ih =>
    rw [Nat.add_right_comm] at h
    cases h with
    | @succ _ _ t' _ hstep' hrest =>
      obtain ⟨stmt, notice, hstmt, hexec⟩ := hstep
      obtain rfl : t' = t := (step_iff_of_exec hstmt hexec).1 hstep'
      exact ih hrest

theorem Reaches.pc_lt (hs : p.Reaches labels m s t) (hu : p.Reaches labels n s u) (hmn : m < n)
    (hlabels : p.labels = .ok labels) (hp : p.Forward) : t.pc < u.pc := by
  obtain ⟨k, rfl⟩ := Nat.exists_eq_add_of_lt hmn
  rw [Nat.add_assoc] at hu
  have hle := (hu.split hs).pc_add_le hlabels hp
  omega

/-- **A program without jumps back ends** after as many steps as it has statements, at most. -/
theorem Forward.ends (hp : p.Forward) (hlabels : p.labels = .ok labels) (s : State) :
    ∃ n ≤ p.length, ∃ o, p.Ends labels 0 n s o := by
  rcases p.ends_or_reaches labels 0 0 p.length s with ⟨n, hn, hends⟩ | ⟨t, ht, -⟩
  · exact ⟨n, hn, _, hends⟩
  · have hle := ht.pc_add_le hlabels hp
    have hdone : p.Ends labels (0 + p.length) 0 t _ :=
      .done (List.getElem?_eq_none_iff.2 (by omega))
    exact ⟨p.length, Nat.le_refl _, _, ht.ends hdone⟩

theorem Ends.steps_eq (h : p.Ends labels taken n s o) : o.steps = taken + n := by
  rcases h.reaches with ⟨t, -, -, rfl⟩ | ⟨k, t, f, u, -, -, -, rfl⟩ <;> rfl

end Program

namespace Interpreter

/-- **A program without jumps back always stops.** Without a limit it has a result, which is the
same with every limit that is not below the number of its statements. It makes no more steps than
that, and the later of two states that it goes through has the later statement next. -/
theorem forward_stops (p : Program) (hp : p.Forward) (i : Interpreter) :
    ∃ (j : Interpreter) (r : Except RunError Nat),
      (i.withLimit? none).execute p = some (j.withLimit? none, r) ∧ j.steps ≤ p.length ∧
      (∀ pc limit, r ≠ .error ⟨pc, .stepLimit limit⟩) ∧
      (∀ limit, p.length ≤ limit →
        (i.withLimit? (some limit)).execute p = some (j.withLimit? (some limit), r)) ∧
      ∀ labels, p.labels = .ok labels →
        (∀ k s, p.Reaches labels k i.start s → (i.withLimit? none).execute p =
          ({ i.withLimit? none with steps := k }.goOn p labels s).map
            ((i.withLimit? none).after labels)) ∧
        ∀ m k s t, m < k → p.Reaches labels m i.start s → p.Reaches labels k i.start t →
          s.pc < t.pc := by
  cases hlabels : p.labels with
  | error e =>
    -- nothing is done at all
    obtain ⟨name, hname⟩ := Labels.collect_eq_error hlabels
    refine ⟨i.clear, .error e, execute_of_labels_error hlabels _, Nat.zero_le _, ?_,
      fun limit _ => execute_of_labels_error hlabels _, fun labels h => by cases h⟩
    rintro pc limit ⟨⟩
    cases hname
  | ok labels =>
    obtain ⟨n, hn, o, hends⟩ := hp.ends hlabels i.start
    refine ⟨(i.after labels o).1, o.result, ?_, ?_, hends.ne_stepLimit, fun limit hlimit => ?_, ?_⟩
    · rw [execute_withoutLimit hlabels, hends.runOnFrom]
      rfl
    · show o.steps ≤ p.length
      rw [hends.steps_eq]
      omega
    · rw [execute_of_ends hlabels hends (Nat.le_trans hn hlimit)]
      rfl
    · rintro _ ⟨⟩
      refine ⟨fun k s hs => ?_, fun m k s t hmk hs ht => hs.pc_lt ht hmk hlabels hp⟩
      exact execute_of_reaches hlabels hs fun _ hlimit => by cases hlimit

/-- A program that jumps over a statement, does not jump to a label that is set nowhere, and misses
a variable. -/
def skipping : Program :=
  [.goto "end" (.num 1), .assign "n" (.num 1), .label "end", .goto "nowhere" (.num 1),
    .assign "m" (.var "n")]

theorem forward_skipping : skipping.Forward := by
  intro k name condition hk
  rcases k with _ | _ | _ | _ | _ | k
  · cases hk
    exact .inr ⟨2, by decide, rfl⟩
  · cases hk
  · cases hk
  · cases hk
    refine .inl fun t ht => ?_
    have hmem := List.mem_of_getElem? ht
    simp [skipping] at hmem
  · cases hk
  · cases hk

theorem forward_stops_skipping :
    skipping.Forward ∧
      ∃ j : Interpreter, (used.withLimit? none).execute skipping =
          some (j.withLimit? none, .error ⟨4, .undefinedVariable "n"⟩) ∧
        ∀ limit, 5 ≤ limit → (used.withLimit? (some limit)).execute skipping =
          some (j.withLimit? (some limit), .error ⟨4, .undefinedVariable "n"⟩) := by
  obtain ⟨j, r, hexec, -, -, hlimit, -⟩ := forward_stops skipping forward_skipping used
  have hfive := hlimit 5 (Nat.le_refl 5)
  obtain ⟨-, rfl⟩ : _ ∧ Except.error ⟨4, .undefinedVariable "n"⟩ = r :=
    Prod.mk.inj (Option.some.inj hfive)
  exact ⟨forward_skipping, j, hexec, hlimit⟩

end Interpreter

end Easel
