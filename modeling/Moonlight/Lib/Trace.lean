import Mathlib.Data.List.Basic

/-! Finite runs of a labelled step relation, with every visited state recorded. -/
namespace Lib.Trace

variable {σ α : Type*} {Step C : σ → α → σ → Prop} {P : σ → Prop}
  {s t u : σ} {a : α} {run rest : List (α × σ)}

/-- A run lists each label beside the state it leads to. -/
def Run (Step : σ → α → σ → Prop) : σ → List (α × σ) → Prop
  | _, [] => True
  | s, (a, t) :: rest => Step s a t ∧ Run Step t rest

/-- The state a run ends in. -/
def final : σ → List (α × σ) → σ
  | s, [] => s
  | _, (_, t) :: rest => final t rest

/-- The predicate holds at the start and in every state the run reaches. -/
def Always (P : σ → Prop) : σ → List (α × σ) → Prop
  | s, [] => P s
  | s, (_, t) :: rest => P s ∧ Always P t rest

/-- Every step of the run meets the condition. -/
def EachStep (C : σ → α → σ → Prop) : σ → List (α × σ) → Prop
  | _, [] => True
  | s, (a, t) :: rest => C s a t ∧ EachStep C t rest

@[simp] theorem run_nil : Run Step s [] := trivial

@[simp] theorem run_cons : Run Step s ((a, t) :: rest) ↔ Step s a t ∧ Run Step t rest := Iff.rfl

@[simp] theorem always_nil : Always P s ([] : List (α × σ)) ↔ P s := Iff.rfl

@[simp] theorem always_cons : Always P s ((a, t) :: rest) ↔ P s ∧ Always P t rest := Iff.rfl

@[simp] theorem eachStep_nil : EachStep C s [] := trivial

@[simp] theorem eachStep_cons :
    EachStep C s ((a, t) :: rest) ↔ C s a t ∧ EachStep C t rest := Iff.rfl

/-- The last step of a run. -/
theorem run_concat :
    Run Step s (run ++ [(a, t)]) ↔ Run Step s run ∧ Step (final s run) a t := by
  induction run generalizing s with
  | nil => simp [final]
  | cons x rest ih =>
    rw [List.cons_append, run_cons, run_cons, ih, and_assoc]
    rfl

theorem always_start (h : Always P s run) : P s := by
  cases run with
  | nil => exact h
  | cons x rest => exact h.1

theorem always_final (h : Always P s run) : P (final s run) := by
  induction run generalizing s with
  | nil => exact h
  | cons x rest ih => exact ih h.2

theorem Always.imp {Q : σ → Prop} (h : Always P s run) (himp : ∀ s, P s → Q s) :
    Always Q s run := by
  induction run generalizing s with
  | nil => exact himp s h
  | cons x rest ih => exact ⟨himp s h.1, ih h.2⟩

/-- An invariant of the steps holds throughout every run. -/
theorem always_of_invariant (hstep : ∀ s a t, Step s a t → P s → P t)
    (hrun : Run Step s run) (hs : P s) : Always P s run := by
  induction run generalizing s with
  | nil => exact hs
  | cons x rest ih => exact ⟨hs, ih hrun.2 (hstep s x.1 x.2 hrun.1 hs)⟩

/-- What every step from the invariant does, every step of the run does. -/
theorem eachStep_of_invariant (hstep : ∀ s a t, Step s a t → P s → P t)
    (hc : ∀ s a t, Step s a t → P s → C s a t) (hrun : Run Step s run) (hs : P s) :
    EachStep C s run := by
  induction run generalizing s with
  | nil => trivial
  | cons x rest ih =>
    have ht := hstep s x.1 x.2 hrun.1 hs
    exact ⟨hc s x.1 x.2 hrun.1 hs, ih hrun.2 ht⟩

theorem Run.imp {Step' : σ → α → σ → Prop} (hrun : Run Step s run)
    (himp : ∀ s a t, Step s a t → Step' s a t) : Run Step' s run := by
  induction run generalizing s with
  | nil => trivial
  | cons x rest ih => exact ⟨himp s x.1 x.2 hrun.1, ih hrun.2⟩

theorem EachStep.imp {C' : σ → α → σ → Prop} (h : EachStep C s run)
    (himp : ∀ s a t, C s a t → C' s a t) : EachStep C' s run := by
  induction run generalizing s with
  | nil => trivial
  | cons x rest ih => exact ⟨himp s x.1 x.2 h.1, ih h.2⟩

/-- A run whose steps all meet a condition is a run of such steps. -/
theorem run_and (hrun : Run Step s run) (h : EachStep C s run) :
    Run (fun s a t => Step s a t ∧ C s a t) s run := by
  induction run generalizing s with
  | nil => trivial
  | cons x rest ih => exact ⟨⟨hrun.1, h.1⟩, ih hrun.2 h.2⟩

/-- Two conditions that agree on the steps from the invariant agree on the run. -/
theorem eachStep_congr {C' : σ → α → σ → Prop} (hstep : ∀ s a t, Step s a t → P s → P t)
    (hiff : ∀ s a t, Step s a t → P s → (C s a t ↔ C' s a t)) (hrun : Run Step s run)
    (hs : P s) : EachStep C s run ↔ EachStep C' s run := by
  induction run generalizing s with
  | nil => exact Iff.rfl
  | cons x rest ih =>
    have ht := hstep s x.1 x.2 hrun.1 hs
    exact and_congr (hiff s x.1 x.2 hrun.1 hs) (ih hrun.2 ht)

/-- When a step keeps the invariant exactly if it meets the condition, a run stays in the
invariant exactly if all its steps meet the condition. -/
theorem always_iff_eachStep (hstep : ∀ s a t, Step s a t → P s → (P t ↔ C s a t))
    (hrun : Run Step s run) (hs : P s) : Always P s run ↔ EachStep C s run := by
  induction run generalizing s with
  | nil => exact ⟨fun _ => trivial, fun _ => hs⟩
  | cons x rest ih =>
    obtain ⟨a, t⟩ := x
    have hat := hstep s a t hrun.1 hs
    constructor
    · intro h
      have ht := always_start h.2
      exact ⟨hat.mp ht, (ih hrun.2 ht).mp h.2⟩
    · intro h
      have ht := hat.mpr h.1
      exact ⟨hs, (ih hrun.2 ht).mpr h.2⟩

/-- The same for an invariant and something the steps do beside it. -/
theorem always_and_eachStep_iff {L : σ → α → σ → Prop}
    (hstep : ∀ s a t, Step s a t → P s → (P t ∧ L s a t ↔ C s a t))
    (hrun : Run Step s run) (hs : P s) : Always P s run ∧ EachStep L s run ↔ EachStep C s run := by
  induction run generalizing s with
  | nil => exact ⟨fun _ => trivial, fun _ => ⟨hs, trivial⟩⟩
  | cons x rest ih =>
    obtain ⟨a, t⟩ := x
    have hat := hstep s a t hrun.1 hs
    constructor
    · intro h
      have ht := always_start h.1.2
      exact ⟨hat.mp ⟨ht, h.2.1⟩, (ih hrun.2 ht).mp ⟨h.1.2, h.2.2⟩⟩
    · intro h
      obtain ⟨ht, hl⟩ := hat.mpr h.1
      obtain ⟨halways, hrest⟩ := (ih hrun.2 ht).mpr h.2
      exact ⟨⟨hs, halways⟩, hl, hrest⟩

theorem always_and {Q : σ → Prop} :
    Always (fun s => P s ∧ Q s) s run ↔ Always P s run ∧ Always Q s run := by
  induction run generalizing s with
  | nil => exact Iff.rfl
  | cons x rest ih => exact (and_congr_right fun _ => ih).trans and_and_and_comm

theorem eachStep_forall {ι : Type*} {C : ι → σ → α → σ → Prop} :
    EachStep (fun s a t => ∀ i, C i s a t) s run ↔ ∀ i, EachStep (C i) s run := by
  induction run generalizing s with
  | nil => simp
  | cons x rest ih =>
    obtain ⟨a, t⟩ := x
    simp only [eachStep_cons, ih]
    exact forall_and.symm

/-- Every step between states with the property does what such steps do. -/
theorem eachStep_of_always (hc : ∀ s a t, Step s a t → P s → P t → C s a t)
    (hrun : Run Step s run) (hs : Always P s run) : EachStep C s run := by
  induction run generalizing s with
  | nil => trivial
  | cons x rest ih =>
    have ht := always_start hs.2
    exact ⟨hc s x.1 x.2 hrun.1 hs.1 ht, ih hrun.2 hs.2⟩

/-- The state reached by some labels under a step function. -/
def execute (next : σ → α → Option σ) : σ → List α → Option σ
  | s, [] => some s
  | s, a :: rest => (next s a).bind fun t => execute next t rest

/-- An execution is a run of the step function. -/
theorem exists_run_of_execute {next : σ → α → Option σ} {labels : List α}
    (h : execute next s labels = some t) :
    ∃ run, Run (fun s a t => next s a = some t) s run ∧ run.map Prod.fst = labels ∧
      final s run = t := by
  induction labels generalizing s with
  | nil => exact ⟨[], trivial, rfl, Option.some.inj h⟩
  | cons a rest ih =>
    obtain ⟨u, hu, hrest⟩ := Option.bind_eq_some_iff.mp h
    obtain ⟨run, hrun, hlabels, hfinal⟩ := ih hrest
    exact ⟨(a, u) :: run, ⟨hu, hrun⟩, congrArg (a :: ·) hlabels, hfinal⟩

/-- A step function that stops before a step that does not meet the condition. -/
def checked (next : σ → α → Option σ) (C : σ → α → σ → Prop) [∀ s a t, Decidable (C s a t)]
    (s : σ) (a : α) : Option σ :=
  (next s a).filter fun t => C s a t

/-- An execution that goes through is a run whose steps all meet the condition. -/
theorem exists_run_of_checked {next : σ → α → Option σ} [∀ s a t, Decidable (C s a t)]
    {labels : List α} (h : execute (checked next C) s labels = some t) :
    ∃ run, Run (fun s a t => next s a = some t) s run ∧ EachStep C s run ∧
      run.map Prod.fst = labels ∧ final s run = t := by
  obtain ⟨run, hrun, hlabels, hfinal⟩ := exists_run_of_execute h
  have hboth (s a t) (hstep : checked next C s a = some t) : next s a = some t ∧ C s a t := by
    obtain ⟨hnext, hcheck⟩ := Option.filter_eq_some_iff.mp hstep
    exact ⟨hnext, of_decide_eq_true hcheck⟩
  have hc : EachStep C s run :=
    eachStep_of_invariant (P := fun _ => True) (fun _ _ _ _ _ => trivial)
      (fun s a t h _ => (hboth s a t h).2) hrun trivial
  exact ⟨run, hrun.imp fun s a t h => (hboth s a t h).1, hc, hlabels, hfinal⟩

end Lib.Trace
