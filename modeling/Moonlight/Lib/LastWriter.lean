import Moonlight.Lib.Trace

/-! Registers with several writers. Whatever the order of their writes, a register is neutral
once the last write of each of its writers was a neutral one. -/
namespace Lib.LastWriter

open Lib.Trace

variable {σ α κ : Type*} [DecidableEq κ] {source : α → Option κ} {Rest : α → Prop}
  {past events : List α} {a e : α} {k : κ}

/-- The last event of one source. -/
def lastOf (source : α → Option κ) (k : κ) (events : List α) : Option α :=
  (events.filter (source · = some k)).getLast?

/-- The last event of the source is not a neutral one. -/
def Active (source : α → Option κ) (Rest : α → Prop) (k : κ) (events : List α) : Prop :=
  ∃ e, lastOf source k events = some e ∧ ¬ Rest e

/-- The last event of every source is a neutral one. -/
def Settled (source : α → Option κ) (Rest : α → Prop) (events : List α) : Prop :=
  ∀ k e, lastOf source k events = some e → Rest e

theorem lastOf_concat_self (h : source a = some k) : lastOf source k (past ++ [a]) = some a := by
  simp [lastOf, h]

theorem lastOf_concat_other (h : source a ≠ some k) :
    lastOf source k (past ++ [a]) = lastOf source k past := by
  simp [lastOf, h]

theorem lastOf_mem (h : lastOf source k events = some e) : e ∈ events ∧ source e = some k := by
  have hmem := List.mem_of_getLast? h
  simpa using hmem

theorem settled_iff : Settled source Rest events ↔ ∀ k, ¬ Active source Rest k events := by
  constructor
  · rintro h k ⟨e, he, hrest⟩
    exact hrest (h k e he)
  · intro h k e he
    by_contra hrest
    exact h k ⟨e, he, hrest⟩

/-- An event that is not of the source leaves the source as it is. -/
theorem active_concat_other (h : source a ≠ some k) :
    Active source Rest k (past ++ [a]) ↔ Active source Rest k past := by
  unfold Active
  rw [lastOf_concat_other h]

theorem active_concat_self (h : source a = some k) :
    Active source Rest k (past ++ [a]) ↔ ¬ Rest a := by
  unfold Active
  rw [lastOf_concat_self h]
  simp

section Register
variable {Step : σ → α → σ → Prop} {I N : σ → Prop} {W : κ → Prop}
  {s t : σ} {run : List (α × σ)}

/-- The labels of a run. -/
def labels (run : List (α × σ)) : List α := run.map (·.1)

/-- One step: a register is neutral, or one of its writers is active. -/
theorem neutral_or_active_step (hI : I s) (h : Step s a t)
    (hkeep : ∀ s a t, Step s a t → I s → (∀ k, source a = some k → ¬ W k) → N s → N t)
    (hrest : ∀ s a t, Step s a t → I s → Rest a → ∀ k, source a = some k → W k → N t)
    (hs : N s ∨ ∃ k, W k ∧ Active source Rest k past) :
    N t ∨ ∃ k, W k ∧ Active source Rest k (past ++ [a]) := by
  by_cases hw : ∃ k, source a = some k ∧ W k
  · obtain ⟨k, hk, hw⟩ := hw
    by_cases ha : Rest a
    · exact Or.inl (hrest s a t h hI ha k hk hw)
    · exact Or.inr ⟨k, hw, (active_concat_self hk).mpr ha⟩
  · have hw' : ∀ k, source a = some k → ¬ W k := fun k hk hwk => hw ⟨k, hk, hwk⟩
    rcases hs with hn | ⟨k, hwk, hact⟩
    · exact Or.inl (hkeep s a t h hI hw' hn)
    · refine Or.inr ⟨k, hwk, (active_concat_other fun hk => ?_).mpr hact⟩
      exact hw' k hk hwk

/-- Over a run: a register is neutral, or one of its writers is active. -/
theorem neutral_or_active (past : List α) (hinv : ∀ s a t, Step s a t → I s → I t)
    (hkeep : ∀ s a t, Step s a t → I s → (∀ k, source a = some k → ¬ W k) → N s → N t)
    (hrest : ∀ s a t, Step s a t → I s → Rest a → ∀ k, source a = some k → W k → N t)
    (hrun : Run Step s run) (hI : I s) (hs : N s ∨ ∃ k, W k ∧ Active source Rest k past) :
    N (final s run) ∨ ∃ k, W k ∧ Active source Rest k (past ++ labels run) := by
  induction run generalizing s past with
  | nil => simpa [labels, final] using hs
  | cons x rest ih =>
    obtain ⟨a, t⟩ := x
    have ht := neutral_or_active_step hI hrun.1 hkeep hrest hs
    have hfinal := ih (past ++ [a]) hrun.2 (hinv s a t hrun.1 hI) ht
    simpa [labels, final] using hfinal

/-- Every register is neutral once the last event of every source is neutral. -/
theorem neutral_of_settled (hinv : ∀ s a t, Step s a t → I s → I t)
    (hkeep : ∀ s a t, Step s a t → I s → (∀ k, source a = some k → ¬ W k) → N s → N t)
    (hrest : ∀ s a t, Step s a t → I s → Rest a → ∀ k, source a = some k → W k → N t)
    (hrun : Run Step s run) (hI : I s) (hs : N s)
    (hset : Settled source Rest (labels run)) : N (final s run) := by
  rcases neutral_or_active [] hinv hkeep hrest hrun hI (Or.inl hs) with h | ⟨k, _, h⟩
  · exact h
  · exact absurd h (settled_iff.mp hset k)

/-- What a register holds after a run is what its only writer wrote last. -/
theorem follows_last {P : α → σ → Prop} (past : List α) (hinv : ∀ s a t, Step s a t → I s → I t)
    (hkeep : ∀ s a t e, Step s a t → I s → source a ≠ some k → P e s → P e t)
    (hwrite : ∀ s a t, Step s a t → I s → source a = some k → P a t)
    (hrun : Run Step s run) (hI : I s) (hs : ∀ e, lastOf source k past = some e → P e s) :
    ∀ e, lastOf source k (past ++ labels run) = some e → P e (final s run) := by
  induction run generalizing s past with
  | nil => simpa [labels, final] using hs
  | cons x rest ih =>
    obtain ⟨a, t⟩ := x
    have ht : ∀ e, lastOf source k (past ++ [a]) = some e → P e t := by
      intro e he
      by_cases hk : source a = some k
      · rw [lastOf_concat_self hk] at he
        cases he
        exact hwrite s a t hrun.1 hI hk
      · rw [lastOf_concat_other hk] at he
        exact hkeep s a t e hrun.1 hI hk (hs e he)
    have hfinal := ih (past ++ [a]) hrun.2 (hinv s a t hrun.1 hI) ht
    simpa [labels, final] using hfinal

end Register

/-- Stepping a function through some events is a run with these labels. -/
theorem exists_run_foldl (next : σ → α → σ) {C : α → Prop} (h : ∀ a ∈ events, C a) (s : σ) :
    ∃ run, Run (fun s a t => C a ∧ t = next s a) s run ∧ labels run = events ∧
      final s run = events.foldl next s := by
  induction events generalizing s with
  | nil => exact ⟨[], trivial, rfl, rfl⟩
  | cons a rest ih =>
    have hrest : ∀ b ∈ rest, C b := fun b hb => h b (List.mem_cons_of_mem a hb)
    obtain ⟨run, hrun, hlabels, hfinal⟩ := ih hrest (next s a)
    refine ⟨(a, next s a) :: run, ⟨⟨h a List.mem_cons_self, rfl⟩, hrun⟩, ?_, hfinal⟩
    rw [← hlabels]
    rfl

/-- A source that occurs has a last event. -/
theorem exists_lastOf (hmem : e ∈ events) (h : source e = some k) :
    ∃ last, lastOf source k events = some last := by
  have hne : events.filter (source · = some k) ≠ [] :=
    List.ne_nil_of_mem (List.mem_filter.mpr ⟨hmem, by simpa using h⟩)
  exact ⟨_, List.getLast?_eq_some_getLast hne⟩

end Lib.LastWriter
