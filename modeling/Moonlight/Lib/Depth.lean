import Mathlib.Logic.Relation
import Mathlib.Order.WellFoundedSet
import Moonlight.Lib.Fold

/-! Folds of steps that are only followed to some depth: a step that needs more ends in one chosen
error. A fold that never gets deep enough is stuck at one of its items, and in a finite set without
cycles the depth that is needed is bounded. -/
namespace Lib.Depth

open Lib.Fold

variable {ε σ α : Type} {e : ε} {f g h : σ → α → Except ε σ} {F : Nat → σ → α → Except ε σ}
  {s t : σ} {l : List α} {n m : Nat}

/-- `g` goes deeper than `f`: it changes no result, except that `f` ran out of depth. -/
def Extends (e : ε) (f g : σ → α → Except ε σ) : Prop :=
  ∀ s a, f s a = .error e ∨ g s a = f s a

theorem Extends.trans (hfg : Extends e f g) (hgh : Extends e g h) : Extends e f h := by
  intro s a
  rcases hfg s a with hf | hg
  · exact Or.inl hf
  · rcases hgh s a with hg' | hh
    · exact Or.inl (hg ▸ hg')
    · exact Or.inr (hh.trans hg)

/-- A fold with deeper steps goes deeper. -/
theorem Extends.foldlM (hfg : Extends e f g) (l : List α) (s : σ) :
    l.foldlM f s = .error e ∨ l.foldlM g s = l.foldlM f s := by
  induction l generalizing s with
  | nil => exact Or.inr rfl
  | cons a l ih =>
    rw [List.foldlM_cons, List.foldlM_cons]
    rcases hfg s a with hf | hg
    · left
      rw [hf]
      rfl
    · rw [hg]
      cases f s a with
      | error e' => exact Or.inr rfl
      | ok u => exact ih u

theorem extends_of_le (hF : ∀ n, Extends e (F n) (F (n + 1))) (hnm : n ≤ m) :
    Extends e (F n) (F m) := by
  induction m, hnm using Nat.le_induction with
  | base => exact fun _ _ => Or.inr rfl
  | succ m _ ih => exact ih.trans (hF m)

/-- A fold that finishes at one depth finishes alike at every greater one. -/
theorem foldlM_of_le (hF : ∀ n, Extends e (F n) (F (n + 1))) (hnm : n ≤ m)
    (h : l.foldlM (F n) s = .ok t) : l.foldlM (F m) s = .ok t := by
  rcases (extends_of_le hF hnm).foldlM l s with herr | heq
  · rw [herr] at h
    cases h
  · rw [heq, h]

/-- A fold that is too deep at every depth gets to an item that is. -/
theorem exists_stuck (hF : ∀ n, Extends e (F n) (F (n + 1)))
    (h : ∀ n, l.foldlM (F n) s = .error e) :
    ∃ pre a post t n, l = pre ++ a :: post ∧ pre.foldlM (F n) s = .ok t ∧
      ∀ m, F m t a = .error e := by
  induction l generalizing s with
  | nil =>
    have hnil := h 0
    cases hnil
  | cons a l ih =>
    by_cases hstuck : ∀ m, F m s a = .error e
    · exact ⟨[], a, l, s, 0, rfl, rfl, hstuck⟩
    · obtain ⟨m, hm⟩ := not_forall.mp hstuck
      cases hval : F m s a with
      | error e' =>
        -- another error would end the fold for good
        have hfold := h m
        rw [List.foldlM_cons, hval] at hfold
        have he : e' = e := Except.error.inj hfold
        exact absurd (he ▸ hval) hm
      | ok u =>
        have hok {k : Nat} (hk : m ≤ k) : F k s a = .ok u := by
          rcases extends_of_le hF hk s a with herr | heq
          · exact absurd herr hm
          · rw [heq, hval]
        have hrest (k : Nat) : l.foldlM (F k) u = .error e := by
          have hdeep := h (max k m)
          rw [List.foldlM_cons, hok (le_max_right k m)] at hdeep
          rcases (extends_of_le hF (le_max_left k m)).foldlM l u with herr | heq
          · exact herr
          · rw [← heq]
            exact hdeep
        obtain ⟨pre, b, post, t, k, rfl, hpre, hb⟩ := ih hrest
        refine ⟨a :: pre, b, post, t, max k m, rfl, ?_, hb⟩
        exact foldlM_cons_eq_ok.mpr
          ⟨u, hok (le_max_right k m), foldlM_of_le hF (le_max_left k m) hpre⟩

/-- In a finite set a relation without cycles is well-founded along its successors. -/
theorem wellFoundedOn_of_acyclic {r : α → α → Prop} {S : Set α} (hfin : S.Finite)
    (hacyclic : ∀ a, ¬ Relation.TransGen r a a) :
    S.WellFoundedOn fun a b => Relation.TransGen r b a := by
  have horder : IsStrictOrder α fun a b => Relation.TransGen r b a :=
    { irrefl := hacyclic
      trans := fun a b c hab hbc => hbc.trans hab }
  exact hfin.wellFoundedOn

end Lib.Depth
