import Mathlib.Data.List.Perm.Basic

/-! Removing an array entry by moving the last entry into its place. -/
namespace Lib.SwapRemove

variable {α : Type*} {l : List α} {i : Nat} {x : α}

/-- The table after entry `i` is overwritten by the last one and the count is decreased. -/
def swapRemove (l : List α) (i : Nat) : List α :=
  match l.getLast? with
  | none => []
  | some last => (if i ≠ l.length - 1 ∧ 0 < l.length - 1 then l.set i last else l).take (l.length - 1)

theorem swapRemove_concat (init : List α) (last : α) :
    swapRemove (init ++ [last]) i = if i = init.length then init else init.set i last := by
  unfold swapRemove
  simp only [List.getLast?_concat, List.length_append, List.length_singleton,
    Nat.add_sub_cancel]
  by_cases hi : i = init.length
  · simp [hi]
  · by_cases hn : init.length = 0
    · have : init = [] := List.length_eq_zero_iff.mp hn
      simp [this]
    · simp [hi, Nat.pos_of_ne_zero hn, List.set_append]
      split <;> simp_all [List.set_eq_of_length_le]

/-- The remaining entries are those of the table without entry `i`. -/
theorem swapRemove_perm (h : i < l.length) : (swapRemove l i).Perm (l.eraseIdx i) := by
  rcases List.eq_nil_or_concat l with rfl | ⟨init, last, rfl⟩
  · simp at h
  · simp only [List.concat_eq_append] at h ⊢
    rw [swapRemove_concat]
    split
    · next hi => simp [hi, List.eraseIdx_append]
    · next hi =>
      have hlt : i < init.length := by simp at h; omega
      rw [List.eraseIdx_append_of_lt_length hlt]
      exact (List.set_perm_cons_eraseIdx hlt last).trans (List.perm_append_singleton _ _).symm

theorem length_swapRemove (h : i < l.length) : (swapRemove l i).length = l.length - 1 := by
  rw [(swapRemove_perm h).length_eq, List.length_eraseIdx_of_lt h]

theorem length_swapRemove_le : (swapRemove l i).length ≤ l.length := by
  unfold swapRemove
  split
  · simp
  · rw [List.length_take]
    omega

theorem mem_swapRemove (h : i < l.length) : x ∈ swapRemove l i ↔ ∃ j ≠ i, l[j]? = some x := by
  rw [(swapRemove_perm h).mem_iff, List.mem_eraseIdx_iff_getElem?]

end Lib.SwapRemove
