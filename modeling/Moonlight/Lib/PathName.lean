import Mathlib.Data.List.Basic
import Mathlib.Data.List.TakeWhile

/-! Path names as the system reads them, where slashes in a row count as one, and lists of
directories with a separator between them. -/
namespace Lib.PathName

/-- A path name with one slash for each run of slashes. -/
def squeeze : List Char → List Char
  | [] => []
  | c :: cs => if c = '/' ∧ cs.head? = some '/' then squeeze cs else c :: squeeze cs

variable {α : Type*} [DecidableEq α] {s t : List Char} {c : Char}

theorem squeeze_cons_of_ne (h : c ≠ '/') : squeeze (c :: s) = c :: squeeze s := by
  rw [squeeze, if_neg fun hc => h hc.1]

theorem squeeze_slash_cons (h : s.head? ≠ some '/') : squeeze ('/' :: s) = '/' :: squeeze s := by
  rw [squeeze, if_neg fun hc => h hc.2]

theorem squeeze_append_of_not_mem (h : '/' ∉ s) : squeeze (s ++ t) = s ++ squeeze t := by
  induction s with
  | nil => rfl
  | cons c s ih =>
    rw [List.mem_cons, not_or] at h
    rw [List.cons_append, squeeze_cons_of_ne (Ne.symm h.1), ih h.2, List.cons_append]

/-- One slash more or less beside a slash makes no difference. -/
theorem squeeze_slashes (s t : List Char) :
    squeeze (s ++ '/' :: '/' :: t) = squeeze (s ++ '/' :: t) := by
  induction s with
  | nil => simp [squeeze]
  | cons c s ih =>
    have hhead : (s ++ '/' :: '/' :: t).head? = (s ++ '/' :: t).head? := by
      cases s <;> rfl
    rw [List.cons_append, List.cons_append, squeeze, squeeze, hhead, ih]

/-- A separated list is read from the front: up to the first separator, then behind it. -/
theorem splitOn_cursor (sep : α) (s : List α) :
    s.splitOn sep = s.takeWhile (· ≠ sep) ::
      match s.dropWhile (· ≠ sep) with
      | [] => []
      | _ :: rest => rest.splitOn sep := by
  induction s with
  | nil => rfl
  | cons x s ih =>
    rw [List.splitOn_cons_eq_if_modifyHead]
    by_cases h : x = sep
    · simp [h]
    · rw [if_neg (by simpa using h), ih]
      simp [h]

/-- What is written behind a separated list belongs to its last element. -/
theorem splitOn_behind (sep : α) (s : List α) :
    ∃ front last, s.splitOn sep = front ++ [last] ∧
      ∀ t, sep ∉ t → (s ++ t).splitOn sep = front ++ [last ++ t] := by
  induction s with
  | nil => exact ⟨[], [], rfl, fun t ht => by simp [List.splitOn_eq_singleton ht]⟩
  | cons x s ih =>
    obtain ⟨front, last, hs, happend⟩ := ih
    by_cases h : x = sep
    · refine ⟨[] :: front, last, ?_, fun t ht => ?_⟩
      · simp [List.splitOn_cons_eq_if_modifyHead, h, hs]
      · simp [List.splitOn_cons_eq_if_modifyHead, h, happend t ht]
    · cases front with
      | nil =>
        refine ⟨[], x :: last, ?_, fun t ht => ?_⟩
        · simp [List.splitOn_cons_eq_if_modifyHead, h, hs]
        · simp [List.splitOn_cons_eq_if_modifyHead, h, happend t ht]
      | cons first front =>
        refine ⟨(x :: first) :: front, last, ?_, fun t ht => ?_⟩
        · simp [List.splitOn_cons_eq_if_modifyHead, h, hs]
        · simp [List.splitOn_cons_eq_if_modifyHead, h, happend t ht]

end Lib.PathName
