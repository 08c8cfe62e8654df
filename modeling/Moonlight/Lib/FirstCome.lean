import Mathlib.Data.List.Basic
import Mathlib.Data.List.FinRange
import Mathlib.Data.List.Infix

/-! The different elements of a list in the order of their first appearance, and a table of `n`
places that the first of them are given in that order. -/
namespace Lib.FirstCome

variable {α : Type*} [DecidableEq α] {seen xs ys : List α} {x y : α} {n i : Nat}

/-- One more element; a known one changes nothing. -/
def arrive (seen : List α) (x : α) : List α := if x ∈ seen then seen else seen ++ [x]

/-- The different elements of a list, in the order of their first appearance. -/
def arrivals (xs : List α) : List α := xs.foldl arrive []

theorem arrive_of_mem (h : x ∈ seen) : arrive seen x = seen := if_pos h

theorem arrive_of_not_mem (h : x ∉ seen) : arrive seen x = seen ++ [x] := if_neg h

theorem arrivals_concat : arrivals (xs ++ [x]) = arrive (arrivals xs) x := by
  simp [arrivals]

theorem mem_arrive : y ∈ arrive seen x ↔ y ∈ seen ∨ y = x := by
  by_cases h : x ∈ seen
  · rw [arrive_of_mem h]
    constructor
    · exact Or.inl
    · rintro (hy | rfl)
      · exact hy
      · exact h
  · rw [arrive_of_not_mem h, List.mem_append, List.mem_singleton]

theorem nodup_arrive (h : seen.Nodup) : (arrive seen x).Nodup := by
  by_cases hx : x ∈ seen
  · rwa [arrive_of_mem hx]
  · rw [arrive_of_not_mem hx]
    exact List.nodup_append.mpr ⟨h, List.nodup_singleton x, fun a ha b hb hab =>
      hx (List.mem_singleton.mp hb ▸ hab ▸ ha)⟩

theorem prefix_arrive : seen <+: arrive seen x := by
  by_cases h : x ∈ seen
  · rw [arrive_of_mem h]
  · rw [arrive_of_not_mem h]
    exact List.prefix_append seen [x]

theorem mem_arrivals : x ∈ arrivals xs ↔ x ∈ xs := by
  induction xs using List.reverseRecOn with
  | nil => simp [arrivals]
  | append_singleton xs y ih =>
    rw [arrivals_concat, mem_arrive, ih, List.mem_append, List.mem_singleton]

theorem nodup_arrivals : (arrivals xs).Nodup := by
  induction xs using List.reverseRecOn with
  | nil => exact List.nodup_nil
  | append_singleton xs y ih =>
    rw [arrivals_concat]
    exact nodup_arrive ih

/-- Later elements come behind the earlier ones. -/
theorem arrivals_prefix (xs ys : List α) : arrivals xs <+: arrivals (xs ++ ys) := by
  induction ys using List.reverseRecOn with
  | nil => rw [List.append_nil]
  | append_singleton ys y ih =>
    rw [← List.append_assoc, arrivals_concat]
    exact ih.trans prefix_arrive

/-- An element that has appeared keeps its number. -/
theorem idxOf_arrivals (h : x ∈ xs) (ys : List α) :
    (arrivals (xs ++ ys)).idxOf x = (arrivals xs).idxOf x := by
  obtain ⟨later, hlater⟩ := arrivals_prefix xs ys
  rw [← hlater, List.idxOf_append_of_mem (mem_arrivals.mpr h)]

/-- In a table with the first arrivals, the place of an element is free or its own. -/
def Accepts (seen : List α) (x : α) (i : Nat) : Prop := seen[i]? = none ∨ seen[i]? = some x

instance : Decidable (Accepts seen x i) := inferInstanceAs (Decidable (_ ∨ _))

theorem accepts_idxOf : Accepts seen x ((arrive seen x).idxOf x) := by
  by_cases h : x ∈ seen
  · rw [arrive_of_mem h]
    exact Or.inr (List.getElem?_eq_some_iff.mpr
      ⟨List.idxOf_lt_length_of_mem h, List.getElem_idxOf _⟩)
  · rw [arrive_of_not_mem h, List.idxOf_append_of_notMem h]
    exact Or.inl (by simp)

/-- No earlier place is: a known element is not shadowed by a free place. -/
theorem not_accepts_before (h : i < (arrive seen x).idxOf x) : ¬ Accepts seen x i := by
  have hlt : i < seen.length := by
    by_cases hx : x ∈ seen
    · rw [arrive_of_mem hx] at h
      exact h.trans (List.idxOf_lt_length_of_mem hx)
    · rw [arrive_of_not_mem hx, List.idxOf_append_of_notMem hx] at h
      simpa using h
  rintro (hnone | hsome)
  · exact absurd (List.getElem?_eq_none_iff.mp hnone) (by omega)
  · obtain ⟨_, hget⟩ := List.getElem?_eq_some_iff.mp hsome
    have hx : x ∈ seen := hget ▸ List.getElem_mem hlt
    rw [arrive_of_mem hx] at h
    have hne := List.not_of_lt_findIdx h
    simp [hget] at hne

/-- The first of `n` places that accepts an element is the one with its number. -/
theorem find_accepts (n : Nat) (seen : List α) (x : α) :
    (List.finRange n).find? (fun i => decide (Accepts seen x i.val)) =
      if h : (arrive seen x).idxOf x < n then some ⟨(arrive seen x).idxOf x, h⟩ else none := by
  split
  · next h =>
    refine List.find?_eq_some_iff_getElem.mpr ⟨decide_eq_true accepts_idxOf, ?_⟩
    refine ⟨(arrive seen x).idxOf x, by simpa using h, by simp, fun j hj => ?_⟩
    simpa using not_accepts_before hj
  · next h =>
    refine List.find?_eq_none.mpr fun i _ => ?_
    have hi : i.val < (arrive seen x).idxOf x := by omega
    simpa using not_accepts_before hi

end Lib.FirstCome
