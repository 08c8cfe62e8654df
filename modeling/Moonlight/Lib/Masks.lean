import Moonlight.Lib.Presence

/-! Named flags in a machine word: every name has a mask of its own. -/
namespace Lib.Masks

open Lib.Presence

variable {ι : Type*} {w : Nat} {mask : ι → BitVec w} {x p q : BitVec w} {i j : ι}

/-- No mask is empty and no two masks meet. -/
structure Separate (mask : ι → BitVec w) : Prop where
  ne_zero : ∀ i, mask i ≠ 0#w
  disjoint : ∀ i j, i ≠ j → mask i &&& mask j = 0#w

/-- The names whose mask is set in the word. -/
def members (mask : ι → BitVec w) (x : BitVec w) : Set ι := {i | x &&& mask i = mask i}

theorem mem_members : i ∈ members mask x ↔ x &&& mask i = mask i := Iff.rfl

theorem and_eq_right_iff : x &&& p = p ↔ ∀ k, p.getLsbD k = true → x.getLsbD k = true := by
  constructor
  · intro h k hk
    rw [← h, BitVec.getLsbD_and, Bool.and_eq_true] at hk
    exact hk.1
  · intro h
    apply BitVec.eq_of_getLsbD_eq
    intro k _
    cases hp : p.getLsbD k with
    | false => simp [hp]
    | true => simp [hp, h k hp]

/-- A word contains a union of masks exactly when it contains both. -/
theorem and_or_eq_iff : x &&& (p ||| q) = p ||| q ↔ x &&& p = p ∧ x &&& q = q := by
  simp only [and_eq_right_iff, BitVec.getLsbD_or, Bool.or_eq_true]
  constructor
  · intro h
    exact ⟨fun k hk => h k (Or.inl hk), fun k hk => h k (Or.inr hk)⟩
  · rintro ⟨hp, hq⟩ k (hk | hk)
    · exact hp k hk
    · exact hq k hk

theorem Separate.getLsbD_eq_false {k : Nat} (h : Separate mask) (hij : i ≠ j)
    (hj : (mask j).getLsbD k = true) : (mask i).getLsbD k = false := by
  have hd := congrArg (fun y : BitVec w => y.getLsbD k) (h.disjoint i j hij)
  simpa [hj] using hd

/-- A word holds the whole mask or nothing of it, when all bits of the mask are alike. -/
theorem mem_members_of_alike {P : Prop} (hmask : Separate mask)
    (h : ∀ k, (mask i).getLsbD k = true → (x.getLsbD k = true ↔ P)) :
    i ∈ members mask x ↔ P := by
  rw [mem_members, and_eq_right_iff]
  constructor
  · intro hall
    by_contra hP
    refine hmask.ne_zero i (BitVec.eq_of_getLsbD_eq fun k _ => ?_)
    rw [BitVec.getLsbD_zero]
    by_contra hk
    rw [Bool.not_eq_false] at hk
    exact hP ((h k hk).mp (hall k hk))
  · exact fun hP k hk => (h k hk).mpr hP

theorem members_zero (h : Separate mask) : members mask 0#w = ∅ := by
  ext i
  rw [mem_members, BitVec.zero_and]
  simpa using (h.ne_zero i).symm

theorem members_or (h : Separate mask) : members mask (x ||| mask i) = insert i (members mask x) := by
  ext j
  rw [Set.mem_insert_iff, mem_members, mem_members, and_eq_right_iff, and_eq_right_iff]
  simp only [BitVec.getLsbD_or, Bool.or_eq_true]
  constructor
  · intro hj
    by_cases hji : j = i
    · exact Or.inl hji
    · refine Or.inr fun k hk => (hj k hk).resolve_right ?_
      simp [h.getLsbD_eq_false (Ne.symm hji) hk]
  · rintro (rfl | hj) k hk
    · exact Or.inr hk
    · exact Or.inl (hj k hk)

theorem members_clear (h : Separate mask) :
    members mask (x &&& ~~~ mask i) = members mask x \ {i} := by
  ext j
  rw [Set.mem_sdiff, Set.mem_singleton_iff, mem_members, mem_members, and_eq_right_iff,
    and_eq_right_iff]
  simp only [BitVec.getLsbD_and, BitVec.getLsbD_not, Bool.and_eq_true, Bool.not_eq_true',
    decide_eq_true_eq]
  constructor
  · intro hj
    refine ⟨fun k hk => (hj k hk).1, ?_⟩
    rintro rfl
    refine h.ne_zero j (BitVec.eq_of_getLsbD_eq fun k _ => ?_)
    cases hk : (mask j).getLsbD k with
    | false => simp
    | true => exact absurd (hj k hk).2.2 (by simp [hk])
  · rintro ⟨hx, hji⟩ k hk
    exact ⟨hx k hk, BitVec.lt_of_getLsbD hk, h.getLsbD_eq_false (Ne.symm hji) hk⟩

/-- Masks widened to a larger word stay apart. -/
theorem Separate.setWidth {v : Nat} (h : Separate mask) (hw : w ≤ v) :
    Separate fun i => (mask i).setWidth v where
  ne_zero i hi := by
    refine h.ne_zero i (BitVec.eq_of_getLsbD_eq fun k hk => ?_)
    have hbit := congrArg (fun y : BitVec v => y.getLsbD k) hi
    have hkv : k < v := by omega
    simpa [BitVec.getLsbD_setWidth, hkv] using hbit
  disjoint i j hij := by
    rw [← BitVec.setWidth_and, h.disjoint i j hij]
    simp

/-- A widened word has the same flags. -/
theorem members_setWidth {v : Nat} (hw : w ≤ v) :
    members (fun i => (mask i).setWidth v) (x.setWidth v) = members mask x := by
  ext i
  rw [mem_members, mem_members, and_eq_right_iff, and_eq_right_iff]
  simp only [BitVec.getLsbD_setWidth, Bool.and_eq_true, decide_eq_true_eq]
  constructor
  · intro h k hk
    have hkw := BitVec.lt_of_getLsbD hk
    exact (h k ⟨by omega, hk⟩).2
  · rintro h k ⟨hkv, hk⟩
    exact ⟨hkv, h k hk⟩

/-- The word after an update of the named flags. -/
def store (mask : ι → BitVec w) (u : Update ι) (x : BitVec w) : BitVec w :=
  match u with
  | .keep => x
  | .acquire i => x ||| mask i
  | .release i => x &&& ~~~ mask i

/-- The names set in the word follow the update. -/
theorem members_store (h : Separate mask) (u : Update ι) (x : BitVec w) :
    members mask (store mask u x) = update u (members mask x) := by
  cases u with
  | keep => rfl
  | acquire i => exact members_or h
  | release i => exact members_clear h

end Lib.Masks
