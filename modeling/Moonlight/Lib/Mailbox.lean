import Mathlib.Data.List.Basic

/-! A cell that one party overwrites and another one copies when it is told to. Values that are
overwritten in time are never seen; the others are seen in order, and the last one is not missed. -/
namespace Lib.Mailbox

variable {α : Type*}

/-- The values announced so far, whether the last of them is still in the cell, the announcements
that are not acted upon yet, and the copies that were made. -/
structure Box (α : Type*) where
  written : List α
  live : Bool
  notes : Nat
  copies : List α

/-- Values of a list in order, some of them left out and some repeated. -/
def InOrder (copies written : List α) : Prop :=
  ∃ places : List Nat, places.Pairwise (· ≤ ·) ∧ (∀ i ∈ places, i < written.length) ∧
    copies.map some = places.map (written[·]?)

/-- What holds of a mailbox whatever the order of writing and copying. -/
structure Sound (b : Box α) : Prop where
  inOrder : InOrder b.copies b.written
  held : b.live = true → ∃ a, b.written.getLast? = some a
  fresh : b.live = true → b.notes = 0 → b.copies.getLast? = b.written.getLast?

/-- A new value, which is announced. -/
def Box.write (b : Box α) (a : α) : Box α :=
  { b with written := b.written ++ [a], live := true, notes := b.notes + 1 }

/-- What is in the cell is announced once more. -/
def Box.note (b : Box α) : Box α := { b with notes := b.notes + 1 }

/-- The cell is emptied. -/
def Box.clear (b : Box α) : Box α := { b with live := false }

/-- One announcement is acted upon. -/
def Box.copy (b : Box α) : Box α :=
  { b with
    notes := b.notes - 1
    copies := b.copies ++ if b.live then b.written.getLast?.toList else [] }

variable {b : Box α} {copies written : List α} {a : α}

theorem inOrder_nil : InOrder [] written := ⟨[], by simp, by simp, rfl⟩

theorem InOrder.write (h : InOrder copies written) (a : α) : InOrder copies (written ++ [a]) := by
  obtain ⟨places, hsorted, hlt, hcopies⟩ := h
  refine ⟨places, hsorted, fun i hi => ?_, hcopies.trans (List.map_congr_left fun i hi => ?_)⟩
  · have := hlt i hi
    simp only [List.length_append, List.length_singleton]
    omega
  · exact (List.getElem?_append_left (hlt i hi)).symm

/-- The last value comes behind everything that was copied before. -/
theorem InOrder.copy (h : InOrder copies written) (ha : written.getLast? = some a) :
    InOrder (copies ++ [a]) written := by
  obtain ⟨places, hsorted, hlt, hcopies⟩ := h
  have hne : written ≠ [] := by
    rintro rfl
    cases ha
  have hpos := List.length_pos_of_ne_nil hne
  refine ⟨places ++ [written.length - 1], ?_, ?_, ?_⟩
  · refine List.pairwise_append.mpr ⟨hsorted, List.pairwise_singleton _ _, fun i hi j hj => ?_⟩
    have := hlt i hi
    have := List.mem_singleton.mp hj
    omega
  · intro i hi
    rcases List.mem_append.mp hi with hi | hi
    · exact hlt i hi
    · have := List.mem_singleton.mp hi
      omega
  · rw [List.map_append, List.map_append, hcopies, List.map_singleton, List.map_singleton,
      ← List.getLast?_eq_getElem?, ha]

theorem Sound.write (h : Sound b) (a : α) : Sound (b.write a) :=
  ⟨h.inOrder.write a, fun _ => ⟨a, List.getLast?_concat⟩,
    fun _ hnotes => absurd hnotes (Nat.succ_ne_zero _)⟩

theorem Sound.note (h : Sound b) : Sound b.note :=
  ⟨h.inOrder, h.held, fun _ hnotes => absurd hnotes (Nat.succ_ne_zero _)⟩

theorem Sound.clear (h : Sound b) : Sound b.clear where
  inOrder := h.inOrder
  held hlive := by cases hlive
  fresh hlive := by cases hlive

theorem Sound.copy (h : Sound b) : Sound b.copy := by
  cases hlive : b.live with
  | false =>
    have hcopies : b.copy.copies = b.copies := by simp [Box.copy, hlive]
    refine ⟨hcopies ▸ h.inOrder, fun hc => ?_, fun hc => ?_⟩ <;>
      exact absurd (hlive.symm.trans hc) (by decide)
  | true =>
    obtain ⟨a, ha⟩ := h.held hlive
    have hcopies : b.copy.copies = b.copies ++ [a] := by simp [Box.copy, hlive, ha]
    refine ⟨hcopies ▸ h.inOrder.copy ha, fun _ => ⟨a, ha⟩, fun _ _ => ?_⟩
    rw [hcopies, List.getLast?_concat]
    exact ha.symm

end Lib.Mailbox
