import Mathlib.Data.Finset.Insert
import Mathlib.Data.Finset.Erase
import Mathlib.Order.BooleanAlgebra.Set

/-! One bit for each resource, kept beside holders that may share a resource. The bits stay
exact until somebody lets go of a resource that another holder still has. -/
namespace Lib.Presence

/-- What one step does to the bits; the holders follow it as `Follows` says. -/
inductive Update (M : Type*) where
  | keep
  | acquire (m : M)
  | release (m : M)

variable {M : Type*} {m : M} {u : Update M} {bits bits' held held' : Set M}

/-- A release clears the bit, but says nothing about the other holders of the resource. -/
def Follows (u : Update M) (bits bits' held held' : Set M) : Prop :=
  match u with
  | .keep => bits' = bits ∧ held' = held
  | .acquire m => bits' = insert m bits ∧ held' = insert m held
  | .release m => bits' = bits \ {m} ∧ held' \ {m} = held \ {m}

/-- The bits after an update. -/
def update (u : Update M) (bits : Set M) : Set M :=
  match u with
  | .keep => bits
  | .acquire m => insert m bits
  | .release m => bits \ {m}

/-- Nobody holds the resource any more once it has been released. -/
def Clean (u : Update M) (held' : Set M) : Prop :=
  match u with
  | .release m => m ∉ held'
  | _ => True

theorem release_exact_iff (hb : bits' = bits \ {m}) (hh : held' \ {m} = held \ {m})
    (he : bits = held) : bits' = held' ↔ m ∉ held' := by
  subst he
  rw [hb, ← hh]
  constructor
  · intro h hm
    rw [← h] at hm
    exact hm.2 rfl
  · intro hm
    exact Set.sdiff_singleton_eq_self hm

/-- Exact bits stay exact in one step if and only if that step is clean. -/
theorem follows_exact_iff (h : Follows u bits bits' held held') (he : bits = held) :
    bits' = held' ↔ Clean u held' := by
  cases u with
  | keep => simp [Clean, h.1, h.2, he]
  | acquire m => simp [Clean, h.1, h.2, he]
  | release m => exact release_exact_iff h.1 h.2 he

section Keys
variable {κ : Type*} [DecidableEq κ] {of : κ → Option M} {keys : Finset κ} {k : κ} {down : Bool}

/-- The keys that are down after one of them moves. -/
def move (keys : Finset κ) (k : κ) (down : Bool) : Finset κ :=
  if down then insert k keys else keys.erase k

/-- The resources held by the keys that are down. -/
def resources (of : κ → Option M) (keys : Finset κ) : Set M := {m | ∃ k ∈ keys, of k = some m}

/-- A key acquires its resource going down and releases it going up. -/
def touch (of : κ → Option M) (k : κ) (down : Bool) : Update M :=
  match of k with
  | none => .keep
  | some m => if down then .acquire m else .release m

/-- A key goes up only when no other key that is down stands for the same resource. -/
def SoleRelease (of : κ → Option M) (keys : Finset κ) (k : κ) (down : Bool) : Prop :=
  down = false → ∀ m, of k = some m → ∀ j ∈ keys, of j = some m → j = k

instance [DecidableEq M] : Decidable (SoleRelease of keys k down) :=
  inferInstanceAs (Decidable (down = false → ∀ m ∈ of k, ∀ j ∈ keys, of j = some m → j = k))

omit [DecidableEq κ] in
theorem mem_resources : m ∈ resources of keys ↔ ∃ k ∈ keys, of k = some m := Iff.rfl

omit [DecidableEq κ] in
theorem resources_empty : resources of (∅ : Finset κ) = ∅ := by
  ext m
  simp [mem_resources]

theorem resources_press (hk : of k = some m) :
    resources of (insert k keys) = insert m (resources of keys) := by
  ext n
  simp only [mem_resources, Finset.mem_insert, Set.mem_insert_iff]
  constructor
  · rintro ⟨j, rfl | hj, hn⟩
    · exact Or.inl (Option.some.inj (hn.symm.trans hk))
    · exact Or.inr ⟨j, hj, hn⟩
  · rintro (rfl | ⟨j, hj, hn⟩)
    · exact ⟨k, Or.inl rfl, hk⟩
    · exact ⟨j, Or.inr hj, hn⟩

theorem resources_release (hk : of k = some m) :
    resources of (keys.erase k) \ {m} = resources of keys \ {m} := by
  ext n
  simp only [Set.mem_sdiff, mem_resources, Finset.mem_erase, Set.mem_singleton_iff]
  constructor
  · rintro ⟨⟨j, hj, hn⟩, hnm⟩
    exact ⟨⟨j, hj.2, hn⟩, hnm⟩
  · rintro ⟨⟨j, hj, hn⟩, hnm⟩
    refine ⟨⟨j, ⟨?_, hj⟩, hn⟩, hnm⟩
    rintro rfl
    exact hnm (Option.some.inj (hn.symm.trans hk))

theorem resources_move_of_none (hk : of k = none) :
    resources of (move keys k down) = resources of keys := by
  ext n
  simp only [mem_resources]
  cases down with
  | true =>
    simp only [move, if_true, Finset.mem_insert]
    constructor
    · rintro ⟨j, rfl | hj, hn⟩
      · simp [hk] at hn
      · exact ⟨j, hj, hn⟩
    · rintro ⟨j, hj, hn⟩
      exact ⟨j, Or.inr hj, hn⟩
  | false =>
    simp only [move, Bool.false_eq_true, if_false, Finset.mem_erase]
    constructor
    · rintro ⟨j, hj, hn⟩
      exact ⟨j, hj.2, hn⟩
    · rintro ⟨j, hj, hn⟩
      refine ⟨j, ⟨?_, hj⟩, hn⟩
      rintro rfl
      simp [hk] at hn

/-- The resources of the keys that are down follow the key that moves. -/
theorem follows_touch (of : κ → Option M) (keys : Finset κ) (k : κ) (down : Bool) (bits : Set M) :
    Follows (touch of k down) bits (update (touch of k down) bits)
      (resources of keys) (resources of (move keys k down)) := by
  unfold touch
  cases hk : of k with
  | none => exact ⟨rfl, resources_move_of_none hk⟩
  | some m =>
    cases down with
    | true => exact ⟨rfl, resources_press hk⟩
    | false => exact ⟨rfl, resources_release hk⟩

theorem clean_touch_iff :
    Clean (touch of k down) (resources of (move keys k down)) ↔ SoleRelease of keys k down := by
  unfold touch SoleRelease
  cases hk : of k with
  | none => simp [Clean]
  | some m =>
    cases down with
    | true => simp [Clean]
    | false =>
      simp only [Clean, move, mem_resources, Finset.mem_erase, Bool.false_eq_true, if_false]
      constructor
      · intro h _ n hn j hj hjn
        by_contra hjk
        exact h ⟨j, ⟨hjk, hj⟩, hjn.trans hn.symm⟩
      · rintro h ⟨j, ⟨hjk, hj⟩, hjm⟩
        exact hjk (h trivial m rfl j hj hjm)

/-- Bits that are exact for the keys stay exact when one key moves if and only if no other key
still holds what it releases. -/
theorem move_exact_iff (he : bits = resources of keys) :
    update (touch of k down) bits = resources of (move keys k down) ↔ SoleRelease of keys k down := by
  rw [← clean_touch_iff]
  exact follows_exact_iff (follows_touch of keys k down bits) he

end Keys

end Lib.Presence
