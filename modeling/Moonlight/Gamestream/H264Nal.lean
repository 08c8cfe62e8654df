import Mathlib.Data.List.Basic

/-! The emulation prevention of `third_party/h264bitstream/h264_nal.c`: no two zero bytes of a unit
are followed by a byte below 3. -/
namespace Moonlight

/-- `nal_to_rbsp` after `count` zeros: the bytes and how many of the unit they take. The room is
as large as the unit. -/
def nalToRbsp : Nat → List UInt8 → Option (List UInt8 × Nat)
  | _, [] => some ([], 0)
  | count, x :: rest =>
    if count = 2 ∧ x < 3 then none
    else if count = 2 ∧ x = 3 then
      match rest with
      | [] => some ([], 0)
      | y :: rest =>
        if 3 < y then none
        else do
          let (bytes, i) ← nalToRbsp (if y = 0 then 1 else 0) rest
          return (y :: bytes, i + 2)
    else do
      let (bytes, i) ← nalToRbsp (if x = 0 then count + 1 else 0) rest
      return (x :: bytes, i + 1)

/-- `rbsp_to_nal` after `count` zeros, with some room left: the bytes it stores, and whether all
were. The room is not checked again for a byte that follows an inserted one. -/
def rbspToNal : Nat → Nat → List UInt8 → Option (List UInt8 × Bool)
  | _, _, [] => some ([], true)
  | 0, _, _ :: _ => some ([], false)
  | room + 1, count, x :: rest =>
    if count = 2 ∧ x &&& 0xFC = 0 then
      match room with
      | 0 => none
      | room + 1 => do
        let (bytes, ok) ← rbspToNal room (if x = 0 then 1 else 0) rest
        return (3 :: x :: bytes, ok)
    else do
      let (bytes, ok) ← rbspToNal room (if x = 0 then count + 1 else 0) rest
      return (x :: bytes, ok)

theorem and_fc_eq_zero (x : UInt8) : x &&& 0xFC = 0 ↔ ¬ 3 < x := by
  have hall : ∀ n < 256, UInt8.ofNat n &&& 0xFC = 0 ↔ ¬ 3 < UInt8.ofNat n := by decide +kernel
  have hx := hall x.toNat x.toNat_lt
  rwa [UInt8.ofNat_toNat] at hx

section
variable {room count : Nat} {x : UInt8} {rest rbsp nal : List UInt8} {ok : Bool}

/-- The first byte is stored behind an inserted one, or stored as it is, or has no room. -/
theorem rbspToNal_cons (h : rbspToNal room count (x :: rest) = some (nal, ok)) :
    (count = 2 ∧ ¬ 3 < x ∧ ∃ room' bytes, room = room' + 2 ∧ nal = 3 :: x :: bytes ∧
      rbspToNal room' (if x = 0 then 1 else 0) rest = some (bytes, ok)) ∨
    ((count = 2 → 3 < x) ∧ ∃ room' bytes, room = room' + 1 ∧ nal = x :: bytes ∧
      rbspToNal room' (if x = 0 then count + 1 else 0) rest = some (bytes, ok)) ∨
    (nal = [] ∧ ok = false) := by
  cases room with
  | zero =>
    cases h
    exact Or.inr (Or.inr ⟨rfl, rfl⟩)
  | succ room =>
    rw [rbspToNal.eq_def] at h
    dsimp only at h
    by_cases hesc : count = 2 ∧ x &&& 0xFC = 0
    · rw [if_pos hesc] at h
      cases room with
      | zero => cases h
      | succ room =>
        obtain ⟨⟨bytes, ok'⟩, hrest, hnal⟩ := Option.bind_eq_some_iff.mp h
        cases hnal
        exact Or.inl ⟨hesc.1, (and_fc_eq_zero x).mp hesc.2, room, bytes, rfl, rfl, hrest⟩
    · rw [if_neg hesc] at h
      obtain ⟨⟨bytes, ok'⟩, hrest, hnal⟩ := Option.bind_eq_some_iff.mp h
      cases hnal
      have hhigh (h2 : count = 2) : 3 < x := by
        by_contra hle
        exact hesc ⟨h2, (and_fc_eq_zero x).mpr hle⟩
      exact Or.inr (Or.inl ⟨hhigh, room, bytes, rfl, rfl, hrest⟩)

/-- A unit is as long as the room at most. -/
theorem length_rbspToNal (h : rbspToNal room count rbsp = some (nal, ok)) :
    nal.length ≤ room := by
  induction rbsp generalizing room count nal with
  | nil =>
    rw [rbspToNal] at h
    cases h
    exact Nat.zero_le _
  | cons x rest ih =>
    obtain ⟨-, -, room', bytes, rfl, rfl, hrest⟩ | ⟨-, room', bytes, rfl, rfl, hrest⟩ | ⟨rfl, -⟩ :=
      rbspToNal_cons h
    · exact Nat.add_le_add_right (ih hrest) 2
    · exact Nat.add_le_add_right (ih hrest) 1
    · exact Nat.zero_le _

/-- What was inserted is dropped again. -/
theorem nalToRbsp_rbspToNal (hcount : count ≤ 2)
    (h : rbspToNal room count rbsp = some (nal, true)) :
    nalToRbsp count nal = some (rbsp, nal.length) := by
  induction rbsp generalizing room count nal with
  | nil =>
    rw [rbspToNal] at h
    cases h
    rfl
  | cons x rest ih =>
    obtain ⟨rfl, hlow, room', bytes, -, rfl, hrest⟩ | ⟨hhigh, room', bytes, -, rfl, hrest⟩ |
      ⟨-, hok⟩ := rbspToNal_cons h
    · have hback := ih (by split <;> omega) hrest
      rw [nalToRbsp, if_neg (by decide), if_pos ⟨rfl, rfl⟩]
      dsimp only
      rw [if_neg hlow, hback]
      rfl
    · have hnext : (if x = 0 then count + 1 else 0) ≤ 2 := by
        split_ifs with hzero
        · have hne : count ≠ 2 := by
            intro h2
            have h3 := hhigh h2
            rw [hzero] at h3
            exact absurd h3 (by decide)
          omega
        · omega
      have hback := ih hnext hrest
      have hbelow : ¬ (count = 2 ∧ x < 3) := fun hlt => Nat.lt_asymm (hhigh hlt.1) hlt.2
      have hequal : ¬ (count = 2 ∧ x = 3) := by
        rintro ⟨h2, rfl⟩
        exact absurd (hhigh h2) (by decide)
      rw [nalToRbsp.eq_def]
      dsimp only
      rw [if_neg hbelow, if_neg hequal, hback]
      rfl
    · cases hok

end

end Moonlight
