import Moonlight.Input.SdlKeys

/-! Where a key event looks into `keyCodes` of `sdlinput.h`. The bound of the lookup is the size of
the table in bytes, and an entry has two. -/
namespace Moonlight

variable {L : Limelight} {S : Sdl} {sym code : Int} {down : Bool} {s : SdlInput} {i : Nat}
  {action : KeyAction} {modifiers : BitVec 32}

/-- The host code of the symbol by that rule. -/
def passedCode (sym : Int) : Int :=
  ((0x80#32 <<< 8) ||| BitVec.ofInt 32 (sdlPassThrough sym)).toInt

/-- The symbols that have an entry. -/
def InKeyTable (sym : Int) : Prop :=
  0x40000039 ≤ sym ∧ sym < 0x40000039 + sdlKeyCodes.length

theorem sdlKeyIndex_eq_some :
    sdlKeyIndex sym = some i ↔ sym = 0x40000039 + i ∧ i < 2 * sdlKeyCodes.length := by
  unfold sdlKeyIndex
  constructor
  · intro h
    split at h
    · obtain rfl := Option.some.inj h
      omega
    · cases h
  · rintro ⟨rfl, hi⟩
    rw [if_pos (by omega)]
    exact congrArg some (by omega)

theorem sdlKeyIndex_eq_none (h : ¬ InKeyTable sym)
    (hinside : ∀ i, sdlKeyIndex sym = some i → i < sdlKeyCodes.length) :
    sdlKeyIndex sym = none := by
  cases hidx : sdlKeyIndex sym with
  | none => rfl
  | some i =>
    have hlt := hinside i hidx
    obtain ⟨rfl, _⟩ := sdlKeyIndex_eq_some.mp hidx
    exact absurd ⟨by omega, by omega⟩ h

/-- Behind the table, the code is what the compiler happened to put there. -/
theorem sdlKeyCode_past (hlo : sdlKeyCodes.length ≤ i) (hhi : i < 2 * sdlKeyCodes.length) :
    sdlKeyCode S (0x40000039 + i) = S.pastTable i := by
  have hidx : sdlKeyIndex (0x40000039 + i) = some i := sdlKeyIndex_eq_some.mpr ⟨rfl, hhi⟩
  rw [sdlKeyCode, hidx]
  dsimp only
  rw [List.getD_eq_getElem?_getD, List.getElem?_eq_none_iff.mpr hlo, Option.getD_none]

/-- Every key event that reaches the host carries the code of its symbol. -/
theorem sdlinputHandleEvent_keyboard
    (h : .keyboard code action modifiers ∈ (sdlinputHandleEvent L S (.key down sym) s).2.2) :
    code = sdlHostCode S sym := by
  unfold sdlinputHandleEvent sdlKey at h
  dsimp only at h
  split_ifs at h
  · cases h
  · cases h
  · cases h
  all_goals
    obtain ⟨rfl, _⟩ := HostEvent.keyboard.inj (List.mem_singleton.mp h)
    rfl

/-- A key event with this symbol reads `keyCodes` inside the table, and a symbol that has no entry
is sent by the rule for the others. -/
structure LooksUpInside (S : Sdl) (sym : Int) : Prop where
  index : ∀ i, sdlKeyIndex sym = some i → i < sdlKeyCodes.length
  others : ¬ InKeyTable sym → ∀ L down s code action modifiers,
    .keyboard code action modifiers ∈ (sdlinputHandleEvent L S (.key down sym) s).2.2 →
      code = passedCode sym

/-- The lookup goes behind the table for the 26 symbols that follow its own, from `NumLock` on,
and for no other symbol. -/
theorem looks_up_inside_iff (S : Sdl) (sym : Int) :
    LooksUpInside S sym ↔ ¬ (0x40000053 ≤ sym ∧ sym < 0x4000006D) := by
  have hlen : sdlKeyCodes.length = 26 := rfl
  constructor
  · rintro h ⟨hlo, hhi⟩
    have hidx : sdlKeyIndex sym = some (sym - 0x40000039).toNat :=
      sdlKeyIndex_eq_some.mpr (by omega)
    have hlt := h.index _ hidx
    omega
  · intro h
    have hindex : ∀ i, sdlKeyIndex sym = some i → i < sdlKeyCodes.length := by
      intro i hi
      obtain ⟨rfl, hbytes⟩ := sdlKeyIndex_eq_some.mp hi
      omega
    refine ⟨hindex, fun hout L down s code action modifiers hsent => ?_⟩
    rw [sdlinputHandleEvent_keyboard hsent, sdlHostCode, sdlKeyCode,
      sdlKeyIndex_eq_none hout hindex]
    rfl

/-- `SDLK_NUMLOCKCLEAR` is looked up at index 26 of 26. -/
theorem numlock_behind_table : ¬ LooksUpInside sdl2 0x40000053 := by
  intro h
  exact absurd (h.index 26 rfl) (by decide)

end Moonlight
