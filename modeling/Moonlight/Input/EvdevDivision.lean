import Moonlight.Input.EvdevAxis

/-! Which axes make the conversions of `src/input/evdev.c` divide by 0: a value at the edge of
the dead zone is not in it, so an axis that is all dead zone is divided by its empty rest. -/
namespace Moonlight

open Lib.Machine

variable {code : Int} {dev : Libevdev} {parms : InputAbsParms}

/-- An axis as a device may report it, limits and dead zone stored in `int`s. -/
structure DeviceAxis (dev : Libevdev) (code : Int) : Prop where
  int_le_min : -2147483648 ≤ (dev.absInfo code).minimum
  min_le_max : (dev.absInfo code).minimum ≤ (dev.absInfo code).maximum
  max_le_int : (dev.absInfo code).maximum ≤ 2147483647
  flat_nonneg : 0 ≤ (dev.absInfo code).flat
  flat_le_int : (dev.absInfo code).flat ≤ 2147483647

/-- No event on the axis makes one of its two conversions divide by 0. -/
def NeverDividesByZero (parms : InputAbsParms) : Prop :=
  (∀ ev reverse, evdevConvertValue ev parms reverse ≠ none) ∧
    ∀ ev, evdevConvertValueByte ev parms ≠ none

/-- The scale is undefined for the divisor 0 and for no other. -/
theorem scaleAxis_eq_none {numerator divisor : Int} :
    scaleAxis numerator divisor = none ↔ wrap 32 divisor = 0 := by
  unfold scaleAxis
  split <;> simp_all

theorem convertValue_ne_none (h : wrap 32 (parms.max - parms.min - parms.flat * 2) ≠ 0)
    (ev : InputEvent) (reverse : Bool) : evdevConvertValue ev parms reverse ≠ none := by
  intro hnone
  unfold evdevConvertValue at hnone
  split at hnone
  · cases hnone
  split at hnone
  · cases hnone
  split at hnone
  · cases hnone
  split at hnone <;> exact h (scaleAxis_eq_none.mp hnone)

theorem convertValueByte_ne_none (h : wrap 32 (parms.diff - parms.flat) ≠ 0)
    (ev : InputEvent) : evdevConvertValueByte ev parms ≠ none := by
  intro hnone
  unfold evdevConvertValueByte at hnone
  split at hnone
  · cases hnone
  split at hnone
  · cases hnone
  -- The last test is the one for the divisor, which `h` has decided.
  cases hnone

/-- The divisor of a stick is 0 when the dead zone takes all of the range, and only then. -/
theorem DeviceAxis.stick_divisor (h : DeviceAxis dev code) :
    wrap 32 ((evdevInitParms dev code).max - (evdevInitParms dev code).min -
        (evdevInitParms dev code).flat * 2) = 0 ↔
      2 * (dev.absInfo code).flat = (dev.absInfo code).maximum - (dev.absInfo code).minimum := by
  obtain ⟨hlo, hle, hhi, hf, hflt⟩ := h
  simp only [evdevInitParms]
  rw [wrap_int_eq_zero (by omega) (by omega)]
  omega

/-- The divisor of a trigger is 0 when the dead zone is as long as the range, and only then. -/
theorem DeviceAxis.trigger_divisor (h : DeviceAxis dev code) :
    wrap 32 ((evdevInitParms dev code).diff - (evdevInitParms dev code).flat) = 0 ↔
      (dev.absInfo code).flat = (dev.absInfo code).maximum - (dev.absInfo code).minimum := by
  obtain ⟨hlo, hle, hhi, hf, hflt⟩ := h
  have hwrap : wrap 32 ((evdevInitParms dev code).diff - (evdevInitParms dev code).flat) =
      wrap 32 ((dev.absInfo code).maximum - (dev.absInfo code).minimum -
        (dev.absInfo code).flat) := wrap_sub_wrap _ _ _
  rw [hwrap, wrap_int_eq_zero (by omega) (by omega)]
  omega

/-- The middle of an axis of even width, less half a turn for each turn its sum is wrapped by. -/
theorem avg_even {c : Int}
    (h : (dev.absInfo code).minimum + (dev.absInfo code).maximum = 2 * c) :
    ∃ k : Int, (evdevInitParms dev code).avg = c - 2147483648 * k ∧
      -1073741824 ≤ c - 2147483648 * k ∧ c - 2147483648 * k < 1073741824 := by
  obtain ⟨k, hk⟩ := wrap_int_turns (2 * c)
  have hbounds := wrap_int_bounds (2 * c)
  refine ⟨k, ?_, by omega, by omega⟩
  have heven : wrap 32 (2 * c) = 2 * (c - 2147483648 * k) := by omega
  simp only [evdevInitParms, h, heven]
  exact Int.mul_tdiv_cancel_left _ (by decide)

/-- Both ends of a dead zone that is not empty and takes all of the range are outside of it,
also where the sum of the limits wraps and the middle is half a turn away. -/
theorem DeviceAxis.max_not_dead (h : DeviceAxis dev code)
    (hall : 2 * (dev.absInfo code).flat = (dev.absInfo code).maximum - (dev.absInfo code).minimum)
    (hpos : 0 < (dev.absInfo code).flat) :
    ¬ cabs (wrap 32 ((dev.absInfo code).maximum - (evdevInitParms dev code).avg)) <
      (dev.absInfo code).flat := by
  have hmid : (dev.absInfo code).minimum + (dev.absInfo code).maximum =
      2 * ((dev.absInfo code).minimum + (dev.absInfo code).flat) := by omega
  obtain ⟨k, havg, hklo, hkhi⟩ := avg_even hmid
  obtain ⟨n, hn⟩ := wrap_int_turns ((dev.absInfo code).maximum - (evdevInitParms dev code).avg)
  have hdist := wrap_int_bounds ((dev.absInfo code).maximum - (evdevInitParms dev code).avg)
  obtain ⟨hlo, hle, hhi, hf, hflt⟩ := h
  have habs : (dev.absInfo code).flat ≤
      |wrap 32 ((dev.absInfo code).maximum - (evdevInitParms dev code).avg)| ∧
      |wrap 32 ((dev.absInfo code).maximum - (evdevInitParms dev code).avg)| ≤ 2147483647 := by
    rcases abs_cases (wrap 32 ((dev.absInfo code).maximum - (evdevInitParms dev code).avg)) with
      ⟨heq, _⟩ | ⟨heq, _⟩ <;> omega
  rw [cabs, wrap_int (by omega) habs.2]
  omega

/-- A stick whose dead zone takes all of the range divides by 0 at its upper end. -/
theorem DeviceAxis.stick_divides (h : DeviceAxis dev code)
    (hall : 2 * (dev.absInfo code).flat = (dev.absInfo code).maximum - (dev.absInfo code).minimum)
    (hpos : 0 < (dev.absInfo code).flat) :
    evdevConvertValue ⟨.abs, 0, (dev.absInfo code).maximum⟩ (evdevInitParms dev code) false =
      none := by
  have hout : ¬ cabs (wrap 32 ((dev.absInfo code).maximum - (evdevInitParms dev code).avg)) <
      (evdevInitParms dev code).flat := h.max_not_dead hall hpos
  have hmax : ¬ (dev.absInfo code).maximum > (evdevInitParms dev code).max := by
    simp [evdevInitParms]
  have hmin : ¬ (dev.absInfo code).maximum < (evdevInitParms dev code).min := by
    simpa [evdevInitParms] using h.min_le_max
  simp only [evdevConvertValue, if_neg hout, if_neg hmax, if_neg hmin]
  exact scaleAxis_eq_none.mpr (h.stick_divisor.mpr hall)

/-- A trigger whose dead zone is as long as the range divides by 0 at its upper end. -/
theorem DeviceAxis.trigger_divides (h : DeviceAxis dev code)
    (hall : (dev.absInfo code).flat =
      (dev.absInfo code).maximum - (dev.absInfo code).minimum) :
    evdevConvertValueByte ⟨.abs, 0, (dev.absInfo code).maximum⟩ (evdevInitParms dev code) =
      none := by
  have hdist : wrap 32 ((dev.absInfo code).maximum - (dev.absInfo code).minimum) =
      (dev.absInfo code).flat := by
    rw [← hall]
    exact wrap_int (by have := h.flat_nonneg; omega) h.flat_le_int
  have hout : ¬ cabs (wrap 32 ((dev.absInfo code).maximum - (evdevInitParms dev code).min)) <
      (evdevInitParms dev code).flat := by
    simp only [evdevInitParms, hdist, cabs, abs_of_nonneg h.flat_nonneg]
    rw [wrap_int (by have := h.flat_nonneg; omega) h.flat_le_int]
    omega
  have hmax : ¬ (dev.absInfo code).maximum > (evdevInitParms dev code).max := by
    simp [evdevInitParms]
  simp only [evdevConvertValueByte, if_neg hout, if_neg hmax,
    if_pos (h.trigger_divisor.mpr hall)]

/-- The conversions of an axis never divide by 0 exactly when its dead zone is neither half of
the range nor all of it. -/
theorem never_divides_by_zero_iff (h : DeviceAxis dev code) :
    NeverDividesByZero (evdevInitParms dev code) ↔
      2 * (dev.absInfo code).flat ≠ (dev.absInfo code).maximum - (dev.absInfo code).minimum ∧
      (dev.absInfo code).flat ≠ (dev.absInfo code).maximum - (dev.absInfo code).minimum := by
  constructor
  · intro ⟨hstick, htrigger⟩
    have hbyte : (dev.absInfo code).flat ≠
        (dev.absInfo code).maximum - (dev.absInfo code).minimum :=
      fun hall => htrigger _ (h.trigger_divides hall)
    refine ⟨fun hall => ?_, hbyte⟩
    -- An empty dead zone on an empty range is already excluded by the trigger.
    have hpos : 0 < (dev.absInfo code).flat := by
      have := h.flat_nonneg
      omega
    exact hstick _ _ (h.stick_divides hall hpos)
  · intro ⟨hhalf, hall⟩
    exact ⟨convertValue_ne_none (mt h.stick_divisor.mp hhalf),
      convertValueByte_ne_none (mt h.trigger_divisor.mp hall)⟩

/-- A byte axis with a small dead zone. -/
theorem never_divides_by_zero_iff_byte :
    NeverDividesByZero (evdevInitParms ⟨3, fun _ => ⟨0, 255, 15⟩⟩ 0) :=
  (never_divides_by_zero_iff (by constructor <;> decide)).mpr (by decide)

/-- An axis from 0 to 30 with a dead zone of 15 on either side of the middle: the value 30 is
not in it. -/
theorem divides_by_zero_at_edge :
    ¬ NeverDividesByZero (evdevInitParms ⟨3, fun _ => ⟨0, 30, 15⟩⟩ 0) := by
  intro h
  exact h.1 ⟨.abs, 0, 30⟩ false (by decide)

end Moonlight
