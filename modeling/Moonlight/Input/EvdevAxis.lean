import Moonlight.Input.EvdevEvent

/-! Map mode and play mode agree on which way an axis was moved. -/
namespace Moonlight

open Lib.Machine

variable {n d code : Int} {dev : Libevdev} {ev : InputEvent} {reverse : Bool}
  {parms : InputAbsParms}

/-- The geometry of an axis for which the two classifiers have to agree; the last two bounds
only say that the limits of the axis are `int`s. -/
structure AxisFits (dev : Libevdev) (code : Int) : Prop where
  min_lt_max : (dev.absInfo code).minimum < (dev.absInfo code).maximum
  span_le : (dev.absInfo code).maximum - (dev.absInfo code).minimum ≤ 65535
  le_sum : -2147483648 ≤ (dev.absInfo code).minimum + (dev.absInfo code).maximum
  sum_le : (dev.absInfo code).minimum + (dev.absInfo code).maximum ≤ 2147483647
  flat_nonneg : 0 ≤ (dev.absInfo code).flat
  flat_le : (dev.absInfo code).flat ≤ (evdevInitParms dev code).range.tdiv 2
  le_min : -2147483648 ≤ (dev.absInfo code).minimum
  max_le : (dev.absInfo code).maximum ≤ 2147483647

/-- The event makes every prompt that asks for an axis note this axis and this direction. -/
def Records (ev : InputEvent) (dev : Libevdev) (reverse : Bool) : Prop :=
  ∀ prompt, prompt.currentAbs ≠ none → (evdevHandleMappingEvent ev dev prompt).2 =
    { prompt with currentAbs := some ev.code.toInt16, currentReverse := reverse }

theorem half_quarter {x : Int} (h : 0 ≤ x) :
    0 ≤ x.tdiv 4 ∧ x.tdiv 4 ≤ x.tdiv 2 ∧ 2 * x.tdiv 2 ≤ x ∧ x ≤ 2 * x.tdiv 2 + 1 := by
  rw [Int.tdiv_eq_ediv_of_nonneg h, Int.tdiv_eq_ediv_of_nonneg h]
  omega

/-- Past the middle of the scaled range the converted value is not negative. -/
theorem scaleAxis_nonneg (hd : 0 < d) (hspan : d ≤ 65535) (hn : n ≤ d) (hhalf : d + 1 ≤ 2 * n) :
    ∃ v, scaleAxis n d = some v ∧ 0 ≤ v := by
  have hwd : wrap 32 d = d := wrap_int (by omega) (by omega)
  have hwn : wrap 32 n = n := wrap_int (by omega) (by omega)
  have hlo : 32768 ≤ (n * 65535).tdiv d := le_tdiv_of_mul_le (by omega) hd (by omega)
  have hhi : (n * 65535).tdiv d ≤ 65535 := tdiv_le_of_le_mul (by omega) hd (by omega)
  refine ⟨_, by rw [scaleAxis, hwd, if_neg (by omega)], ?_⟩
  rw [hwn, wrap_short (by omega) (by omega)]
  omega

/-- The middle `evdev_init_parms` stores for an axis that fits, and the distances around it. -/
structure Centred (parms : InputAbsParms) : Prop where
  min_lt_max : parms.min < parms.max
  span_le : parms.max - parms.min ≤ 65535
  le_min : -2147483648 ≤ parms.min
  max_le : parms.max ≤ 2147483647
  avg_lo : parms.min + parms.max - 1 ≤ 2 * parms.avg
  avg_hi : 2 * parms.avg ≤ parms.min + parms.max + 1
  min_le_avg : parms.min ≤ parms.avg
  avg_le_max : parms.avg ≤ parms.max
  range_eq : parms.range = parms.max - parms.avg
  flat_nonneg : 0 ≤ parms.flat
  flat_le : parms.flat ≤ parms.range.tdiv 2

theorem AxisFits.centred (h : AxisFits dev code) : Centred (evdevInitParms dev code) := by
  obtain ⟨hlt, hspan, hslo, hshi, hf, hfle, hmin, hmax⟩ := h
  have hsum : wrap 32 ((dev.absInfo code).minimum + (dev.absInfo code).maximum) =
      (dev.absInfo code).minimum + (dev.absInfo code).maximum := wrap_int hslo hshi
  have havg := mul_tdiv_bounds ((dev.absInfo code).minimum + (dev.absInfo code).maximum)
    (show (0 : Int) < 2 by omega)
  have hrange : wrap 32 ((dev.absInfo code).maximum -
      ((dev.absInfo code).minimum + (dev.absInfo code).maximum).tdiv 2) = _ :=
    wrap_int (by omega) (by omega)
  refine ⟨hlt, hspan, hmin, hmax, ?_, ?_, ?_, ?_, ?_, hf, hfle⟩ <;>
    simp only [evdevInitParms, hsum, hrange] <;> omega

theorem Centred.half (hc : Centred parms) : 0 ≤ parms.range.tdiv 4 ∧
    parms.range.tdiv 4 ≤ parms.range.tdiv 2 ∧ 2 * parms.range.tdiv 2 ≤ parms.range ∧
    parms.range ≤ 2 * parms.range.tdiv 2 + 1 := by
  apply half_quarter
  rw [hc.range_eq]
  exact sub_nonneg.mpr hc.avg_le_max

/-- Both classifiers compare with thresholds that do not leave the range of an `int`. -/
theorem Centred.threshold {q : Int} (hc : Centred parms) (hq : 0 ≤ q)
    (hle : q ≤ parms.range.tdiv 2) :
    wrap 32 (parms.avg + q) = parms.avg + q ∧ wrap 32 (parms.avg - q) = parms.avg - q := by
  obtain ⟨_, _, hh, _⟩ := hc.half
  obtain ⟨hlt, hspan, hmn, hmx, ha1, ha2, ha3, ha4, hr, hf, hfle⟩ := hc
  exact ⟨wrap_int (by omega) (by omega), wrap_int (by omega) (by omega)⟩

/-- The two recording branches of map mode. -/
theorem Records.side (h : Records ev dev reverse) (ht : ev.type = .abs) :
    let parms := evdevInitParms dev ev.code.toNat
    (reverse = false ∧ wrap 32 (parms.avg + parms.range.tdiv 2) < ev.value) ∨
    (reverse = true ∧ ev.value < wrap 32 (parms.avg - parms.range.tdiv 2)) := by
  intro parms
  have hp := h ⟨none, some 0, !reverse⟩ (by simp)
  simp only [evdevHandleMappingEvent, ht] at hp
  split at hp
  · next hv =>
    simp only [Prompt.mk.injEq] at hp
    exact Or.inl ⟨hp.2.2.symm, hv⟩
  · split at hp
    · next hv =>
      simp only [Prompt.mk.injEq] at hp
      exact Or.inr ⟨hp.2.2.symm, hv⟩
    · simp at hp

/-- An axis pushed past half its range forward converts forward in play mode. -/
theorem convert_forward (hc : Centred parms)
    (hv : parms.avg + parms.range.tdiv 2 < ev.value) (hmax : ev.value ≤ parms.max) :
    (∃ v, evdevConvertValue ev parms false = some v ∧ 0 ≤ v) ∧
    evdevConvertValueDirection ev parms false = 1 := by
  obtain ⟨hq0, hq, hh, hh'⟩ := hc.half
  obtain ⟨hplus, hminus⟩ := hc.threshold hq0 hq
  obtain ⟨hlt, hspan, hmn, hmx, ha1, ha2, ha3, ha4, hr, hf, hfle⟩ := hc
  have hdist : wrap 32 (ev.value - parms.avg) = ev.value - parms.avg :=
    wrap_int (by omega) (by omega)
  have habs : cabs (ev.value - parms.avg) = ev.value - parms.avg := by
    rw [cabs, abs_of_nonneg (by omega), hdist]
  constructor
  · rw [evdevConvertValue, hdist, habs, if_neg (by omega), if_neg (by omega), if_neg (by omega),
      if_neg (by simp), if_pos (by omega)]
    exact scaleAxis_nonneg (by omega) (by omega) (by omega) (by omega)
  · rw [evdevConvertValueDirection, hplus, if_pos (by omega)]
    rfl

/-- An axis pushed past half its range backward converts forward once it is reversed. -/
theorem convert_reversed (hc : Centred parms)
    (hv : ev.value < parms.avg - parms.range.tdiv 2) (hmin : parms.min ≤ ev.value) :
    (∃ v, evdevConvertValue ev parms true = some v ∧ 0 ≤ v) ∧
    evdevConvertValueDirection ev parms true = 1 := by
  obtain ⟨hq0, hq, hh, hh'⟩ := hc.half
  obtain ⟨hplus, hminus⟩ := hc.threshold hq0 hq
  obtain ⟨hlt, hspan, hmn, hmx, ha1, ha2, ha3, ha4, hr, hf, hfle⟩ := hc
  have hdist : wrap 32 (ev.value - parms.avg) = ev.value - parms.avg :=
    wrap_int (by omega) (by omega)
  have habs : cabs (ev.value - parms.avg) = parms.avg - ev.value := by
    rw [cabs, abs_of_nonpos (by omega), wrap_int (by omega) (by omega)]
    omega
  constructor
  · rw [evdevConvertValue, hdist, habs, if_neg (by omega), if_neg (by omega), if_neg (by omega),
      if_pos rfl, if_pos (by omega)]
    exact scaleAxis_nonneg (by omega) (by omega) (by omega) (by omega)
  · rw [evdevConvertValueDirection, hplus, hminus, if_neg (by omega), if_pos (by omega)]
    rfl

/-- What a prompt records for an axis event, play mode decodes in the direction the user was
asked for: a stick slot does not go negative and a D-pad slot steers forward. -/
theorem map_play_agree (ht : ev.type = .abs) (hfit : AxisFits dev ev.code.toNat)
    (hmin : (dev.absInfo ev.code.toNat).minimum ≤ ev.value)
    (hmax : ev.value ≤ (dev.absInfo ev.code.toNat).maximum) (hrec : Records ev dev reverse) :
    let parms := evdevInitParms dev ev.code.toNat
    (∃ v, evdevConvertValue ev parms reverse = some v ∧ 0 ≤ v) ∧
    evdevConvertValueDirection ev parms reverse = 1 := by
  intro parms
  have hc : Centred parms := hfit.centred
  obtain ⟨hq0, hq, _⟩ := hc.half
  obtain ⟨hplus, hminus⟩ := hc.threshold (le_trans hq0 hq) le_rfl
  rcases hrec.side ht with ⟨rfl, hv⟩ | ⟨rfl, hv⟩
  · exact convert_forward hc (hplus ▸ hv) hmax
  · exact convert_reversed hc (hminus ▸ hv) hmin

/-- A byte axis pushed to its upper end. -/
theorem map_play_agree_byte :
    let dev : Libevdev := ⟨3, fun _ => ⟨0, 255, 15⟩⟩
    (∃ v, evdevConvertValue ⟨.abs, 0, 255⟩ (evdevInitParms dev 0) false = some v ∧ 0 ≤ v) ∧
    evdevConvertValueDirection ⟨.abs, 0, 255⟩ (evdevInitParms dev 0) false = 1 := by
  intro dev
  have hfit : AxisFits dev 0 := by
    constructor <;> decide
  have hrec : Records ⟨.abs, 0, 255⟩ dev false := by
    rintro ⟨key, axis, back⟩ h
    cases axis with
    | none => exact absurd rfl h
    | some axis => rfl
  exact map_play_agree rfl hfit (by decide) (by decide) hrec

end Moonlight
