import Moonlight.Input.EvdevAxis

/-! How `evdev_convert_value` orders the positions of a stick: the scale is monotone, but it
does not meet the dead zone at 0. -/
namespace Moonlight

open Lib.Machine

variable {m n d code : Int} {dev : Libevdev} {ev : InputEvent} {reverse : Bool}
  {parms : InputAbsParms}

/-- An axis whose limits can be added and subtracted as `int`s, wider than its dead zone. -/
structure StickFits (dev : Libevdev) (code : Int) : Prop where
  min_lt_max : (dev.absInfo code).minimum < (dev.absInfo code).maximum
  le_sum : -2147483648 ≤ (dev.absInfo code).minimum + (dev.absInfo code).maximum
  sum_le : (dev.absInfo code).minimum + (dev.absInfo code).maximum ≤ 2147483647
  span_le : (dev.absInfo code).maximum - (dev.absInfo code).minimum ≤ 2147483647
  flat_nonneg : 0 ≤ (dev.absInfo code).flat
  flat_lt : 2 * (dev.absInfo code).flat <
    (dev.absInfo code).maximum - (dev.absInfo code).minimum

/-- What `evdev_init_parms` stores for such an axis. -/
structure Stick (parms : InputAbsParms) : Prop where
  min_lt_max : parms.min < parms.max
  le_sum : -2147483648 ≤ parms.min + parms.max
  sum_le : parms.min + parms.max ≤ 2147483647
  span_le : parms.max - parms.min ≤ 2147483647
  flat_nonneg : 0 ≤ parms.flat
  flat_lt : 2 * parms.flat < parms.max - parms.min
  avg_lo : parms.min + parms.max - 1 ≤ 2 * parms.avg
  avg_hi : 2 * parms.avg ≤ parms.min + parms.max + 1

theorem StickFits.stick (h : StickFits dev code) : Stick (evdevInitParms dev code) := by
  obtain ⟨hlt, hslo, hshi, hspan, hf, hflt⟩ := h
  have hsum : wrap 32 ((dev.absInfo code).minimum + (dev.absInfo code).maximum) =
      (dev.absInfo code).minimum + (dev.absInfo code).maximum := wrap_int hslo hshi
  have havg := mul_tdiv_bounds ((dev.absInfo code).minimum + (dev.absInfo code).maximum)
    (show (0 : Int) < 2 by omega)
  refine ⟨hlt, hslo, hshi, hspan, hf, hflt, ?_, ?_⟩ <;>
    simp only [evdevInitParms, hsum] <;> omega

/-- The part of the range that the scale covers, without the dead zone. -/
def InputAbsParms.live (parms : InputAbsParms) : Int := parms.max - parms.min - parms.flat * 2

/-- Where a value lies on the scale: the dead zone is cut out on the far side of the middle. -/
def InputAbsParms.place (parms : InputAbsParms) (reverse : Bool) (v : Int) : Int :=
  if reverse then parms.max - (if v < parms.avg then parms.flat * 2 else 0) - v
  else v - (if v > parms.avg then parms.flat * 2 else 0) - parms.min

/-- The value of a place on a scale of length `d`. -/
def onScale (n d : Int) : Int := (n * 65535).tdiv d - 32768

theorem onScale_mono (hd : 0 < d) (h : m ≤ n) : onScale m d ≤ onScale n d := by
  have hmul : m * 65535 ≤ n * 65535 := by omega
  have hdiv := Int.tdiv_le_tdiv hd hmul
  unfold onScale
  omega

theorem onScale_bounds (hd : 0 < d) (h0 : 0 ≤ n) (hn : n ≤ d) :
    -32768 ≤ onScale n d ∧ onScale n d ≤ 32767 := by
  have hlo : 0 ≤ (n * 65535).tdiv d := le_tdiv_of_mul_le (by omega) hd (by omega)
  have hhi : (n * 65535).tdiv d ≤ 65535 := tdiv_le_of_le_mul (by omega) hd (by omega)
  unfold onScale
  omega

/-- A place in the lower half of the scale has a negative value. -/
theorem onScale_neg (hd : 0 < d) (h0 : 0 ≤ n) (hn : 2 * n ≤ d) : onScale n d < 0 := by
  have hlt : (n * 65535).tdiv d < 32768 := by
    rw [Int.tdiv_eq_ediv_of_nonneg (by omega)]
    exact Int.ediv_lt_of_lt_mul hd (by omega)
  unfold onScale
  omega

theorem scaleAxis_eq_onScale (hd : 0 < d) (hspan : d ≤ 2147483647) (h0 : 0 ≤ n) (hn : n ≤ d) :
    scaleAxis n d = some (onScale n d) := by
  have hwd : wrap 32 d = d := wrap_int (by omega) (by omega)
  have hwn : wrap 32 n = n := wrap_int (by omega) (by omega)
  obtain ⟨hlo, hhi⟩ := onScale_bounds hd h0 hn
  rw [scaleAxis, hwd, hwn, if_neg (by omega)]
  exact congrArg some (wrap_short hlo hhi)

/-- Outside the dead zone every value of the range has its place on the scale. -/
theorem Stick.place_bounds (hs : Stick parms) (reverse : Bool) {v : Int} (hmin : parms.min ≤ v)
    (hmax : v ≤ parms.max) (hout : parms.flat ≤ |v - parms.avg|) :
    0 ≤ parms.place reverse v ∧ parms.place reverse v ≤ parms.live := by
  obtain ⟨hlt, _, _, hspan, hf, hflt, ha1, ha2⟩ := hs
  unfold InputAbsParms.place InputAbsParms.live
  rcases abs_cases (v - parms.avg) with ⟨habs, _⟩ | ⟨habs, _⟩ <;>
    cases reverse <;> simp only [if_true, if_false, Bool.false_eq_true] <;> split <;> omega

/-- Within the range the distance from the middle is computed without overflow. -/
theorem Stick.distance (hs : Stick parms) {v : Int} (hmin : parms.min ≤ v)
    (hmax : v ≤ parms.max) : cabs (wrap 32 (v - parms.avg)) = |v - parms.avg| := by
  obtain ⟨hlt, _, _, hspan, hf, hflt, ha1, ha2⟩ := hs
  have hdist : wrap 32 (v - parms.avg) = v - parms.avg := wrap_int (by omega) (by omega)
  rw [hdist, cabs]
  apply wrap_int <;> rcases abs_cases (v - parms.avg) with ⟨h, _⟩ | ⟨h, _⟩ <;> omega

theorem Stick.convert_dead (hs : Stick parms) (hmin : parms.min ≤ ev.value)
    (hmax : ev.value ≤ parms.max) (hin : |ev.value - parms.avg| < parms.flat) :
    evdevConvertValue ev parms reverse = some 0 := by
  rw [evdevConvertValue, hs.distance hmin hmax, if_pos hin]

theorem Stick.convert_live (hs : Stick parms) (ev : InputEvent) (reverse : Bool)
    (hmin : parms.min ≤ ev.value) (hmax : ev.value ≤ parms.max)
    (hout : parms.flat ≤ |ev.value - parms.avg|) :
    evdevConvertValue ev parms reverse =
      some (onScale (parms.place reverse ev.value) parms.live) := by
  have hplace (r : Bool) := hs.place_bounds r hmin hmax hout
  have hdist := hs.distance hmin hmax
  obtain ⟨hlt, _, _, hspan, hf, hflt, ha1, ha2⟩ := hs
  have hlive : 0 < parms.live := by unfold InputAbsParms.live; omega
  have hlive' : parms.live ≤ 2147483647 := by unfold InputAbsParms.live; omega
  rw [evdevConvertValue, hdist, if_neg (by omega), if_neg (by omega), if_neg (by omega)]
  cases reverse with
  | true =>
    obtain ⟨h0, hle⟩ := hplace true
    exact scaleAxis_eq_onScale hlive hlive' h0 hle
  | false =>
    obtain ⟨h0, hle⟩ := hplace false
    exact scaleAxis_eq_onScale hlive hlive' h0 hle

/-- Of two values on one axis the greater is reported no lower, and no higher when reversed. -/
def ConvertsInOrder (parms : InputAbsParms) : Prop :=
  ∀ ev ev' : InputEvent, parms.min ≤ ev.value → ev.value ≤ ev'.value → ev'.value ≤ parms.max →
    (∃ x y, evdevConvertValue ev parms false = some x ∧
      evdevConvertValue ev' parms false = some y ∧ x ≤ y) ∧
    ∃ x y, evdevConvertValue ev parms true = some x ∧
      evdevConvertValue ev' parms true = some y ∧ y ≤ x

theorem Stick.inOrder_of_flat_eq_zero (hs : Stick parms) (hflat : parms.flat = 0) :
    ConvertsInOrder parms := by
  intro ev ev' hmin hle hmax
  have hev (r : Bool) := hs.convert_live ev r hmin (by omega)
    (by rw [hflat]; exact abs_nonneg _)
  have hev' (r : Bool) := hs.convert_live ev' r (by omega) hmax
    (by rw [hflat]; exact abs_nonneg _)
  have hlive : 0 < parms.live := by
    have := hs.min_lt_max
    unfold InputAbsParms.live
    omega
  refine ⟨⟨_, _, hev false, hev' false, onScale_mono hlive ?_⟩,
    ⟨_, _, hev true, hev' true, onScale_mono hlive ?_⟩⟩ <;>
    simp [InputAbsParms.place, hflat] <;> omega

/-- The middle of an axis with a dead zone is reported as 0. -/
theorem Stick.convert_avg (hs : Stick parms) (ev : InputEvent) (reverse : Bool)
    (hflat : 0 < parms.flat) (hv : ev.value = parms.avg) :
    evdevConvertValue ev parms reverse = some 0 := by
  obtain ⟨hlt, _, _, hspan, hf, hflt, ha1, ha2⟩ := id hs
  refine hs.convert_dead (by omega) (by omega) ?_
  rw [hv, sub_self, abs_zero]
  exact hflat

/-- The upper edge of a dead zone is reported below 0, unless the middle was rounded up. -/
theorem Stick.upper_edge (hs : Stick parms) (ev : InputEvent) (hflat : 0 < parms.flat)
    (hround : 2 * parms.avg ≤ parms.min + parms.max) (hv : ev.value = parms.avg + parms.flat) :
    ∃ y, evdevConvertValue ev parms false = some y ∧ y < 0 := by
  obtain ⟨hlt, _, _, hspan, hf, hflt, ha1, ha2⟩ := id hs
  have hout : parms.flat ≤ |ev.value - parms.avg| := by
    rw [abs_of_nonneg] <;> omega
  refine ⟨_, hs.convert_live ev _ (by omega) (by omega) hout, onScale_neg ?_ ?_ ?_⟩ <;>
    simp only [InputAbsParms.place, InputAbsParms.live, Bool.false_eq_true, if_false] <;>
    try split
  all_goals omega

/-- The lower edge of a reversed dead zone is reported below 0 when the middle was rounded up. -/
theorem Stick.lower_edge (hs : Stick parms) (ev : InputEvent) (hflat : 0 < parms.flat)
    (hround : parms.min + parms.max < 2 * parms.avg) (hv : ev.value = parms.avg - parms.flat) :
    ∃ x, evdevConvertValue ev parms true = some x ∧ x < 0 := by
  obtain ⟨hlt, _, _, hspan, hf, hflt, ha1, ha2⟩ := id hs
  have hout : parms.flat ≤ |ev.value - parms.avg| := by
    rw [abs_of_nonpos] <;> omega
  refine ⟨_, hs.convert_live ev _ (by omega) (by omega) hout, onScale_neg ?_ ?_ ?_⟩ <;>
    simp only [InputAbsParms.place, InputAbsParms.live, if_true] <;>
    try split
  all_goals omega

/-- One of the two edges of a dead zone is reported on the wrong side of its middle. -/
theorem Stick.not_inOrder_of_flat_pos (hs : Stick parms) (hflat : 0 < parms.flat) :
    ¬ ConvertsInOrder parms := by
  intro hord
  obtain ⟨hlt, _, _, hspan, hf, hflt, ha1, ha2⟩ := id hs
  have hmid (r : Bool) := hs.convert_avg ⟨.abs, 0, parms.avg⟩ r hflat rfl
  by_cases hround : 2 * parms.avg ≤ parms.min + parms.max
  · obtain ⟨z, hz, hneg⟩ := hs.upper_edge ⟨.abs, 0, parms.avg + parms.flat⟩ hflat hround rfl
    obtain ⟨⟨x, y, hx, hy, hxy⟩, _⟩ := hord ⟨.abs, 0, parms.avg⟩ ⟨.abs, 0, parms.avg + parms.flat⟩
      (by simp only; omega) (by simp only; omega) (by simp only; omega)
    rw [hmid] at hx
    rw [hz] at hy
    cases hx
    cases hy
    omega
  · obtain ⟨z, hz, hneg⟩ := hs.lower_edge ⟨.abs, 0, parms.avg - parms.flat⟩ hflat
      (by omega) rfl
    obtain ⟨_, x, y, hx, hy, hxy⟩ := hord ⟨.abs, 0, parms.avg - parms.flat⟩ ⟨.abs, 0, parms.avg⟩
      (by simp only; omega) (by simp only; omega) (by simp only; omega)
    rw [hz] at hx
    rw [hmid] at hy
    cases hx
    cases hy
    omega

/-- The conversion is monotone in both directions exactly on an axis without a dead zone. -/
theorem converts_in_order_iff (h : StickFits dev code) :
    ConvertsInOrder (evdevInitParms dev code) ↔ (dev.absInfo code).flat = 0 := by
  have hs := h.stick
  constructor
  · intro hord
    by_contra hne
    exact hs.not_inOrder_of_flat_pos (lt_of_le_of_ne h.flat_nonneg (Ne.symm hne)) hord
  · intro hflat
    exact hs.inOrder_of_flat_eq_zero hflat

/-- A byte axis without a dead zone. -/
theorem converts_in_order_iff_byte :
    ConvertsInOrder (evdevInitParms ⟨3, fun _ => ⟨0, 255, 0⟩⟩ 0) :=
  (converts_in_order_iff (by constructor <;> decide)).mpr rfl

/-- A byte axis with a dead zone of 15 around 127: at 142, right of it, the stick is reported
left of the middle. -/
theorem edge_reported_backward :
    ¬ ConvertsInOrder (evdevInitParms ⟨3, fun _ => ⟨0, 255, 15⟩⟩ 0) := by
  intro hord
  obtain ⟨⟨x, y, hx, hy, hxy⟩, _⟩ := hord ⟨.abs, 0, 127⟩ ⟨.abs, 0, 142⟩ (by decide) (by decide)
    (by decide)
  have hmid : evdevConvertValue ⟨.abs, 0, 127⟩ (evdevInitParms ⟨3, fun _ => ⟨0, 255, 15⟩⟩ 0) false =
      some 0 := by decide
  have hedge : evdevConvertValue ⟨.abs, 0, 142⟩ (evdevInitParms ⟨3, fun _ => ⟨0, 255, 15⟩⟩ 0) false =
      some (-147) := by decide
  rw [hmid] at hx
  rw [hedge] at hy
  cases hx
  cases hy
  omega

end Moonlight
