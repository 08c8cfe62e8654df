import Moonlight.Input.EvdevStick

/-! The value `evdev_convert_value` returns before it is narrowed to a `short`: it is always
one of a `short`, the two ends of the axis are reported as the two ends of that range, and the
reversed scale is the mirror image of the plain one. -/
namespace Moonlight

open Lib.Machine

variable {code x start dead origin : Int} {dev : Libevdev} {ev : InputEvent} {reverse : Bool}
  {parms : InputAbsParms}

/-- The scaled part of `evdev_convert_value`, operator by operator: `none` is an overflow of an
`int` or a division by 0. The multiplication and the division are in `long long`. -/
def scaleWide (start dead origin : Int) (parms : InputAbsParms) : Option Int := do
  let shifted ← intExpr (start - dead)
  let numerator ← intExpr (shifted - origin)
  let span ← intExpr (parms.max - parms.min)
  let doubled ← intExpr (parms.flat * 2)
  let divisor ← intExpr (span - doubled)
  if divisor = 0 then none else some ((numerator * 65535).tdiv divisor + -32768)

/-- `evdev_convert_value` up to the conversion to its result type. -/
def convertWide (ev : InputEvent) (parms : InputAbsParms) (reverse : Bool) : Option Int := do
  let offset ← intExpr (ev.value - parms.avg)
  let distance ← intExpr |offset|
  if distance < parms.flat then some 0
  else if ev.value > parms.max then some (if reverse then -32768 else 32767)
  else if ev.value < parms.min then some (if reverse then 32767 else -32768)
  else if reverse then
    scaleWide parms.max (if ev.value < parms.avg then parms.flat * 2 else 0) ev.value parms
  else
    scaleWide ev.value (if ev.value > parms.avg then parms.flat * 2 else 0) parms.min parms

/-- What the narrowed arithmetic computes is the wide value, stored in a `short`. -/
theorem scaleAxis_of_scaleWide (h : scaleWide start dead origin parms = some x) :
    scaleAxis (start - dead - origin) (parms.max - parms.min - parms.flat * 2) =
      some (wrap 16 x) := by
  simp only [scaleWide, Option.bind_eq_bind, Option.bind_eq_some_iff] at h
  obtain ⟨shifted, hshifted, numerator, hnum, span, hspan, doubled, hdoubled, divisor, hdiv, h⟩ := h
  obtain ⟨rfl, _⟩ := intExpr_eq_some hshifted
  obtain ⟨_, hnum'⟩ := intExpr_eq_some hnum
  obtain ⟨rfl, _⟩ := intExpr_eq_some hspan
  obtain ⟨rfl, _⟩ := intExpr_eq_some hdoubled
  obtain ⟨_, hdiv'⟩ := intExpr_eq_some hdiv
  rw [scaleAxis, hnum', hdiv']
  split at h
  next => cases h
  next hne =>
    cases h
    rw [if_neg hne]

/-- `evdev_convert_value` returns its wide value, narrowed. -/
theorem convertValue_of_convertWide (h : convertWide ev parms reverse = some x) :
    evdevConvertValue ev parms reverse = some (wrap 16 x) := by
  simp only [convertWide, Option.bind_eq_bind, Option.bind_eq_some_iff] at h
  obtain ⟨offset, hoffset, distance, hdist, h⟩ := h
  obtain ⟨_, hoffset'⟩ := intExpr_eq_some hoffset
  obtain ⟨_, hdist'⟩ := intExpr_eq_some hdist
  rw [evdevConvertValue, hoffset', cabs, hdist']
  split at h
  next hdead =>
    cases h
    rw [if_pos hdead]
    rfl
  next hlive =>
    rw [if_neg hlive]
    split at h
    next hmax =>
      cases h
      rw [if_pos hmax]
      cases reverse <;> rfl
    next hmax =>
      rw [if_neg hmax]
      split at h
      next hmin =>
        cases h
        rw [if_pos hmin]
        cases reverse <;> rfl
      next hmin =>
        rw [if_neg hmin]
        cases reverse with
        | true => exact scaleAxis_of_scaleWide h
        | false => exact scaleAxis_of_scaleWide h

/-- Limits whose sum and difference fit an `int` fit it themselves. -/
theorem Stick.limits (hs : Stick parms) :
    -2147483648 ≤ parms.min ∧ parms.max ≤ 2147483647 := by
  obtain ⟨hlt, hslo, hshi, hspan, _, _, _, _⟩ := hs
  omega

/-- No operator of the scaled part overflows where the place lies on the scale. -/
theorem Stick.scaleWide_eq (hs : Stick parms) (hstart : start ≤ parms.max)
    (horigin : parms.min ≤ origin) (hdead : 0 ≤ dead) (h0 : 0 ≤ start - dead - origin)
    (hle : start - dead - origin ≤ parms.live) :
    scaleWide start dead origin parms = some (onScale (start - dead - origin) parms.live) := by
  obtain ⟨hlo, hhi⟩ := hs.limits
  obtain ⟨hlt, _, _, hspan, hf, hflt, _, _⟩ := hs
  unfold InputAbsParms.live at hle ⊢
  have hshifted : intExpr (start - dead) = some (start - dead) := intExpr_eq (by omega) (by omega)
  have hnum : intExpr (start - dead - origin) = some (start - dead - origin) :=
    intExpr_eq (by omega) (by omega)
  have hwidth : intExpr (parms.max - parms.min) = some (parms.max - parms.min) :=
    intExpr_eq (by omega) (by omega)
  have hdoubled : intExpr (parms.flat * 2) = some (parms.flat * 2) :=
    intExpr_eq (by omega) (by omega)
  have hdiv : intExpr (parms.max - parms.min - parms.flat * 2) =
      some (parms.max - parms.min - parms.flat * 2) := intExpr_eq (by omega) (by omega)
  have hne : parms.max - parms.min - parms.flat * 2 ≠ 0 := by omega
  simp only [scaleWide, hshifted, hnum, hwidth, hdoubled, hdiv, Option.bind_eq_bind,
    Option.bind_some, if_neg hne]
  rfl

/-- A distance from the middle that fits an `int` is computed without overflow. -/
theorem convertWide_of_fits (hfit : |ev.value - parms.avg| ≤ 2147483647) :
    convertWide ev parms reverse =
      if |ev.value - parms.avg| < parms.flat then some 0
      else if ev.value > parms.max then some (if reverse then -32768 else 32767)
      else if ev.value < parms.min then some (if reverse then 32767 else -32768)
      else if reverse then
        scaleWide parms.max (if ev.value < parms.avg then parms.flat * 2 else 0) ev.value parms
      else
        scaleWide ev.value (if ev.value > parms.avg then parms.flat * 2 else 0) parms.min
          parms := by
  obtain ⟨hneg, hpos⟩ := abs_le.mp hfit
  have habs := abs_nonneg (ev.value - parms.avg)
  have hoffset : intExpr (ev.value - parms.avg) = some (ev.value - parms.avg) :=
    intExpr_eq (by omega) hpos
  have hdist : intExpr |ev.value - parms.avg| = some |ev.value - parms.avg| :=
    intExpr_eq (by omega) hfit
  simp only [convertWide, hoffset, hdist, Option.bind_eq_bind, Option.bind_some]

/-- Outside the dead zone a value of the range is scaled to its place. -/
theorem Stick.wide_live (hs : Stick parms) (hfit : |ev.value - parms.avg| ≤ 2147483647)
    (hmin : parms.min ≤ ev.value) (hmax : ev.value ≤ parms.max)
    (hout : parms.flat ≤ |ev.value - parms.avg|) :
    convertWide ev parms reverse = some (onScale (parms.place reverse ev.value) parms.live) := by
  obtain ⟨h0, hle⟩ := hs.place_bounds reverse hmin hmax hout
  have hflat := hs.flat_nonneg
  rw [convertWide_of_fits hfit, if_neg (by omega), if_neg (by omega), if_neg (by omega)]
  cases reverse with
  | true => exact hs.scaleWide_eq le_rfl hmin (by split <;> omega) h0 hle
  | false => exact hs.scaleWide_eq hmax le_rfl (by split <;> omega) h0 hle

/-- The two ends of an axis lie outside its dead zone. -/
theorem Stick.ends_live (hs : Stick parms) {v : Int} (h : v ≤ parms.min ∨ parms.max ≤ v) :
    parms.flat ≤ |v - parms.avg| := by
  obtain ⟨hlt, _, _, _, hf, hflt, ha1, ha2⟩ := hs
  rcases abs_cases (v - parms.avg) with ⟨habs, _⟩ | ⟨habs, _⟩ <;> omega

@[simp] theorem onScale_zero (d : Int) : onScale 0 d = -32768 := by
  simp [onScale]

theorem onScale_self {d : Int} (hd : 0 < d) : onScale d d = 32767 := by
  have hfull : (d * 65535).tdiv d = 65535 := Int.mul_tdiv_cancel_left 65535 (by omega)
  rw [onScale, hfull]
  rfl

theorem Stick.live_pos (hs : Stick parms) : 0 < parms.live := by
  have := hs.flat_lt
  unfold InputAbsParms.live
  omega

/-- The greatest value of an axis is at the far end of the scale. -/
theorem Stick.place_max (hs : Stick parms) (reverse : Bool) :
    parms.place reverse parms.max = if reverse then 0 else parms.live := by
  obtain ⟨hlt, _, _, _, hf, hflt, ha1, ha2⟩ := hs
  unfold InputAbsParms.place InputAbsParms.live
  cases reverse <;> simp only [if_true, if_false, Bool.false_eq_true] <;> split <;> omega

theorem Stick.place_min (hs : Stick parms) (reverse : Bool) :
    parms.place reverse parms.min = if reverse then parms.live else 0 := by
  obtain ⟨hlt, _, _, _, hf, hflt, ha1, ha2⟩ := hs
  unfold InputAbsParms.place InputAbsParms.live
  cases reverse <;> simp only [if_true, if_false, Bool.false_eq_true] <;> split <;> omega

theorem Stick.wide_above (hs : Stick parms) (hfit : |ev.value - parms.avg| ≤ 2147483647)
    (hmax : parms.max ≤ ev.value) :
    convertWide ev parms reverse = some (if reverse then -32768 else 32767) := by
  have hout := hs.ends_live (Or.inr hmax)
  have hlt := hs.min_lt_max
  rcases hmax.eq_or_lt with heq | hgt
  · rw [hs.wide_live hfit (by omega) heq.ge hout, ← heq, hs.place_max]
    cases reverse with
    | true => exact congrArg some (onScale_zero _)
    | false => exact congrArg some (onScale_self hs.live_pos)
  · rw [convertWide_of_fits hfit, if_neg (by omega), if_pos hgt]

theorem Stick.wide_below (hs : Stick parms) (hfit : |ev.value - parms.avg| ≤ 2147483647)
    (hmin : ev.value ≤ parms.min) :
    convertWide ev parms reverse = some (if reverse then 32767 else -32768) := by
  have hout := hs.ends_live (Or.inl hmin)
  have hlt := hs.min_lt_max
  rcases hmin.eq_or_lt with heq | hgt
  · rw [hs.wide_live hfit heq.ge (by omega) hout, heq, hs.place_min]
    cases reverse with
    | true => exact congrArg some (onScale_self hs.live_pos)
    | false => exact congrArg some (onScale_zero _)
  · rw [convertWide_of_fits hfit, if_neg (by omega), if_neg (by omega), if_pos hgt]

/-- Wherever the value lies, the wide result is one of a `short`. -/
theorem Stick.wide_bounds (hs : Stick parms) (reverse : Bool)
    (hfit : |ev.value - parms.avg| ≤ 2147483647) :
    ∃ x, convertWide ev parms reverse = some x ∧ -32768 ≤ x ∧ x ≤ 32767 := by
  by_cases habove : parms.max ≤ ev.value
  · refine ⟨_, hs.wide_above hfit habove, ?_⟩
    cases reverse <;> simp
  by_cases hbelow : ev.value ≤ parms.min
  · refine ⟨_, hs.wide_below hfit hbelow, ?_⟩
    cases reverse <;> simp
  by_cases hdead : |ev.value - parms.avg| < parms.flat
  · refine ⟨0, ?_, by omega, by omega⟩
    rw [convertWide_of_fits hfit, if_pos hdead]
  · have hmin : parms.min ≤ ev.value := by omega
    have hmax : ev.value ≤ parms.max := by omega
    have hout : parms.flat ≤ |ev.value - parms.avg| := by omega
    obtain ⟨h0, hle⟩ := hs.place_bounds reverse hmin hmax hout
    exact ⟨_, hs.wide_live hfit hmin hmax hout, onScale_bounds hs.live_pos h0 hle⟩

/-- The stick conversion never wraps: no operator overflows, the value fits a `short` before it
is narrowed and is returned as it is, and both ends of the axis reach the ends of that range. -/
theorem convert_value_in_short (h : StickFits dev code) (ev : InputEvent) (reverse : Bool)
    (hfit : |ev.value - (evdevInitParms dev code).avg| ≤ 2147483647) :
    ∃ x, convertWide ev (evdevInitParms dev code) reverse = some x ∧
      -32768 ≤ x ∧ x ≤ 32767 ∧
      evdevConvertValue ev (evdevInitParms dev code) reverse = some x ∧
      ((dev.absInfo code).maximum ≤ ev.value → x = if reverse then -32768 else 32767) ∧
      (ev.value ≤ (dev.absInfo code).minimum → x = if reverse then 32767 else -32768) := by
  have hs := h.stick
  obtain ⟨x, hx, hlo, hhi⟩ := hs.wide_bounds reverse hfit
  refine ⟨x, hx, hlo, hhi, ?_, ?_, ?_⟩
  · rw [convertValue_of_convertWide hx, wrap_short hlo hhi]
  · intro hmax
    rw [hs.wide_above hfit hmax] at hx
    exact (Option.some.inj hx).symm
  · intro hmin
    rw [hs.wide_below hfit hmin] at hx
    exact (Option.some.inj hx).symm

/-- A byte axis with a dead zone, pushed to its upper end. -/
theorem convert_value_in_short_byte :
    ∃ x, convertWide ⟨.abs, 0, 255⟩ (evdevInitParms ⟨3, fun _ => ⟨0, 255, 15⟩⟩ 0) false = some x ∧
      x = 32767 := by
  have hfits : StickFits ⟨3, fun _ => ⟨0, 255, 15⟩⟩ 0 := by constructor <;> decide
  obtain ⟨x, hx, _, _, _, hmax, _⟩ :=
    convert_value_in_short hfits ⟨.abs, 0, 255⟩ false (by decide)
  exact ⟨x, hx, hmax (by decide)⟩

/-- A value and its mirror image lie equally far from the middle. -/
theorem mirror_distance (heven : 2 * parms.avg = parms.min + parms.max)
    {v w : Int} (hw : w = parms.min + parms.max - v) : |w - parms.avg| = |v - parms.avg| := by
  have hneg : w - parms.avg = -(v - parms.avg) := by omega
  rw [hneg, abs_neg]

/-- The reversed scale puts a value where the plain one puts its mirror image. -/
theorem place_mirror (heven : 2 * parms.avg = parms.min + parms.max) {v w : Int}
    (hw : w = parms.min + parms.max - v) :
    parms.place true v = parms.place false w := by
  simp only [InputAbsParms.place, if_true, if_false, Bool.false_eq_true]
  split <;> split <;> omega

/-- Seen from the middle, the five regions of the reversed path are those of the plain one in
the other order. -/
theorem Stick.convertWide_mirror (hs : Stick parms)
    (heven : 2 * parms.avg = parms.min + parms.max) {mirrored : InputEvent}
    (hw : mirrored.value = parms.min + parms.max - ev.value)
    (hfit : |ev.value - parms.avg| ≤ 2147483647) :
    convertWide ev parms true = convertWide mirrored parms false := by
  have hdist : |mirrored.value - parms.avg| = |ev.value - parms.avg| :=
    mirror_distance heven hw
  have hfit' : |mirrored.value - parms.avg| ≤ 2147483647 := by omega
  by_cases habove : parms.max ≤ ev.value
  · rw [hs.wide_above hfit habove, hs.wide_below hfit' (by omega)]
    rfl
  by_cases hbelow : ev.value ≤ parms.min
  · rw [hs.wide_below hfit hbelow, hs.wide_above hfit' (by omega)]
    rfl
  by_cases hdead : |ev.value - parms.avg| < parms.flat
  · rw [convertWide_of_fits hfit, if_pos hdead, convertWide_of_fits hfit', hdist, if_pos hdead]
  · rw [hs.wide_live hfit (by omega) (by omega) (by omega),
      hs.wide_live hfit' (by omega) (by omega) (by omega), place_mirror heven hw]

/-- Limits with an even sum have an exact middle. -/
theorem StickFits.avg_exact (h : StickFits dev code)
    (heven : 2 ∣ (dev.absInfo code).minimum + (dev.absInfo code).maximum) :
    2 * (evdevInitParms dev code).avg =
      (evdevInitParms dev code).min + (evdevInitParms dev code).max := by
  obtain ⟨c, hc⟩ := heven
  have hsum : wrap 32 (2 * c) = 2 * c := by
    rw [← hc]
    exact wrap_int h.le_sum h.sum_le
  simp only [evdevInitParms, hc, hsum]
  rw [Int.mul_tdiv_cancel_left _ (by decide)]

/-- On an axis with an exact middle, the reversed path reports for a value what the plain one
reports for its mirror image. -/
theorem reverse_is_mirror (h : StickFits dev code)
    (heven : 2 ∣ (dev.absInfo code).minimum + (dev.absInfo code).maximum)
    (ev mirrored : InputEvent)
    (hmirrored : mirrored.value =
      (dev.absInfo code).minimum + (dev.absInfo code).maximum - ev.value)
    (hfit : -2147483648 ≤ ev.value - (evdevInitParms dev code).avg ∧
      ev.value - (evdevInitParms dev code).avg ≤ 2147483647)
    (hfit' : -2147483648 ≤ mirrored.value - (evdevInitParms dev code).avg ∧
      mirrored.value - (evdevInitParms dev code).avg ≤ 2147483647) :
    ∃ x, evdevConvertValue ev (evdevInitParms dev code) true = some x ∧
      evdevConvertValue mirrored (evdevInitParms dev code) false = some x := by
  have hs := h.stick
  have hmid := h.avg_exact heven
  have hneg : mirrored.value - (evdevInitParms dev code).avg =
      -(ev.value - (evdevInitParms dev code).avg) := by
    simp only [evdevInitParms] at hmid hmirrored ⊢
    omega
  have habs : |ev.value - (evdevInitParms dev code).avg| ≤ 2147483647 :=
    abs_le.mpr ⟨by omega, hfit.2⟩
  obtain ⟨x, hx, hlo, hhi⟩ := hs.wide_bounds true habs
  have hx' : convertWide mirrored (evdevInitParms dev code) false = some x := by
    rw [← hs.convertWide_mirror hmid hmirrored habs, hx]
  exact ⟨wrap 16 x, convertValue_of_convertWide hx, convertValue_of_convertWide hx'⟩

/-- A signed byte axis with a dead zone: 100 reversed is -100. -/
theorem reverse_is_mirror_byte :
    ∃ x, evdevConvertValue ⟨.abs, 0, 100⟩ (evdevInitParms ⟨3, fun _ => ⟨-127, 127, 15⟩⟩ 0) true =
        some x ∧
      evdevConvertValue ⟨.abs, 0, -100⟩ (evdevInitParms ⟨3, fun _ => ⟨-127, 127, 15⟩⟩ 0) false =
        some x :=
  reverse_is_mirror (by constructor <;> decide) (by decide) ⟨.abs, 0, 100⟩ ⟨.abs, 0, -100⟩
    (by decide) (by decide) (by decide)

end Moonlight
