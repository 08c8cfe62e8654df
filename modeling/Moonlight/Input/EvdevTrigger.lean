import Moonlight.Input.EvdevDevice

/-! Which trigger values `evdev_convert_value_byte` reports as a monotone clamp: its product is
an `int`, and nothing saturates below the range. -/
namespace Moonlight

open Lib.Machine

variable {v w : Int} {b : BitVec 8} {info : AbsInfo} {dev : Libevdev} {code : Int}
  {ev ev' : InputEvent}

/-- An axis that is wider than its dead zone. -/
structure TriggerFits (info : AbsInfo) : Prop where
  int_le_min : -2147483648 ≤ info.minimum
  min_lt_max : info.minimum < info.maximum
  max_le_int : info.maximum ≤ 2147483647
  flat_nonneg : 0 ≤ info.flat
  flat_lt : info.flat < info.maximum - info.minimum

/-- The scaled part of `evdev_convert_value_byte`, operator by operator; `none` is an overflow
of an `int` or a division by 0. -/
def scaleByte (ev : InputEvent) (info : AbsInfo) (diff : Int) : Option (BitVec 8) := do
  let shifted ← intExpr (ev.value - info.flat)
  let numerator ← intExpr (shifted - info.minimum)
  let product ← intExpr (numerator * 255)
  let divisor ← intExpr (diff - info.flat)
  if divisor = 0 then none else some (BitVec.ofInt 8 (product.tdiv divisor))

/-- `evdev_convert_value_byte`, together with the width that `evdev_init_parms` computes. -/
def convertByte (ev : InputEvent) (info : AbsInfo) : Option (BitVec 8) := do
  let diff ← intExpr (info.maximum - info.minimum)
  let offset ← intExpr (ev.value - info.minimum)
  let distance ← intExpr |offset|
  if distance < info.flat then some 0
  else if ev.value > info.maximum then some 255
  else scaleByte ev info diff

/-- Where no operator overflows, the wrapped arithmetic computes the same byte. -/
theorem convertValueByte_of_convertByte (h : convertByte ev (dev.absInfo code) = some b) :
    evdevConvertValueByte ev (evdevInitParms dev code) = some b := by
  simp only [convertByte, Option.bind_eq_bind, Option.bind_eq_some_iff] at h
  obtain ⟨diff, hdiff, offset, hoffset, distance, hdist, h⟩ := h
  obtain ⟨_, hdiff'⟩ := intExpr_eq_some hdiff
  obtain ⟨_, hoffset'⟩ := intExpr_eq_some hoffset
  obtain ⟨_, hdist'⟩ := intExpr_eq_some hdist
  simp only [evdevConvertValueByte, evdevInitParms, hdiff', hoffset', cabs, hdist']
  split at h
  next hdead =>
    rw [if_pos hdead]
    exact h
  next hlive =>
    rw [if_neg hlive]
    split at h
    next hmax =>
      rw [if_pos hmax]
      exact h
    next hmax =>
      rw [if_neg hmax]
      simp only [scaleByte, Option.bind_eq_bind, Option.bind_eq_some_iff] at h
      obtain ⟨shifted, hshifted, numerator, hnum, product, hprod, divisor, hdivisor, h⟩ := h
      obtain ⟨rfl, _⟩ := intExpr_eq_some hshifted
      obtain ⟨rfl, _⟩ := intExpr_eq_some hnum
      obtain ⟨_, hprod'⟩ := intExpr_eq_some hprod
      obtain ⟨_, hdivisor'⟩ := intExpr_eq_some hdivisor
      rw [hprod', hdivisor']
      exact h

/-- The byte of a quotient that fits one. -/
theorem toNat_ofInt_tdiv {n d : Int} (hd : 0 < d) (h0 : 0 ≤ n) (hn : n ≤ 255 * d) :
    ((BitVec.ofInt 8 (n.tdiv d)).toNat : Int) = n.tdiv d := by
  have hlo : 0 ≤ n.tdiv d := le_tdiv_of_mul_le h0 hd (by omega)
  have hhi : n.tdiv d ≤ 255 := tdiv_le_of_le_mul h0 hd hn
  have hcut : (BitVec.ofInt 8 (n.tdiv d)).toNat = (n.tdiv d % 256).toNat := BitVec.toNat_ofInt _
  omega

/-- An integer is cut to the byte 0 when it is a multiple of 256. -/
theorem ofInt_eq_zero_iff (x : Int) : BitVec.ofInt 8 x = 0 ↔ x % 256 = 0 := by
  have hcut : (BitVec.ofInt 8 x).toNat = (x % 256).toNat := BitVec.toNat_ofInt x
  have hzero : (0 : BitVec 8).toNat = 0 := rfl
  constructor
  · intro h
    rw [h, hzero] at hcut
    omega
  · intro h
    apply BitVec.eq_of_toNat_eq
    rw [hcut, hzero, h]
    rfl

/-- The quotients that are cut to the byte 0, without the division. -/
theorem ofInt_neg_tdiv_eq_zero {m d : Int} (hd : 0 < d) (hm : 0 ≤ m) :
    BitVec.ofInt 8 ((-m).tdiv d) = 0 ↔ ∃ n : Int, 256 * n * d ≤ m ∧ m < (256 * n + 1) * d := by
  have hdiv : (-m).tdiv d = -(m / d) := by
    rw [Int.neg_tdiv, Int.tdiv_eq_ediv_of_nonneg hm]
  rw [hdiv, ofInt_eq_zero_iff]
  constructor
  · intro h
    refine ⟨m / d / 256, ?_, ?_⟩
    · exact (Int.le_ediv_iff_mul_le hd).mp (by omega)
    · exact (Int.ediv_lt_iff_lt_mul hd).mp (by omega)
  · rintro ⟨n, hlo, hhi⟩
    have hle := (Int.le_ediv_iff_mul_le hd).mpr hlo
    have hlt := (Int.ediv_lt_iff_lt_mul hd).mpr hhi
    omega

/-- The values of an axis that are reported without overflow and at their end of the range. A
value below the range and its dead zone is scaled like the others, so the byte has to be 0 by
chance. -/
def Served (info : AbsInfo) (v : Int) : Prop :=
  info.maximum < v ∨ |v - info.minimum| < info.flat ∨
    (info.minimum ≤ v ∧ v ≤ info.maximum ∧
      (v - info.minimum - info.flat) * 255 ≤ 2147483647) ∨
    (v < info.minimum ∧ -2147483648 ≤ v - info.flat ∧
      (info.minimum - v + info.flat) * 255 ≤ 2147483648 ∧
      ∃ n : Int, 256 * n * (info.maximum - info.minimum - info.flat) ≤
          (info.minimum - v + info.flat) * 255 ∧
        (info.minimum - v + info.flat) * 255 <
          (256 * n + 1) * (info.maximum - info.minimum - info.flat))

/-- The two values are reported in order, each at its end where it is not inside the range, and
no operator overflows on the way. -/
def ClampsInOrder (info : AbsInfo) (ev ev' : InputEvent) : Prop :=
  ∃ b b', convertByte ev info = some b ∧ convertByte ev' info = some b' ∧
    b.toNat ≤ b'.toNat ∧
    (ev.value ≤ info.minimum → b = 0) ∧ (info.maximum ≤ ev.value → b = 255) ∧
    (ev'.value ≤ info.minimum → b' = 0) ∧ (info.maximum ≤ ev'.value → b' = 255)

/-- With a width and a distance that fit an `int`, the first two tests decide. -/
theorem convertByte_of_fits (hspan : info.maximum - info.minimum ≤ 2147483647)
    (h : TriggerFits info) (hfit : |ev.value - info.minimum| ≤ 2147483647) :
    convertByte ev info =
      if |ev.value - info.minimum| < info.flat then some 0
      else if ev.value > info.maximum then some 255
      else scaleByte ev info (info.maximum - info.minimum) := by
  obtain ⟨hneg, hpos⟩ := abs_le.mp hfit
  have hlt := h.min_lt_max
  have habs := abs_nonneg (ev.value - info.minimum)
  have hdiff : intExpr (info.maximum - info.minimum) = some (info.maximum - info.minimum) :=
    intExpr_eq (by omega) hspan
  have hoffset : intExpr (ev.value - info.minimum) = some (ev.value - info.minimum) :=
    intExpr_eq (by omega) hpos
  have hdist : intExpr |ev.value - info.minimum| = some |ev.value - info.minimum| :=
    intExpr_eq (by omega) hfit
  simp only [convertByte, hdiff, hoffset, hdist, Option.bind_eq_bind, Option.bind_some]

/-- The scaled part has a value when its shifted value and its product fit an `int`. -/
theorem scaleByte_eq (h : TriggerFits info)
    (hspan : info.maximum - info.minimum ≤ 2147483647)
    (hlo : -2147483648 ≤ ev.value - info.flat) (hhi : ev.value ≤ info.maximum)
    (hprod : -2147483648 ≤ (ev.value - info.flat - info.minimum) * 255)
    (hprod' : (ev.value - info.flat - info.minimum) * 255 ≤ 2147483647) :
    scaleByte ev info (info.maximum - info.minimum) =
      some (BitVec.ofInt 8 (((ev.value - info.flat - info.minimum) * 255).tdiv
        (info.maximum - info.minimum - info.flat))) := by
  obtain ⟨hmin, hlt, hmax, hf, hflt⟩ := h
  have hshifted : intExpr (ev.value - info.flat) = some (ev.value - info.flat) :=
    intExpr_eq hlo (by omega)
  have hnum : intExpr (ev.value - info.flat - info.minimum) =
      some (ev.value - info.flat - info.minimum) := intExpr_eq (by omega) (by omega)
  have hproduct : intExpr ((ev.value - info.flat - info.minimum) * 255) =
      some ((ev.value - info.flat - info.minimum) * 255) := intExpr_eq hprod hprod'
  have hdivisor : intExpr (info.maximum - info.minimum - info.flat) =
      some (info.maximum - info.minimum - info.flat) := intExpr_eq (by omega) (by omega)
  have hne : info.maximum - info.minimum - info.flat ≠ 0 := by omega
  simp only [scaleByte, hshifted, hnum, hproduct, hdivisor, Option.bind_eq_bind,
    Option.bind_some, if_neg hne]

/-- Where the scaled part has a value, nothing overflowed. -/
theorem scaleByte_fits {diff : Int} (h : scaleByte ev info diff = some b) :
    -2147483648 ≤ ev.value - info.flat ∧
      -2147483648 ≤ (ev.value - info.flat - info.minimum) * 255 ∧
      (ev.value - info.flat - info.minimum) * 255 ≤ 2147483647 := by
  simp only [scaleByte, Option.bind_eq_bind, Option.bind_eq_some_iff] at h
  obtain ⟨shifted, hshifted, numerator, hnum, product, hprod, _⟩ := h
  obtain ⟨rfl, _⟩ := intExpr_eq_some hshifted
  obtain ⟨rfl, _⟩ := intExpr_eq_some hnum
  have h1 := intExpr_bounds hshifted
  have h2 := intExpr_bounds hprod
  exact ⟨h1.1, h2⟩

/-- A value of the range, outside of its dead zone, is scaled to a byte. -/
theorem convertByte_inside (h : TriggerFits info)
    (hspan : info.maximum - info.minimum ≤ 2147483647)
    (hfit : |ev.value - info.minimum| ≤ 2147483647) (hmin : info.minimum ≤ ev.value)
    (hmax : ev.value ≤ info.maximum) (hout : ¬ |ev.value - info.minimum| < info.flat)
    (hprod : (ev.value - info.minimum - info.flat) * 255 ≤ 2147483647) :
    ∃ b, convertByte ev info = some b ∧
      (b.toNat : Int) = ((ev.value - info.flat - info.minimum) * 255).tdiv
        (info.maximum - info.minimum - info.flat) := by
  have hdist : |ev.value - info.minimum| = ev.value - info.minimum := abs_of_nonneg (by omega)
  have hlo := h.int_le_min
  have hflt := h.flat_lt
  refine ⟨_, ?_, toNat_ofInt_tdiv (by omega) (by omega) (by omega)⟩
  rw [convertByte_of_fits hspan h hfit, if_neg hout, if_neg (by omega)]
  exact scaleByte_eq h hspan (by omega) hmax (by omega) (by omega)

/-- A value below the range and its dead zone is scaled to a negative quotient, cut to a byte. -/
theorem convertByte_below (h : TriggerFits info)
    (hspan : info.maximum - info.minimum ≤ 2147483647)
    (hfit : |ev.value - info.minimum| ≤ 2147483647) (hmin : ev.value < info.minimum)
    (hout : ¬ |ev.value - info.minimum| < info.flat) (hlo : -2147483648 ≤ ev.value - info.flat)
    (hprod : (info.minimum - ev.value + info.flat) * 255 ≤ 2147483648) :
    convertByte ev info =
      some (BitVec.ofInt 8 ((-((info.minimum - ev.value + info.flat) * 255)).tdiv
        (info.maximum - info.minimum - info.flat))) := by
  have hlt := h.min_lt_max
  have hflat := h.flat_nonneg
  have hneg : (ev.value - info.flat - info.minimum) * 255 =
      -((info.minimum - ev.value + info.flat) * 255) := by ring
  rw [convertByte_of_fits hspan h hfit, if_neg hout, if_neg (by omega),
    scaleByte_eq h hspan hlo (by omega) (by omega) (by omega), hneg]

/-- The monotone clamp a trigger is meant to be. -/
def triggerLevel (info : AbsInfo) (v : Int) : Int :=
  if info.maximum < v then 255
  else if v - info.minimum < info.flat then 0
  else ((v - info.flat - info.minimum) * 255).tdiv (info.maximum - info.minimum - info.flat)

theorem triggerLevel_of_le_min (h : TriggerFits info) (hv : v ≤ info.minimum) :
    triggerLevel info v = 0 := by
  have hlt := h.min_lt_max
  have hflat := h.flat_nonneg
  rw [triggerLevel, if_neg (by omega)]
  split
  · rfl
  · -- Only the limit itself is left, on an axis without a dead zone.
    have hzero : (v - info.flat - info.minimum) * 255 = 0 := by omega
    rw [hzero, Int.zero_tdiv]

theorem triggerLevel_of_max_le (h : TriggerFits info) (hv : info.maximum ≤ v) :
    triggerLevel info v = 255 := by
  have hflt := h.flat_lt
  unfold triggerLevel
  split
  · rfl
  · have hfull : (v - info.flat - info.minimum) * 255 =
        (info.maximum - info.minimum - info.flat) * 255 := by omega
    rw [if_neg (by omega), hfull]
    exact Int.mul_tdiv_cancel_left 255 (by omega)

/-- The clamp rises with the value and stays in a byte. -/
theorem triggerLevel_mono (h : TriggerFits info) (hle : v ≤ w) :
    triggerLevel info v ≤ triggerLevel info w := by
  have hflt := h.flat_lt
  by_cases hw : info.maximum ≤ w
  · rw [triggerLevel_of_max_le h hw]
    unfold triggerLevel
    split
    · exact le_rfl
    split
    · decide
    · exact tdiv_le_of_le_mul (by omega) (by omega) (by omega)
  · rw [triggerLevel, if_neg (by omega)]
    split
    · rw [triggerLevel, if_neg (by omega)]
      split
      · exact le_rfl
      · exact le_tdiv_of_mul_le (by omega) (by omega) (by omega)
    · rw [triggerLevel, if_neg (by omega), if_neg (by omega)]
      exact Int.tdiv_le_tdiv (by omega) (by omega)

/-- A served value is reported at its level. -/
theorem Served.level (hserved : Served info ev.value) (h : TriggerFits info)
    (hspan : info.maximum - info.minimum ≤ 2147483647)
    (hfit : |ev.value - info.minimum| ≤ 2147483647) :
    ∃ b, convertByte ev info = some b ∧ (b.toNat : Int) = triggerLevel info ev.value := by
  have hlt := h.min_lt_max
  have hflt := h.flat_lt
  have hflat := h.flat_nonneg
  by_cases hdead : |ev.value - info.minimum| < info.flat
  · obtain ⟨hneg, hpos⟩ := abs_lt.mp hdead
    refine ⟨0, ?_, ?_⟩
    · rw [convertByte_of_fits hspan h hfit, if_pos hdead]
    · rw [triggerLevel, if_neg (by omega), if_pos hpos]
      rfl
  rcases hserved with habove | hin | ⟨hmin, hmax, hprod⟩ | ⟨hmin, hlo, hprod, hzero⟩
  · refine ⟨255, ?_, ?_⟩
    · rw [convertByte_of_fits hspan h hfit, if_neg hdead, if_pos habove]
    · rw [triggerLevel, if_pos habove]
      rfl
  · exact absurd hin hdead
  · have hdist : |ev.value - info.minimum| = ev.value - info.minimum := abs_of_nonneg (by omega)
    obtain ⟨b, hb, hlevel⟩ := convertByte_inside h hspan hfit hmin hmax hdead hprod
    refine ⟨b, hb, ?_⟩
    rw [hlevel, triggerLevel, if_neg (by omega), if_neg (by omega)]
  · refine ⟨_, convertByte_below h hspan hfit hmin hdead hlo hprod, ?_⟩
    rw [(ofInt_neg_tdiv_eq_zero (by omega) (by omega)).mpr hzero,
      triggerLevel_of_le_min h (by omega)]
    rfl

/-- A value whose conversion is defined, and 0 at the lower end, is served. -/
theorem served_of_convertByte (h : TriggerFits info)
    (hspan : info.maximum - info.minimum ≤ 2147483647)
    (hfit : |ev.value - info.minimum| ≤ 2147483647) (hb : convertByte ev info = some b)
    (hlow : ev.value ≤ info.minimum → b = 0) : Served info ev.value := by
  have hflt := h.flat_lt
  have hflat := h.flat_nonneg
  by_cases hdead : |ev.value - info.minimum| < info.flat
  · exact Or.inr (Or.inl hdead)
  by_cases habove : info.maximum < ev.value
  · exact Or.inl habove
  have hscale : scaleByte ev info (info.maximum - info.minimum) = some b := by
    rw [← hb, convertByte_of_fits hspan h hfit, if_neg hdead, if_neg habove]
  obtain ⟨hlo, hprod, hprod'⟩ := scaleByte_fits hscale
  by_cases hmin : info.minimum ≤ ev.value
  · exact Or.inr (Or.inr (Or.inl ⟨hmin, by omega, by omega⟩))
  · have hbyte := convertByte_below h hspan hfit (by omega) hdead hlo (by omega)
    rw [hb, hlow (by omega)] at hbyte
    have hzero := (ofInt_neg_tdiv_eq_zero (by omega) (by omega)).mp (Option.some.inj hbyte).symm
    exact Or.inr (Or.inr (Or.inr ⟨by omega, hlo, by omega, hzero⟩))

theorem convertByte_span (hb : convertByte ev info = some b) :
    info.maximum - info.minimum ≤ 2147483647 := by
  simp only [convertByte, Option.bind_eq_bind, Option.bind_eq_some_iff] at hb
  obtain ⟨diff, hdiff, _⟩ := hb
  exact (intExpr_bounds hdiff).2

/-- The trigger conversion is the monotone clamp at two values exactly when the width of the
axis fits an `int` and both values are served. -/
theorem clamps_in_order_iff (h : TriggerFits info) (hle : ev.value ≤ ev'.value)
    (hfit : |ev.value - info.minimum| ≤ 2147483647)
    (hfit' : |ev'.value - info.minimum| ≤ 2147483647) :
    ClampsInOrder info ev ev' ↔
      info.maximum - info.minimum ≤ 2147483647 ∧ Served info ev.value ∧
        Served info ev'.value := by
  constructor
  · rintro ⟨b, b', hb, hb', _, hlow, _, hlow', _⟩
    have hspan := convertByte_span hb
    exact ⟨hspan, served_of_convertByte h hspan hfit hb hlow,
      served_of_convertByte h hspan hfit' hb' hlow'⟩
  · rintro ⟨hspan, hserved, hserved'⟩
    obtain ⟨b, hb, hlevel⟩ := hserved.level h hspan hfit
    obtain ⟨b', hb', hlevel'⟩ := hserved'.level h hspan hfit'
    have hmono := triggerLevel_mono h hle
    have hat {c : BitVec 8} {x : Int} (hc : (c.toNat : Int) = triggerLevel info x) :
        (x ≤ info.minimum → c = 0) ∧ (info.maximum ≤ x → c = 255) := by
      constructor
      · intro hx
        rw [triggerLevel_of_le_min h hx] at hc
        exact BitVec.eq_of_toNat_eq (by exact_mod_cast hc)
      · intro hx
        rw [triggerLevel_of_max_le h hx] at hc
        exact BitVec.eq_of_toNat_eq (by exact_mod_cast hc)
    exact ⟨b, b', hb, hb', by omega, (hat hlevel).1, (hat hlevel).2, (hat hlevel').1,
      (hat hlevel').2⟩

/-- A byte axis with a dead zone, at two values of its range. -/
theorem clamps_in_order_iff_byte : ClampsInOrder ⟨0, 255, 15⟩ ⟨.abs, 0, 100⟩ ⟨.abs, 0, 255⟩ :=
  (clamps_in_order_iff (by constructor <;> decide) (by decide) (by decide) (by decide)).mpr
    ⟨by decide, Or.inr (Or.inr (Or.inl (by decide))), Or.inr (Or.inr (Or.inl (by decide)))⟩

/-- One step below a byte axis a released trigger is reported as fully pressed. -/
theorem below_range_reported_pressed : ¬ ClampsInOrder ⟨0, 255, 0⟩ ⟨.abs, 0, -1⟩ ⟨.abs, 0, 0⟩ := by
  rintro ⟨b, _, hb, _, _, hlow, _⟩
  have hpressed : convertByte ⟨.abs, 0, -1⟩ ⟨0, 255, 0⟩ = some 255 := by decide
  rw [hb, hlow (by decide)] at hpressed
  cases hpressed

end Moonlight
