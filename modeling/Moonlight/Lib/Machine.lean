import Mathlib.Tactic.Linarith
import Mathlib.Tactic.Ring

/-! Two's complement integers of a fixed width, as integers with an explicit wrap. -/
namespace Lib.Machine

variable {w : Nat} {x n d : Int}

/-- The value a `w`-bit signed variable holds after `x` is stored in it. -/
def wrap (w : Nat) (x : Int) : Int := x.bmod (2 ^ w)

/-- Storing a value that fits changes nothing. -/
theorem wrap_eq_self (hlo : -(2 ^ w : Int) ≤ x) (hhi : x < (2 ^ w : Int)) :
    wrap (w + 1) x = x := by
  have hpow : ((2 ^ (w + 1) : Nat) : Int) = 2 * 2 ^ w := by push_cast; ring
  apply Int.bmod_eq_of_le_mul_two <;> omega

theorem wrap_int (hlo : -2147483648 ≤ x) (hhi : x ≤ 2147483647) : wrap 32 x = x :=
  wrap_eq_self (by norm_num; omega) (by norm_num; omega)

theorem wrap_short (hlo : -32768 ≤ x) (hhi : x ≤ 32767) : wrap 16 x = x :=
  wrap_eq_self (by norm_num; omega) (by norm_num; omega)

/-- Wrapping never leads further away from 0. -/
theorem abs_wrap_le (w : Nat) (x : Int) : |wrap w x| ≤ |x| := by
  have hpos : 0 < 2 ^ w := Nat.two_pow_pos w
  unfold wrap
  generalize 2 ^ w = m at hpos ⊢
  by_cases hsmall : -(m : Int) ≤ x * 2 ∧ x * 2 < m
  · rw [Int.bmod_eq_of_le_mul_two hsmall.1 hsmall.2]
  · have hlo := Int.le_bmod (x := x) hpos
    have hhi := Int.bmod_le (x := x) hpos
    rcases abs_cases x with ⟨hx, _⟩ | ⟨hx, _⟩ <;>
      rcases abs_cases (x.bmod m) with ⟨hm, _⟩ | ⟨hm, _⟩ <;> omega

/-- Wrapping leads into the range of the width. -/
theorem wrap_int_bounds (x : Int) : -2147483648 ≤ wrap 32 x ∧ wrap 32 x ≤ 2147483647 := by
  have hlo := Int.le_bmod (x := x) (show 0 < 2 ^ 32 by decide)
  have hhi := Int.bmod_le (x := x) (show 0 < 2 ^ 32 by decide)
  unfold wrap
  omega

/-- Wrapping takes away whole turns. -/
theorem wrap_int_turns (x : Int) : ∃ k : Int, wrap 32 x = x - 4294967296 * k := by
  have h : (4294967296 : Int) ∣ x - wrap 32 x := Int.dvd_self_sub_bmod
  obtain ⟨k, hk⟩ := h
  exact ⟨k, by omega⟩

/-- Less than one turn away from 0, only 0 wraps to 0. -/
theorem wrap_int_eq_zero (hlo : -4294967296 < x) (hhi : x < 4294967296) :
    wrap 32 x = 0 ↔ x = 0 := by
  obtain ⟨k, hk⟩ := wrap_int_turns x
  constructor
  · intro h
    omega
  · intro h
    rw [h]
    rfl

theorem wrap_sub_wrap (w : Nat) (x y : Int) : wrap w (wrap w x - y) = wrap w (x - y) :=
  Int.bmod_sub_bmod

/-- The value of an `int` expression; `none` is a signed overflow. -/
def intExpr (x : Int) : Option Int :=
  if -2147483648 ≤ x ∧ x ≤ 2147483647 then some x else none

theorem intExpr_eq (hlo : -2147483648 ≤ x) (hhi : x ≤ 2147483647) : intExpr x = some x :=
  if_pos ⟨hlo, hhi⟩

/-- A value that did not overflow is the one the wrapped expression has. -/
theorem intExpr_eq_some {y : Int} (h : intExpr x = some y) : x = y ∧ wrap 32 x = y := by
  unfold intExpr at h
  split at h
  next hfits =>
    cases h
    exact ⟨rfl, wrap_int hfits.1 hfits.2⟩
  next => cases h

theorem intExpr_bounds {y : Int} (h : intExpr x = some y) :
    -2147483648 ≤ x ∧ x ≤ 2147483647 := by
  unfold intExpr at h
  split at h
  next hfits => exact hfits
  next => cases h

/-- C division rounds toward 0. -/
theorem mul_tdiv_bounds (x : Int) (hd : 0 < d) : x - d < d * x.tdiv d ∧ d * x.tdiv d < x + d := by
  have h := Int.mul_tdiv_add_tmod x d
  have hlt := Int.tmod_lt_of_pos x hd
  have hgt := Int.lt_tmod_of_pos x hd
  omega

/-- C division of a nonnegative number by a positive one rounds down. -/
theorem le_tdiv_of_mul_le (hn : 0 ≤ n) (hd : 0 < d) (h : x * d ≤ n) : x ≤ n.tdiv d := by
  rw [Int.tdiv_eq_ediv_of_nonneg hn]
  exact (Int.le_ediv_iff_mul_le hd).mpr h

theorem tdiv_le_of_le_mul (hn : 0 ≤ n) (hd : 0 < d) (h : n ≤ x * d) : n.tdiv d ≤ x := by
  rw [Int.tdiv_eq_ediv_of_nonneg hn]
  exact Int.ediv_le_of_le_mul hd h

end Lib.Machine
