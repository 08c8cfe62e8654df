import Mathlib.Data.List.Basic
import Mathlib.Tactic.Ring

/-! Numbers as bits, the highest bit first, and bits packed into bytes. -/
namespace Lib.Bits

variable {n v : Nat} {bits : List Bool}

/-- The `n` low bits of a number. -/
def toBits : Nat → Nat → List Bool
  | 0, _ => []
  | n + 1, v => decide (v / 2 ^ n % 2 = 1) :: toBits n v

def ofBits : List Bool → Nat
  | [] => 0
  | b :: bits => b.toNat * 2 ^ bits.length + ofBits bits

@[simp] theorem length_toBits (n v : Nat) : (toBits n v).length = n := by
  induction n with
  | zero => rfl
  | succ n ih => rw [toBits, List.length_cons, ih]

theorem toNat_decide_mod_two (v : Nat) : (decide (v % 2 = 1)).toNat = v % 2 := by
  rcases Nat.mod_two_eq_zero_or_one v with h | h <;> simp [h]

theorem ofBits_toBits (n v : Nat) : ofBits (toBits n v) = v % 2 ^ n := by
  induction n with
  | zero => simp [toBits, ofBits, Nat.mod_one]
  | succ n ih =>
    rw [toBits, ofBits, length_toBits, ih, toNat_decide_mod_two, Nat.pow_succ, Nat.mod_mul]
    rw [Nat.mul_comm, Nat.add_comm]

theorem ofBits_lt (bits : List Bool) : ofBits bits < 2 ^ bits.length := by
  induction bits with
  | nil => simp [ofBits]
  | cons b bits ih =>
    rw [ofBits, List.length_cons, Nat.pow_succ]
    have hb := Nat.mul_le_mul_right (2 ^ bits.length) b.toNat_le
    omega

/-- The `n` low bits are those of the number modulo `2 ^ n`. -/
theorem toBits_congr {w : Nat} (h : v % 2 ^ n = w % 2 ^ n) : toBits n v = toBits n w := by
  induction n with
  | zero => rfl
  | succ n ih =>
    rw [Nat.pow_succ] at h
    have hlow : v % 2 ^ n = w % 2 ^ n := by
      rw [← Nat.mod_mul_right_mod v (2 ^ n) 2, h, Nat.mod_mul_right_mod]
    have hhigh : v / 2 ^ n % 2 = w / 2 ^ n % 2 := by
      rw [← Nat.mod_mul_right_div_self, h, Nat.mod_mul_right_div_self]
    rw [toBits, toBits, hhigh, ih hlow]

theorem toBits_ofBits (bits : List Bool) : toBits bits.length (ofBits bits) = bits := by
  induction bits with
  | nil => rfl
  | cons b bits ih =>
    have hlow : toBits bits.length (ofBits (b :: bits)) = toBits bits.length (ofBits bits) := by
      apply toBits_congr
      rw [ofBits, Nat.add_comm, Nat.add_mul_mod_self_right]
    have hhigh : ofBits (b :: bits) / 2 ^ bits.length = b.toNat := by
      rw [ofBits, Nat.add_comm, Nat.add_mul_div_right _ _ (Nat.two_pow_pos _),
        Nat.div_eq_of_lt (ofBits_lt bits), Nat.zero_add]
    rw [List.length_cons, toBits, hlow, hhigh, ih]
    cases b <;> rfl

/-- The high bits of a number are those of its quotient. -/
theorem toBits_add (m n v : Nat) : toBits (m + n) v = toBits m (v / 2 ^ n) ++ toBits n v := by
  induction m with
  | zero => simp [toBits]
  | succ m ih =>
    rw [Nat.add_right_comm, toBits, toBits, ih, Nat.div_div_eq_div_mul, ← Nat.pow_add,
      Nat.add_comm n m]
    rfl

@[simp] theorem toBits_zero (n : Nat) : toBits n 0 = List.replicate n false := by
  induction n with
  | zero => rfl
  | succ n ih => simp [toBits, ih, List.replicate_succ]

/-- The bits of some bytes in a row. -/
def bytesToBits (bytes : List UInt8) : List Bool := bytes.flatMap fun x => toBits 8 x.toNat

/-- The first `n` bytes that the bits fill. -/
def bitsToBytes : Nat → List Bool → List UInt8
  | 0, _ => []
  | n + 1, bits => UInt8.ofNat (ofBits (bits.take 8)) :: bitsToBytes n (bits.drop 8)

theorem bytesToBits_bitsToBytes (h : bits.length = 8 * n) :
    bytesToBits (bitsToBytes n bits) = bits := by
  induction n generalizing bits with
  | zero =>
    have hnil : bits = [] := List.eq_nil_of_length_eq_zero h
    rw [hnil]
    rfl
  | succ n ih =>
    have htake : (bits.take 8).length = 8 := by
      rw [List.length_take]
      omega
    have hbyte : toBits 8 (UInt8.ofNat (ofBits (bits.take 8))).toNat = bits.take 8 := by
      have hlt := ofBits_lt (bits.take 8)
      have hback := toBits_ofBits (bits.take 8)
      rw [htake] at hlt hback
      have hnat : (UInt8.ofNat (ofBits (bits.take 8))).toNat = ofBits (bits.take 8) :=
        UInt8.toNat_ofNat_of_lt' hlt
      rw [hnat, hback]
    have hrest : bytesToBits (bitsToBytes n (bits.drop 8)) = bits.drop 8 := by
      apply ih
      rw [List.length_drop]
      omega
    rw [bytesToBits] at hrest ⊢
    rw [bitsToBytes, List.flatMap_cons, hbyte, hrest, List.take_append_drop]

end Lib.Bits
