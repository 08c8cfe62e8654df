import Moonlight.Lib.Bits

/-! The bit reader and the bit writer of `third_party/h264bitstream/bs.h`, and what it means that
the reader takes back what the writer wrote. -/
namespace Moonlight

open Lib.Bits

/-- The position of a `bs_t` that reads: the bits up to the end of the buffer, and how many were
read after it. -/
structure Bs where
  rest : List Bool
  past : Nat
  deriving DecidableEq

/-- A reading function; `none` is behaviour that C leaves undefined. -/
abbrev BsReader := StateT Bs Option

def bsReadU1 : BsReader Bool := fun b =>
  match b.rest with
  | [] => some (false, { b with past := b.past + 1 })
  | x :: rest => some (x, { b with rest })

def bsEof : BsReader Bool := fun b => some (b.rest.isEmpty, b)

/-- The buffer is made of whole bytes, and nothing is left of it when bits are read after it. -/
def bsByteAligned : BsReader Bool := fun b => some (decide ((b.rest.length + b.past) % 8 = 0), b)

/-- `bs_read_u`, `bs_read_u8` and `bs_skip_u`. -/
def bsReadU : Nat → BsReader Nat
  | 0 => return 0
  | n + 1 => do
    let x ← bsReadU1
    let r ← bsReadU n
    return x.toNat * 2 ^ n + r

/-- The loop of `bs_read_ue`, with the turns it has left. -/
def bsCountZeros : Nat → BsReader Nat
  | 0 => do
    let _ ← bsReadU1
    return 0
  | left + 1 => do
    let x ← bsReadU1
    let eof ← bsEof
    if x = false ∧ eof = false then
      let i ← bsCountZeros left
      return i + 1
    else return 0

/-- `(1 << i) - 1` overflows an `int` for `i = 31`, and a shift by 32 is undefined. -/
def bsReadUe : BsReader Nat := do
  let i ← bsCountZeros 32
  let r ← bsReadU i
  if i < 31 then return r + (2 ^ i - 1) else failure

/-- The signed number that a number stands for. -/
def seValue (r : Nat) : Int := if r % 2 = 1 then (r + 1) / 2 else -(r / 2)

def bsReadSe : BsReader Int := do
  let r ← bsReadUe
  return seValue r

/-- What writing functions append, and whether C defines it. -/
structure Written where
  bits : List Bool
  defined : Bool
  deriving DecidableEq

/-- Writing functions called one after the other. -/
def writes : List Written → Written
  | [] => ⟨[], true⟩
  | w :: ws => ⟨w.bits ++ (writes ws).bits, w.defined && (writes ws).defined⟩

def bsWriteU1 (v : Bool) : Written := ⟨[v], true⟩

/-- `bs_write_u` and `bs_write_u8`, for at most 32 bits. -/
def bsWriteU (n v : Nat) : Written := ⟨toBits n v, true⟩

/-- `len_table`: the number of bits of a byte. -/
def lenTable (v : Nat) : Nat := if v = 0 then 1 else Nat.log2 v + 1

/-- The number of bits that `bs_write_ue` finds in the four ranges of `v`. -/
def ueLen (v : Nat) : Nat :=
  if v ≥ 0x01000000 then 24 + lenTable (v / 2 ^ 24)
  else if v ≥ 0x00010000 then 16 + lenTable (v / 2 ^ 16)
  else if v ≥ 0x00000100 then 8 + lenTable (v / 2 ^ 8)
  else lenTable v

/-- `bs_write_ue`, for the values an `int` holds. From 17 bits on `bs_write_u` is asked for more
than 32 of them and shifts a 32-bit number by 32 or more. -/
def bsWriteUe (v : Nat) : Written :=
  if v = 0 then bsWriteU1 true
  else
    let len := ueLen (v + 1)
    ⟨toBits (2 * len - 1) (v + 1), decide (2 * len - 1 ≤ 32)⟩

/-- The number that stands for a signed one. -/
def seCode (v : Int) : Nat := if v ≤ 0 then (-v * 2).toNat else (v * 2 - 1).toNat

def bsWriteSe (v : Int) : Written := bsWriteUe (seCode v)

/-- The greatest number `bs_write_ue` writes is one less. -/
def ueLimit : Nat := 65535

/-- The reader takes back a value from what was written for it, and nothing else. -/
def TakesBack {α : Type} (p : BsReader α) (w : Written) (a : α) : Prop :=
  w.defined = true → ∀ rest, p.run ⟨w.bits ++ rest, 0⟩ = some (a, ⟨rest, 0⟩)

section
variable {α β : Type} {p : BsReader α} {f : α → BsReader β} {w : Written} {ws : List Written}
  {a : α} {b : β} {n v : Nat} {rest : List Bool}

theorem takesBack_pure : TakesBack (pure a) (writes []) a :=
  fun _ _ => rfl

/-- Reading goes on where the first reader stopped. -/
theorem TakesBack.run_bind (h : TakesBack p w a) (hdef : w.defined = true) :
    (p >>= f).run ⟨w.bits ++ rest, 0⟩ = (f a).run ⟨rest, 0⟩ := by
  rw [StateT.run_bind, h hdef, Option.bind_eq_bind, Option.bind_some]

theorem TakesBack.bind (h : TakesBack p w a) (h' : TakesBack (f a) (writes ws) b) :
    TakesBack (p >>= f) (writes (w :: ws)) b := by
  intro hdef rest
  obtain ⟨hw, hws⟩ := Bool.and_eq_true_iff.mp hdef
  rw [writes, List.append_assoc, h.run_bind hw]
  exact h' hws rest

theorem TakesBack.map (h : TakesBack p w a) (g : α → β) : TakesBack (g <$> p) w (g a) := by
  intro hdef rest
  rw [StateT.run_map, h hdef rest]
  rfl

theorem takesBack_u1 (v : Bool) : TakesBack bsReadU1 (bsWriteU1 v) v :=
  fun _ _ => rfl

theorem run_u (bits : List Bool) :
    (bsReadU bits.length).run ⟨bits ++ rest, 0⟩ = some (ofBits bits, ⟨rest, 0⟩) := by
  induction bits with
  | nil => rfl
  | cons x bits ih =>
    have hread : bsReadU1.run ⟨x :: bits ++ rest, 0⟩ = some (x, ⟨bits ++ rest, 0⟩) := rfl
    rw [List.length_cons, bsReadU, StateT.run_bind, hread, Option.bind_eq_bind, Option.bind_some,
      StateT.run_bind, ih]
    rfl

theorem run_toBits (n v : Nat) :
    (bsReadU n).run ⟨toBits n v ++ rest, 0⟩ = some (v % 2 ^ n, ⟨rest, 0⟩) := by
  have h : (bsReadU (toBits n v).length).run ⟨toBits n v ++ rest, 0⟩ =
      some (ofBits (toBits n v), ⟨rest, 0⟩) := run_u (toBits n v)
  rwa [length_toBits, ofBits_toBits] at h

theorem takesBack_u (h : v < 2 ^ n) : TakesBack (bsReadU n) (bsWriteU n v) v := by
  intro _ rest
  rw [bsWriteU, run_toBits, Nat.mod_eq_of_lt h]

/-- The zeros in front of a one are counted while turns are left. -/
theorem run_countZeros {i left : Nat} (h : i ≤ left) :
    (bsCountZeros left).run ⟨List.replicate i false ++ true :: rest, 0⟩ =
      some (i, ⟨rest, 0⟩) := by
  induction i generalizing left with
  | zero => cases left <;> rfl
  | succ i ih =>
    cases left with
    | zero => omega
    | succ left =>
      have hih := ih (Nat.le_of_succ_le_succ h)
      have hread : bsReadU1.run ⟨List.replicate (i + 1) false ++ true :: rest, 0⟩ =
        some (false, ⟨List.replicate i false ++ true :: rest, 0⟩) := rfl
      have heof : bsEof.run ⟨List.replicate i false ++ true :: rest, 0⟩ =
          some (false, ⟨List.replicate i false ++ true :: rest, 0⟩) := by
        cases i <;> rfl
      rw [bsCountZeros, StateT.run_bind, hread, Option.bind_eq_bind, Option.bind_some,
        StateT.run_bind, heof, Option.bind_eq_bind, Option.bind_some, if_pos ⟨rfl, rfl⟩,
        StateT.run_bind, hih]
      rfl

/-- A number with its highest bit at `i` is written as `i` zeros, a one and the bits below it. -/
theorem toBits_golomb {i n : Nat} (hlow : 2 ^ i ≤ n) (hhigh : n < 2 ^ (i + 1)) :
    toBits (2 * (i + 1) - 1) n = List.replicate i false ++ true :: toBits i n := by
  have hlen : 2 * (i + 1) - 1 = i + (i + 1) := by omega
  have htop : n / 2 ^ i = 1 := by
    apply Nat.div_eq_of_lt_le <;> rw [Nat.pow_succ] at hhigh <;> omega
  rw [hlen, toBits_add, Nat.div_eq_of_lt hhigh, toBits_zero, toBits, htop]
  rfl

theorem lenTable_bounds (h : 0 < v) : 2 ^ (lenTable v - 1) ≤ v ∧ v < 2 ^ lenTable v := by
  rw [lenTable, if_neg (Nat.ne_of_gt h), Nat.add_sub_cancel]
  exact ⟨Nat.log2_self_le (Nat.ne_of_gt h), Nat.lt_log2_self⟩

theorem lenTable_pos (v : Nat) : 0 < lenTable v := by
  unfold lenTable
  split <;> omega

/-- A number has `k` bits more than its quotient by `2 ^ k`. -/
theorem bounds_of_div {k len : Nat} (hpos : 0 < len)
    (h : 2 ^ (len - 1) ≤ v / 2 ^ k ∧ v / 2 ^ k < 2 ^ len) :
    2 ^ (k + len - 1) ≤ v ∧ v < 2 ^ (k + len) := by
  have hsub : k + len - 1 = len - 1 + k := by omega
  rw [hsub, Nat.add_comm k len, Nat.pow_add, Nat.pow_add]
  exact ⟨(Nat.le_div_iff_mul_le (Nat.two_pow_pos k)).mp h.1,
    (Nat.div_lt_iff_lt_mul (Nat.two_pow_pos k)).mp h.2⟩

theorem ueLen_bounds (h : 0 < v) : 2 ^ (ueLen v - 1) ≤ v ∧ v < 2 ^ ueLen v := by
  have hdiv {k : Nat} (hk : 2 ^ k ≤ v) :=
    bounds_of_div (lenTable_pos _) (lenTable_bounds (Nat.div_pos hk (Nat.two_pow_pos k)))
  unfold ueLen
  split_ifs with h24 h16 h8
  · exact hdiv h24
  · exact hdiv h16
  · exact hdiv h8
  · exact lenTable_bounds h

theorem ueLen_pos (v : Nat) : 0 < ueLen v := by
  have h := lenTable_pos v
  unfold ueLen
  split_ifs <;> omega

theorem defined_ue (v : Nat) : (bsWriteUe v).defined = decide (v < ueLimit) := by
  by_cases hv : v = 0
  · rw [bsWriteUe, if_pos hv, hv]
    rfl
  obtain ⟨hlow, hhigh⟩ : 2 ^ (ueLen (v + 1) - 1) ≤ v + 1 ∧ v + 1 < 2 ^ ueLen (v + 1) :=
    ueLen_bounds (Nat.succ_pos v)
  have hpos := ueLen_pos (v + 1)
  rw [bsWriteUe, if_neg hv]
  dsimp only
  apply decide_eq_decide.mpr
  constructor
  · intro hlen
    have hpow : 2 ^ ueLen (v + 1) ≤ 2 ^ 16 := Nat.pow_le_pow_right (by decide) (by omega)
    rw [ueLimit]
    omega
  · intro hlt
    rw [ueLimit] at hlt
    by_contra hlen
    have hpow : 2 ^ 16 ≤ 2 ^ (ueLen (v + 1) - 1) := Nat.pow_le_pow_right (by decide) (by omega)
    omega

theorem takesBack_ue (v : Nat) : TakesBack bsReadUe (bsWriteUe v) v := by
  intro hdef rest
  rw [defined_ue, decide_eq_true_eq, ueLimit] at hdef
  by_cases hv : v = 0
  · rw [hv]
    rfl
  obtain ⟨hlow, hhigh⟩ := ueLen_bounds (Nat.succ_pos v)
  obtain ⟨i, hi⟩ := Nat.exists_eq_succ_of_ne_zero (Nat.ne_of_gt (ueLen_pos (v + 1)))
  rw [hi, Nat.succ_sub_one] at hlow
  rw [hi] at hhigh
  have hturns : i < 31 := by
    by_contra hge
    have hpow : 2 ^ 31 ≤ 2 ^ i := Nat.pow_le_pow_right (by decide) (by omega)
    omega
  have hbits : (bsWriteUe v).bits = List.replicate i false ++ true :: toBits i (v + 1) := by
    rw [bsWriteUe, if_neg hv, hi]
    exact toBits_golomb hlow hhigh
  have hvalue : (v + 1) % 2 ^ i + (2 ^ i - 1) = v := by
    have htop : (v + 1) / 2 ^ i = 1 := by
      apply Nat.div_eq_of_lt_le <;> rw [Nat.pow_succ] at hhigh <;> omega
    have hsum := Nat.div_add_mod (v + 1) (2 ^ i)
    rw [htop] at hsum
    omega
  have hzeros : (bsCountZeros 32).run ⟨(bsWriteUe v).bits ++ rest, 0⟩ =
      some (i, ⟨toBits i (v + 1) ++ rest, 0⟩) := by
    rw [hbits, List.append_assoc]
    exact run_countZeros (by omega)
  rw [bsReadUe, StateT.run_bind, hzeros, Option.bind_eq_bind, Option.bind_some, StateT.run_bind,
    run_toBits, Option.bind_eq_bind, Option.bind_some, if_pos hturns, hvalue]
  rfl

theorem seValue_seCode (v : Int) : seValue (seCode v) = v := by
  unfold seValue seCode
  split_ifs <;> omega

theorem takesBack_se (v : Int) : TakesBack bsReadSe (bsWriteSe v) v := by
  intro hdef rest
  rw [bsReadSe, bsWriteSe, (takesBack_ue (seCode v)).run_bind hdef, seValue_seCode]
  rfl

end

/-- A fixed number of bits. -/
def readBits (n : Nat) : BsReader (BitVec n) := BitVec.ofNat n <$> bsReadU n

def writeBits {n : Nat} (v : BitVec n) : Written := bsWriteU n v.toNat

section
variable {α : Type} {p : BsReader α} {wr : α → Written} {c : Bool} {k : Nat}

/-- A part that is there exactly when a condition on what comes before it holds. -/
@[ext] structure Present (c : Bool) (α : Type) where
  part : Option α
  there : part.isSome = c
  deriving DecidableEq

def Present.here (a : α) : Present true α := ⟨some a, rfl⟩

def Present.absent : Present false α := ⟨none, rfl⟩

def readPresent (c : Bool) (p : BsReader α) : BsReader (Present c α) :=
  match c with
  | true => Present.here <$> p
  | false => return .absent

def writePresent (wr : α → Written) : Option α → Written
  | none => writes []
  | some a => wr a

/-- A part behind a flag that says whether it is there. -/
def readFlagged (p : BsReader α) : BsReader (Option α) := do
  let flag ← bsReadU1
  let present ← readPresent flag p
  return present.part

def writeFlagged (wr : α → Written) (o : Option α) : Written :=
  writes [bsWriteU1 o.isSome, writePresent wr o]

def readMany (p : BsReader α) : Nat → BsReader (List α)
  | 0 => return []
  | n + 1 => do
    let a ← p
    let as ← readMany p n
    return a :: as

def writeMany (wr : α → Written) (as : List α) : Written := writes (as.map wr)

/-- The used part of an array of `k` entries. -/
structure Bounded (k : Nat) (α : Type) where
  entries : List α
  inside : entries.length ≤ k
  deriving DecidableEq

/-- A loop that fills an array; more entries than it has are stored behind it. -/
def readBounded (k : Nat) (p : BsReader α) (n : Nat) : BsReader (Bounded k α) := do
  let entries ← readMany p n
  if inside : entries.length ≤ k then return { entries, inside } else failure

theorem takesBack_bits {n : Nat} (v : BitVec n) : TakesBack (readBits n) (writeBits v) v := by
  have h := (takesBack_u v.isLt).map (BitVec.ofNat n)
  rwa [BitVec.ofNat_toNat, BitVec.setWidth_eq] at h

theorem takesBack_present (h : ∀ a, TakesBack p (wr a) a) (x : Present c α) :
    TakesBack (readPresent c p) (writePresent wr x.part) x := by
  obtain ⟨o, ho⟩ := x
  cases o with
  | none =>
    subst ho
    exact takesBack_pure
  | some a =>
    subst ho
    exact (h a).map Present.here

theorem takesBack_flagged (h : ∀ a, TakesBack p (wr a) a) (o : Option α) :
    TakesBack (readFlagged p) (writeFlagged wr o) o := by
  apply TakesBack.bind (takesBack_u1 _)
  apply TakesBack.bind (takesBack_present h ⟨o, rfl⟩)
  exact takesBack_pure

theorem takesBack_many (h : ∀ a, TakesBack p (wr a) a) (as : List α) :
    TakesBack (readMany p as.length) (writeMany wr as) as := by
  induction as with
  | nil => exact takesBack_pure
  | cons a as ih =>
    apply TakesBack.bind (h a)
    intro hdef rest
    rw [StateT.run_bind, ← writeMany, ih hdef rest]
    rfl

theorem takesBack_bounded (h : ∀ a, TakesBack p (wr a) a) (x : Bounded k α) :
    TakesBack (readBounded k p x.entries.length) (writeMany wr x.entries) x := by
  intro hdef rest
  rw [readBounded, (takesBack_many h x.entries).run_bind hdef, dif_pos x.inside]
  rfl

end

end Moonlight
