import Mathlib.Data.List.Basic

/-! Writing into a ring buffer, one element after the other at positions modulo its size. -/
namespace Lib.Ring

variable {α : Type*} {ring data more : List α} {p q i k : Nat}

def writeRing : Nat → List α → List α → List α
  | _, [], ring => ring
  | p, x :: data, ring => writeRing (p + 1) data (ring.set (p % ring.length) x)

@[simp] theorem length_writeRing : (writeRing p data ring).length = ring.length := by
  induction data generalizing p ring with
  | nil => rfl
  | cons x data ih => rw [writeRing, ih, List.length_set]

theorem writeRing_append :
    writeRing p (data ++ more) ring = writeRing (p + data.length) more (writeRing p data ring) := by
  induction data generalizing p ring with
  | nil => rfl
  | cons x data ih =>
    rw [List.cons_append, writeRing, writeRing, ih, List.length_cons]
    congr 1
    omega

/-- Only the position modulo the size counts. -/
theorem writeRing_congr (h : p % ring.length = q % ring.length) :
    writeRing p data ring = writeRing q data ring := by
  induction data generalizing p q ring with
  | nil => rfl
  | cons x data ih =>
    rw [writeRing, writeRing, h]
    apply ih
    rw [List.length_set, Nat.add_mod, h, ← Nat.add_mod]

/-- A position that no element is written to keeps what it held. -/
theorem getElem?_writeRing_other (h : ∀ i < data.length, (p + i) % ring.length ≠ k) :
    (writeRing p data ring)[k]? = ring[k]? := by
  induction data generalizing p ring with
  | nil => rfl
  | cons x data ih =>
    rw [writeRing, ih, List.getElem?_set_ne]
    · exact h 0 (by simp)
    · intro i hi
      rw [List.length_set, Nat.add_right_comm, Nat.add_assoc]
      exact h (i + 1) (by simpa using hi)

/-- Less than one turn later the position is another one. -/
theorem add_mod_ne {size d : Nat} (h0 : 0 < d) (hd : d < size) : (p + d) % size ≠ p % size := by
  intro h
  have hdvd : size ∣ p + d - p := Nat.dvd_of_mod_eq_zero (Nat.sub_mod_eq_zero_of_mod_eq h)
  rw [Nat.add_sub_cancel_left] at hdvd
  exact absurd (Nat.le_of_dvd h0 hdvd) (by omega)

/-- Data that is no longer than the ring is not overwritten by its own end. -/
theorem getElem?_writeRing (hi : i < data.length) (hlen : data.length ≤ ring.length) :
    (writeRing p data ring)[(p + i) % ring.length]? = data[i]? := by
  induction data generalizing p ring i with
  | nil => simp at hi
  | cons x data ih =>
    rw [List.length_cons] at hi hlen
    rw [writeRing]
    cases i with
    | zero =>
      have hlt : p % ring.length < ring.length := Nat.mod_lt _ (by omega)
      rw [getElem?_writeRing_other, Nat.add_zero, List.getElem?_set_self hlt]
      · rfl
      · intro j hj
        rw [List.length_set, Nat.add_assoc]
        exact add_mod_ne (by omega) (by omega)
    | succ i =>
      have hset := @ih (ring.set (p % ring.length) x) (p + 1) i (by omega)
        (by rw [List.length_set]; omega)
      rw [List.length_set, Nat.add_right_comm, Nat.add_assoc] at hset
      rw [hset]
      rfl

/-- Before the end of the ring the data is written in one piece. -/
theorem writeRing_straight (h : p + data.length ≤ ring.length) :
    writeRing p data ring = ring.take p ++ data ++ ring.drop (p + data.length) := by
  induction data generalizing p ring with
  | nil => simp [writeRing]
  | cons x data ih =>
    rw [List.length_cons] at h
    have hmod : p % ring.length = p := Nat.mod_eq_of_lt (by omega)
    have hset : ring.set p x = ring.take p ++ x :: ring.drop (p + 1) := by
      rw [List.set_eq_take_append_cons_drop, if_pos (by omega)]
    have htake : (ring.set p x).take (p + 1) = ring.take p ++ [x] := by
      rw [hset, List.take_append, List.take_of_length_le (by rw [List.length_take]; omega)]
      simp [Nat.min_eq_left (show p ≤ ring.length by omega)]
    have hdrop : (ring.set p x).drop (p + 1 + data.length) = ring.drop (p + 1 + data.length) := by
      rw [List.drop_set_of_lt (by omega)]
    rw [writeRing, hmod, ih (by rw [List.length_set]; omega), htake, hdrop]
    simp [Nat.add_comm, Nat.add_left_comm]

/-- The next elements from a position on. -/
def readRing : Nat → Nat → List α → List α
  | _, 0, _ => []
  | p, n + 1, ring => ring[p % ring.length]?.toList ++ readRing (p + 1) n ring

/-- The ring holds some data from a position on. -/
structure Holds (ring : List α) (p : Nat) (data : List α) : Prop where
  fits : data.length ≤ ring.length
  at_pos : ∀ i < data.length, ring[(p + i) % ring.length]? = data[i]?

theorem holds_nil : Holds ring p [] := ⟨Nat.zero_le _, by simp⟩

theorem holds_congr (h : Holds ring p data) (hpq : p % ring.length = q % ring.length) :
    Holds ring q data where
  fits := h.fits
  at_pos i hi := by rw [← h.at_pos i hi, Nat.add_mod, ← hpq, ← Nat.add_mod]

theorem holds_drop (h : Holds ring p data) (hk : k ≤ data.length) :
    Holds ring (p + k) (data.drop k) where
  fits := by
    have hfits := h.fits
    rw [List.length_drop]
    omega
  at_pos i hi := by
    rw [List.length_drop] at hi
    rw [List.getElem?_drop, Nat.add_assoc, h.at_pos (k + i) (by omega)]

/-- Writing behind the data adds to it while there is room. -/
theorem holds_write (h : Holds ring p data) (hroom : data.length + more.length ≤ ring.length) :
    Holds (writeRing (p + data.length) more ring) p (data ++ more) where
  fits := by
    rw [List.length_append, length_writeRing]
    exact hroom
  at_pos i hi := by
    rw [List.length_append] at hi
    rw [length_writeRing]
    by_cases hold : i < data.length
    · rw [List.getElem?_append_left hold, ← h.at_pos i hold]
      apply getElem?_writeRing_other
      intro j hj
      have hdist : p + data.length + j = p + i + (data.length - i + j) := by omega
      rw [hdist]
      exact add_mod_ne (by omega) (by omega)
    · have hnew : p + i = p + data.length + (i - data.length) := by omega
      rw [List.getElem?_append_right (by omega), hnew]
      exact getElem?_writeRing (by omega) (by omega)

/-- What is read is the data in its order. -/
theorem readRing_of_holds {n : Nat} (h : Holds ring p data) (hn : n ≤ data.length) :
    readRing p n ring = data.take n := by
  induction n generalizing p data with
  | zero => simp [readRing]
  | succ n ih =>
    cases data with
    | nil => exact absurd hn (by simp)
    | cons x data =>
      have hfirst : ring[p % ring.length]? = some x := h.at_pos 0 (by simp)
      have hrest : Holds ring (p + 1) data := holds_drop (k := 1) h (by simp)
      rw [readRing, hfirst, ih hrest (by simpa using hn), List.take_succ_cons]
      rfl

end Lib.Ring
