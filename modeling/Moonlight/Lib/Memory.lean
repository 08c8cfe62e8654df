import Mathlib.Data.List.Basic
import Moonlight.Lib.Stdio

/-! Blocks of C memory: what was written into them, and which of them were freed. An address is
the number of its block. -/
namespace Lib.Memory

open Lib.Stdio

/-- The contents of a block; `none` is a byte that was never written. -/
abbrev Bytes := List (Option Char)

/-- The blocks allocated so far; `none` is a block that was freed. -/
abbrev Heap := List (Option Bytes)

variable {heap : Heap} {p q i n : Nat} {b b' data : Bytes} {s : List Char}

def alloc (heap : Heap) (b : Bytes) : Heap := heap ++ [some b]

def free (heap : Heap) (p : Nat) : Heap := heap.set p none

/-- The bytes that can be read at an address. -/
def blockBytes (heap : Heap) (p : Nat) : Bytes := (heap[p]?.join).getD []

/-- A text with its NUL. -/
def terminated (s : List Char) : Bytes := s.map some ++ [some '\x00']

/-- The string that starts a block; `none` when a byte that was never written, or the end of the
block, comes before a NUL. -/
def readString : Bytes → Option (List Char)
  | [] => none
  | none :: _ => none
  | some c :: rest => if c = '\x00' then some [] else (readString rest).map (c :: ·)

/-- A text that can be a C string. -/
abbrev CString := { s : List Char // '\x00' ∉ s }

/-- A live block with these contents. -/
def Holds (heap : Heap) (p : Nat) (b : Bytes) : Prop := heap[p]? = some (some b)

theorem Holds.lt (h : Holds heap p b) : p < heap.length := by
  obtain ⟨hlt, _⟩ := List.getElem?_eq_some_iff.mp h
  exact hlt

theorem Holds.blockBytes (h : Holds heap p b) : blockBytes heap p = b := by
  unfold Holds at h
  simp [Memory.blockBytes, h]

theorem holds_alloc_self : Holds (alloc heap b) heap.length b := by
  simp [Holds, alloc]

theorem Holds.alloc (h : Holds heap p b) : Holds (alloc heap b') p b := by
  have hlt := h.lt
  unfold Holds at h ⊢
  rw [Memory.alloc, List.getElem?_append_left hlt]
  exact h

theorem Holds.free (h : Holds heap p b) (hne : q ≠ p) : Holds (free heap q) p b := by
  unfold Holds at h ⊢
  rw [Memory.free, List.getElem?_set_ne hne]
  exact h

@[simp] theorem length_free : (free heap p).length = heap.length := by
  simp [free]

@[simp] theorem length_alloc : (alloc heap b).length = heap.length + 1 := by
  simp [alloc]

theorem readString_terminated : readString (terminated s) = some (cstring s) := by
  induction s with
  | nil => rfl
  | cons c s ih =>
    by_cases hc : c = '\x00'
    · simp [terminated, readString, cstring, hc]
    · have htail : readString (terminated (c :: s)) = (readString (terminated s)).map (c :: ·) := by
        simp [terminated, readString, hc]
      rw [htail, ih]
      simp [cstring, hc]

/-- A string is read up to its NUL, whatever comes behind it. -/
theorem readString_behind (s : List Char) (hnul : '\x00' ∉ s) (rest : Bytes) :
    readString (terminated s ++ rest) = some s := by
  induction s with
  | nil => rfl
  | cons c s ih =>
    rw [List.mem_cons, not_or] at hnul
    have htail : readString (terminated (c :: s) ++ rest) =
        (readString (terminated s ++ rest)).map (c :: ·) := by
      simp [terminated, readString, Ne.symm hnul.1]
    rw [htail, ih hnul.2]
    rfl

/-- Appending a text and its NUL to a block whose NUL is cut off. -/
theorem take_terminated (s t : List Char) :
    (terminated s).take s.length ++ terminated t = terminated (s ++ t) := by
  have htake : (terminated s).take s.length = s.map some :=
    List.take_left' (by simp)
  rw [htake]
  simp [terminated]

/-- A block after bytes are written to it from place `i` on; `none` is a write past its end. -/
def writeBytes (b : Bytes) (i : Nat) (data : Bytes) : Option Bytes :=
  if i + data.length ≤ b.length then some (b.take i ++ data ++ b.drop (i + data.length)) else none

/-- A block that `realloc` made `n` bytes long. -/
def resize (b : Bytes) (n : Nat) : Bytes := b.take n ++ List.replicate (n - b.length) none

theorem writeBytes_eq_none : writeBytes b i data = none ↔ b.length < i + data.length := by
  unfold writeBytes
  split
  · next h => simpa using h
  · next h => simpa using h

theorem length_writeBytes (h : writeBytes b i data = some b') : b'.length = b.length := by
  unfold writeBytes at h
  split at h
  · next hfits =>
    rw [← Option.some.inj h]
    simp
    omega
  · cases h

/-- A write behind a known front. -/
theorem writeBytes_behind (front rest data : Bytes) (hi : front.length = i)
    (h : data.length ≤ rest.length) :
    writeBytes (front ++ rest) i data = some (front ++ data ++ rest.drop data.length) := by
  subst hi
  unfold writeBytes
  rw [if_pos (by simpa using h), List.take_left, List.drop_append,
    List.drop_eq_nil_of_le (by omega), List.nil_append, Nat.add_sub_cancel_left]

theorem writeBytes_start (b data : Bytes) (h : data.length ≤ b.length) :
    writeBytes b 0 data = some (data ++ b.drop data.length) := by
  have hwrite := writeBytes_behind [] b data rfl h
  simpa using hwrite

/-- A longer block keeps what its front holds. -/
theorem resize_append (front rest : Bytes) (h : front.length ≤ n) :
    ∃ behind, resize (front ++ rest) n = front ++ behind ∧ behind.length = n - front.length := by
  refine ⟨rest.take (n - front.length) ++ List.replicate (n - (front ++ rest).length) none, ?_, ?_⟩
  · rw [resize, List.take_append, List.take_of_length_le h, List.append_assoc]
  · simp
    omega

end Lib.Memory
