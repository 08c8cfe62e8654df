import Moonlight.Gamestream.Sps
import Moonlight.Lib.Ring

/-! The stream buffer of `src/video/imx.c`: the copy loop of `decoder_renderer_submit_decode_unit`
writes the entries of a decode unit around the end of the buffer. -/
namespace Moonlight

open Lib.Ring

/-- One turn of the loop, for an entry and the place `target` in the buffer that `target_addr`
points to. `none` is a `memcpy` to a place outside of the buffer. -/
def copyEntry (entry : List UInt8) (target : Nat) (ring : List UInt8) :
    Option (Nat × List UInt8) :=
  if target + entry.length > ring.length then do
    let room := ring.length - target
    let ring ← storeAt ring target (entry.take room)
    let ring ← storeAt ring 0 (entry.drop room)
    return (entry.length - room, ring)
  else do
    let ring ← storeAt ring target entry
    return (target + entry.length, ring)

/-- The loop over the entries of the buffer list. -/
def copyEntries : List (List UInt8) → Nat → List UInt8 → Option (Nat × List UInt8)
  | [], target, ring => some (target, ring)
  | entry :: entries, target, ring => do
    let (target, ring) ← copyEntry entry target ring
    copyEntries entries target ring

variable {entry bytes ring : List UInt8} {entries : List (List UInt8)} {target p : Nat}

/-- A copy that does not reach the end of the buffer. -/
theorem storeAt_eq_writeRing (h : p + bytes.length ≤ ring.length) :
    storeAt ring p bytes = some (writeRing p bytes ring) := by
  rw [storeAt, if_pos h, writeRing_straight h]

/-- The two copies around the end are one modular write, and the next place is that after it. -/
theorem copyEntry_eq (htarget : target ≤ ring.length) (hlen : entry.length ≤ ring.length) :
    ∃ next, copyEntry entry target ring = some (next, writeRing target entry ring) ∧
      next ≤ ring.length ∧ next % ring.length = (target + entry.length) % ring.length := by
  unfold copyEntry
  split
  next hwrap =>
    have hroom : (entry.take (ring.length - target)).length = ring.length - target := by
      rw [List.length_take]
      omega
    have hfirst : storeAt ring target (entry.take (ring.length - target)) =
        some (writeRing target (entry.take (ring.length - target)) ring) :=
      storeAt_eq_writeRing (by omega)
    have hsecond : storeAt (writeRing target (entry.take (ring.length - target)) ring) 0
          (entry.drop (ring.length - target)) =
        some (writeRing 0 (entry.drop (ring.length - target))
          (writeRing target (entry.take (ring.length - target)) ring)) := by
      apply storeAt_eq_writeRing
      rw [length_writeRing, List.length_drop]
      omega
    -- The position after the first piece is the end of the ring, which is its start.
    have hwhole : writeRing 0 (entry.drop (ring.length - target))
          (writeRing target (entry.take (ring.length - target)) ring) =
        writeRing target entry ring := by
      conv_rhs => rw [← List.take_append_drop (ring.length - target) entry, writeRing_append]
      apply writeRing_congr
      rw [length_writeRing, hroom, Nat.add_sub_cancel' htarget, Nat.mod_self, Nat.zero_mod]
    refine ⟨entry.length - (ring.length - target), ?_, by omega, ?_⟩
    · simp only [hfirst, hsecond, hwhole, Option.bind_eq_bind, Option.bind_some]
      rfl
    · have hturn : target + entry.length =
          entry.length - (ring.length - target) + ring.length := by omega
      rw [hturn, Nat.add_mod_right]
  next hfits =>
    refine ⟨target + entry.length, ?_, by omega, rfl⟩
    rw [storeAt_eq_writeRing (by omega)]
    rfl

/-- The copy loop is the modular write of all entries in a row. -/
theorem copyEntries_eq (htarget : target ≤ ring.length)
    (hlen : entries.flatten.length ≤ ring.length) :
    ∃ next, copyEntries entries target ring =
      some (next, writeRing target entries.flatten ring) := by
  induction entries generalizing target ring with
  | nil => exact ⟨target, rfl⟩
  | cons entry entries ih =>
    rw [List.flatten_cons, List.length_append] at hlen
    obtain ⟨next, hentry, hnext, hmod⟩ := copyEntry_eq htarget (show entry.length ≤ _ by omega)
    have hnext' : next ≤ (writeRing target entry ring).length := by
      rw [length_writeRing]
      exact hnext
    have hlen' : entries.flatten.length ≤ (writeRing target entry ring).length := by
      rw [length_writeRing]
      omega
    obtain ⟨last, hlast⟩ := ih hnext' hlen'
    refine ⟨last, ?_⟩
    have hcongr : writeRing next entries.flatten (writeRing target entry ring) =
        writeRing (target + entry.length) entries.flatten (writeRing target entry ring) := by
      apply writeRing_congr
      rw [length_writeRing, hmod]
    simp only [copyEntries, hentry, Option.bind_eq_bind, Option.bind_some]
    rw [hlast, hcongr, List.flatten_cons, writeRing_append]

/-- Entries that fit the free space are in the ring one after the other from the write position
on, around its end; nothing else in it changes and nothing outside of it is written. -/
theorem copy_entries_in_ring (ring : List UInt8) (p space : Nat) (entries : List (List UInt8))
    (hp : p < ring.length) (hlen : entries.flatten.length ≤ space)
    (hspace : space ≤ ring.length) :
    ∃ target ring', copyEntries entries p ring = some (target, ring') ∧
      ring'.length = ring.length ∧
      (∀ i < entries.flatten.length,
        ring'[(p + i) % ring.length]? = entries.flatten[i]?) ∧
      ∀ k, (∀ i < entries.flatten.length, (p + i) % ring.length ≠ k) → ring'[k]? = ring[k]? := by
  have hfits := Nat.le_trans hlen hspace
  obtain ⟨target, hcopy⟩ := copyEntries_eq (Nat.le_of_lt hp) hfits
  refine ⟨target, _, hcopy, length_writeRing, ?_, ?_⟩
  · intro i hi
    exact getElem?_writeRing hi hfits
  · intro k hk
    exact getElem?_writeRing_other hk

/-- Two entries in a ring of 4 bytes: the first ends at the end of the ring. -/
theorem copy_entries_in_ring_end :
    ∃ target ring', copyEntries [[1, 2], [], [3]] 2 [9, 9, 9, 9] = some (target, ring') ∧
      ring'[0]? = some 3 := by
  obtain ⟨target, ring', hcopy, _, hin, _⟩ :=
    copy_entries_in_ring [9, 9, 9, 9] 2 3 [[1, 2], [], [3]] (by decide) (by decide) (by decide)
  exact ⟨target, ring', hcopy, hin 2 (by decide)⟩

end Moonlight
