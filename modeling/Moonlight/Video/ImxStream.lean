import Moonlight.Video.ImxRing
import Moonlight.Lib.Trace

/-! The stream buffer of `src/video/imx.c` over a whole stream: decode units are written at one end
and the decoder reads at the other. The VPU library keeps the pointers. -/
namespace Moonlight

open Lib.Ring Lib.Trace

/-- What the stream buffer is filled and read by: the VPU library, with what it keeps behind its
handle. -/
structure Vpu (V : Type) where
  /-- `vpu_DecGetBitstreamBuffer`: the write pointer as a place in the buffer, and the space. The
  read pointer is not looked at. `none` is a failure. -/
  getBitstreamBuffer : V → Option (Nat × Nat)
  /-- `vpu_DecUpdateBitstreamBuffer` -/
  updateBitstreamBuffer : V → Nat → V
  /-- The decoder reads some bytes of what the buffer holds. -/
  Reads : V → List UInt8 → List UInt8 → V → Prop

/-- What the library promises for a buffer of this size, by the place it reads next and by the
number of bytes it did not read yet: its space holds none of these, it takes note of what was
written to the space, and it reads in order. -/
structure Vpu.Laws {V : Type} (L : Vpu V) (size : Nat) (readPtr unread : V → Nat) : Prop where
  inside : ∀ v w space, L.getBitstreamBuffer v = some (w, space) → w < size
  behind : ∀ v w space, L.getBitstreamBuffer v = some (w, space) →
    w % size = (readPtr v + unread v) % size
  space : ∀ v w space, L.getBitstreamBuffer v = some (w, space) → space + unread v ≤ size
  update : ∀ v w space n, L.getBitstreamBuffer v = some (w, space) → n ≤ space →
    readPtr (L.updateBitstreamBuffer v n) = readPtr v ∧
      unread (L.updateBitstreamBuffer v n) = unread v + n
  reads : ∀ v ring bytes u, L.Reads v ring bytes u → ∃ count ≤ unread v,
    bytes = readRing (readPtr v) count ring ∧
      readPtr u % size = (readPtr v + count) % size ∧ unread u = unread v - count

/-- The stream buffer and what the library keeps of it. -/
structure StreamBuffer (V : Type) where
  ring : List UInt8
  vpu : V

/-- A decode unit is submitted, with or without the message that the space is not enough, or the
decoder reads some bytes. -/
inductive StreamEvent where
  | submit (entries : List (List UInt8)) (warned : Bool)
  | decode (bytes : List UInt8)

/-- `decoder_renderer_submit_decode_unit` up to `vpu_DecUpdateBitstreamBuffer`: whether it prints
that the space is not enough, and the buffer. A unit that is too long is copied all the same.
`none` is an exit or a copy to a place outside of the buffer. -/
def submitToBuffer {V : Type} (L : Vpu V) (entries : List (List UInt8)) (s : StreamBuffer V) :
    Option (Bool × StreamBuffer V) := do
  let fullLength := entries.flatten.length
  let (writePtr, space) ← L.getBitstreamBuffer s.vpu
  let (_, ring) ← copyEntries entries writePtr s.ring
  return (decide (space < fullLength), ⟨ring, L.updateBitstreamBuffer s.vpu fullLength⟩)

/-- The units and the decoder take turns. -/
inductive StreamStep {V : Type} (L : Vpu V) : StreamBuffer V → StreamEvent → StreamBuffer V → Prop
  | submit {s t : StreamBuffer V} {entries : List (List UInt8)} {warned : Bool}
      (h : submitToBuffer L entries s = some (warned, t)) : StreamStep L s (.submit entries warned) t
  | decode {s : StreamBuffer V} {bytes : List UInt8} {v : V}
      (h : L.Reads s.vpu s.ring bytes v) : StreamStep L s (.decode bytes) ⟨s.ring, v⟩

/-- The unit had the space it needs: no message was printed. -/
def HasSpace {V : Type} (_ : StreamBuffer V) (event : StreamEvent) (_ : StreamBuffer V) : Prop :=
  ∀ entries, event ≠ .submit entries true

/-- The bytes that were not read are those of a queue. -/
structure Queues {V : Type} (size : Nat) (readPtr unread : V → Nat) (s : StreamBuffer V)
    (queue : List UInt8) : Prop where
  size : s.ring.length = size
  held : Holds s.ring (readPtr s.vpu) queue
  unread : unread s.vpu = queue.length

def StreamEvent.read : StreamEvent → List UInt8
  | .submit _ _ => []
  | .decode bytes => bytes

def StreamEvent.submitted : StreamEvent → List UInt8
  | .submit entries _ => entries.flatten
  | .decode _ => []

section
variable {V : Type} {L : Vpu V} {size w space : Nat} {readPtr unread : V → Nat}
  {s t : StreamBuffer V} {queue bytes : List UInt8} {entries : List (List UInt8)}
  {event : StreamEvent} {warned : Bool} {v : V} {run : List (StreamEvent × StreamBuffer V)}

/-- All bytes that were read during a run. -/
def readBytes (run : List (StreamEvent × StreamBuffer V)) : List UInt8 :=
  run.flatMap fun x => x.1.read

/-- All bytes that were submitted during a run. -/
def submittedBytes (run : List (StreamEvent × StreamBuffer V)) : List UInt8 :=
  run.flatMap fun x => x.1.submitted

/-- A unit no longer than the buffer is written behind what was not read, modulo the size. -/
theorem submitToBuffer_eq (hL : L.Laws size readPtr unread)
    (hs : Queues size readPtr unread s queue)
    (hget : L.getBitstreamBuffer s.vpu = some (w, space)) (hlen : entries.flatten.length ≤ size) :
    submitToBuffer L entries s = some (decide (space < entries.flatten.length),
      ⟨writeRing (readPtr s.vpu + queue.length) entries.flatten s.ring,
        L.updateBitstreamBuffer s.vpu entries.flatten.length⟩) := by
  have hsize := hs.size
  have hinside := hL.inside _ _ _ hget
  have hbehind := hL.behind _ _ _ hget
  rw [hs.unread, ← hsize] at hbehind
  obtain ⟨next, hcopy⟩ : ∃ next, copyEntries entries w s.ring =
      some (next, writeRing w entries.flatten s.ring) :=
    copyEntries_eq (by omega) (by omega)
  rw [writeRing_congr hbehind] at hcopy
  rw [submitToBuffer, hget, Option.bind_eq_bind, Option.bind_some]
  dsimp only
  rw [hcopy]
  rfl

theorem queues_submit (hL : L.Laws size readPtr unread) (hs : Queues size readPtr unread s queue)
    (h : submitToBuffer L entries s = some (false, t)) :
    Queues size readPtr unread t (queue ++ entries.flatten) := by
  cases hget : L.getBitstreamBuffer s.vpu with
  | none =>
    rw [submitToBuffer, hget] at h
    cases h
  | some answer =>
    obtain ⟨w, space⟩ := answer
    have hspace := hL.space _ _ _ hget
    have hunread := hs.unread
    have hsize := hs.size
    have hfits : entries.flatten.length ≤ space := by
      by_contra hlong
      unfold submitToBuffer at h
      rw [hget, Option.bind_eq_bind, Option.bind_some] at h
      obtain ⟨_, _, h⟩ := Option.bind_eq_some_iff.mp h
      have hwarned := congrArg Prod.fst (Option.some.inj h)
      simp only [decide_eq_false_iff_not] at hwarned
      omega
    rw [submitToBuffer_eq hL hs hget (by omega)] at h
    obtain rfl := congrArg Prod.snd (Option.some.inj h)
    obtain ⟨hread, hmore⟩ := hL.update _ _ _ _ hget hfits
    refine ⟨by rw [length_writeRing, hsize], ?_, by rw [hmore, hunread, List.length_append]⟩
    rw [hread]
    exact holds_write hs.held (by omega)

theorem queues_decode (hL : L.Laws size readPtr unread) (hs : Queues size readPtr unread s queue)
    (h : L.Reads s.vpu s.ring bytes v) :
    ∃ rest, Queues size readPtr unread ⟨s.ring, v⟩ rest ∧ bytes ++ rest = queue := by
  obtain ⟨count, hcount, rfl, hread, hunread⟩ := hL.reads _ _ _ _ h
  rw [hs.unread] at hcount hunread
  rw [readRing_of_holds hs.held hcount]
  refine ⟨queue.drop count, ⟨hs.size, ?_, by rw [hunread, List.length_drop]⟩,
    List.take_append_drop count queue⟩
  have hrest := holds_drop hs.held hcount
  rw [← hs.size] at hread
  exact holds_congr hrest hread.symm

/-- A step that has the space it needs is a step of the queue. -/
theorem queues_step (hL : L.Laws size readPtr unread) (hs : Queues size readPtr unread s queue)
    (hstep : StreamStep L s event t) (hspace : HasSpace s event t) :
    ∃ rest, Queues size readPtr unread t rest ∧ event.read ++ rest = queue ++ event.submitted := by
  cases event with
  | submit entries warned =>
    obtain ⟨h⟩ := hstep
    cases warned with
    | true => exact absurd rfl (hspace entries)
    | false => exact ⟨_, queues_submit hL hs h, rfl⟩
  | decode bytes =>
    obtain _ | ⟨h⟩ := hstep
    obtain ⟨rest, hrest, hbytes⟩ := queues_decode hL hs h
    exact ⟨rest, hrest, by rw [StreamEvent.submitted, List.append_nil]; exact hbytes⟩

/-- While every unit has the space it needs, the decoder reads the bytes of the units in the order
they were submitted in, whatever is read and submitted when: nothing is lost and nothing twice.
The next unit that has its space can be submitted, too. -/
theorem stream_in_order (hL : L.Laws size readPtr unread)
    (hs : Queues size readPtr unread s queue) (hrun : Run (StreamStep L) s run)
    (hspace : EachStep HasSpace s run) :
    (∃ rest, Queues size readPtr unread (final s run) rest ∧
      readBytes run ++ rest = queue ++ submittedBytes run) ∧
    ∀ entries w space, L.getBitstreamBuffer (final s run).vpu = some (w, space) →
      entries.flatten.length ≤ space →
      ∃ t, StreamStep L (final s run) (.submit entries false) t := by
  induction run generalizing s queue with
  | nil =>
    refine ⟨⟨queue, hs, by simp [readBytes, submittedBytes]⟩, fun entries w space hget hfits => ?_⟩
    have hroom := hL.space _ _ _ hget
    have hsubmit : submitToBuffer L entries s = _ := submitToBuffer_eq hL hs hget (by omega)
    rw [decide_eq_false (by omega)] at hsubmit
    exact ⟨_, .submit hsubmit⟩
  | cons x run ih =>
    obtain ⟨event, t⟩ := x
    obtain ⟨queue', ht, hstep⟩ := queues_step hL hs hrun.1 hspace.1
    obtain ⟨⟨rest, hfinal, hbytes⟩, hnext⟩ := ih ht hrun.2 hspace.2
    refine ⟨⟨rest, hfinal, ?_⟩, hnext⟩
    calc readBytes ((event, t) :: run) ++ rest
        = event.read ++ (readBytes run ++ rest) := List.append_assoc ..
      _ = event.read ++ queue' ++ submittedBytes run := by rw [hbytes, List.append_assoc]
      _ = queue ++ submittedBytes ((event, t) :: run) := by
          rw [hstep, List.append_assoc]
          rfl

/-- A unit that is longer than what is left in the buffer is copied over the oldest bytes that were
not read, whatever space is reported: as many of them as did not fit are replaced by the end of the
unit. -/
theorem overfull_unit_overwrites (hL : L.Laws size readPtr unread)
    (hs : Queues size readPtr unread s queue)
    (hget : L.getBitstreamBuffer s.vpu = some (w, space))
    (hlong : size - queue.length ≤ entries.flatten.length)
    (hring : entries.flatten.length ≤ size) :
    ∃ t, submitToBuffer L entries s = some (decide (space < entries.flatten.length), t) ∧
      Holds t.ring (readPtr s.vpu) (entries.flatten.drop (size - queue.length) ++
        queue.drop (entries.flatten.length - (size - queue.length))) := by
  refine ⟨_, submitToBuffer_eq hL hs hget hring, ?_⟩
  have hfits := hs.held.fits
  obtain rfl := hs.size
  have hlength : (entries.flatten.drop (s.ring.length - queue.length) ++ queue.drop
      (entries.flatten.length - (s.ring.length - queue.length))).length = queue.length := by
    rw [List.length_append, List.length_drop, List.length_drop]
    omega
  refine ⟨by rw [hlength, length_writeRing]; exact hfits, fun i hi => ?_⟩
  rw [hlength] at hi
  rw [length_writeRing]
  by_cases hlost : i < entries.flatten.length - (s.ring.length - queue.length)
  · have hturn : readPtr s.vpu + i + s.ring.length =
        readPtr s.vpu + queue.length + (s.ring.length - queue.length + i) := by omega
    have hplace : (readPtr s.vpu + i) % s.ring.length =
        (readPtr s.vpu + queue.length + (s.ring.length - queue.length + i)) % s.ring.length := by
      rw [← hturn, Nat.add_mod_right]
    rw [List.getElem?_append_left (by rw [List.length_drop]; exact hlost), List.getElem?_drop,
      hplace]
    exact getElem?_writeRing (by omega) hring
  · rw [List.getElem?_append_right (by rw [List.length_drop]; omega), List.length_drop,
      List.getElem?_drop, Nat.add_sub_cancel' (by omega), ← hs.held.at_pos i hi]
    apply getElem?_writeRing_other
    intro j hj
    have hdist : readPtr s.vpu + queue.length + j =
        readPtr s.vpu + i + (queue.length - i + j) := by omega
    rw [hdist]
    exact add_mod_ne (by omega) (by omega)

end

/-- A library that keeps one byte of the buffer free, to tell a full one from an empty one. It
keeps the place it reads next and the number of bytes it did not read. -/
def oneByteFree (size : Nat) : Vpu (Nat × Nat) where
  getBitstreamBuffer v :=
    if v.2 < size then some ((v.1 + v.2) % size, size - 1 - v.2) else none
  updateBitstreamBuffer v n := (v.1, v.2 + n)
  Reads v ring bytes u := ∃ count ≤ v.2,
    bytes = readRing v.1 count ring ∧ u = ((v.1 + count) % size, v.2 - count)

theorem oneByteFree_laws (size : Nat) : (oneByteFree size).Laws size Prod.fst Prod.snd := by
  have hget {v : Nat × Nat} {w space : Nat}
      (h : (oneByteFree size).getBitstreamBuffer v = some (w, space)) :
      v.2 < size ∧ w = (v.1 + v.2) % size ∧ space = size - 1 - v.2 := by
    unfold oneByteFree at h
    dsimp only at h
    split at h
    · next hlt =>
      cases h
      exact ⟨hlt, rfl, rfl⟩
    · cases h
  constructor
  · intro v w space h
    obtain ⟨hlt, rfl, _⟩ := hget h
    exact Nat.mod_lt _ (by omega)
  · intro v w space h
    obtain ⟨_, rfl, _⟩ := hget h
    exact Nat.mod_mod _ _
  · intro v w space h
    obtain ⟨hlt, _, rfl⟩ := hget h
    omega
  · intro v w space n _ _
    exact ⟨rfl, rfl⟩
  · rintro v ring bytes u ⟨count, hcount, rfl, rfl⟩
    exact ⟨count, hcount, rfl, Nat.mod_mod _ _, rfl⟩

/-- A stream through a ring of 4 bytes, with a unit around its end. -/
def aroundRun : List (StreamEvent × StreamBuffer (Nat × Nat)) :=
  [(.submit [[1, 2], [3]] false, ⟨[1, 2, 3, 9], 0, 3⟩), (.decode [1, 2], ⟨[1, 2, 3, 9], 2, 1⟩),
    (.submit [[4], [5]] false, ⟨[5, 2, 3, 4], 2, 3⟩), (.decode [3, 4], ⟨[5, 2, 3, 4], 0, 1⟩)]

theorem stream_in_order_around : ∃ rest, readBytes aroundRun ++ rest = [1, 2, 3, 4, 5] := by
  have hs : Queues 4 Prod.fst Prod.snd (⟨[9, 9, 9, 9], 0, 0⟩ : StreamBuffer (Nat × Nat)) [] :=
    ⟨rfl, holds_nil, rfl⟩
  have hrun : Run (StreamStep (oneByteFree 4)) ⟨[9, 9, 9, 9], 0, 0⟩ aroundRun :=
    ⟨.submit rfl, .decode ⟨2, by decide, rfl, rfl⟩, .submit rfl, .decode ⟨2, by decide, rfl, rfl⟩,
      trivial⟩
  obtain ⟨⟨rest, -, hbytes⟩, -⟩ :=
    stream_in_order (oneByteFree_laws 4) hs hrun (by simp [aroundRun, HasSpace])
  exact ⟨rest, hbytes⟩

/-- Three bytes where one is left: two of those that were not read are lost. -/
theorem overfull_unit_overwrites_two :
    ∃ t, submitToBuffer (oneByteFree 4) [[4], [5, 6]] ⟨[1, 2, 3, 9], 0, 3⟩ = some (true, t) ∧
      Holds t.ring 0 [5, 6, 3] := by
  have hs : Queues 4 Prod.fst Prod.snd (⟨[1, 2, 3, 9], 0, 3⟩ : StreamBuffer (Nat × Nat))
      [1, 2, 3] := ⟨rfl, ⟨by decide, by decide⟩, rfl⟩
  have hget : (oneByteFree 4).getBitstreamBuffer (0, 3) = some (3, 0) := rfl
  exact overfull_unit_overwrites (oneByteFree_laws 4) hs hget (by decide) (by decide)

end Moonlight
