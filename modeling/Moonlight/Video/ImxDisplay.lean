import Moonlight.Lib.Trace

/-! Which buffer `decoder_renderer_submit_decode_unit` of `src/video/imx.c` hands back to the
decoder when it displays a frame: never one that has left the display queue. -/
namespace Moonlight

open Lib.Trace

def threshold : Int := 2

/-- The members of `DecOutputInfo` that the function reads. -/
structure DecOutputInfo where
  decodingSuccess : BitVec 32
  notSufficientPsBuffer : Bool
  notSufficientSliceBuffer : Bool
  indexFrameDisplay : Int

/-- What the decoder and the display answer during one call: whether each operation succeeds, and
how often in a row the decoder is busy. -/
structure ImxAnswers where
  getBitstreamBuffer : Bool
  registerFrameBuffer : Bool
  startOneFrame : Bool
  busy : Nat
  getOutputInfo : Option DecOutputInfo
  queryBuf : Bool
  queueBuf : Bool
  streamOn : Bool
  dequeueBuf : Bool

/-- The static variables, beside the buffers in the display queue, oldest first, and all buffers
that were ever in it. -/
structure ImxDisplay where
  initialized : Bool
  decoding : Bool
  displaying : Bool
  queuedCount : Int
  dispClrIndex : Int
  queue : List Int
  everQueued : List Int

def ImxDisplay.start : ImxDisplay where
  initialized := false
  decoding := false
  displaying := false
  queuedCount := 0
  dispClrIndex := 0
  queue := []
  everQueued := []

/-- The end of the display branch: the buffer whose flag is cleared, if there is one. -/
def clrDispFlag (index : Int) (s : ImxDisplay) : Option Int × ImxDisplay :=
  (if 0 ≤ s.dispClrIndex then some s.dispClrIndex else none, { s with dispClrIndex := index })

/-- The branch for a frame that is to be displayed; `none` is an exit. -/
def displayFrame (answers : ImxAnswers) (index : Int) (s : ImxDisplay) :
    Option (Option Int × ImxDisplay) :=
  if !answers.queryBuf then none
  else if !answers.queueBuf then none
  else if !s.displaying && !answers.streamOn then none
  else
    let s := { s with
      displaying := true
      queuedCount := s.queuedCount + 1
      queue := s.queue ++ [index]
      everQueued := s.everQueued ++ [index] }
    if s.queuedCount > threshold then
      if !answers.dequeueBuf then none
      else
        let s := { s with queuedCount := s.queuedCount - 1, queue := s.queue.tail }
        some (clrDispFlag index s)
    else some (clrDispFlag index s)

/-- `decoder_renderer_submit_decode_unit` without the copying of the data; `none` is an exit. -/
def submitDecodeUnit (answers : ImxAnswers) (s : ImxDisplay) : Option (Option Int × ImxDisplay) :=
  if !answers.getBitstreamBuffer then none
  else if !s.initialized && !answers.registerFrameBuffer then none
  else if !s.decoding && !answers.startOneFrame then none
  else if answers.busy > 51 then none
  else
    let s := { s with initialized := true, decoding := false }
    match answers.getOutputInfo with
    | none => none
    | some outinfo =>
      if outinfo.decodingSuccess &&& 0x10 ≠ 0 then some (none, s)
      else if outinfo.notSufficientPsBuffer then none
      else if outinfo.notSufficientSliceBuffer then none
      else if outinfo.indexFrameDisplay ≥ 0 then
        displayFrame answers outinfo.indexFrameDisplay s
      else if outinfo.indexFrameDisplay = -1 then none
      else some (none, s)

/-- One decode unit that does not end the program, with the buffer whose flag it clears. -/
def SubmitStep (s : ImxDisplay) (call : ImxAnswers × Option Int) (t : ImxDisplay) : Prop :=
  submitDecodeUnit call.1 s = some (call.2, t)

/-- A buffer that is handed back was queued before and is not queued any more. -/
def ClearsShown (_ : ImxDisplay) (call : ImxAnswers × Option Int) (t : ImxDisplay) : Prop :=
  ∀ i, call.2 = some i → i ∈ t.everQueued ∧ i ∉ t.queue

/-- The decoder has no frame to display. -/
def NothingShown (_ : ImxDisplay) (call : ImxAnswers × Option Int) (_ : ImxDisplay) : Prop :=
  ∀ outinfo, call.1.getOutputInfo = some outinfo →
    outinfo.decodingSuccess &&& 0x10 ≠ 0 ∨ outinfo.indexFrameDisplay < 0

/-- The buffer to be handed back next is the newest one of the queue, or no frame was displayed
and it is the buffer 0. -/
structure LagsBehind (s : ImxDisplay) : Prop where
  count : s.queuedCount = s.queue.length
  next : (s.queue.getLast? = some s.dispClrIndex ∧ 0 ≤ s.dispClrIndex) ∨
    (s.queue = [] ∧ s.everQueued = [] ∧ s.dispClrIndex = 0)

variable {s t : ImxDisplay} {answers : ImxAnswers} {index : Int} {cleared : Option Int}

/-- A displayed frame is queued, and the oldest buffer leaves the queue if it has become longer
than the threshold. -/
def QueuedNext (s : ImxDisplay) (index count : Int) (queue : List Int) : Prop :=
  s.queuedCount + 1 ≤ threshold ∧ count = s.queuedCount + 1 ∧ queue = s.queue ++ [index] ∨
    threshold < s.queuedCount + 1 ∧ count = s.queuedCount ∧ queue = (s.queue ++ [index]).tail

theorem displayFrame_cases (hshow : displayFrame answers index s = some (cleared, t)) :
    ∃ count queue, QueuedNext s index count queue ∧
      (cleared, t) = clrDispFlag index { s with
        displaying := true
        queuedCount := count
        queue := queue
        everQueued := s.everQueued ++ [index] } := by
  unfold displayFrame at hshow
  split at hshow
  · cases hshow
  split at hshow
  · cases hshow
  split at hshow
  · cases hshow
  dsimp only at hshow
  split at hshow
  next hmore =>
    split at hshow
    · cases hshow
    · refine ⟨s.queuedCount, _, Or.inr ⟨hmore, rfl, rfl⟩, ?_⟩
      simpa using (Option.some.inj hshow).symm
  next hmore =>
    exact ⟨_, _, Or.inl ⟨by omega, rfl, rfl⟩, (Option.some.inj hshow).symm⟩

section
variable {count i : Int} {queue : List Int}

theorem LagsBehind.count_next (h : LagsBehind s) (hqueue : QueuedNext s index count queue) :
    count = queue.length := by
  have hcount := h.count
  rcases hqueue with ⟨_, rfl, rfl⟩ | ⟨_, rfl, rfl⟩
  · simp [hcount]
  · simp [hcount]

/-- A buffer leaves a queue that holds two others. -/
theorem LagsBehind.leaves (h : LagsBehind s) (hmore : threshold < s.queuedCount + 1) :
    ∃ oldest rest, s.queue = oldest :: rest ∧ rest ≠ [] := by
  have hcount := h.count
  cases hq : s.queue with
  | nil => simp [hcount, hq, threshold] at hmore
  | cons oldest rest =>
    refine ⟨oldest, rest, rfl, ?_⟩
    rintro rfl
    simp [hcount, hq, threshold] at hmore

theorem LagsBehind.getLast_next (h : LagsBehind s) (hqueue : QueuedNext s index count queue) :
    queue.getLast? = some index := by
  rcases hqueue with ⟨_, _, rfl⟩ | ⟨hmore, _, rfl⟩
  · simp
  · obtain ⟨oldest, rest, hq, _⟩ := h.leaves hmore
    simp [hq]

/-- The newest buffer is still queued after the next one. -/
theorem LagsBehind.newest_next (h : LagsBehind s) (hqueue : QueuedNext s index count queue)
    (hlast : s.queue.getLast? = some i) : i ∈ queue := by
  rcases hqueue with ⟨_, _, rfl⟩ | ⟨hmore, _, rfl⟩
  · exact List.mem_append_left _ (List.mem_of_getLast? hlast)
  · obtain ⟨oldest, rest, hq, hrest⟩ := h.leaves hmore
    rw [hq, List.getLast?_cons_of_ne_nil hrest] at hlast
    rw [hq]
    exact List.mem_append_left _ (List.mem_of_getLast? hlast)

theorem LagsBehind.nil_next (h : LagsBehind s) (hqueue : QueuedNext s index count queue)
    (hnil : s.queue = []) : queue = [index] := by
  rcases hqueue with ⟨_, _, rfl⟩ | ⟨hmore, _, _⟩
  · rw [hnil, List.nil_append]
  · obtain ⟨oldest, rest, hq, _⟩ := h.leaves hmore
    rw [hnil] at hq
    cases hq

end

/-- The newest buffer of the queue, or the buffer 0, is handed back: the one is still queued
after the next one, and the other was never queued or is queued right now. -/
theorem LagsBehind.display (h : LagsBehind s) (hindex : 0 ≤ index)
    (hshow : displayFrame answers index s = some (cleared, t)) :
    LagsBehind t ∧ cleared = some s.dispClrIndex ∧
      ¬ (s.dispClrIndex ∈ t.everQueued ∧ s.dispClrIndex ∉ t.queue) := by
  obtain ⟨count, queue, hqueue, hclr⟩ := displayFrame_cases hshow
  obtain ⟨rfl, rfl⟩ := Prod.mk.inj hclr
  have hnonneg : 0 ≤ s.dispClrIndex := by
    rcases h.next with ⟨_, hn⟩ | ⟨_, _, hz⟩ <;> omega
  refine ⟨⟨h.count_next hqueue, Or.inl ⟨h.getLast_next hqueue, hindex⟩⟩, if_pos hnonneg, ?_⟩
  rintro ⟨hever, hnot⟩
  apply hnot
  rcases h.next with ⟨hlast, _⟩ | ⟨hnil, hnone, _⟩
  · exact h.newest_next hqueue hlast
  · have hone : queue = [index] := h.nil_next hqueue hnil
    simpa [hone, hnone, clrDispFlag] using hever

/-- A call either shows nothing, and then clears no flag and changes neither queue nor index, or
it displays a frame. -/
theorem submit_cases {call : ImxAnswers × Option Int} (hstep : SubmitStep s call t) :
    (NothingShown s call t ∧ call.2 = none ∧
      t = { s with initialized := true, decoding := false }) ∨
    ∃ index, 0 ≤ index ∧ ¬ NothingShown s call t ∧
      displayFrame call.1 index { s with initialized := true, decoding := false } =
        some (call.2, t) := by
  obtain ⟨answers, cleared⟩ := call
  unfold SubmitStep submitDecodeUnit at hstep
  split at hstep
  · cases hstep
  split at hstep
  · cases hstep
  split at hstep
  · cases hstep
  split at hstep
  · cases hstep
  dsimp only at hstep
  cases hinfo : answers.getOutputInfo with
  | none =>
    rw [hinfo] at hstep
    cases hstep
  | some outinfo =>
    have hnothing : NothingShown s (answers, cleared) t ↔
        outinfo.decodingSuccess &&& 0x10 ≠ 0 ∨ outinfo.indexFrameDisplay < 0 := by
      simp [NothingShown, hinfo]
    rw [hinfo] at hstep
    dsimp only at hstep
    split at hstep
    next hfailed =>
      cases hstep
      exact Or.inl ⟨hnothing.mpr (Or.inl hfailed), rfl, rfl⟩
    next hdecoded =>
      split at hstep
      · cases hstep
      split at hstep
      · cases hstep
      split at hstep
      next hindex =>
        refine Or.inr ⟨_, hindex, fun h => ?_, hstep⟩
        rcases hnothing.mp h with hfailed | hneg
        · exact hdecoded hfailed
        · omega
      next hindex =>
        split at hstep
        · cases hstep
        · cases hstep
          exact Or.inl ⟨hnothing.mpr (Or.inr (by omega)), rfl, rfl⟩

theorem LagsBehind.submit {call : ImxAnswers × Option Int} (hstep : SubmitStep s call t)
    (h : LagsBehind s) : LagsBehind t := by
  rcases submit_cases hstep with ⟨_, _, rfl⟩ | ⟨index, hindex, _, hshow⟩
  · exact ⟨h.count, h.next⟩
  · have hs : LagsBehind { s with initialized := true, decoding := false } := ⟨h.count, h.next⟩
    exact (hs.display hindex hshow).1

/-- The flag that a call clears is always that of a wrong buffer. -/
theorem LagsBehind.clearsShown_iff {call : ImxAnswers × Option Int}
    (hstep : SubmitStep s call t) (h : LagsBehind s) :
    ClearsShown s call t ↔ NothingShown s call t := by
  rcases submit_cases hstep with ⟨hnothing, hnone, rfl⟩ | ⟨index, hindex, hshown, hshow⟩
  · refine iff_of_true (fun i hi => ?_) hnothing
    rw [hnone] at hi
    cases hi
  · have hs : LagsBehind { s with initialized := true, decoding := false } := ⟨h.count, h.next⟩
    obtain ⟨_, hcleared, hwrong⟩ := hs.display hindex hshow
    exact iff_of_false (fun hclears => hwrong (hclears _ hcleared)) hshown

theorem lagsBehind_start : LagsBehind .start :=
  ⟨rfl, Or.inr ⟨rfl, rfl, rfl⟩⟩

/-- Over any decode units, the buffers handed back were shown and have left the display queue
exactly when no frame is displayed at all. -/
theorem clears_shown_iff {run : List ((ImxAnswers × Option Int) × ImxDisplay)}
    (hrun : Run SubmitStep .start run) :
    EachStep ClearsShown .start run ↔ EachStep NothingShown .start run :=
  eachStep_congr (fun _ _ _ hstep h => h.submit hstep)
    (fun _ _ _ hstep h => h.clearsShown_iff hstep) hrun lagsBehind_start

/-- Everything succeeds, and the decoder has the given frame to display. -/
def shows (index : Int) : ImxAnswers where
  getBitstreamBuffer := true
  registerFrameBuffer := true
  startOneFrame := true
  busy := 0
  getOutputInfo := some ⟨0, false, false, index⟩
  queryBuf := true
  queueBuf := true
  streamOn := true
  dequeueBuf := true

/-- A decoder that is busy for long, then cannot decode, and then still has no frame. -/
def waitingAnswers : List ImxAnswers :=
  [{ shows (-3) with busy := 51 }, { shows 5 with getOutputInfo := some ⟨0x10, false, false, 5⟩ },
    { shows (-2) with registerFrameBuffer := false, dequeueBuf := false }]

/-- While the decoder has no frame to display, no flag is cleared. -/
theorem clears_shown_iff_waiting : ∃ run, run.map (·.1) = waitingAnswers.map (·, none) ∧
    EachStep ClearsShown .start run := by
  let ready : ImxDisplay := { ImxDisplay.start with initialized := true }
  have hrun : Run SubmitStep .start (waitingAnswers.map fun answers => ((answers, none), ready)) :=
    ⟨rfl, rfl, rfl, trivial⟩
  refine ⟨_, rfl, (clears_shown_iff hrun).mpr ⟨?_, ?_, ?_, trivial⟩⟩
  all_goals
    intro outinfo hinfo
    cases hinfo
    decide

/-- When the second frame is displayed, the buffer of the first one is handed back with both
frames in the display queue. -/
theorem queued_buffer_cleared :
    ¬ ∀ run, Run SubmitStep .start run → EachStep ClearsShown .start run := by
  intro h
  let first : ImxDisplay := ⟨true, false, true, 1, 4, [4], [4]⟩
  let second : ImxDisplay := ⟨true, false, true, 2, 7, [4, 7], [4, 7]⟩
  have hrun : Run SubmitStep .start [((shows 4, some 0), first), ((shows 7, some 4), second)] :=
    ⟨rfl, rfl, trivial⟩
  obtain ⟨_, hsecond, _⟩ := h _ hrun
  exact (hsecond 4 rfl).2 (by decide)

end Moonlight
