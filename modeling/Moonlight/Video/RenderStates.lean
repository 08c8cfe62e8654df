import Mathlib.Data.List.Nodup
import Mathlib.Data.List.Perm.Subperm
import Moonlight.Lib.Trace

/-! The render states of `src/video/ffmpeg_vdpau.c`: a pool that grows up to 32 states, each
handed to one frame at a time. A missing state is dereferenced instead of reported. -/
namespace Moonlight

open Lib.Trace

def maxRenderStates : Nat := 32

/-- `FF_VDPAU_STATE_USED_FOR_RENDER`. -/
def usedForRender : BitVec 32 := 1

/-- `vdp_get_free_render_state` on the `state` members of the pool: the place of a free state, if
there is one, and the pool. `none` is a failed `malloc`, whose result is cleared by `memset`. -/
def vdpGetFreeRenderState (memory : Bool) (pool : List (BitVec 32)) :
    Option (Option Nat × List (BitVec 32)) :=
  match pool.findIdx? (· = 0) with
  | some i => some (some i, pool)
  | none =>
    if pool.length = maxRenderStates then some (none, pool)
    else if memory then some (some pool.length, pool ++ [0])
    else none

def vdpReleaseBuffer (i : Nat) (pool : List (BitVec 32)) : List (BitVec 32) := pool.set i 0

/-- The result of `vdp_get_buffer`, the state it stores in the frame, and the pool. `none` is a
null pointer dereference. -/
def vdpGetBuffer (memory : Bool) (pool : List (BitVec 32)) :
    Option (Int × Nat × List (BitVec 32)) := do
  let (renderState, pool) ← vdpGetFreeRenderState memory pool
  let i ← renderState
  return (0, i, pool.modify i (· ||| usedForRender))

/-- The pool beside the frames that were not released, each with its state. -/
structure RenderStates where
  pool : List (BitVec 32)
  live : List (Nat × Nat)

def RenderStates.start : RenderStates := ⟨[], []⟩

/-- The decoder's calls: a frame gets its buffer, with what `malloc` finds and what the call
returns, or the last reference to its buffer is dropped. -/
inductive BufferCall where
  | get (frame : Nat) (memory : Bool) (ret : Int)
  | release (frame : Nat)

/-- One call; a state of `none` is a crash. -/
inductive BufferStep : Option RenderStates → BufferCall → Option RenderStates → Prop where
  | get (s : RenderStates) (frame : Nat) (memory : Bool) (ret : Int) (i : Nat)
      (pool : List (BitVec 32)) (hnew : ∀ x ∈ s.live, x.1 ≠ frame)
      (hget : vdpGetBuffer memory s.pool = some (ret, i, pool)) :
      BufferStep (some s) (.get frame memory ret) (some ⟨pool, (frame, i) :: s.live⟩)
  | crash (s : RenderStates) (frame : Nat) (memory : Bool) (ret : Int)
      (hnew : ∀ x ∈ s.live, x.1 ≠ frame) (hget : vdpGetBuffer memory s.pool = none) :
      BufferStep (some s) (.get frame memory ret) none
  | release (s : RenderStates) (frame i : Nat) (hlive : (frame, i) ∈ s.live) :
      BufferStep (some s) (.release frame)
        (some ⟨vdpReleaseBuffer i s.pool, s.live.erase (frame, i)⟩)

/-- No two live frames hold one state, and the states in use are those that a live frame holds:
a released one is free. -/
structure RenderStates.Sound (s : RenderStates) : Prop where
  bounded : s.pool.length ≤ maxRenderStates
  exclusive : (s.live.map (·.2)).Nodup
  inUse : ∀ i, i ∈ s.live.map (·.2) ↔ ∃ state, s.pool[i]? = some state ∧ state ≠ 0

def SoundState (s : Option RenderStates) : Prop := ∃ p, s = some p ∧ p.Sound

/-- The frames hold all states there are, and no further one can be had. -/
def RenderStates.Exhausted (s : RenderStates) (memory : Bool) : Prop :=
  s.pool.length ≤ s.live.length ∧ (maxRenderStates ≤ s.pool.length ∨ memory = false)

/-- Without a state left, a call reports an error and changes nothing. -/
def ReportsExhaustion (s : Option RenderStates) (c : BufferCall) (s' : Option RenderStates) :
    Prop :=
  ∀ p frame memory ret, s = some p → c = .get frame memory ret → p.Exhausted memory →
    ret ≠ 0 ∧ s' = some p

/-- No call is made without a state left. -/
def StateLeft (s : Option RenderStates) (c : BufferCall) (_ : Option RenderStates) : Prop :=
  ∀ p frame memory ret, s = some p → c = .get frame memory ret → ¬ p.Exhausted memory

section
variable {s : RenderStates} {memory : Bool} {i j frame : Nat} {ret : Int}
  {pool : List (BitVec 32)}

theorem RenderStates.Sound.lt_of_live (h : s.Sound) (hi : i ∈ s.live.map (·.2)) :
    i < s.pool.length := by
  obtain ⟨state, hstate, _⟩ := (h.inUse i).mp hi
  exact (List.getElem?_eq_some_iff.mp hstate).1

/-- No state is free exactly when there are no more states than live frames. -/
theorem RenderStates.Sound.none_free_iff (h : s.Sound) :
    s.pool.findIdx? (· = 0) = none ↔ s.pool.length ≤ s.live.length := by
  have hsub : s.live.map (·.2) ⊆ List.range s.pool.length :=
    fun i hi => List.mem_range.mpr (h.lt_of_live hi)
  rw [List.findIdx?_eq_none_iff]
  constructor
  · intro hnone
    have hall : List.range s.pool.length ⊆ s.live.map (·.2) := by
      intro i hi
      have hlt := List.mem_range.mp hi
      refine (h.inUse i).mpr ⟨s.pool[i], List.getElem?_eq_getElem hlt, ?_⟩
      simpa using hnone _ (List.getElem_mem hlt)
    simpa using (List.subperm_of_subset List.nodup_range hall).length_le
  · intro hlen state hstate
    have hperm : (s.live.map (·.2)).Perm (List.range s.pool.length) :=
      (List.subperm_of_subset h.exclusive hsub).perm_of_length_le (by simpa using hlen)
    obtain ⟨i, hi⟩ := List.mem_iff_getElem?.mp hstate
    have hlt := (List.getElem?_eq_some_iff.mp hi).1
    obtain ⟨state', hstate', hne⟩ :=
      (h.inUse i).mp (hperm.mem_iff.mpr (List.mem_range.mpr hlt))
    rw [hi] at hstate'
    cases hstate'
    simpa using hne

/-- Without a state left, `vdp_get_buffer` crashes. -/
theorem RenderStates.Sound.get_exhausted (h : s.Sound) (hno : s.Exhausted memory) :
    vdpGetBuffer memory s.pool = none := by
  obtain ⟨hlen, hmore⟩ := hno
  simp only [vdpGetBuffer, vdpGetFreeRenderState, h.none_free_iff.mpr hlen]
  split
  · rfl
  next hne =>
    have hbound := h.bounded
    rcases hmore with hfull | rfl
    · omega
    · rfl

/-- With a state left, a free one is found or made; the others stay as they are. -/
theorem RenderStates.Sound.free_of_left (h : s.Sound) (hleft : ¬ s.Exhausted memory) :
    ∃ i pool, vdpGetFreeRenderState memory s.pool = some (some i, pool) ∧
      i ∉ s.live.map (·.2) ∧ pool[i]? = some 0 ∧ pool.length ≤ maxRenderStates ∧
      ∀ j ≠ i, pool[j]? = s.pool[j]? := by
  have hbound := h.bounded
  unfold vdpGetFreeRenderState
  cases hfind : s.pool.findIdx? (· = 0) with
  | some i =>
    obtain ⟨hlt, hzero, _⟩ := List.findIdx?_eq_some_iff_getElem.mp hfind
    have hfree : s.pool[i]? = some 0 := by
      rw [List.getElem?_eq_getElem hlt]
      simpa using hzero
    refine ⟨i, s.pool, rfl, ?_, hfree, hbound, fun _ _ => rfl⟩
    intro hlive
    obtain ⟨state, hstate, hne⟩ := (h.inUse i).mp hlive
    rw [hfree] at hstate
    cases hstate
    exact hne rfl
  | none =>
    have hlen := h.none_free_iff.mp hfind
    have hroom : s.pool.length ≠ maxRenderStates ∧ memory = true := by
      simp only [Exhausted, not_and, not_or] at hleft
      obtain ⟨hlt, hmem⟩ := hleft hlen
      exact ⟨by omega, by simpa using hmem⟩
    refine ⟨s.pool.length, s.pool ++ [0], ?_, ?_, by simp, ?_, ?_⟩
    · simp only [hroom.1, hroom.2, if_false, if_true]
    · exact fun hlive => absurd (h.lt_of_live hlive) (Nat.lt_irrefl _)
    · have := hroom.1
      simp
      omega
    · intro j hj
      rcases Nat.lt_or_gt_of_ne hj with hlt | hgt
      · exact List.getElem?_append_left hlt
      · rw [List.getElem?_eq_none (by simp; omega), List.getElem?_eq_none (by omega)]

/-- A frame that gets its buffer holds a state that no other live frame holds. -/
theorem RenderStates.Sound.get (h : s.Sound) (hleft : ¬ s.Exhausted memory)
    (hget : vdpGetBuffer memory s.pool = some (ret, i, pool)) (frame : Nat) :
    (⟨pool, (frame, i) :: s.live⟩ : RenderStates).Sound := by
  obtain ⟨i, grown, hfree, hnot, hzero, hbound, hrest⟩ := h.free_of_left hleft
  simp only [vdpGetBuffer, hfree] at hget
  cases hget
  refine ⟨by simpa using hbound, List.nodup_cons.mpr ⟨hnot, h.exclusive⟩, fun j => ?_⟩
  simp only [List.map_cons, List.mem_cons, List.getElem?_modify]
  by_cases hj : j = i
  · subst j
    simp [hzero, usedForRender]
  · rw [h.inUse j, hrest j hj]
    simp [hj, Ne.symm hj]

/-- A released state is free again, and the others stay in use. -/
theorem RenderStates.Sound.release (h : s.Sound) (hlive : (frame, i) ∈ s.live) :
    (⟨vdpReleaseBuffer i s.pool, s.live.erase (frame, i)⟩ : RenderStates).Sound := by
  have hnodup : s.live.Nodup := h.exclusive.of_map
  refine ⟨by simpa [vdpReleaseBuffer] using h.bounded,
    h.exclusive.sublist (List.erase_sublist.map _), fun j => ?_⟩
  have hleft : j ∈ (s.live.erase (frame, i)).map (·.2) ↔ j ≠ i ∧ j ∈ s.live.map (·.2) := by
    simp only [List.mem_map, hnodup.mem_erase_iff]
    constructor
    · rintro ⟨x, ⟨hne, hx⟩, rfl⟩
      refine ⟨fun heq => hne ?_, x, hx, rfl⟩
      exact List.inj_on_of_nodup_map h.exclusive hx hlive heq
    · rintro ⟨hne, x, hx, rfl⟩
      exact ⟨x, ⟨fun heq => hne (by rw [heq]), hx⟩, rfl⟩
  rw [hleft, h.inUse j, vdpReleaseBuffer, List.getElem?_set]
  by_cases hj : i = j
  · subst j
    simp
  · simp [hj, Ne.symm hj]

/-- A call is sound and reports exhaustion exactly when a state is left for it. -/
theorem bufferStep_iff {s s' : Option RenderStates} {c : BufferCall} (hstep : BufferStep s c s')
    (h : SoundState s) : SoundState s' ∧ ReportsExhaustion s c s' ↔ StateLeft s c s' := by
  obtain ⟨p, rfl, hp⟩ := h
  constructor
  · rintro ⟨hs', hreport⟩ p' frame memory ret hp' rfl hno
    cases hp'
    have hcrash := hp.get_exhausted hno
    cases hstep with
    | get _ _ _ _ i pool hnew hget =>
      rw [hcrash] at hget
      cases hget
    | crash _ _ _ _ hnew hget =>
      obtain ⟨_, hsome, _⟩ := hs'
      cases hsome
  · intro hleft
    refine ⟨?_, fun p' frame memory ret hp' hc hno =>
      absurd hno (hleft p' frame memory ret hp' hc)⟩
    cases hstep with
    | get _ frame memory ret i pool hnew hget =>
      exact ⟨_, rfl, hp.get (hleft p frame memory ret rfl rfl) hget frame⟩
    | crash _ frame memory ret hnew hget =>
      obtain ⟨i, pool, hfree, _⟩ := hp.free_of_left (hleft p frame memory ret rfl rfl)
      simp [vdpGetBuffer, hfree] at hget
    | release _ frame i hlive => exact ⟨_, rfl, hp.release hlive⟩

theorem sound_start : SoundState (some .start) :=
  ⟨.start, rfl, by simp [RenderStates.start], List.nodup_nil, by simp [RenderStates.start]⟩

end

/-- Over any calls the pool is sound and exhaustion is reported exactly when no call meets it. -/
theorem render_states_iff {run : List (BufferCall × Option RenderStates)}
    (hrun : Run BufferStep (some .start) run) :
    Always SoundState (some .start) run ∧ EachStep ReportsExhaustion (some .start) run ↔
      EachStep StateLeft (some .start) run :=
  always_and_eachStep_iff (fun _ _ _ => bufferStep_iff) hrun sound_start

/-- A frame gets the first state, and the next frame gets it again after its release. -/
def reusedRun : List (BufferCall × Option RenderStates) :=
  [(.get 0 true 0, some ⟨[1], [(0, 0)]⟩),
    (.release 0, some ⟨[0], []⟩),
    (.get 1 false 0, some ⟨[1], [(1, 0)]⟩)]

theorem render_states_iff_reused :
    Always SoundState (some .start) reusedRun ∧
      EachStep ReportsExhaustion (some .start) reusedRun := by
  have hrun : Run BufferStep (some .start) reusedRun :=
    ⟨.get .start 0 true 0 0 [1] (by simp [RenderStates.start]) rfl,
      .release ⟨[1], [(0, 0)]⟩ 0 0 (by simp),
      .get ⟨[0], []⟩ 1 false 0 0 [1] (by simp) rfl, trivial⟩
  refine (render_states_iff hrun).mpr ⟨?_, ?_, ?_, trivial⟩ <;> rintro p frame memory ret hp hc
  · cases hp
    cases hc
    simp [RenderStates.Exhausted, RenderStates.start, maxRenderStates]
  · cases hc
  · cases hp
    cases hc
    simp [RenderStates.Exhausted]

/-- The pool after `n` frames got their buffers and none was released. -/
def allHeld : Nat → RenderStates
  | 0 => .start
  | n + 1 => ⟨(allHeld n).pool ++ [1], (n, n) :: (allHeld n).live⟩

theorem allHeld_length (n : Nat) : (allHeld n).pool.length = n := by
  induction n with
  | zero => rfl
  | succ n ih => simp [allHeld, ih]

theorem allHeld_used (n : Nat) : (allHeld n).pool.findIdx? (· = 0) = none := by
  induction n with
  | zero => rfl
  | succ n ih =>
    rw [allHeld, List.findIdx?_append, ih]
    simp

theorem allHeld_frames (n : Nat) : ∀ x ∈ (allHeld n).live, x.1 < n := by
  induction n with
  | zero => simp [allHeld, RenderStates.start]
  | succ n ih =>
    intro x hx
    rcases List.mem_cons.mp hx with rfl | hx
    · exact Nat.lt_succ_self n
    · exact Nat.lt_succ_of_lt (ih x hx)

theorem allHeld_get {n : Nat} (hn : n < maxRenderStates) :
    vdpGetBuffer true (allHeld n).pool = some (0, n, (allHeld (n + 1)).pool) := by
  have hlen := allHeld_length n
  have hroom : (allHeld n).pool.length ≠ maxRenderStates := by omega
  simp only [vdpGetBuffer, vdpGetFreeRenderState, allHeld_used, if_neg hroom, if_true]
  have hset : ((allHeld n).pool ++ [0]).modify n (· ||| usedForRender) =
      (allHeld n).pool ++ [1] := by
    rw [List.modify_eq_set_getElem?]
    simp [hlen, usedForRender]
  simpa [hlen, allHeld] using hset

/-- With no frame released the calls go on until one crashes. -/
theorem exists_crash (n m : Nat) (hn : n + m = maxRenderStates) :
    ∃ run, Run BufferStep (some (allHeld n)) run ∧ final (some (allHeld n)) run = none := by
  induction m generalizing n with
  | zero =>
    have hfull : (allHeld n).pool.length = maxRenderStates := by
      rw [allHeld_length]
      omega
    have hget : vdpGetBuffer true (allHeld n).pool = none := by
      simp only [vdpGetBuffer, vdpGetFreeRenderState, allHeld_used, if_pos hfull]
      rfl
    exact ⟨[(.get n true 0, none)],
      ⟨.crash _ n true 0 (fun x hx => Nat.ne_of_lt (allHeld_frames n x hx)) hget, trivial⟩, rfl⟩
  | succ m ih =>
    obtain ⟨run, hrun, hfinal⟩ := ih (n + 1) (by omega)
    exact ⟨(.get n true 0, some (allHeld (n + 1))) :: run,
      ⟨.get _ n true 0 n _ (fun x hx => Nat.ne_of_lt (allHeld_frames n x hx))
        (allHeld_get (by omega)), hrun⟩, hfinal⟩

/-- The 33rd frame allHeld at once uses a missing state. -/
theorem missing_state_used :
    ¬ ∀ run, Run BufferStep (some .start) run →
      Always SoundState (some .start) run ∧ EachStep ReportsExhaustion (some .start) run := by
  intro h
  obtain ⟨run, hrun, hfinal⟩ := exists_crash 0 32 rfl
  obtain ⟨_, hsome, _⟩ : SoundState none := hfinal ▸ always_final (h run hrun).1
  cases hsome

end Moonlight
