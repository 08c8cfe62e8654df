import Mathlib.Algebra.BigOperators.Group.List.Basic
import Moonlight.Lib.LastWriter
import Moonlight.Lib.Machine
import Moonlight.Input.EvdevFrame

/-! What becomes of relative motion: a value is sent at the next `EV_SYN`, unless another one of
its axis comes first. -/
namespace Moonlight

open Lib.Machine Lib.Trace Lib.LastWriter

variable {L : Limelight} {bits : Nat} {assigned : BitVec 32} {ev : InputEvent}
  {dev dev' : InputDevice} {modified keep : Bool} {sent : List HostEvent} {r : Handled}

inductive RelAxis where
  | x | y | wheel

def RelAxis.code : RelAxis → UInt16
  | .x => relX
  | .y => relY
  | .wheel => relWheel

/-- The value of a relative event on the axis. -/
def RelAxis.read (axis : RelAxis) (ev : InputEvent) : Option Int :=
  if ev.type = .rel ∧ ev.code = axis.code then some ev.value else none

/-- What the device holds back of the axis until the next `EV_SYN`. -/
def RelAxis.pending (axis : RelAxis) (dev : InputDevice) : Int :=
  match axis with
  | .x => dev.mouseDeltaX
  | .y => dev.mouseDeltaY
  | .wheel => dev.mouseScroll

/-- What one call passes of the axis, in a parameter of `bits` bits. -/
def RelAxis.passed (bits : Nat) : RelAxis → HostEvent → Int
  | .x, .mouseMove deltaX _ => wrap bits deltaX
  | .y, .mouseMove _ deltaY => wrap bits deltaY
  | .wheel, .scroll amount => wrap bits amount
  | _, _ => 0

def RelAxis.sum (bits : Nat) (axis : RelAxis) (sent : List HostEvent) : Int :=
  (sent.map (axis.passed bits)).sum

variable {axis : RelAxis}

theorem sum_append (xs ys : List HostEvent) :
    axis.sum bits (xs ++ ys) = axis.sum bits xs + axis.sum bits ys := by
  simp [RelAxis.sum]

theorem wrap_zero (w : Nat) : wrap w 0 = 0 := Int.zero_bmod

/-- `EV_SYN` sends what was pending, and nothing is pending after it. -/
theorem evdevSyn_motion (bits : Nat) (assigned : BitVec 32) (dev : InputDevice) :
    axis.sum bits (evdevSyn assigned dev).sent = wrap bits (axis.pending dev) ∧
    axis.pending (evdevSyn assigned dev).dev = 0 := by
  have hmoved : axis.sum bits (if dev.mouseDeltaX ≠ 0 ∨ dev.mouseDeltaY ≠ 0 then
      [HostEvent.mouseMove dev.mouseDeltaX dev.mouseDeltaY] else []) +
      axis.sum bits (if dev.mouseScroll ≠ 0 then [HostEvent.scroll dev.mouseScroll] else []) =
      wrap bits (axis.pending dev) := by
    cases axis <;> by_cases hx : dev.mouseDeltaX = 0 <;> by_cases hy : dev.mouseDeltaY = 0 <;>
      by_cases hs : dev.mouseScroll = 0 <;>
      simp [RelAxis.sum, RelAxis.passed, RelAxis.pending, wrap_zero, hx, hy, hs]
  unfold evdevSyn
  dsimp only
  split
  · rw [sum_append, sum_append, hmoved]
    refine ⟨?_, by cases axis <;> rfl⟩
    cases axis <;> simp [RelAxis.sum, RelAxis.passed]
  · rw [sum_append, hmoved]
    exact ⟨rfl, by cases axis <;> rfl⟩

theorem evdevKeyboard_motion (h : evdevKeyboard L ev dev = (keep, dev', sent)) :
    axis.sum bits sent = 0 := by
  unfold evdevKeyboard at h
  dsimp only at h
  split at h <;> cases h <;> cases axis <;> rfl

theorem evdevButton_motion (h : evdevButton L ev dev = (dev', modified, sent)) :
    axis.sum bits sent = 0 := by
  unfold evdevButton at h
  repeat' split at h
  all_goals
    cases h
    cases axis <;> rfl

theorem OnlyPad.pending (h : OnlyPad dev dev' modified) : axis.pending dev' = axis.pending dev := by
  rcases h with ⟨_, rfl⟩ | ⟨_, pad, rfl⟩ <;> rfl

/-- Any other event sends no motion; a relative event replaces what was pending of its axis. -/
theorem evdevHandleEvent_motion (bits : Nat) (h : evdevHandleEvent L assigned ev dev = some r)
    (ht : ev.type ≠ .syn) : axis.sum bits r.sent = 0 ∧
    axis.pending r.dev = (axis.read ev).getD (axis.pending dev) := by
  unfold evdevHandleEvent at h
  cases htype : ev.type with
  | syn => exact absurd htype ht
  | key =>
    have hread : axis.read ev = none := by simp [RelAxis.read, htype]
    rw [hread]
    simp only [htype] at h
    split at h
    · rcases hk : evdevKeyboard L ev dev with ⟨keep, dev', sent⟩
      rw [hk] at h
      obtain ⟨rfl, _⟩ := evdevKeyboard_cases hk
      cases h
      exact ⟨evdevKeyboard_motion hk, rfl⟩
    · rcases hb : evdevButton L ev dev with ⟨dev', modified, sent⟩
      rw [hb] at h
      obtain ⟨_, hdev⟩ := evdevButton_cases hb
      cases h
      exact ⟨evdevButton_motion hb, hdev.pending⟩
  | rel =>
    simp only [htype] at h
    cases h
    refine ⟨by cases axis <;> rfl, ?_⟩
    have hcodes : relX ≠ relY ∧ relX ≠ relWheel ∧ relY ≠ relWheel := by decide
    simp only [finish, evdevRel, RelAxis.read, htype, true_and]
    cases axis <;> simp only [RelAxis.code] <;> split_ifs <;> simp_all [RelAxis.pending]
  | abs =>
    have hread : axis.read ev = none := by simp [RelAxis.read, htype]
    rw [hread]
    simp only [htype, Option.map_eq_some_iff] at h
    obtain ⟨⟨dev', modified⟩, habs, rfl⟩ := h
    exact ⟨by cases axis <;> rfl, (evdevAbs_cases habs).pending⟩
  | other =>
    have hread : axis.read ev = none := by simp [RelAxis.read, htype]
    rw [hread]
    simp only [htype] at h
    cases h
    exact ⟨by cases axis <;> rfl, rfl⟩

/-- The device beside all its calls. -/
structure Motion where
  dev : InputDevice
  sent : List HostEvent

/-- One event on the device; other devices may have changed the assigned ids in between. -/
def MotionStep (L : Limelight) (s : Motion) (a : BitVec 32 × InputEvent) (t : Motion) : Prop :=
  ∃ r, evdevHandleEvent L a.1 a.2 s.dev = some r ∧ t = ⟨r.dev, s.sent ++ r.sent⟩

/-- A relative event of the axis comes before the next `EV_SYN`. -/
def followed (axis : RelAxis) : List InputEvent → Bool
  | [] => false
  | ev :: rest => ev.type ≠ .syn && ((axis.read ev).isSome || followed axis rest)

/-- The sum of all values read on the axis. -/
def received (axis : RelAxis) (events : List InputEvent) : Int :=
  (events.filterMap axis.read).sum

/-- The sum of the values that another one of the axis follows before the next `EV_SYN`. -/
def overwritten (axis : RelAxis) : List InputEvent → Int
  | [] => 0
  | ev :: rest => (if followed axis rest then (axis.read ev).getD 0 else 0) + overwritten axis rest

/-- What a parameter of `bits` bits cuts off the other values. -/
def clipped (bits : Nat) (axis : RelAxis) : List InputEvent → Int
  | [] => 0
  | ev :: rest =>
    (if followed axis rest then 0
      else (axis.read ev).getD 0 - wrap bits ((axis.read ev).getD 0)) + clipped bits axis rest

variable {s t : Motion} {a : BitVec 32 × InputEvent} {run : List ((BitVec 32 × InputEvent) × Motion)}

theorem received_cons (ev : InputEvent) (rest : List InputEvent) :
    received axis (ev :: rest) = (axis.read ev).getD 0 + received axis rest := by
  cases h : axis.read ev <;> simp [received, h]

/-- The events of a run on one device. -/
def inputEvents (run : List ((BitVec 32 × InputEvent) × Motion)) : List InputEvent :=
  (labels run).map (·.2)

theorem motionStep_syn (axis : RelAxis) (bits : Nat) (h : MotionStep L s a t) (ht : a.2.type = .syn) :
    axis.sum bits t.sent = axis.sum bits s.sent + wrap bits (axis.pending s.dev) ∧
    axis.pending t.dev = 0 := by
  obtain ⟨r, hr, rfl⟩ := h
  simp only [evdevHandleEvent, ht, Option.some.injEq] at hr
  subst hr
  obtain ⟨hsum, hpending⟩ := evdevSyn_motion bits a.1 s.dev
  rw [sum_append, hsum]
  exact ⟨rfl, hpending⟩

theorem motionStep_other (axis : RelAxis) (bits : Nat) (h : MotionStep L s a t) (ht : a.2.type ≠ .syn) :
    axis.sum bits t.sent = axis.sum bits s.sent ∧
    axis.pending t.dev = (axis.read a.2).getD (axis.pending s.dev) := by
  obtain ⟨r, hr, rfl⟩ := h
  obtain ⟨hsum, hpending⟩ := evdevHandleEvent_motion bits hr ht
  rw [sum_append, hsum]
  exact ⟨add_zero _, hpending⟩

/-- The last event, if there is one, is an `EV_SYN`. -/
def EndsInSyn (events : List InputEvent) : Prop :=
  ∀ last, events.getLast? = some last → last.type = .syn

theorem EndsInSyn.tail {rest : List InputEvent} (h : EndsInSyn (ev :: rest)) : EndsInSyn rest := by
  intro last hlast
  cases rest with
  | nil => cases hlast
  | cons y rest => exact h last hlast

/-- What is sent, overwritten and clipped is what was pending and what is received. -/
theorem motion_balance (axis : RelAxis) (bits : Nat) (hrun : Run (MotionStep L) s run)
    (hend : EndsInSyn (inputEvents run))
    (hnil : run = [] → axis.pending s.dev = 0) :
    axis.sum bits (final s run).sent + overwritten axis (inputEvents run)
        + clipped bits axis (inputEvents run) =
      axis.sum bits s.sent
        + (if followed axis (inputEvents run) then 0 else wrap bits (axis.pending s.dev))
        + received axis (inputEvents run) := by
  induction run generalizing s with
  | nil =>
    rw [hnil rfl, wrap_zero, ite_self]
    simp [inputEvents, labels, final, overwritten, clipped, received]
  | cons x rest ih =>
    obtain ⟨a, t⟩ := x
    obtain ⟨hstep, hrun⟩ := hrun
    have hcons : inputEvents ((a, t) :: rest) = a.2 :: inputEvents rest := rfl
    rw [hcons] at hend
    rw [hcons, received_cons]
    simp only [overwritten, clipped, followed, final]
    by_cases ht : a.2.type = .syn
    · have hread : axis.read a.2 = none := by simp [RelAxis.read, ht]
      obtain ⟨hsum, hpending⟩ := motionStep_syn axis bits hstep ht
      have hrest := ih hrun hend.tail fun _ => hpending
      rw [hpending, wrap_zero, ite_self, hsum] at hrest
      simp only [hread, ht, wrap_zero, Option.getD_none, ne_eq, not_true_eq_false, decide_false,
        Bool.false_and, Bool.false_eq_true, if_false, sub_self, ite_self]
      linarith
    · obtain ⟨hsum, hpending⟩ := motionStep_other axis bits hstep ht
      have hrest := ih hrun hend.tail fun hnil => by
        subst hnil
        exact absurd (hend _ rfl) ht
      rw [hpending, hsum] at hrest
      rcases Option.eq_none_or_eq_some (axis.read a.2) with hread | ⟨v, hread⟩
      · rw [hread] at hrest
        simp only [hread, ht, wrap_zero, Option.getD_none, Option.isSome_none, ne_eq,
          not_false_eq_true, decide_true, Bool.true_and, Bool.false_or, sub_self, ite_self]
          at hrest ⊢
        linarith
      · rw [hread] at hrest
        simp only [hread, ht, Option.getD_some, Option.isSome_some, ne_eq, not_false_eq_true,
          decide_true, Bool.true_and, Bool.true_or, if_true] at hrest ⊢
        split_ifs at hrest ⊢ <;> linarith

/-- The sums passed to the host are the sums read, on each of the three axes. -/
def Conserved (bits : RelAxis → Nat) (sent : List HostEvent) (events : List InputEvent) : Prop :=
  ∀ axis : RelAxis, axis.sum (bits axis) sent = received axis events

/-- Motion is conserved exactly if what was overwritten and clipped adds up to 0 on each axis. -/
theorem motion_conserved_iff (bits : RelAxis → Nat) (fd : Int) (absInfo : Int → AbsInfo)
    (map : Mapping) (hrun : Run (MotionStep L) ⟨newDevice fd absInfo map, []⟩ run)
    (hend : EndsInSyn (inputEvents run)) :
    Conserved bits (final ⟨newDevice fd absInfo map, []⟩ run).sent (inputEvents run) ↔
    ∀ axis, overwritten axis (inputEvents run) + clipped (bits axis) axis (inputEvents run) = 0 := by
  refine forall_congr' fun axis => ?_
  have hnone : axis.pending (newDevice fd absInfo map) = 0 := by cases axis <;> rfl
  have hbalance := motion_balance axis (bits axis) hrun hend fun _ => hnone
  rw [hnone, wrap_zero, ite_self] at hbalance
  simp only [RelAxis.sum, List.map_nil, List.sum_nil] at hbalance
  simp only [RelAxis.sum]
  constructor <;> intro h <;> linarith

def motionNext (L : Limelight) (s : Motion) (a : BitVec 32 × InputEvent) : Option Motion :=
  (evdevHandleEvent L a.1 a.2 s.dev).map fun r => ⟨r.dev, s.sent ++ r.sent⟩

theorem motionStep_of_next (h : motionNext L s a = some t) : MotionStep L s a t := by
  obtain ⟨r, hr, rfl⟩ := Option.map_eq_some_iff.mp h
  exact ⟨r, hr, rfl⟩

/-- Two frames with motion on different axes, and a button in the second. -/
def movedEvents : List InputEvent :=
  [⟨.rel, relX, 5⟩, ⟨.rel, relY, -3⟩, ⟨.syn, 0, 0⟩, ⟨.rel, relWheel, -1⟩, ⟨.key, btnLeft, 1⟩,
    ⟨.rel, relX, 7⟩, ⟨.syn, 0, 0⟩]

theorem motion_conserved_iff_frames :
    Conserved (fun _ => 16)
      [.mouseMove 5 (-3), .mouseButton .press .left, .mouseMove 7 0, .scroll (-1)]
      movedEvents := by
  let dev := newDevice 3 (fun _ => ⟨0, 255, 15⟩) defaultMapping
  have hexec : (execute (motionNext documented) ⟨dev, []⟩ (movedEvents.map (0, ·))).map
      Motion.sent =
        some [.mouseMove 5 (-3), .mouseButton .press .left, .mouseMove 7 0, .scroll (-1)] := by
    decide +kernel
  obtain ⟨t, ht, hsent⟩ := Option.map_eq_some_iff.mp hexec
  obtain ⟨run, hrun, hlabels, rfl⟩ := exists_run_of_execute ht
  have hevents : inputEvents run = movedEvents := by
    rw [inputEvents, labels, hlabels, List.map_map]
    rfl
  rw [← hsent, ← hevents]
  refine (motion_conserved_iff (fun _ => 16) 3 (fun _ => ⟨0, 255, 15⟩) defaultMapping
    (hrun.imp fun _ _ _ => motionStep_of_next) ?_).mpr ?_
  · intro last hlast
    rw [hevents] at hlast
    cases hlast
    rfl
  · rw [hevents]
    intro axis
    cases axis <;> decide

/-- Of two relative events on one axis in one frame only the second is sent. -/
theorem first_motion_lost :
    let dev := newDevice 3 (fun _ => ⟨0, 255, 15⟩) defaultMapping
    ∃ run, Run (MotionStep documented) ⟨dev, []⟩ run ∧ EndsInSyn (inputEvents run) ∧
      ¬ Conserved (fun _ => 16) (final ⟨dev, []⟩ run).sent (inputEvents run) := by
  intro dev
  refine ⟨[((0, ⟨.rel, relX, 5⟩), ⟨{ dev with mouseDeltaX := 5 }, []⟩),
    ((0, ⟨.rel, relX, 7⟩), ⟨{ dev with mouseDeltaX := 7 }, []⟩),
    ((0, ⟨.syn, 0, 0⟩), ⟨dev, [.mouseMove 7 0]⟩)],
    ⟨⟨_, rfl, rfl⟩, ⟨_, rfl, rfl⟩, ⟨_, rfl, rfl⟩, trivial⟩, ?_, ?_⟩
  · intro last hlast
    cases hlast
    rfl
  · intro hconserved
    exact absurd (hconserved .x) (by decide)

end Moonlight
