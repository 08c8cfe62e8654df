import Moonlight.Input.EvdevKeys

/-! The remote control beside the keyboards: its thread sends keys of its own, and the host holds
what the last event for a key says, wherever it came from. -/
namespace Moonlight

open Lib.Trace Lib.Replay Lib.LastWriter

/-- The codes of a remote control that have a key, and all others. -/
inductive CecUserControlCode where
  | up | down | left | right
  | enter | select
  | rootMenu
  | anReturn | exit
  | other (code : Nat)
  deriving DecidableEq

/-- `cec_keypress`. -/
structure CecKeypress where
  keycode : CecUserControlCode
  duration : Nat

/-- The `char` that is looked up for a code. -/
def cecValue : CecUserControlCode → BitVec 8
  | .up => 0x26
  | .down => 0x28
  | .left => 0x25
  | .right => 0x27
  | .enter | .select => 0x0D
  | .rootMenu => 0x09
  | .anReturn | .exit => 0x1B
  | .other _ => 0

/-- A press comes with the duration 0, a release with the time the key was held. -/
def onCecKeypress (key : CecKeypress) : List HostEvent :=
  let value := cecValue key.keycode
  if value ≠ 0 then
    let code := ((0x80#16 <<< 8) ||| value.signExtend 16).toInt
    [.keyboard code (if key.duration > 0 then .up else .down) 0]
  else []

/-- What happens in a room with some devices and a remote control. -/
inductive RoomEvent (ι : Type) where
  | device (a : ι × InputEvent)
  | remote (key : CecKeypress)

section
variable {ι : Type} [DecidableEq ι]

def RoomStep (L : Limelight) (s : Desk ι) (a : RoomEvent ι) (t : Desk ι) : Prop :=
  match a with
  | .device a => DeskStep L s a t
  | .remote key => t = { s with sent := s.sent ++ onCecKeypress key }

def cecSwitch (key : CecKeypress) : Option (Bool × (Int ⊕ MouseButton)) :=
  if cecValue key.keycode ≠ 0 then
    some (decide (key.duration = 0),
      .inl ((0x80#16 <<< 8) ||| (cecValue key.keycode).signExtend 16).toInt)
  else none

/-- The key or mouse button of the host that an event moves, and whether it goes down. -/
def RoomEvent.switch : RoomEvent ι → Option (Bool × (Int ⊕ MouseButton))
  | device a => evdevSwitch a.2
  | remote key => cecSwitch key

def RoomEvent.target (a : RoomEvent ι) : Option (Int ⊕ MouseButton) := a.switch.map (·.2)

variable {L : Limelight} {s : Desk ι} {run : List (RoomEvent ι × Desk ι)}

theorem hostSwitches_cec (key : CecKeypress) :
    hostSwitches (onCecKeypress key) = (cecSwitch key).toList := by
  unfold onCecKeypress cecSwitch
  dsimp only
  split
  · by_cases h : key.duration = 0
    · simp [hostSwitches, h]
    · simp [hostSwitches, h, Nat.pos_of_ne_zero h]
  · rfl

/-- The host's log is that of the events, in their order. -/
theorem hostSwitches_room (hrun : Run (RoomStep L) s run) :
    hostSwitches (final s run).sent =
      hostSwitches s.sent ++ (labels run).filterMap RoomEvent.switch := by
  induction run generalizing s with
  | nil => simp [labels, final]
  | cons x run ih =>
    obtain ⟨a, t⟩ := x
    have hstep : hostSwitches t.sent = hostSwitches s.sent ++ a.switch.toList := by
      cases a with
      | device a =>
        obtain ⟨assigned, r, hr, hkeep, rfl⟩ := hrun.1
        rw [hostSwitches_append, hostSwitches_event hr hkeep]
        rfl
      | remote key =>
        obtain rfl := hrun.1
        rw [hostSwitches_append, hostSwitches_cec]
        rfl
    rw [final, ih hrun.2, hstep, List.append_assoc]
    congr 1
    cases hswitch : a.switch <;> simp [labels, hswitch]

/-- Whatever devices and remote control do, and in whatever order, the host holds a key or a mouse
button if and only if the last event for it was a press. -/
theorem key_held_iff_last (devs : ι → InputDevice) (hrun : Run (RoomStep L) ⟨devs, []⟩ run)
    (k : Int ⊕ MouseButton) :
    k ∈ replay (hostSwitches (final ⟨devs, []⟩ run).sent) ↔
      ∃ e, lastOf RoomEvent.target k (labels run) = some e ∧ e.switch = some (true, k) := by
  rw [hostSwitches_room hrun]
  exact mem_replay_iff_last fun _ => rfl

/-- The key Enter of a keyboard is still down when the remote control lets go of SELECT. -/
theorem key_held_iff_last_remote :
    ∃ run : List (RoomEvent Unit × Desk Unit),
      labels run = [.device ((), ⟨.key, 28, 1⟩), .remote ⟨.select, 0⟩, .remote ⟨.select, 500⟩] ∧
      .inl (evdevHostCode 28) ∉ replay (hostSwitches (final
        ⟨fun _ => newDevice 3 (fun _ => ⟨0, 255, 0⟩) defaultMapping, []⟩ run).sent) := by
  obtain ⟨run, hrun, hlabels⟩ : ∃ run, Run (RoomStep documented)
      ⟨fun _ => newDevice 3 (fun _ => ⟨0, 255, 0⟩) defaultMapping, []⟩ run ∧
      labels run =
        [.device ((), ⟨.key, 28, 1⟩), .remote ⟨.select, 0⟩, .remote ⟨.select, 500⟩] :=
    ⟨[(.device ((), ⟨.key, 28, 1⟩), _), (.remote ⟨.select, 0⟩, _), (.remote ⟨.select, 500⟩, _)],
      ⟨deskStep_key 1 (by decide) (by decide), rfl, rfl, trivial⟩, rfl⟩
  refine ⟨run, hlabels, fun hheld => ?_⟩
  obtain ⟨e, hlast, hdown⟩ := (key_held_iff_last _ hrun _).mp hheld
  rw [hlabels, lastOf, List.filter_eq_self.mpr (by decide +kernel)] at hlast
  cases hlast
  exact absurd hdown (by decide)

end

end Moonlight
