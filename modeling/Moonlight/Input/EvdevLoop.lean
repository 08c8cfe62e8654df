import Moonlight.Input.EvdevFrame
import Moonlight.Input.EvdevTable

/-! The poll table of `src/loop.c`, and `evdev_handle`, which its loop calls when the descriptor
of an input device becomes readable. -/
namespace Moonlight

/-- The functions that are registered for a descriptor. -/
inductive FdHandler where
  | evdevHandle | udevHandle | loopSigHandler
  deriving DecidableEq

def pollIn : Int := 0x001

/-- One entry of `fds` with its entry of `fdHandlers`. -/
structure PollEntry where
  fd : Int
  events : Int
  handler : FdHandler
  deriving DecidableEq

def loopAddFd (fd : Int) (handler : FdHandler) (events : Int) (poll : List PollEntry) :
    List PollEntry :=
  poll ++ [⟨fd, events, handler⟩]

/-- What the pointer `handler` of `evdev.c` points to. -/
inductive EventHandler where
  | unset
  | play
  | mapping (prompt : Prompt)

/-- The device table, the installed event handler and the poll table. -/
structure EvdevLoop extends EvdevState where
  handler : EventHandler
  poll : List PollEntry

def EvdevLoop.start : EvdevLoop := { EvdevState.start with handler := .unset, poll := [] }

/-- How the reading of a device ends. -/
inductive ReadEnd where
  | again | noDevice | error
  deriving DecidableEq

/-- What `libevdev_next_event` returns in a row: `none` is a report that events were dropped. -/
structure Readout where
  events : List (Option InputEvent)
  last : ReadEnd

inductive LoopResult where
  | ok | loopReturn
  deriving DecidableEq

section
variable (L : Limelight)

/-- `handler(&ev, &devices[i])`; calling no function ends the process. -/
def callHandler (handler : EventHandler) (ev : InputEvent) (assigned : BitVec 32)
    (dev : InputDevice) : Option (EventHandler × Handled) :=
  match handler with
  | .unset => none
  | .play => (evdevHandleEvent L assigned ev dev).map fun r => (.play, r)
  | .mapping prompt =>
    let (keepRunning, prompt) := evdevHandleMappingEvent ev dev.dev prompt
    some (.mapping prompt, ⟨keepRunning, dev, assigned, []⟩)

/-- The inner loop: events are handled until the handler gives up or nothing is left. -/
def readEvents : List (Option InputEvent) → EventHandler → BitVec 32 → InputDevice →
    Option (EventHandler × Handled)
  | [], handler, assigned, dev => some (handler, ⟨true, dev, assigned, []⟩)
  | none :: events, handler, assigned, dev => readEvents events handler assigned dev
  | some ev :: events, handler, assigned, dev => do
    let (handler, r) ← callHandler L handler ev assigned dev
    if r.keepRunning then
      let (handler, last) ← readEvents events handler r.assignedControllerIds r.dev
      return (handler, { last with sent := r.sent ++ last.sent })
    else return (handler, r)

/-- One turn of the outer loop, whose condition is the assignment `devices[i].fd = fd`: whether
the loop goes on, and the state. An unexpected error ends the process. -/
def evdevHandleDevice (fd : Int) (r : Readout) (i : Nat) (dev : InputDevice) (s : EvdevLoop) :
    Option (Bool × EvdevLoop × List HostEvent) :=
  let dev := { dev with fd }
  if fd = 0 then some (true, { s with devices := s.devices.set i dev }, [])
  else do
    let (handler, h) ← readEvents L r.events s.handler s.assignedControllerIds dev
    let s := { s with
      devices := s.devices.set i h.dev
      assignedControllerIds := h.assignedControllerIds
      handler }
    if h.keepRunning then
      match r.last with
      | .again => return (true, s, h.sent)
      | .noDevice => return (true, { s with toEvdevState := evdevRemove i s.toEvdevState }, h.sent)
      | .error => none
    else return (false, s, h.sent)

theorem evdevRemove_length_le (i : Nat) (s : EvdevState) :
    (evdevRemove i s).devices.length ≤ s.devices.length := by
  unfold evdevRemove
  split
  · exact le_rfl
  · exact Lib.SwapRemove.length_swapRemove_le

theorem evdevHandleDevice_length_le {fd : Int} {r : Readout} {i : Nat} {dev : InputDevice}
    {s t : EvdevLoop} {goOn : Bool} {sent : List HostEvent}
    (h : evdevHandleDevice L fd r i dev s = some (goOn, t, sent)) :
    t.devices.length ≤ s.devices.length := by
  unfold evdevHandleDevice at h
  dsimp only at h
  split at h
  · cases h
    simp
  · obtain ⟨⟨handler, res⟩, _, h⟩ := Option.bind_eq_some_iff.mp h
    dsimp only at h
    split at h
    · split at h
      · cases h
        simp
      · cases h
        exact (evdevRemove_length_le i _).trans (by simp)
      · cases h
    · cases h
      simp

/-- The loop of `evdev_handle` from device `i` on; `reads` tells what each turn reads. -/
def evdevHandleFrom (fd : Int) (reads : Nat → Readout) (i : Nat) (s : EvdevLoop) :
    Option (LoopResult × EvdevLoop × List HostEvent) :=
  match _hi : s.devices[i]? with
  | none => some (.ok, s, [])
  | some dev =>
    match ht : evdevHandleDevice L fd (reads i) i dev s with
    | none => none
    | some (false, t, sent) => some (.loopReturn, t, sent)
    | some (true, t, sent) =>
      (evdevHandleFrom fd reads (i + 1) t).map fun (ret, u, later) => (ret, u, sent ++ later)
termination_by s.devices.length - i
decreasing_by
  have hlt := (List.getElem?_eq_some_iff.mp _hi).1
  have hle := evdevHandleDevice_length_le L ht
  omega

variable {L} {fd : Int} {reads : Nat → Readout} {i : Nat} {dev : InputDevice} {s t : EvdevLoop}
  {sent : List HostEvent}

theorem evdevHandleFrom_end (hi : s.devices[i]? = none) :
    evdevHandleFrom L fd reads i s = some (.ok, s, []) := by
  rw [evdevHandleFrom]
  split <;> simp_all

theorem evdevHandleFrom_exit (hi : s.devices[i]? = some dev)
    (ht : evdevHandleDevice L fd (reads i) i dev s = none) :
    evdevHandleFrom L fd reads i s = none := by
  rw [evdevHandleFrom]
  split
  · simp_all
  · split <;> simp_all

theorem evdevHandleFrom_return (hi : s.devices[i]? = some dev)
    (ht : evdevHandleDevice L fd (reads i) i dev s = some (false, t, sent)) :
    evdevHandleFrom L fd reads i s = some (.loopReturn, t, sent) := by
  rw [evdevHandleFrom]
  split
  · simp_all
  · split <;> simp_all

theorem evdevHandleFrom_next (hi : s.devices[i]? = some dev)
    (ht : evdevHandleDevice L fd (reads i) i dev s = some (true, t, sent)) :
    evdevHandleFrom L fd reads i s =
      (evdevHandleFrom L fd reads (i + 1) t).map fun (ret, u, later) => (ret, u, sent ++ later) := by
  rw [evdevHandleFrom]
  split
  · simp_all
  · split <;> simp_all

variable (L)

def evdevHandle (fd : Int) (reads : Nat → Readout) (s : EvdevLoop) :
    Option (LoopResult × EvdevLoop × List HostEvent) :=
  evdevHandleFrom L fd reads 0 s

end

end Moonlight
