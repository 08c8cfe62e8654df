import Moonlight.Lib.SwapRemove
import Moonlight.Input.EvdevEvent

/-! The device table of `src/input/evdev.c`: `evdev_create`, `evdev_remove` and one event. -/
namespace Moonlight

open Lib.SwapRemove

/-- `devices` up to `numDevices`, and `assignedControllerIds`. -/
structure EvdevState where
  devices : List InputDevice
  assignedControllerIds : BitVec 32

def EvdevState.start : EvdevState := ⟨[], 0⟩

/-- `evdev_create`, given what `open` returned, the axes of the device and the contents of the
mapping file, if one is named. -/
def evdevCreate (fd : Int) (absInfo : Int → AbsInfo) (mapFile : Option (List Char))
    (s : EvdevState) : EvdevState :=
  if fd ≤ 0 then s
  else
    let map := match mapFile with
      | some file => (mappingLoad file Mapping.cleared).map
      | none => Mapping.cleared
    { s with devices := s.devices ++ [newDevice fd absInfo map] }

def evdevRemove (devindex : Nat) (s : EvdevState) : EvdevState :=
  match s.devices[devindex]? with
  | none => s
  | some gone =>
    { devices := swapRemove s.devices devindex
      assignedControllerIds :=
        if gone.controllerId ≥ 0 then
          s.assignedControllerIds &&& ~~~ (1#32 <<< gone.controllerId.toNat)
        else s.assignedControllerIds }

/-- One event read from device `i`, handled in place. -/
def evdevEvent (L : Limelight) (i : Nat) (ev : InputEvent) (s : EvdevState) :
    Option (EvdevState × Bool × List HostEvent) := do
  let dev ← s.devices[i]?
  let r ← evdevHandleEvent L s.assignedControllerIds ev dev
  return (⟨s.devices.set i r.dev, r.assignedControllerIds⟩, r.keepRunning, r.sent)

end Moonlight
