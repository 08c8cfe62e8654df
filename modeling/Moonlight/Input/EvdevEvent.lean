import Moonlight.Input.EvdevDevice

/-! `evdev_handle_event` and `evdev_handle_mapping_event` of `src/input/evdev.c`. -/
namespace Moonlight

open Lib.Machine

/-- What one call of `evdev_handle_event` returns, writes and sends. -/
structure Handled where
  keepRunning : Bool
  dev : InputDevice
  assignedControllerIds : BitVec 32
  sent : List HostEvent

/-- The first free controller number, or number 0 when too many gamepads are connected. -/
def assignControllerId (assigned : BitVec 32) : Int × BitVec 32 :=
  match [0, 1, 2, 3].find? (fun i : Nat => assigned &&& (1#32 <<< i) = 0#32) with
  | some i => (i, assigned ||| (1#32 <<< i))
  | none => (0, assigned)

def evdevSyn (assigned : BitVec 32) (dev : InputDevice) : Handled :=
  let moved := if dev.mouseDeltaX ≠ 0 ∨ dev.mouseDeltaY ≠ 0 then
    [HostEvent.mouseMove dev.mouseDeltaX dev.mouseDeltaY] else []
  let scrolled := if dev.mouseScroll ≠ 0 then [HostEvent.scroll dev.mouseScroll] else []
  let dev := { dev with mouseDeltaX := 0, mouseDeltaY := 0, mouseScroll := 0 }
  if dev.gamepadModified then
    let (controllerId, assigned) :=
      if dev.controllerId < 0 then assignControllerId assigned else (dev.controllerId, assigned)
    { keepRunning := true
      dev := { dev with controllerId, gamepadModified := false }
      assignedControllerIds := assigned
      sent := moved ++ scrolled ++ [.multiController controllerId dev.toPad] }
  else
    { keepRunning := true, dev, assignedControllerIds := assigned, sent := moved ++ scrolled }

def keyModifier (code : UInt16) : Option Modifier :=
  if code = keyLeftShift ∨ code = keyRightShift then some .shift
  else if code = keyLeftAlt ∨ code = keyRightAlt then some .alt
  else if code = keyLeftCtrl ∨ code = keyRightCtrl then some .ctrl
  else none

section
variable (L : Limelight)

/-- `QUIT_MODIFIERS`. -/
def quitModifiers : BitVec 8 := L.modifier .shift ||| L.modifier .alt ||| L.modifier .ctrl

/-- `dev->modifiers` after a key event. -/
def trackModifier (modifiers : BitVec 8) (code : UInt16) (value : Int) : BitVec 8 :=
  match keyModifier code with
  | some m => if value ≠ 0 then modifiers ||| L.modifier m else modifiers &&& ~~~ L.modifier m
  | none => modifiers

def evdevKeyboard (ev : InputEvent) (dev : InputDevice) : Bool × InputDevice × List HostEvent :=
  let modifiers := trackModifier L dev.modifiers ev.code ev.value
  let dev := { dev with modifiers }
  if modifiers &&& quitModifiers L = quitModifiers L ∧ ev.code = keyQ ∧ ev.value ≠ 0 then
    (false, dev, [])
  else
    let code := ((0x80#16 <<< 8) ||| BitVec.ofInt 16 (keyCodes.getD ev.code.toNat 0)).toInt
    (true, dev, [.keyboard code (if ev.value ≠ 0 then .down else .up) (modifiers.setWidth 32)])

def mouseCode (code : UInt16) : Option MouseButton :=
  if code = btnLeft then some .left
  else if code = btnMiddle then some .middle
  else if code = btnRight then some .right
  else none

/-- The comparisons of the `default` branch, in its order. -/
def buttonOrder : List (ShortField × PadButton) :=
  [(.btnSouth, .a), (.btnWest, .x), (.btnNorth, .y), (.btnEast, .b),
   (.btnDpadUp, .up), (.btnDpadDown, .down), (.btnDpadRight, .right), (.btnDpadLeft, .left),
   (.btnThumbl, .lsClk), (.btnThumbr, .rsClk), (.btnTl, .lb), (.btnTr, .rb),
   (.btnStart, .play), (.btnSelect, .back), (.btnMode, .special)]

/-- `ev->code == dev->map.field`, both promoted to `int`. -/
def Mapping.hasCode (map : Mapping) (f : ShortField) (code : UInt16) : Bool :=
  (code.toNat : Int) = (map.short f).toInt

/-- `short gamepadCode`, promoted again where it meets `buttonFlags`. -/
def gamepadCode (map : Mapping) (code : UInt16) : Option (BitVec 32) :=
  (buttonOrder.find? fun entry => map.hasCode entry.1 code).map fun entry =>
    ((L.flag entry.2).setWidth 16).signExtend 32

/-- A key beyond the keyboard table: the device, and whether the gamepad changed. -/
def evdevButton (ev : InputEvent) (dev : InputDevice) : InputDevice × Bool × List HostEvent :=
  match mouseCode ev.code with
  | some button =>
    (dev, false, [.mouseButton (if ev.value ≠ 0 then .press else .release) button])
  | none =>
    match gamepadCode L dev.map ev.code with
    | some flag =>
      if ev.value ≠ 0 then ({ dev with buttonFlags := dev.buttonFlags ||| flag }, true, [])
      else ({ dev with buttonFlags := dev.buttonFlags &&& ~~~ flag }, true, [])
    | none =>
      if dev.map.hasCode .btnTl2 ev.code then
        ({ dev with leftTrigger := if ev.value ≠ 0 then 255 else 0 }, true, [])
      else if dev.map.hasCode .btnTr2 ev.code then
        ({ dev with rightTrigger := if ev.value ≠ 0 then 255 else 0 }, true, [])
      else (dev, false, [])

def evdevRel (ev : InputEvent) (dev : InputDevice) : InputDevice :=
  if ev.code = relX then { dev with mouseDeltaX := ev.value }
  else if ev.code = relY then { dev with mouseDeltaY := ev.value }
  else if ev.code = relWheel then { dev with mouseScroll := ev.value }
  else dev

/-- The two D-pad blocks: `ahead` is the button of direction 1, `behind` of -1. -/
def steerDpad (flags : BitVec 32) (dir : Int) (ahead behind : PadButton) : BitVec 32 :=
  if dir = 1 then (flags ||| L.flag ahead) &&& ~~~ L.flag behind
  else if dir = 0 then flags &&& ~~~ L.flag ahead &&& ~~~ L.flag behind
  else (flags &&& ~~~ L.flag ahead) ||| L.flag behind

/-- An axis event: the device, and whether the gamepad changed; `none` is a division by zero. -/
def evdevAbs (ev : InputEvent) (dev : InputDevice) : Option (InputDevice × Bool) := do
  if dev.map.hasCode .absX ev.code then
    let v ← evdevConvertValue ev dev.xParms (dev.map.flag .reverseX)
    return ({ dev with leftStickX := v }, true)
  else if dev.map.hasCode .absY ev.code then
    let v ← evdevConvertValue ev dev.yParms (dev.map.flag .reverseY)
    return ({ dev with leftStickY := v }, true)
  else if dev.map.hasCode .absRx ev.code then
    let v ← evdevConvertValue ev dev.rxParms (dev.map.flag .reverseRx)
    return ({ dev with rightStickX := v }, true)
  else if dev.map.hasCode .absRy ev.code then
    let v ← evdevConvertValue ev dev.ryParms (dev.map.flag .reverseRy)
    return ({ dev with rightStickY := v }, true)
  else if dev.map.hasCode .absZ ev.code then
    let v ← evdevConvertValueByte ev dev.zParms
    return ({ dev with leftTrigger := v }, true)
  else if dev.map.hasCode .absRz ev.code then
    let v ← evdevConvertValueByte ev dev.rzParms
    return ({ dev with rightTrigger := v }, true)
  else if dev.map.hasCode .absDpadX ev.code then
    let dir := evdevConvertValueDirection ev dev.dpadxParms (dev.map.flag .reverseDpadX)
    return ({ dev with buttonFlags := steerDpad L dev.buttonFlags dir .right .left }, true)
  else if dev.map.hasCode .absDpadY ev.code then
    let dir := evdevConvertValueDirection ev dev.dpadyParms (dev.map.flag .reverseDpadY)
    return ({ dev with buttonFlags := steerDpad L dev.buttonFlags dir .down .up }, true)
  else return (dev, false)

/-- `dev->gamepadModified |= gamepadModified`, and the normal return. -/
def finish (assigned : BitVec 32) (dev : InputDevice) (modified : Bool) (sent : List HostEvent) :
    Handled :=
  { keepRunning := true
    dev := { dev with gamepadModified := dev.gamepadModified || modified }
    assignedControllerIds := assigned
    sent }

/-- `evdev_handle_event`; `none` is the process dying of a division by zero. -/
def evdevHandleEvent (assigned : BitVec 32) (ev : InputEvent) (dev : InputDevice) :
    Option Handled :=
  match ev.type with
  | .syn => some (evdevSyn assigned dev)
  | .key =>
    if ev.code.toNat < keyCodes.length then
      let (keepRunning, dev, sent) := evdevKeyboard L ev dev
      some { keepRunning, dev, assignedControllerIds := assigned, sent }
    else
      let (dev, modified, sent) := evdevButton L ev dev
      some (finish assigned dev modified sent)
  | .rel => some (finish assigned (evdevRel ev dev) false [])
  | .abs => (evdevAbs L ev dev).map fun (dev, modified) => finish assigned dev modified []
  | .other => some (finish assigned dev false [])

end

/-- What `currentKey`, `currentAbs` and `currentReverse` point to; `none` is a null pointer. -/
structure Prompt where
  currentKey : Option Int16
  currentAbs : Option Int16
  currentReverse : Bool
  deriving DecidableEq

/-- `evdev_handle_mapping_event`: whether the loop goes on, and the prompt's variables. -/
def evdevHandleMappingEvent (ev : InputEvent) (dev : Libevdev) (prompt : Prompt) : Bool × Prompt :=
  match ev.type with
  | .key =>
    match prompt.currentKey with
    | none => (true, prompt)
    | some key =>
      if ev.value ≠ 0 then (true, { prompt with currentKey := some ev.code.toInt16 })
      else (decide ((ev.code.toNat : Int) ≠ key.toInt), prompt)
  | .abs =>
    match prompt.currentAbs with
    | none => (true, prompt)
    | some axis =>
      let parms := evdevInitParms dev ev.code.toNat
      if ev.value > wrap 32 (parms.avg + parms.range.tdiv 2) then
        (true, { prompt with currentAbs := some ev.code.toInt16, currentReverse := false })
      else if ev.value < wrap 32 (parms.avg - parms.range.tdiv 2) then
        (true, { prompt with currentAbs := some ev.code.toInt16, currentReverse := true })
      else (decide ((ev.code.toNat : Int) ≠ axis.toInt), prompt)
  | _ => (true, prompt)

end Moonlight
