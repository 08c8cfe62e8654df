import Mathlib.Data.Finset.Basic
import Mathlib.Logic.Function.Basic
import Moonlight.Limelight

/-! `sdlinput_handle_event` of `src/input/sdlinput.c` with the table of `sdlinput.h`, and the
loop of `src/sdl.c` that calls it. -/
namespace Moonlight

inductive SdlMouseButton where
  | left | middle | right
  | other
  deriving DecidableEq

inductive SdlAxis where
  | leftX | leftY | rightX | rightY
  | triggerLeft | triggerRight
  | other
  deriving DecidableEq

inductive SdlButton where
  | a | b | y | x
  | dpadUp | dpadDown | dpadRight | dpadLeft
  | back | start | guide
  | leftStick | rightStick | leftShoulder | rightShoulder
  | other
  deriving DecidableEq

/-- The fields of `SDL_Event` that the handler and the loop read, by event type. -/
inductive SdlEvent where
  | mouseMotion (xrel yrel : Int)
  | mouseWheel (y : Int)
  | mouseButton (down : Bool) (button : SdlMouseButton)
  | key (down : Bool) (sym : Int)
  | controllerAxis (which : Int) (axis : SdlAxis) (value : Int16)
  | controllerButton (down : Bool) (which : Int) (button : SdlButton)
  | quit
  | other
  deriving DecidableEq

/-- What the code takes from the SDL headers, and what its compiler laid out behind the table of
key codes. The symbols are labels of one `switch`, or tested one after the other. -/
structure Sdl where
  lshift : Int
  rshift : Int
  lalt : Int
  ralt : Int
  lctrl : Int
  rctrl : Int
  quitKey : Int
  fullscreenKey : Int
  pastTable : Nat → Int
  nodup : [lshift, rshift, lalt, ralt, lctrl, rctrl, quitKey, fullscreenKey].Nodup

/-- The values SDL documents, with zeros behind the table. -/
def sdl2 : Sdl where
  lshift := 0x400000E1
  rshift := 0x400000E5
  lalt := 0x400000E2
  ralt := 0x400000E6
  lctrl := 0x400000E0
  rctrl := 0x400000E4
  quitKey := 0x71
  fullscreenKey := 0x66
  pastTable _ := 0
  nodup := by decide

/-- `SDL_NOTHING` and the other results the loop switches on. -/
inductive SdlResult where
  | nothing | quitApplication | mouseGrab | mouseUngrab | toggleFullscreen
  deriving DecidableEq

/-- `GAMEPAD_STATE`. -/
structure GamepadState extends Pad where
  sdlId : Int
  id : Int
  initialized : Bool

/-- The static variables of `sdlinput.c`. -/
structure SdlInput where
  gamepads : Fin 4 → GamepadState
  keyboardModifiers : BitVec 32

def SdlInput.start : SdlInput where
  gamepads _ := { Pad.neutral with sdlId := 0, id := 0, initialized := false }
  keyboardModifiers := 0

/-- `keyCodes` of `src/input/sdlinput.h`. -/
def sdlKeyCodes : List Int :=
  [0x14, 0x70, 0x71, 0x72, 0x73, 0x74, 0x75, 0x76, 0x77, 0x78, 0x79, 0x7A, 0x7B,
   0, 0x91, 0x13, 0x9B, 0x24, 0x21, 0, 0x23, 0x22, 0x27, 0x25, 0x28, 0x26]

/-- The index with which a key event reads `keyCodes`, if it does: the bound is the size of the
table in bytes. -/
def sdlKeyIndex (sym : Int) : Option Nat :=
  if sym ≥ 0x40000000 + 0x39 ∧ sym < 0x40000000 + 0x39 + 2 * sdlKeyCodes.length then
    some (sym - 0x40000039).toNat
  else none

/-- The rule for the other symbols: letters become upper case. -/
def sdlPassThrough (sym : Int) : Int := if sym ≥ 0x61 then sym - 0x20 else sym

/-- `button` for a key event. -/
def sdlKeyCode (S : Sdl) (sym : Int) : Int :=
  match sdlKeyIndex sym with
  | some i => sdlKeyCodes.getD i (S.pastTable i)
  | none => sdlPassThrough sym

def sdlModifier (S : Sdl) (sym : Int) : Option Modifier :=
  if sym = S.rshift ∨ sym = S.lshift then some .shift
  else if sym = S.ralt ∨ sym = S.lalt then some .alt
  else if sym = S.rctrl ∨ sym = S.lctrl then some .ctrl
  else none

section
variable (L : Limelight) (S : Sdl)

/-- `ACTION_MODIFIERS`. -/
def actionModifiers : BitVec 32 :=
  (L.modifier .shift).setWidth 32 ||| (L.modifier .alt).setWidth 32
    ||| (L.modifier .ctrl).setWidth 32

/-- `keyboard_modifiers` after a key event. -/
def trackKeyboard (modifiers : BitVec 32) (down : Bool) (sym : Int) : BitVec 32 :=
  match sdlModifier S sym with
  | some m =>
    if down then modifiers ||| (L.modifier m).setWidth 32
    else modifiers &&& ~~~ (L.modifier m).setWidth 32
  | none => modifiers

def sdlKey (modifiers : BitVec 32) (down : Bool) (sym : Int) :
    SdlResult × BitVec 32 × List HostEvent :=
  let button := sdlKeyCode S sym
  let modifiers := trackKeyboard L S modifiers down sym
  let complete := modifiers &&& actionModifiers L = actionModifiers L
  if complete ∧ sym = S.quitKey ∧ down = false then (.quitApplication, modifiers, [])
  else if complete ∧ sym = S.fullscreenKey ∧ down = false then (.toggleFullscreen, modifiers, [])
  else if complete then (.mouseUngrab, modifiers, [])
  else
    (.nothing, modifiers,
      [.keyboard ((0x80#32 <<< 8) ||| BitVec.ofInt 32 button).toInt
        (if down then .down else .up) modifiers])

end

/-- `get_gamepad`: the first slot that is free or already belongs to the id. -/
def getGamepad (sdlId : Int) (gamepads : Fin 4 → GamepadState) :
    Fin 4 × (Fin 4 → GamepadState) :=
  match [0, 1, 2, 3].find? fun i => !(gamepads i).initialized || (gamepads i).sdlId == sdlId with
  | some i =>
    if (gamepads i).initialized then (i, gamepads)
    else
      (i, Function.update gamepads i { gamepads i with sdlId, id := i.val, initialized := true })
  | none => (0, gamepads)

/-- The assignment of one axis event; `none` is the `default` label. -/
def sdlAxis (axis : SdlAxis) (value : Int16) (pad : GamepadState) : Option GamepadState :=
  let trigger := BitVec.ofInt 8 ((value.toInt >>> (8 : Nat)) + 127)
  match axis with
  | .leftX => some { pad with leftStickX := value.toInt }
  | .leftY => some { pad with leftStickY := -value.toInt - 1 }
  | .rightX => some { pad with rightStickX := value.toInt }
  | .rightY => some { pad with rightStickY := -value.toInt - 1 }
  | .triggerLeft => some { pad with leftTrigger := trigger }
  | .triggerRight => some { pad with rightTrigger := trigger }
  | .other => none

def sdlPadButton : SdlButton → Option PadButton
  | .a => some .a
  | .b => some .b
  | .y => some .y
  | .x => some .x
  | .dpadUp => some .up
  | .dpadDown => some .down
  | .dpadRight => some .right
  | .dpadLeft => some .left
  | .back => some .back
  | .start => some .play
  | .guide => some .special
  | .leftStick => some .lsClk
  | .rightStick => some .rsClk
  | .leftShoulder => some .lb
  | .rightShoulder => some .rb
  | .other => none

section
variable (L : Limelight) (S : Sdl)

def sdlButton (down : Bool) (button : SdlButton) (pad : GamepadState) : Option GamepadState :=
  (sdlPadButton button).map fun p =>
    { pad with buttonFlags :=
        if down then pad.buttonFlags ||| L.flag p else pad.buttonFlags &&& ~~~ L.flag p }

def sdlMouseCode : SdlMouseButton → Option MouseButton
  | .left => some .left
  | .middle => some .middle
  | .right => some .right
  | .other => none

/-- A controller event: the slot it reaches, changed by `change` and reported if that succeeds. -/
def sdlController (which : Int) (change : GamepadState → Option GamepadState) (s : SdlInput) :
    SdlResult × SdlInput × List HostEvent :=
  let (i, gamepads) := getGamepad which s.gamepads
  match change (gamepads i) with
  | none => (.nothing, { s with gamepads }, [])
  | some pad =>
    (.nothing, { s with gamepads := Function.update gamepads i pad },
      [.multiController pad.id pad.toPad])

/-- `sdlinput_handle_event`. -/
def sdlinputHandleEvent (event : SdlEvent) (s : SdlInput) :
    SdlResult × SdlInput × List HostEvent :=
  match event with
  | .mouseMotion xrel yrel => (.nothing, s, [.mouseMove xrel yrel])
  | .mouseWheel y => (.nothing, s, [.scroll y])
  | .mouseButton down button =>
    match sdlMouseCode button with
    | some m => (.mouseGrab, s, [.mouseButton (if down then .press else .release) m])
    | none => (.mouseGrab, s, [])
  | .key down sym =>
    let (result, keyboardModifiers, sent) := sdlKey L S s.keyboardModifiers down sym
    (result, { s with keyboardModifiers }, sent)
  | .controllerAxis which axis value => sdlController which (sdlAxis axis value) s
  | .controllerButton down which button => sdlController which (sdlButton L down button) s
  | .quit => (.nothing, s, [])
  | .other => (.nothing, s, [])

/-- What `sdl_loop` keeps: its static variables, the mouse mode, and the handler's state. -/
structure SdlLoop where
  done : Bool
  fullscreen : Bool
  relativeMouse : Bool
  input : SdlInput

/-- One turn of the loop; `SDL_TOGGLE_FULLSCREEN` falls through to `SDL_MOUSE_GRAB`. -/
def sdlLoopBody (event : SdlEvent) (s : SdlLoop) : SdlLoop × List HostEvent :=
  let (result, input, sent) := sdlinputHandleEvent L S event s.input
  let s := { s with input }
  match result with
  | .quitApplication => ({ s with done := true }, sent)
  | .toggleFullscreen => ({ s with fullscreen := !s.fullscreen, relativeMouse := true }, sent)
  | .mouseGrab => ({ s with relativeMouse := true }, sent)
  | .mouseUngrab => ({ s with relativeMouse := false }, sent)
  | .nothing => (if event = .quit then { s with done := true } else s, sent)

/-- `sdl_loop` on the events `SDL_WaitEvent` delivers, and its calls to the host. -/
def sdlLoop : List SdlEvent → SdlLoop → SdlLoop × List HostEvent
  | [], s => (s, [])
  | event :: events, s =>
    if s.done then (s, [])
    else
      let (s, sent) := sdlLoopBody L S event s
      let (s, later) := sdlLoop events s
      (s, sent ++ later)

end

end Moonlight
