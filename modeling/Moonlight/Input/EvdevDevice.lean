import Moonlight.Limelight
import Moonlight.Lib.Machine
import Moonlight.Input.Mapping

/-! `struct input_device`, the kernel's event codes and the axis arithmetic of
`src/input/evdev.c`. An `int` is an integer, wrapped where the code could leave its range. -/
namespace Moonlight

open Lib.Machine

inductive EventType where
  | syn | key | rel | abs
  | other
  deriving DecidableEq

/-- `struct input_event`. -/
structure InputEvent where
  type : EventType
  code : UInt16
  value : Int
  deriving DecidableEq

def keyQ : UInt16 := 16
def keyLeftCtrl : UInt16 := 29
def keyLeftShift : UInt16 := 42
def keyRightShift : UInt16 := 54
def keyLeftAlt : UInt16 := 56
def keyRightCtrl : UInt16 := 97
def keyRightAlt : UInt16 := 100

def btnLeft : UInt16 := 0x110
def btnRight : UInt16 := 0x111
def btnMiddle : UInt16 := 0x112

def relX : UInt16 := 0
def relY : UInt16 := 1
def relWheel : UInt16 := 8

/-- What the kernel tells `libevdev` about one absolute axis. -/
structure AbsInfo where
  minimum : Int
  maximum : Int
  flat : Int

/-- `struct libevdev`: the descriptor it was given and the axes of the device. -/
structure Libevdev where
  fd : Int
  absInfo : Int → AbsInfo

/-- `struct input_abs_parms`. -/
structure InputAbsParms where
  min : Int
  max : Int
  flat : Int
  avg : Int
  range : Int
  diff : Int
  deriving DecidableEq

/-- `struct input_device`; the pad fields are the ones a controller report carries. -/
structure InputDevice extends Pad where
  dev : Libevdev
  map : Mapping
  fd : Int
  modifiers : BitVec 8
  mouseDeltaX : Int
  mouseDeltaY : Int
  mouseScroll : Int
  controllerId : Int
  gamepadModified : Bool
  xParms : InputAbsParms
  yParms : InputAbsParms
  rxParms : InputAbsParms
  ryParms : InputAbsParms
  zParms : InputAbsParms
  rzParms : InputAbsParms
  dpadxParms : InputAbsParms
  dpadyParms : InputAbsParms

def evdevInitParms (dev : Libevdev) (code : Int) : InputAbsParms :=
  let info := dev.absInfo code
  let avg := (wrap 32 (info.minimum + info.maximum)).tdiv 2
  { flat := info.flat
    min := info.minimum
    max := info.maximum
    avg
    range := wrap 32 (info.maximum - avg)
    diff := wrap 32 (info.maximum - info.minimum) }

/-- The entry `evdev_create` fills in for an opened device and its mapping. -/
def newDevice (fd : Int) (absInfo : Int → AbsInfo) (map : Mapping) : InputDevice :=
  let dev : Libevdev := { fd, absInfo }
  let parms (f : ShortField) := evdevInitParms dev (map.short f).toInt
  { Pad.neutral with
    dev, map, fd
    modifiers := 0
    mouseDeltaX := 0
    mouseDeltaY := 0
    mouseScroll := 0
    controllerId := -1
    gamepadModified := false
    xParms := parms .absX
    yParms := parms .absY
    zParms := parms .absZ
    rxParms := parms .absRx
    ryParms := parms .absRy
    rzParms := parms .absRz
    dpadxParms := parms .absDpadX
    dpadyParms := parms .absDpadY }

/-- `abs` on an `int`. -/
def cabs (x : Int) : Int := wrap 32 |x|

/-- The numerator is an `int` expression widened to `long long` after it is computed; `none`
is a division by zero. -/
def scaleAxis (numerator divisor : Int) : Option Int :=
  if wrap 32 divisor = 0 then none
  else some (wrap 16 ((wrap 32 numerator * 65535).tdiv (wrap 32 divisor) + -32768))

def evdevConvertValue (ev : InputEvent) (parms : InputAbsParms) (reverse : Bool) : Option Int :=
  if cabs (wrap 32 (ev.value - parms.avg)) < parms.flat then some 0
  else if ev.value > parms.max then some (if reverse then -32768 else 32767)
  else if ev.value < parms.min then some (if reverse then 32767 else -32768)
  else if reverse then
    scaleAxis (parms.max - (if ev.value < parms.avg then parms.flat * 2 else 0) - ev.value)
      (parms.max - parms.min - parms.flat * 2)
  else
    scaleAxis (ev.value - (if ev.value > parms.avg then parms.flat * 2 else 0) - parms.min)
      (parms.max - parms.min - parms.flat * 2)

def evdevConvertValueByte (ev : InputEvent) (parms : InputAbsParms) : Option (BitVec 8) :=
  if cabs (wrap 32 (ev.value - parms.min)) < parms.flat then some 0
  else if ev.value > parms.max then some 255
  else if wrap 32 (parms.diff - parms.flat) = 0 then none
  else some (BitVec.ofInt 8 ((wrap 32 ((ev.value - parms.flat - parms.min) * 255)).tdiv
    (wrap 32 (parms.diff - parms.flat))))

def evdevConvertValueDirection (ev : InputEvent) (parms : InputAbsParms) (reverse : Bool) : Int :=
  if ev.value > wrap 32 (parms.avg + parms.range.tdiv 4) then if reverse then -1 else 1
  else if ev.value < wrap 32 (parms.avg - parms.range.tdiv 4) then if reverse then 1 else -1
  else 0

/-- `keyCodes` of `src/input/keyboard.h`, one entry for each kernel key code. -/
def keyCodes : List Int :=
  [0, 0x1B, 0x31, 0x32, 0x33, 0x34, 0x35, 0x36, 0x37, 0x38,
   0x39, 0x30, 0xBD, 0xBB, 0x08, 0x09, 0x51, 0x57, 0x45, 0x52,
   0x54, 0x59, 0x55, 0x49, 0x4F, 0x50, 0xDB, 0xDD, 0x0D, 0x11,
   0x41, 0x53, 0x44, 0x46, 0x47, 0x48, 0x4A, 0x4B, 0x4C, 0xBA,
   0xDE, 0xC0, 0x10, 0xDC, 0x5A, 0x58, 0x43, 0x56, 0x42, 0x4E,
   0x4D, 0xBC, 0xBE, 0xBF, 0x10, 0x6A, 0x12, 0x20, 0x14, 0x70,
   0x71, 0x72, 0x73, 0x74, 0x75, 0x76, 0x77, 0x78, 0x79, 0x90,
   0x91, 0x67, 0x68, 0x69, 0x6D, 0x64, 0x65, 0x66, 0x6B, 0x61,
   0x62, 0x63, 0x60, 0x6E, 0, 0, 0, 0x7A, 0x7B, 0,
   0xF1, 0xF2, 0, 0, 0, 0, 0x0D, 0x11, 0x6F, 0x2C,
   0x12, 0, 0x24, 0x26, 0x21, 0x25, 0x27, 0x23, 0x28, 0x22,
   0x9B, 0x2E, 0, 0, 0, 0, 0, 0, 0, 0x13,
   0]

@[simp] theorem keyCodes_length : keyCodes.length = 121 := by simp [keyCodes]

end Moonlight
