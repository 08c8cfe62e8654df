import Moonlight.Lib.Stdio

/-! `struct mapping` with its writer and its reader, `src/input/mapping.c`. -/
namespace Moonlight

open Lib.Stdio

/-- The `short` members of `struct mapping`. -/
inductive ShortField where
  | absX | absY | absZ
  | absRx | absRy | absRz
  | absDeadzone
  | absDpadX | absDpadY
  | btnSouth | btnEast | btnNorth | btnWest
  | btnSelect | btnStart | btnMode
  | btnThumbl | btnThumbr
  | btnTl | btnTr | btnTl2 | btnTr2
  | btnDpadUp | btnDpadDown | btnDpadLeft | btnDpadRight
  deriving DecidableEq

/-- The `bool` members of `struct mapping`. -/
inductive FlagField where
  | reverseX | reverseY
  | reverseRx | reverseRy
  | reverseDpadX | reverseDpadY
  deriving DecidableEq

@[ext] structure Mapping where
  short : ShortField → Int16
  flag : FlagField → Bool

/-- A struct cleared by `memset`. -/
def Mapping.cleared : Mapping := ⟨fun _ => 0, fun _ => false⟩

/-- The mapping shipped as `mappings/default.conf`. -/
def defaultMapping : Mapping where
  short
    | .absX => 0
    | .absY => 1
    | .absZ => 2
    | .absRx => 3
    | .absRy => 4
    | .absRz => 5
    | .absDeadzone => 0
    | .absDpadX => 17
    | .absDpadY => 16
    | .btnSouth => 304
    | .btnEast => 305
    | .btnNorth => 307
    | .btnWest => 308
    | .btnSelect => 314
    | .btnStart => 315
    | .btnMode => 316
    | .btnThumbl => 317
    | .btnThumbr => 318
    | .btnTl => 310
    | .btnTr => 311
    | .btnTl2 => 312
    | .btnTr2 => 313
    | .btnDpadUp => 544
    | .btnDpadDown => 545
    | .btnDpadLeft => 546
    | .btnDpadRight => 547
  flag
    | .reverseY | .reverseRy => true
    | _ => false

/-- One line of a mapping file. -/
inductive Entry where
  | short (f : ShortField)
  | flag (f : FlagField)
  deriving DecidableEq

def ShortField.key : ShortField → String
  | absX => "abs_x"
  | absY => "abs_y"
  | absZ => "abs_z"
  | absRx => "abs_rx"
  | absRy => "abs_ry"
  | absRz => "abs_rz"
  | absDeadzone => "abs_deadzone"
  | absDpadX => "abs_dpad_x"
  | absDpadY => "abs_dpad_y"
  | btnSouth => "btn_south"
  | btnEast => "btn_east"
  | btnNorth => "btn_north"
  | btnWest => "btn_west"
  | btnSelect => "btn_select"
  | btnStart => "btn_start"
  | btnMode => "btn_mode"
  | btnThumbl => "btn_thumbl"
  | btnThumbr => "btn_thumbr"
  | btnTl => "btn_tl"
  | btnTr => "btn_tr"
  | btnTl2 => "btn_tl2"
  | btnTr2 => "btn_tr2"
  | btnDpadUp => "btn_dpad_up"
  | btnDpadDown => "btn_dpad_down"
  | btnDpadLeft => "btn_dpad_left"
  | btnDpadRight => "btn_dpad_right"

def FlagField.key : FlagField → String
  | reverseX => "reverse_x"
  | reverseY => "reverse_y"
  | reverseRx => "reverse_rx"
  | reverseRy => "reverse_ry"
  | reverseDpadX => "reverse_dpad_x"
  | reverseDpadY => "reverse_dpad_y"

def Entry.key : Entry → List Char
  | short f => f.key.toList
  | flag f => f.key.toList

/-- The `write_config` and `write_config_bool` calls of `mapping_save`, in its order. -/
def saveOrder : List Entry :=
  [.short .absX, .short .absY, .short .absZ,
   .flag .reverseX, .flag .reverseY,
   .short .absRx, .short .absRy, .short .absRz,
   .flag .reverseRx, .flag .reverseRy,
   .short .absDeadzone,
   .short .absDpadX, .short .absDpadY,
   .flag .reverseDpadX, .flag .reverseDpadY,
   .short .btnNorth, .short .btnEast, .short .btnSouth, .short .btnWest,
   .short .btnSelect, .short .btnStart, .short .btnMode,
   .short .btnThumbl, .short .btnThumbr,
   .short .btnTl, .short .btnTr, .short .btnTl2, .short .btnTr2,
   .short .btnDpadUp, .short .btnDpadDown, .short .btnDpadLeft, .short .btnDpadRight]

/-- The `strcmp` chain of `mapping_load`, in its order. -/
def loadOrder : List Entry :=
  [.short .absX, .short .absY, .short .absZ, .short .absRx, .short .absRy, .short .absRz,
   .short .absDeadzone, .short .absDpadX, .short .absDpadY,
   .short .btnSouth, .short .btnNorth, .short .btnEast, .short .btnWest,
   .short .btnSelect, .short .btnStart, .short .btnMode,
   .short .btnThumbl, .short .btnThumbr,
   .short .btnTl, .short .btnTr, .short .btnTl2, .short .btnTr2,
   .short .btnDpadUp, .short .btnDpadDown, .short .btnDpadLeft, .short .btnDpadRight,
   .flag .reverseX, .flag .reverseY, .flag .reverseRx, .flag .reverseRy,
   .flag .reverseDpadX, .flag .reverseDpadY]

/-- What `%hd` or the choice of `"true"` and `"false"` prints for a member. -/
def Entry.print (map : Mapping) : Entry → List Char
  | short f => printDec (map.short f).toInt
  | flag f => if map.flag f then "true".toList else "false".toList

/-- `write_config` and `write_config_bool`, without the newline. -/
def writeConfig (map : Mapping) (e : Entry) : List Char :=
  e.key ++ ' ' :: '=' :: ' ' :: e.print map

def mappingSave (map : Mapping) : List Char :=
  saveOrder.flatMap fun e => writeConfig map e ++ ['\n']

/-- The assignment of one branch of the chain; `long` narrows to `short`. -/
def Entry.assign (value : List Char) (map : Mapping) : Entry → Mapping
  | short f => { map with short := Function.update map.short f (Int16.ofInt (strtol value)) }
  | flag f => { map with flag := Function.update map.flag f (value == "true".toList) }

/-- The struct being filled, and the keys reported with `Can't map`. -/
structure Loading where
  map : Mapping
  unknown : List (List Char)

def loadLine (l : Loading) (line : List Char) : Loading :=
  match scanAssign scanWord line with
  | none => l
  | some (key, value) =>
    match loadOrder.find? (·.key == key) with
    | some e => { l with map := e.assign value l.map }
    | none => { l with unknown := l.unknown ++ [key] }

def mappingLoad (file : List Char) (map : Mapping) : Loading :=
  (getlines file).foldl loadLine ⟨map, []⟩

end Moonlight
