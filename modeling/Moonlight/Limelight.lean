/-! The input side of the streaming library, whose headers are not part of this tree: its
constants are a parameter, and its calls are recorded as events sent to the host. -/
namespace Moonlight

inductive Modifier where
  | shift | alt | ctrl
  deriving DecidableEq

/-- The controller buttons that have a flag of their own. -/
inductive PadButton where
  | a | b | x | y
  | up | down | left | right
  | lb | rb | play | back | lsClk | rsClk | special
  deriving DecidableEq

/-- The constants of the library, with what makes them usable as separate flags. -/
structure Limelight where
  modifier : Modifier → BitVec 8
  flag : PadButton → BitVec 32
  modifier_ne_zero : ∀ m, modifier m ≠ 0#8
  modifier_disjoint : ∀ m n, m ≠ n → modifier m &&& modifier n = 0#8
  flag_ne_zero : ∀ p, flag p ≠ 0#32
  flag_disjoint : ∀ p q, p ≠ q → flag p &&& flag q = 0#32
  flag_lt : ∀ p, flag p < 0x10000#32
  dpad_lt : ∀ p ∈ [PadButton.up, .down, .left, .right], flag p < 0x8000#32

/-- The values the library documents. -/
def documented : Limelight where
  modifier
    | .shift => 0x01
    | .ctrl => 0x02
    | .alt => 0x04
  flag
    | .a => 0x1000
    | .b => 0x2000
    | .x => 0x4000
    | .y => 0x8000
    | .up => 0x0001
    | .down => 0x0002
    | .left => 0x0004
    | .right => 0x0008
    | .lb => 0x0100
    | .rb => 0x0200
    | .play => 0x0010
    | .back => 0x0020
    | .lsClk => 0x0040
    | .rsClk => 0x0080
    | .special => 0x0400
  modifier_ne_zero m := by cases m <;> decide
  modifier_disjoint m n := by cases m <;> cases n <;> decide
  flag_ne_zero p := by cases p <;> decide
  flag_disjoint p q := by cases p <;> cases q <;> decide
  flag_lt p := by cases p <;> decide
  dpad_lt p := by cases p <;> decide

/-- What one controller report says about the pad, besides its number. -/
structure Pad where
  buttonFlags : BitVec 32
  leftTrigger : BitVec 8
  rightTrigger : BitVec 8
  leftStickX : Int
  leftStickY : Int
  rightStickX : Int
  rightStickY : Int
  deriving DecidableEq

def Pad.neutral : Pad := ⟨0, 0, 0, 0, 0, 0, 0⟩

/-- The parts of a pad that are written separately. -/
inductive PadRegister where
  | flag (bit : Nat)
  | leftTrigger | rightTrigger
  | leftX | leftY | rightX | rightY

theorem flags_eq_zero {flags : BitVec 32} (h : ∀ bit, flags.getLsbD bit = false) : flags = 0 :=
  BitVec.eq_of_getLsbD_eq fun bit _ => (h bit).trans BitVec.getLsbD_zero.symm

inductive MouseButton where
  | left | middle | right
  deriving DecidableEq

inductive ButtonAction where
  | press | release
  deriving DecidableEq

inductive KeyAction where
  | down | up
  deriving DecidableEq

/-- The calls `LiSendMouseMoveEvent`, `LiSendScrollEvent`, `LiSendMouseButtonEvent`,
`LiSendKeyboardEvent` and `LiSendMultiControllerEvent`. -/
inductive HostEvent where
  | mouseMove (deltaX deltaY : Int)
  | scroll (amount : Int)
  | mouseButton (action : ButtonAction) (button : MouseButton)
  | keyboard (keyCode : Int) (action : KeyAction) (modifiers : BitVec 32)
  | multiController (controllerNumber : Int) (pad : Pad)
  deriving DecidableEq

end Moonlight
