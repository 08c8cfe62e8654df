import Moonlight.Input.EvdevFrame

/-! What an event does to the pad, read off the mapping: every key and axis code drives one thing,
and the rest of the pad keeps its values. -/
namespace Moonlight

variable {L : Limelight} {assigned : BitVec 32} {ev : InputEvent} {dev dev' : InputDevice}
  {modified : Bool} {sent : List HostEvent} {r : Handled}

/-- The eight places an axis can be mapped to. -/
inductive AxisSlot where
  | leftX | leftY | rightX | rightY
  | leftTrigger | rightTrigger
  | dpadX | dpadY
  deriving DecidableEq

/-- The comparisons of `EV_ABS`, in their order. -/
def axisOrder : List (ShortField × AxisSlot) :=
  [(.absX, .leftX), (.absY, .leftY), (.absRx, .rightX), (.absRy, .rightY),
   (.absZ, .leftTrigger), (.absRz, .rightTrigger), (.absDpadX, .dpadX), (.absDpadY, .dpadY)]

def Mapping.axisSlot (map : Mapping) (code : UInt16) : Option AxisSlot :=
  (axisOrder.find? fun entry => map.hasCode entry.1 code).map (·.2)

/-- The parameters of the axis mapped to a place. -/
def InputDevice.slotParms (dev : InputDevice) : AxisSlot → InputAbsParms
  | .leftX => dev.xParms
  | .leftY => dev.yParms
  | .rightX => dev.rxParms
  | .rightY => dev.ryParms
  | .leftTrigger => dev.zParms
  | .rightTrigger => dev.rzParms
  | .dpadX => dev.dpadxParms
  | .dpadY => dev.dpadyParms

/-- What a key or axis code drives. -/
inductive Drive where
  | button (flag : BitVec 32)
  | trigger (right : Bool)
  | axis (slot : AxisSlot)

/-- A key or an axis of the device. -/
inductive EvdevSource where
  | key (code : UInt16)
  | abs (code : UInt16)
  deriving DecidableEq

def evdevSource (ev : InputEvent) : Option EvdevSource :=
  match ev.type with
  | .key => some (.key ev.code)
  | .abs => some (.abs ev.code)
  | _ => none

/-- A key beyond the keyboard table drives a button or a trigger. -/
def keyDrive (L : Limelight) (map : Mapping) (code : UInt16) : Option Drive :=
  match mouseCode code with
  | some _ => none
  | none =>
    match gamepadCode L map code with
    | some flag => some (.button flag)
    | none =>
      if map.hasCode .btnTl2 code then some (.trigger false)
      else if map.hasCode .btnTr2 code then some (.trigger true)
      else none

def driveOf (L : Limelight) (map : Mapping) : EvdevSource → Option Drive
  | .key code => if code.toNat < keyCodes.length then none else keyDrive L map code
  | .abs code => (map.axisSlot code).map .axis

/-- The pad after an event on an axis. -/
def moveAxis (L : Limelight) (map : Mapping) (parms : InputAbsParms) (ev : InputEvent) (pad : Pad) :
    AxisSlot → Option Pad
  | .leftX => (evdevConvertValue ev parms (map.flag .reverseX)).map
      fun v => { pad with leftStickX := v }
  | .leftY => (evdevConvertValue ev parms (map.flag .reverseY)).map
      fun v => { pad with leftStickY := v }
  | .rightX => (evdevConvertValue ev parms (map.flag .reverseRx)).map
      fun v => { pad with rightStickX := v }
  | .rightY => (evdevConvertValue ev parms (map.flag .reverseRy)).map
      fun v => { pad with rightStickY := v }
  | .leftTrigger => (evdevConvertValueByte ev parms).map fun v => { pad with leftTrigger := v }
  | .rightTrigger => (evdevConvertValueByte ev parms).map fun v => { pad with rightTrigger := v }
  | .dpadX =>
    let dir := evdevConvertValueDirection ev parms (map.flag .reverseDpadX)
    some { pad with buttonFlags := steerDpad L pad.buttonFlags dir .right .left }
  | .dpadY =>
    let dir := evdevConvertValueDirection ev parms (map.flag .reverseDpadY)
    some { pad with buttonFlags := steerDpad L pad.buttonFlags dir .down .up }

/-- The pad after an event. -/
def movePad (L : Limelight) (dev : InputDevice) (ev : InputEvent) : Option Drive → Option Pad
  | none => some dev.toPad
  | some (.button flag) =>
    some { dev.toPad with buttonFlags :=
      if ev.value ≠ 0 then dev.buttonFlags ||| flag else dev.buttonFlags &&& ~~~ flag }
  | some (.trigger false) => some { dev.toPad with leftTrigger := if ev.value ≠ 0 then 255 else 0 }
  | some (.trigger true) => some { dev.toPad with rightTrigger := if ev.value ≠ 0 then 255 else 0 }
  | some (.axis slot) => moveAxis L dev.map (dev.slotParms slot) ev dev.toPad slot

theorem evdevButton_pad :
    movePad L dev ev (keyDrive L dev.map ev.code) = some (evdevButton L ev dev).1.toPad := by
  unfold keyDrive evdevButton
  cases mouseCode ev.code with
  | some button => rfl
  | none =>
    cases gamepadCode L dev.map ev.code with
    | some flag => by_cases hv : ev.value = 0 <;> simp [movePad, hv]
    | none =>
      by_cases htl : dev.map.hasCode .btnTl2 ev.code = true
      · simp [htl, movePad]
      · by_cases htr : dev.map.hasCode .btnTr2 ev.code = true <;> simp [htl, htr, movePad]

theorem evdevAbs_pad (h : evdevAbs L ev dev = some (dev', modified)) :
    movePad L dev ev ((dev.map.axisSlot ev.code).map .axis) = some dev'.toPad := by
  unfold evdevAbs at h
  simp only [Mapping.axisSlot, axisOrder, List.find?_cons]
  repeat' split at h
  all_goals
    first
      | cases h
        simp [*, movePad, moveAxis, InputDevice.slotParms]
      | obtain ⟨v, hv, h⟩ := Option.bind_eq_some_iff.mp h
        cases h
        simp [*, movePad, moveAxis, InputDevice.slotParms]

/-- An event moves the pad as the mapping says. -/
theorem evdevHandleEvent_pad (h : evdevHandleEvent L assigned ev dev = some r) :
    movePad L dev ev ((evdevSource ev).bind (driveOf L dev.map)) = some r.dev.toPad := by
  unfold evdevHandleEvent at h
  unfold evdevSource
  cases htype : ev.type with
  | syn =>
    simp only [htype, Option.some.injEq] at h
    obtain ⟨_, _, _, hpad, _⟩ := evdevSyn_keeps assigned dev
    rw [← h, hpad]
    rfl
  | key =>
    simp only [htype] at h
    split at h
    · next hcode =>
      rcases hk : evdevKeyboard L ev dev with ⟨keep, dev', sent⟩
      rw [hk] at h
      obtain ⟨rfl, _⟩ := evdevKeyboard_cases hk
      cases h
      simp only [Option.bind_some, driveOf, if_pos hcode]
      rfl
    · next hcode =>
      cases h
      simp only [Option.bind_some, driveOf, if_neg hcode]
      exact evdevButton_pad
  | rel =>
    simp only [htype] at h
    cases h
    simp only [Option.bind_none, movePad, finish, evdevRel]
    split_ifs <;> rfl
  | abs =>
    simp only [htype, Option.map_eq_some_iff] at h
    obtain ⟨⟨dev', modified⟩, habs, rfl⟩ := h
    have hpad := evdevAbs_pad habs
    exact hpad
  | other =>
    simp only [htype] at h
    cases h
    rfl

/-- What no event changes: the mapping and the parameters of the axes. -/
def SameAxes (init dev : InputDevice) : Prop :=
  dev.map = init.map ∧ dev.slotParms = init.slotParms

theorem OnlyPad.sameAxes (h : OnlyPad dev dev' modified) : SameAxes dev dev' := by
  rcases h with ⟨_, rfl⟩ | ⟨_, pad, rfl⟩ <;> exact ⟨rfl, rfl⟩

theorem evdevHandleEvent_sameAxes (h : evdevHandleEvent L assigned ev dev = some r) :
    SameAxes dev r.dev := by
  unfold evdevHandleEvent at h
  cases htype : ev.type with
  | syn =>
    simp only [htype, Option.some.injEq] at h
    rw [← h]
    unfold evdevSyn
    dsimp only
    split <;> exact ⟨rfl, rfl⟩
  | key =>
    simp only [htype] at h
    split at h
    · rcases hk : evdevKeyboard L ev dev with ⟨keep, dev', sent⟩
      rw [hk] at h
      obtain ⟨rfl, _⟩ := evdevKeyboard_cases hk
      cases h
      exact ⟨rfl, rfl⟩
    · rcases hb : evdevButton L ev dev with ⟨dev', modified, sent⟩
      rw [hb] at h
      obtain ⟨_, hdev⟩ := evdevButton_cases hb
      cases h
      exact hdev.sameAxes
  | rel =>
    simp only [htype] at h
    cases h
    simp only [finish, evdevRel]
    split_ifs <;> exact ⟨rfl, rfl⟩
  | abs =>
    simp only [htype, Option.map_eq_some_iff] at h
    obtain ⟨⟨dev', modified⟩, habs, rfl⟩ := h
    exact (evdevAbs_cases habs).sameAxes
  | other =>
    simp only [htype] at h
    cases h
    exact ⟨rfl, rfl⟩

end Moonlight
