import Moonlight.Input.EvdevStickRange
import Moonlight.Input.MapPlay

/-! From the prompts for the sticks to the host: a stick that is pushed the way it was pushed at its
prompt points right or up. -/
namespace Moonlight

open Lib.Trace Lib.LastWriter

/-- The axes of the two sticks. -/
inductive StickAxis where
  | leftX | leftY | rightX | rightY

namespace StickAxis

def member : StickAxis → ShortField
  | leftX => .absX
  | leftY => .absY
  | rightX => .absRx
  | rightY => .absRy

def reverse : StickAxis → FlagField
  | leftX => .reverseX
  | leftY => .reverseY
  | rightX => .reverseRx
  | rightY => .reverseRy

def slot : StickAxis → AxisSlot
  | leftX => .leftX
  | leftY => .leftY
  | rightX => .rightX
  | rightY => .rightY

def register : StickAxis → PadRegister
  | leftX => .leftX
  | leftY => .leftY
  | rightX => .rightX
  | rightY => .rightY

/-- Where the stick stands in a report. -/
def value (pad : Pad) : StickAxis → Int
  | leftX => pad.leftStickX
  | leftY => pad.leftStickY
  | rightX => pad.rightStickX
  | rightY => pad.rightStickY

end StickAxis

variable {L : Limelight} {map filled : Mapping} {answers : List Answer} {axis : StickAxis}
  {code : UInt16} {down : Bool} {src : EvdevSource} {pad pad' : Pad} {ev : InputEvent}

/-- A session in which this axis was pushed for the stick, and for nothing else. -/
structure GivenStick (answers : List Answer) (map filled : Mapping) (axis : StickAxis)
    (code : UInt16) (down : Bool) : Prop where
  filled_eq : evdevMap answers map = some filled
  given : ∃ q ∈ mapAsked answers map, q.axis = some axis.member ∧ q.reverse = some axis.reverse ∧
    lastPushed q.heard = some (code, down)
  own : ∀ q ∈ mapAsked answers map, (lastPushed q.heard).map (·.1) = some code →
    ∀ g ∈ q.axis, g = axis.member
  fits : code.toNat < 32768

theorem GivenStick.short_eq (h : GivenStick answers map filled axis code down) :
    filled.short axis.member = storedCode (some code) := by
  obtain ⟨q, hq, haxis, _, hpushed⟩ := h.given
  rw [((evdevMap_stored h.filled_eq).1 q hq).axis _ haxis, hpushed]
  rfl

theorem GivenStick.flag_eq (h : GivenStick answers map filled axis code down) :
    filled.flag axis.reverse = down := by
  obtain ⟨q, hq, _, hreverse, hpushed⟩ := h.given
  exact ((evdevMap_stored h.filled_eq).1 q hq).reverse _ _ hreverse hpushed

theorem StickAxis.mem_axisOrder (axis : StickAxis) : (axis.member, axis.slot) ∈ axisOrder := by
  cases axis <;> decide

/-- The axis is recognised as the stick. -/
theorem GivenStick.axisSlot_eq (h : GivenStick answers map filled axis code down) :
    filled.axisSlot code = some axis.slot := by
  have hcode := hasCode_given h.short_eq h.fits
  rw [Mapping.axisSlot]
  cases hfind : axisOrder.find? fun entry => filled.hasCode entry.1 code with
  | none =>
    have hno := List.find?_eq_none.mp hfind _ axis.mem_axisOrder
    exact absurd hcode hno
  | some e =>
    have hmem := List.mem_of_find?_eq_some hfind
    obtain ⟨hstored, _, haxes⟩ := evdevMap_stored h.filled_eq
    obtain ⟨q, hq, hqaxis⟩ := haxes e.1 (axisOrder_asked hmem)
    have hpushed := hasCode_storedCode ((hstored q hq).axis _ hqaxis)
      (by simpa using List.find?_some hfind)
    have hfield := h.own q hq hpushed _ hqaxis
    rw [axisOrder_injective hmem axis.mem_axisOrder (Or.inl hfield)]
    rfl

theorem driveOf_axis {slot : AxisSlot} (h : driveOf L map src = some (.axis slot)) :
    ∃ code, src = .abs code ∧ map.axisSlot code = some slot := by
  cases src with
  | key code =>
    simp only [driveOf, keyDrive] at h
    repeat' split at h
    all_goals cases h
  | abs code =>
    obtain ⟨slot', hslot, heq⟩ := Option.map_eq_some_iff.mp h
    cases heq
    exact ⟨code, rfl, hslot⟩

theorem StickAxis.drive_eq {drive : Drive} (h : drive.Writes L axis.register) :
    drive = .axis axis.slot := by
  cases axis <;> cases drive with
  | button flag => exact absurd h id
  | trigger right => cases right <;> exact absurd h id
  | axis slot => cases slot <;> first | rfl | exact absurd h id

/-- Nothing else drives the stick. -/
theorem GivenStick.drives_iff (h : GivenStick answers map filled axis code down) :
    Drives L filled axis.register src ↔ src = .abs code := by
  constructor
  · rintro ⟨drive, hdrive, hwrite⟩
    rw [StickAxis.drive_eq hwrite] at hdrive
    obtain ⟨code', rfl, hslot⟩ := driveOf_axis hdrive
    obtain ⟨g, hg, hcode⟩ := axisSlot_hasCode hslot
    have hfield := axisOrder_injective hg axis.mem_axisOrder (Or.inr rfl)
    cases hfield
    rw [Option.some.inj (hasCode_storedCode h.short_eq hcode)]
  · rintro rfl
    refine ⟨.axis axis.slot, by rw [driveOf, h.axisSlot_eq]; rfl, ?_⟩
    cases axis <;> trivial

theorem StickAxis.value_eq (h : axis.register.Same pad pad') : axis.value pad = axis.value pad' := by
  cases axis <;> exact h

/-- What is shown of a stick is its converted position. -/
theorem shownAlone_stick {init : InputDevice}
    (hdrive : (evdevSource ev).bind (driveOf L init.map) = some (.axis axis.slot))
    (h : ShownAlone L init axis.register ev pad) :
    evdevConvertValue ev (init.slotParms axis.slot) (init.map.flag axis.reverse) =
      some (axis.value pad) := by
  obtain ⟨alone, hmove, hsame⟩ := h
  rw [hdrive] at hmove
  rw [StickAxis.value_eq hsame]
  cases axis <;> obtain ⟨v, hv, rfl⟩ := Option.map_eq_some_iff.mp hmove <;> exact hv

theorem Stick.convert_min {parms : InputAbsParms} (hs : Stick parms) (reverse : Bool)
    (hv : ev.value = parms.min) :
    evdevConvertValue ev parms reverse = some (if reverse then 32767 else -32768) := by
  have hlt := hs.min_lt_max
  rw [hs.convert_live ev reverse hv.ge (by omega) (hs.ends_live (Or.inl hv.le)), hv, hs.place_min]
  cases reverse with
  | true => exact congrArg some (onScale_self hs.live_pos)
  | false => exact congrArg some (onScale_zero _)

theorem Stick.convert_max {parms : InputAbsParms} (hs : Stick parms) (reverse : Bool)
    (hv : ev.value = parms.max) :
    evdevConvertValue ev parms reverse = some (if reverse then -32768 else 32767) := by
  have hlt := hs.min_lt_max
  rw [hs.convert_live ev reverse (by omega) hv.le (hs.ends_live (Or.inr hv.ge)), hv, hs.place_max]
  cases reverse with
  | true => exact congrArg some (onScale_zero _)
  | false => exact congrArg some (onScale_self hs.live_pos)

variable {a e : BitVec 32 × InputEvent} {t : Reporting}
  {run : List ((BitVec 32 × InputEvent) × Reporting)}

/-- A device that loads the saved file, in any run: after each `EV_SYN` the host has the stick all
the way where the prompt asked for it when the axis is at the end it was pushed to, all the way
back when it is at the other end, and at 0 in the dead zone. -/
theorem mapped_stick_plays (fd : Int) (absInfo : Int → AbsInfo) (before : Mapping)
    (h : GivenStick answers map filled axis code down) (hfits : StickFits ⟨fd, absInfo⟩ code.toNat)
    (hrun : Run (ReportStep L)
      ⟨newDevice fd absInfo (mappingLoad (mappingSave filled) before).map, []⟩ (run ++ [(a, t)]))
    (hsyn : a.2.type = .syn)
    (hlast : lastOf (fun a => evdevSource a.2) (.abs code) (labels run) = some e) :
    let parms := evdevInitParms ⟨fd, absInfo⟩ code.toNat
    (e.2.value = (if down then parms.min else parms.max) → axis.value t.told = 32767) ∧
    (e.2.value = (if down then parms.max else parms.min) → axis.value t.told = -32768) ∧
    (|e.2.value - parms.avg| < parms.flat → axis.value t.told = 0) := by
  intro parms
  have hload : (mappingLoad (mappingSave filled) before).map = filled :=
    congrArg Loading.map foldl_loadLine_saved
  rw [hload] at hrun
  have hshown := host_shows_last fd absInfo filled (fun _ => h.drives_iff) hrun hsyn
  rw [hlast] at hshown
  have hdrive : (evdevSource e.2).bind (driveOf L (newDevice fd absInfo filled).map) =
      some (.axis axis.slot) := by
    rw [(lastOf_mem hlast).2, Option.bind_some]
    show driveOf L filled (.abs code) = _
    rw [driveOf, h.axisSlot_eq]
    rfl
  have hparms : (newDevice fd absInfo filled).slotParms axis.slot = parms := by
    have hslot : (newDevice fd absInfo filled).slotParms axis.slot =
        evdevInitParms ⟨fd, absInfo⟩ (filled.short axis.member).toInt := by
      cases axis <;> rfl
    rw [hslot, h.short_eq, toInt_storedCode h.fits]
  have hconvert : evdevConvertValue e.2 parms down = some (axis.value t.told) := by
    rw [← h.flag_eq, ← hparms]
    exact shownAlone_stick hdrive hshown
  refine ⟨fun hv => ?_, fun hv => ?_, fun hv => ?_⟩
  · cases down with
    | true => exact Option.some.inj (hconvert.symm.trans (hfits.stick.convert_min true hv))
    | false => exact Option.some.inj (hconvert.symm.trans (hfits.stick.convert_max false hv))
  · cases down with
    | true => exact Option.some.inj (hconvert.symm.trans (hfits.stick.convert_max true hv))
    | false => exact Option.some.inj (hconvert.symm.trans (hfits.stick.convert_min false hv))
  · exact Option.some.inj (hconvert.symm.trans (convert_resting hv down))

/-- An axis that is pushed to its upper end and let go. -/
def stickAnswer (code : UInt16) : Answer :=
  [(⟨.abs, code, 255⟩, byteAxes), (⟨.abs, code, 127⟩, byteAxes)]

/-- Each direction of the sticks is answered by an axis of its own. -/
def stickAnswers : List Answer :=
  [stickAnswer 0, stickAnswer 1, keyAnswer, stickAnswer 3, stickAnswer 4] ++
    List.replicate 16 keyAnswer

theorem exists_givenStick :
    ∃ filled, GivenStick stickAnswers .cleared filled .leftX 0 false := by
  have hsome : (evdevMap stickAnswers .cleared).isSome = true := by decide +kernel
  obtain ⟨filled, hfilled⟩ := Option.isSome_iff_exists.mp hsome
  exact ⟨filled, hfilled, by decide +kernel, by decide +kernel, by decide⟩

/-- The stick is pushed to the right, and the host is told. -/
theorem mapped_stick_plays_right :
    ∃ filled run a, ∃ t : Reporting, evdevMap stickAnswers .cleared = some filled ∧
      Run (ReportStep documented) ⟨newDevice 3 (fun _ => ⟨0, 255, 15⟩)
        (mappingLoad (mappingSave filled) .cleared).map, []⟩ (run ++ [(a, t)]) ∧
      t.told.leftStickX = 32767 := by
  obtain ⟨filled, h⟩ := exists_givenStick
  have hload : (mappingLoad (mappingSave filled) .cleared).map = filled :=
    congrArg Loading.map foldl_loadLine_saved
  let dev := newDevice 3 (fun _ => ⟨0, 255, 15⟩) (mappingLoad (mappingSave filled) .cleared).map
  have hcode : dev.map.hasCode .absX 0 = true := by
    rw [show dev.map = filled from hload]
    exact hasCode_given h.short_eq h.fits
  let pushed : InputDevice := { dev with leftStickX := 32767, gamepadModified := true }
  have hconvert : evdevConvertValue ⟨.abs, 0, 255⟩ dev.xParms (dev.map.flag .reverseX) =
      some 32767 := by
    rw [show dev.map = filled from hload, show filled.flag .reverseX = false from h.flag_eq]
    rfl
  have hpush : ReportStep documented ⟨dev, []⟩ (0, ⟨.abs, 0, 255⟩) ⟨pushed, []⟩ := by
    refine ⟨⟨true, pushed, 0, []⟩, ?_, rfl, rfl⟩
    simp [evdevHandleEvent, evdevAbs, hcode, hconvert, finish, pushed]
  have hsyn : ReportStep documented ⟨pushed, []⟩ (0, ⟨.syn, 0, 0⟩)
      ⟨(evdevSyn 0 pushed).dev, reports (evdevSyn 0 pushed).sent⟩ := ⟨_, rfl, rfl, rfl⟩
  have hrun : Run (ReportStep documented) ⟨dev, []⟩
      ([((0, ⟨.abs, 0, 255⟩), ⟨pushed, []⟩)] ++ [((0, ⟨.syn, 0, 0⟩), _)]) :=
    ⟨hpush, hsyn, trivial⟩
  have hfits : StickFits ⟨3, fun _ => ⟨0, 255, 15⟩⟩ (0 : UInt16).toNat := by
    constructor <;> decide
  refine ⟨filled, _, _, _, h.filled_eq, hrun, ?_⟩
  exact (mapped_stick_plays 3 (fun _ => ⟨0, 255, 15⟩) .cleared h hfits hrun rfl rfl).1 rfl

end Moonlight
