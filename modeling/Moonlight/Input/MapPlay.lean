import Moonlight.Lib.Masks
import Moonlight.Input.EvdevShown
import Moonlight.Input.MapAnswers

/-! From the prompts of `evdev_map` over the mapping file to the host: the key or the stick that
answered a prompt plays what the prompt asked for. -/
namespace Moonlight

open Lib.Masks Lib.Trace Lib.LastWriter

variable {map filled : Mapping} {answers : List Answer} {f : ShortField}

section Buttons
variable {L : Limelight} {button : PadButton} {code : UInt16} {flag : BitVec 32} {bit : Nat}
  {src : EvdevSource}

theorem buttonOrder_asked (h : (f, button) ∈ buttonOrder) :
    f ∈ mapCalls.flatMap MapCall.keyMembers := by
  have hall : ∀ e ∈ buttonOrder, e.1 ∈ mapCalls.flatMap MapCall.keyMembers := by decide
  exact hall _ h

theorem buttonOrder_injective {e e' : ShortField × PadButton} (he : e ∈ buttonOrder)
    (he' : e' ∈ buttonOrder) (h : e.1 = e'.1 ∨ e.2 = e'.2) : e = e' := by
  have hall : ∀ e ∈ buttonOrder, ∀ e' ∈ buttonOrder, e.1 = e'.1 ∨ e.2 = e'.2 → e = e' := by
    decide
  exact hall e he e' he' h

theorem toInt_toInt16 (code : UInt16) : code.toInt16.toInt =
    if code.toNat < 32768 then (code.toNat : Int) else code.toNat - 65536 := by
  have hcond : code.toInt16.toInt = code.toBitVec.toInt := rfl
  have hnat : code.toBitVec.toNat = code.toNat := rfl
  rw [hcond, BitVec.toInt_eq_toNat_cond, hnat]
  split_ifs <;> omega

theorem hasCode_ne (h : map.hasCode f code) : map.short f ≠ -1 := by
  intro hnone
  have h : (code.toNat : Int) = (map.short f).toInt := by simpa [Mapping.hasCode] using h
  have hminus : (-1 : Int16).toInt = -1 := by decide
  rw [hnone, hminus] at h
  omega

/-- Nothing but the code that was stored is taken for it. -/
theorem hasCode_storedCode {given : Option UInt16} (hf : filled.short f = storedCode given)
    (h : filled.hasCode f code) : given = some code := by
  have h : (code.toNat : Int) = (storedCode given).toInt := by
    simpa [Mapping.hasCode, hf] using h
  cases given with
  | none =>
    have hnone : (storedCode none).toInt = -1 := by decide
    omega
  | some stored =>
    have hlt := stored.toNat_lt
    rw [storedCode, Option.map_some, Option.getD_some, toInt_toInt16] at h
    have hsame : stored.toNat = code.toNat := by split_ifs at h <;> omega
    rw [UInt16.toNat_inj.mp hsame]

theorem toInt_storedCode (hcode : code.toNat < 32768) :
    (storedCode (some code)).toInt = code.toNat := by
  rw [storedCode, Option.map_some, Option.getD_some, toInt_toInt16, if_pos hcode]

theorem hasCode_given (hf : filled.short f = storedCode (some code)) (hcode : code.toNat < 32768) :
    filled.hasCode f code := by
  simp [Mapping.hasCode, hf, toInt_storedCode hcode]

theorem Limelight.separate_flag (L : Limelight) : Separate L.flag :=
  ⟨L.flag_ne_zero, L.flag_disjoint⟩

theorem flag_bit_lt (hbit : (L.flag button).getLsbD bit = true) : bit < 16 := by
  by_contra hge
  have hlt : (L.flag button).toNat < 2 ^ bit :=
    calc (L.flag button).toNat < 2 ^ 16 := BitVec.lt_def.mp (L.flag_lt button)
      _ ≤ 2 ^ bit := Nat.pow_le_pow_right (by omega) (by omega)
  rw [BitVec.getLsbD, Nat.testBit_lt_two_pow hlt] at hbit
  cases hbit

/-- In the 16 bits of `gamepadCode` and its promotion the flags stay what they are. -/
theorem gamepadCode_bit (hbit : bit < 16) (x : BitVec 32) :
    ((x.setWidth 16).signExtend 32).getLsbD bit = x.getLsbD bit := by
  have hwide : bit < 32 := by omega
  simp only [BitVec.getLsbD_signExtend, BitVec.getLsbD_setWidth, hbit, hwide, if_true, decide_true,
    Bool.true_and]

/-- A key that sets a bit of a button is mapped to this button. -/
theorem gamepadCode_button (hbit : (L.flag button).getLsbD bit = true)
    (h : gamepadCode L map code = some flag) (hflag : flag.getLsbD bit = true) :
    ∃ f, (f, button) ∈ buttonOrder ∧ map.hasCode f code := by
  obtain ⟨⟨f, p⟩, hfind, rfl⟩ := Option.map_eq_some_iff.mp h
  rw [gamepadCode_bit (flag_bit_lt hbit)] at hflag
  have hp : p = button := by
    by_contra hne
    rw [L.separate_flag.getLsbD_eq_false hne hbit] at hflag
    cases hflag
  refine ⟨f, hp ▸ List.mem_of_find?_eq_some hfind, ?_⟩
  simpa using List.find?_some hfind

/-- The key of a button that was given for no other one is its code. -/
theorem gamepadCode_given (hbutton : (f, button) ∈ buttonOrder) (hcode : map.hasCode f code)
    (hown : ∀ g, g ∈ mapCalls.flatMap MapCall.keyMembers → map.hasCode g code → g = f) :
    gamepadCode L map code = some (((L.flag button).setWidth 16).signExtend 32) := by
  rw [gamepadCode]
  cases hfind : buttonOrder.find? fun entry => map.hasCode entry.1 code with
  | none =>
    have hno := List.find?_eq_none.mp hfind _ hbutton
    exact absurd hcode hno
  | some e =>
    have hmem := List.mem_of_find?_eq_some hfind
    have he : e.1 = f := hown _ (buttonOrder_asked hmem) (by simpa using List.find?_some hfind)
    rw [buttonOrder_injective hmem hbutton (Or.inl he)]
    rfl

/-- The axis of the D-pad that steers a button, and its member. -/
def dpadAxis : PadButton → Option (ShortField × AxisSlot)
  | .left | .right => some (.absDpadX, .dpadX)
  | .up | .down => some (.absDpadY, .dpadY)
  | _ => none

theorem dpadAxis_mem {axis : ShortField × AxisSlot} (h : dpadAxis button = some axis) :
    axis ∈ axisOrder := by
  cases button <;> cases h <;> decide

/-- The bits of a button that no D-pad axis steers are driven by its keys only. -/
theorem drives_button (hbit : (L.flag button).getLsbD bit = true)
    (haxis : ∀ axis, dpadAxis button = some axis → ∀ code, map.axisSlot code ≠ some axis.2)
    (h : Drives L map (.flag bit) src) :
    ∃ f code, src = .key code ∧ (f, button) ∈ buttonOrder ∧ map.hasCode f code := by
  obtain ⟨drive, hdrive, hwrite⟩ := h
  cases src with
  | key code =>
    simp only [driveOf, keyDrive] at hdrive
    repeat' split at hdrive
    all_goals cases hdrive
    · next hflag =>
      obtain ⟨f, hf, hcode⟩ := gamepadCode_button hbit hflag hwrite
      exact ⟨f, code, rfl, hf, hcode⟩
    · exact absurd hwrite id
    · exact absurd hwrite id
  | abs code =>
    obtain ⟨slot, hslot, rfl⟩ := Option.map_eq_some_iff.mp hdrive
    have hsteers {p q : PadButton} (h : (L.flag p ||| L.flag q).getLsbD bit = true) :
        button = p ∨ button = q := by
      rw [BitVec.getLsbD_or, Bool.or_eq_true] at h
      by_contra hne
      push Not at hne
      rcases h with h | h
      · exact absurd hbit (by rw [L.separate_flag.getLsbD_eq_false hne.1 h]; decide)
      · exact absurd hbit (by rw [L.separate_flag.getLsbD_eq_false hne.2 h]; decide)
    cases slot with
    | dpadX => rcases hsteers hwrite with rfl | rfl <;> exact absurd hslot (haxis _ rfl code)
    | dpadY => rcases hsteers hwrite with rfl | rfl <;> exact absurd hslot (haxis _ rfl code)
    | _ => exact absurd hwrite id

theorem axisSlot_hasCode {slot : AxisSlot} (h : map.axisSlot code = some slot) :
    ∃ f, (f, slot) ∈ axisOrder ∧ map.hasCode f code := by
  obtain ⟨⟨f, slot⟩, hfind, rfl⟩ := Option.map_eq_some_iff.mp h
  exact ⟨f, List.mem_of_find?_eq_some hfind, by simpa using List.find?_some hfind⟩

theorem axisOrder_asked {e : ShortField × AxisSlot} (h : e ∈ axisOrder) :
    e.1 ∈ mapCalls.flatMap MapCall.axisMembers := by
  have hall : ∀ e ∈ axisOrder, e.1 ∈ mapCalls.flatMap MapCall.axisMembers := by decide
  exact hall e h

theorem axisOrder_injective {e e' : ShortField × AxisSlot} (he : e ∈ axisOrder)
    (he' : e' ∈ axisOrder) (h : e.1 = e'.1 ∨ e.2 = e'.2) : e = e' := by
  have hall : ∀ e ∈ axisOrder, ∀ e' ∈ axisOrder, e.1 = e'.1 ∨ e.2 = e'.2 → e = e' := by
    decide
  exact hall e he e' he' h

/-- No axis is taken for one that was not pushed at its prompt. -/
theorem axisSlot_ne {axis : ShortField × AxisSlot} (hfilled : evdevMap answers map = some filled)
    (haxis : axis ∈ axisOrder)
    (h : ∀ q ∈ mapAsked answers map, q.axis = some axis.1 → lastPushed q.heard = none)
    (code : UInt16) : filled.axisSlot code ≠ some axis.2 := by
  intro hslot
  obtain ⟨f, hf, hcode⟩ := axisSlot_hasCode hslot
  obtain rfl : f = axis.1 := congrArg Prod.fst (axisOrder_injective hf haxis (Or.inr rfl))
  obtain ⟨hstored, _, haxes⟩ := evdevMap_stored hfilled
  obtain ⟨q, hq, hqaxis⟩ := haxes axis.1 (axisOrder_asked haxis)
  refine hasCode_ne hcode ?_
  rw [(hstored q hq).axis _ hqaxis, h q hq hqaxis]
  rfl

/-- A session in which the key was given for this button and at no other prompt: a key beyond the
keyboard table and no mouse button. For a direction of the D-pad, no axis was pushed at the prompt
for an axis in this direction. -/
structure GivenKey (answers : List Answer) (map filled : Mapping) (f : ShortField)
    (button : PadButton) (code : UInt16) : Prop where
  filled_eq : evdevMap answers map = some filled
  given : ∃ q ∈ mapAsked answers map, q.key = some f ∧ lastPressed q.heard = some code
  own : ∀ q ∈ mapAsked answers map, lastPressed q.heard = some code → ∀ g ∈ q.key, g = f
  button_mem : (f, button) ∈ buttonOrder
  beyond_table : keyCodes.length ≤ code.toNat
  fits : code.toNat < 32768
  no_mouse : mouseCode code = none
  no_axis : ∀ axis, dpadAxis button = some axis →
    ∀ q ∈ mapAsked answers map, q.axis = some axis.1 → lastPushed q.heard = none

theorem GivenKey.short_eq (h : GivenKey answers map filled f button code) :
    filled.short f = storedCode (some code) := by
  obtain ⟨q, hq, hkey, hpressed⟩ := h.given
  rw [((evdevMap_stored h.filled_eq).1 q hq).key f hkey, hpressed]

theorem GivenKey.hasCode (h : GivenKey answers map filled f button code) :
    filled.hasCode f code :=
  hasCode_given h.short_eq h.fits

theorem GivenKey.code_eq (h : GivenKey answers map filled f button code) {code' : UInt16}
    (hcode : filled.hasCode f code') : code' = code :=
  (Option.some.inj (hasCode_storedCode h.short_eq hcode)).symm

theorem GivenKey.field_eq (h : GivenKey answers map filled f button code) {g : ShortField}
    (hg : g ∈ mapCalls.flatMap MapCall.keyMembers) (hcode : filled.hasCode g code) : g = f := by
  obtain ⟨hstored, hprompted, _⟩ := evdevMap_stored h.filled_eq
  obtain ⟨q, hq, hkey⟩ := hprompted g hg (hasCode_ne hcode)
  have hpressed := hasCode_storedCode ((hstored q hq).key g hkey) hcode
  exact h.own q hq hpressed g hkey

theorem GivenKey.driveOf (h : GivenKey answers map filled f button code) :
    driveOf L filled (.key code) =
      some (.button (((L.flag button).setWidth 16).signExtend 32)) := by
  have hflag := gamepadCode_given (L := L) h.button_mem h.hasCode fun _ => h.field_eq
  have hbeyond := h.beyond_table
  rw [Moonlight.driveOf, if_neg (by omega), keyDrive, h.no_mouse]
  dsimp only
  rw [hflag]

/-- The bits of the button are driven by this key and nothing else. -/
theorem GivenKey.drives_iff (h : GivenKey answers map filled f button code)
    (hbit : (L.flag button).getLsbD bit = true) :
    Drives L filled (.flag bit) src ↔ src = .key code := by
  constructor
  · intro hdrives
    obtain ⟨g, code', rfl, hg, hcode⟩ := drives_button hbit
      (fun axis haxis => axisSlot_ne h.filled_eq (dpadAxis_mem haxis) (h.no_axis axis haxis)) hdrives
    have hfield := buttonOrder_injective hg h.button_mem (Or.inr rfl)
    cases hfield
    rw [h.code_eq hcode]
  · rintro rfl
    refine ⟨_, h.driveOf, ?_⟩
    rwa [Drive.Writes, gamepadCode_bit (flag_bit_lt hbit)]

theorem shownAlone_button {init : InputDevice} {ev : InputEvent} {pad : Pad}
    (hbit : flag.getLsbD bit = true) (hpad : init.toPad = Pad.neutral)
    (hdrive : (evdevSource ev).bind (driveOf L init.map) = some (.button flag))
    (h : ShownAlone L init (.flag bit) ev pad) :
    pad.buttonFlags.getLsbD bit = true ↔ ev.value ≠ 0 := by
  obtain ⟨alone, hmove, hsame⟩ := h
  have hflags : init.buttonFlags = 0 := congrArg Pad.buttonFlags hpad
  rw [hdrive] at hmove
  cases hmove
  rw [show pad.buttonFlags.getLsbD bit = _ from hsame]
  by_cases hvalue : ev.value = 0 <;> simp [hvalue, hflags, hbit]

variable {a : BitVec 32 × InputEvent} {t : Reporting}
  {run : List ((BitVec 32 × InputEvent) × Reporting)}

/-- A device that loads the saved file, in any run: after each `EV_SYN` the host has the button
down if and only if the key that was given for it is held. -/
theorem mapped_button_plays (fd : Int) (absInfo : Int → AbsInfo) (before : Mapping)
    (h : GivenKey answers map filled f button code)
    (hrun : Run (ReportStep L)
      ⟨newDevice fd absInfo (mappingLoad (mappingSave filled) before).map, []⟩ (run ++ [(a, t)]))
    (hsyn : a.2.type = .syn) :
    button ∈ members L.flag t.told.buttonFlags ↔
      ∃ e, lastOf (fun a => evdevSource a.2) (.key code) (labels run) = some e ∧
        e.2.value ≠ 0 := by
  have hload : (mappingLoad (mappingSave filled) before).map = filled :=
    congrArg Loading.map foldl_loadLine_saved
  rw [hload] at hrun
  refine mem_members_of_alike L.separate_flag fun bit hbit => ?_
  have hshown := host_shows_last fd absInfo filled (fun _ => h.drives_iff hbit) hrun hsyn
  cases hlast : lastOf (fun a => evdevSource a.2) (.key code) (labels run) with
  | none =>
    rw [hlast] at hshown
    have hup : t.told.buttonFlags.getLsbD bit = false := hshown
    simp [hup]
  | some e =>
    rw [hlast] at hshown
    have hdrive : (evdevSource e.2).bind (driveOf L (newDevice fd absInfo filled).map) =
        some (.button (((L.flag button).setWidth 16).signExtend 32)) := by
      rw [(lastOf_mem hlast).2, Option.bind_some]
      exact h.driveOf
    have hflag : (((L.flag button).setWidth 16).signExtend 32).getLsbD bit = true := by
      rwa [gamepadCode_bit (flag_bit_lt hbit)]
    rw [shownAlone_button hflag rfl hdrive hshown]
    simp

/-- A session in which the D-pad is answered by keys for the horizontal directions and by an axis
for the vertical ones. -/
def dpadAnswers : List Answer :=
  [axisAnswer, axisAnswer, keyAnswer, axisAnswer, axisAnswer, keyAnswer,
    [(⟨.key, 547, 1⟩, byteAxes), (⟨.key, 547, 0⟩, byteAxes)],
    [(⟨.key, 546, 1⟩, byteAxes), (⟨.key, 546, 0⟩, byteAxes)],
    [(⟨.abs, 17, 255⟩, byteAxes), (⟨.abs, 17, 127⟩, byteAxes)]] ++ List.replicate 12 keyAnswer

theorem exists_givenRight :
    ∃ filled, GivenKey dpadAnswers .cleared filled .btnDpadRight .right 547 := by
  have hsome : (evdevMap dpadAnswers .cleared).isSome = true := by decide +kernel
  obtain ⟨filled, hfilled⟩ := Option.isSome_iff_exists.mp hsome
  have hheard : ∀ q ∈ mapAsked dpadAnswers .cleared, q.axis = some .absDpadX →
      lastPushed q.heard = none := by decide +kernel
  refine ⟨filled, hfilled, by decide +kernel, by decide +kernel, by decide, by decide, by decide,
    by decide, ?_⟩
  rintro axis ⟨⟩
  exact hheard

/-- The key is pressed, and the host is told. -/
theorem mapped_button_plays_right :
    ∃ filled run a, ∃ t : Reporting, evdevMap dpadAnswers .cleared = some filled ∧
      Run (ReportStep documented) ⟨newDevice 3 (fun _ => ⟨0, 255, 15⟩)
        (mappingLoad (mappingSave filled) .cleared).map, []⟩ (run ++ [(a, t)]) ∧
      .right ∈ members documented.flag t.told.buttonFlags := by
  obtain ⟨filled, h⟩ := exists_givenRight
  have hload : (mappingLoad (mappingSave filled) .cleared).map = filled :=
    congrArg Loading.map foldl_loadLine_saved
  let dev := newDevice 3 (fun _ => ⟨0, 255, 15⟩) (mappingLoad (mappingSave filled) .cleared).map
  have hflag : gamepadCode documented dev.map 547 = some 0x8 := by
    rw [show dev.map = filled from hload]
    exact gamepadCode_given h.button_mem h.hasCode fun _ => h.field_eq
  let pressed : InputDevice :=
    { dev with buttonFlags := dev.buttonFlags ||| 0x8, gamepadModified := true }
  have hpress : ReportStep documented ⟨dev, []⟩ (0, ⟨.key, 547, 1⟩) ⟨pressed, []⟩ :=
    ⟨_, evdevHandleEvent_press (by decide) (by decide) hflag, rfl, rfl⟩
  have hsyn : ReportStep documented ⟨pressed, []⟩ (0, ⟨.syn, 0, 0⟩)
      ⟨(evdevSyn 0 pressed).dev, reports (evdevSyn 0 pressed).sent⟩ := ⟨_, rfl, rfl, rfl⟩
  have hrun : Run (ReportStep documented) ⟨dev, []⟩
      ([((0, ⟨.key, 547, 1⟩), ⟨pressed, []⟩)] ++ [((0, ⟨.syn, 0, 0⟩), _)]) :=
    ⟨hpress, hsyn, trivial⟩
  refine ⟨filled, _, _, _, h.filled_eq, hrun, ?_⟩
  rw [mapped_button_plays 3 (fun _ => ⟨0, 255, 15⟩) .cleared h hrun rfl]
  exact ⟨(0, ⟨.key, 547, 1⟩), rfl, one_ne_zero⟩

end Buttons

end Moonlight
