import Moonlight.Lib.LastWriter
import Moonlight.Input.EvdevPad

/-! A pad whose keys are all released and whose axes are all at rest is neutral again. Keys and axes
may share a flag or a trigger; each is a writer of its own. -/
namespace Moonlight

open Lib.Machine Lib.Trace Lib.LastWriter

variable {L : Limelight} {map : Mapping} {parms : InputAbsParms} {ev : InputEvent}
  {dev : InputDevice} {pad pad' : Pad} {drive : Drive} {slot : AxisSlot}

def PadRegister.Neutral (pad : Pad) : PadRegister → Prop
  | .flag bit => pad.buttonFlags.getLsbD bit = false
  | .leftTrigger => pad.leftTrigger = 0
  | .rightTrigger => pad.rightTrigger = 0
  | .leftX => pad.leftStickX = 0
  | .leftY => pad.leftStickY = 0
  | .rightX => pad.rightStickX = 0
  | .rightY => pad.rightStickY = 0

theorem neutral_of_registers (h : ∀ reg : PadRegister, reg.Neutral pad) : pad = Pad.neutral := by
  have hflags : pad.buttonFlags = 0 := flags_eq_zero fun bit => h (.flag bit)
  cases pad
  simp only [Pad.neutral, Pad.mk.injEq]
  exact ⟨hflags, h .leftTrigger, h .rightTrigger, h .leftX, h .leftY, h .rightX, h .rightY⟩

/-- What is driven writes this register, also when it comes to rest. -/
def Drive.Writes (L : Limelight) : Drive → PadRegister → Prop
  | .button flag, .flag bit => flag.getLsbD bit = true
  | .trigger false, .leftTrigger => True
  | .trigger true, .rightTrigger => True
  | .axis .leftX, .leftX => True
  | .axis .leftY, .leftY => True
  | .axis .rightX, .rightX => True
  | .axis .rightY, .rightY => True
  | .axis .leftTrigger, .leftTrigger => True
  | .axis .rightTrigger, .rightTrigger => True
  | .axis .dpadX, .flag bit => (L.flag .right ||| L.flag .left).getLsbD bit = true
  | .axis .dpadY, .flag bit => (L.flag .down ||| L.flag .up).getLsbD bit = true
  | _, _ => False

/-- An axis value at which nothing is pushed. -/
def Resting (parms : InputAbsParms) (v : Int) : AxisSlot → Prop
  | .leftX | .leftY | .rightX | .rightY => |v - parms.avg| < parms.flat
  | .leftTrigger | .rightTrigger => v = parms.min ∨ |v - parms.min| < parms.flat
  | .dpadX | .dpadY => |v - parms.avg| ≤ parms.range.tdiv 4

/-- A released key, or an axis at rest in the place it is mapped to. -/
def AtRest (dev : InputDevice) (ev : InputEvent) : Prop :=
  match ev.type with
  | .key => ev.value = 0
  | .abs => ∀ slot, dev.map.axisSlot ev.code = some slot → Resting (dev.slotParms slot) ev.value slot
  | _ => True

theorem cabs_wrap_le (x : Int) : cabs (wrap 32 x) ≤ |x| :=
  calc cabs (wrap 32 x) ≤ |cabs (wrap 32 x)| := le_abs_self _
    _ ≤ abs |wrap 32 x| := abs_wrap_le 32 _
    _ = |wrap 32 x| := abs_abs _
    _ ≤ |x| := abs_wrap_le 32 x

theorem convert_resting (h : |ev.value - parms.avg| < parms.flat) (reverse : Bool) :
    evdevConvertValue ev parms reverse = some 0 := by
  rw [evdevConvertValue, if_pos (lt_of_le_of_lt (cabs_wrap_le _) h)]

/-- An axis with a dead zone that makes sense, whose ends are in order if it has none. -/
def Upright (parms : InputAbsParms) : Prop :=
  0 ≤ parms.flat ∧ (parms.flat = 0 → parms.min ≤ parms.max)

theorem convertByte_resting (hup : Upright parms)
    (h : ev.value = parms.min ∨ |ev.value - parms.min| < parms.flat) {b : BitVec 8}
    (hb : evdevConvertValueByte ev parms = some b) : b = 0 := by
  unfold evdevConvertValueByte at hb
  by_cases hin : |ev.value - parms.min| < parms.flat
  · rw [if_pos (lt_of_le_of_lt (cabs_wrap_le _) hin)] at hb
    exact (Option.some.inj hb).symm
  · have hv : ev.value = parms.min := h.resolve_right hin
    have hflat : parms.flat = 0 := by
      rw [hv, sub_self, abs_zero] at hin
      have := hup.1
      omega
    have hle := hup.2 hflat
    rw [hv, hflat, if_neg (by simp [cabs, wrap]), if_neg (by omega)] at hb
    split at hb
    · cases hb
    · simpa [wrap] using hb.symm

/-- The parameters that `evdev_init_parms` stores keep the D-pad thresholds inside an `int`. -/
theorem direction_resting {code : Int} {axes : Libevdev} (hparms : parms = evdevInitParms axes code)
    (h : |ev.value - parms.avg| ≤ parms.range.tdiv 4) (reverse : Bool) :
    evdevConvertValueDirection ev parms reverse = 0 := by
  have hhalf := mul_tdiv_bounds (wrap 32 ((axes.absInfo code).minimum + (axes.absInfo code).maximum))
    (show (0 : Int) < 2 by omega)
  have hsum := wrap_int_bounds ((axes.absInfo code).minimum + (axes.absInfo code).maximum)
  have hrange := wrap_int_bounds ((axes.absInfo code).maximum - parms.avg)
  have hq := mul_tdiv_bounds parms.range (show (0 : Int) < 4 by omega)
  have havg : parms.avg = (wrap 32 ((axes.absInfo code).minimum +
    (axes.absInfo code).maximum)).tdiv 2 := by rw [hparms]; rfl
  have hr : parms.range = wrap 32 ((axes.absInfo code).maximum - parms.avg) := by rw [hparms]; rfl
  have hplus : wrap 32 (parms.avg + parms.range.tdiv 4) = _ := wrap_int (by omega) (by omega)
  have hminus : wrap 32 (parms.avg - parms.range.tdiv 4) = _ := wrap_int (by omega) (by omega)
  have hv := abs_le.mp h
  rw [evdevConvertValueDirection, hplus, hminus, if_neg (by omega), if_neg (by omega)]

/-- The D-pad blocks touch no other bit. -/
theorem steerDpad_other {flags : BitVec 32} {dir : Int} {ahead behind : PadButton} {bit : Nat}
    (hbit : (L.flag ahead ||| L.flag behind).getLsbD bit = false)
    (h : flags.getLsbD bit = false) : (steerDpad L flags dir ahead behind).getLsbD bit = false := by
  simp only [BitVec.getLsbD_or, Bool.or_eq_false_iff] at hbit
  unfold steerDpad
  split_ifs <;> simp [h, hbit.1, hbit.2]

theorem steerDpad_zero {flags : BitVec 32} {ahead behind : PadButton} {bit : Nat}
    (hbit : (L.flag ahead ||| L.flag behind).getLsbD bit = true) :
    (steerDpad L flags 0 ahead behind).getLsbD bit = false := by
  simp only [BitVec.getLsbD_or, Bool.or_eq_true] at hbit
  rcases hbit with hbit | hbit <;> simp [steerDpad, hbit]

/-- An axis leaves the registers it does not write. -/
theorem moveAxis_untouched {reg : PadRegister} (h : moveAxis L map parms ev pad slot = some pad')
    (hw : ¬ (Drive.axis slot).Writes L reg) (hn : reg.Neutral pad) : reg.Neutral pad' := by
  cases slot with
  | dpadX =>
    cases h
    cases reg with
    | flag bit => exact steerDpad_other (by simpa [Drive.Writes] using hw) hn
    | _ => exact hn
  | dpadY =>
    cases h
    cases reg with
    | flag bit => exact steerDpad_other (by simpa [Drive.Writes] using hw) hn
    | _ => exact hn
  | _ =>
    obtain ⟨v, _, rfl⟩ := Option.map_eq_some_iff.mp h
    cases reg <;> first | exact hn | exact absurd trivial hw

/-- An event leaves the registers it does not write. -/
theorem movePad_untouched {reg : PadRegister} {drive : Option Drive}
    (h : movePad L dev ev drive = some pad') (hw : ∀ d, drive = some d → ¬ d.Writes L reg)
    (hn : reg.Neutral dev.toPad) : reg.Neutral pad' := by
  cases drive with
  | none =>
    cases h
    exact hn
  | some d =>
    have hw := hw d rfl
    cases d with
    | button flag =>
      cases h
      cases reg with
      | flag bit =>
        have hbit : flag.getLsbD bit = false := by simpa [Drive.Writes] using hw
        have hn : dev.buttonFlags.getLsbD bit = false := hn
        simp only [PadRegister.Neutral]
        split_ifs <;> simp [hn, hbit]
      | _ => exact hn
    | trigger right =>
      cases right <;> cases h <;> cases reg <;> first | exact hn | exact absurd trivial hw
    | axis slot => exact moveAxis_untouched h hw hn

/-- An axis at rest leaves every register it writes neutral. -/
theorem moveAxis_resting {reg : PadRegister} {axes : Libevdev} {code : Int}
    (h : moveAxis L map parms ev pad slot = some pad')
    (hparms : parms = evdevInitParms axes code) (hrest : Resting parms ev.value slot)
    (hup : slot = .leftTrigger ∨ slot = .rightTrigger → Upright parms)
    (hw : (Drive.axis slot).Writes L reg) : reg.Neutral pad' := by
  cases slot with
  | leftTrigger =>
    obtain ⟨v, hv, rfl⟩ := Option.map_eq_some_iff.mp h
    have hzero := convertByte_resting (hup (Or.inl rfl)) hrest hv
    cases reg <;> first | exact hzero | exact absurd hw id
  | rightTrigger =>
    obtain ⟨v, hv, rfl⟩ := Option.map_eq_some_iff.mp h
    have hzero := convertByte_resting (hup (Or.inr rfl)) hrest hv
    cases reg <;> first | exact hzero | exact absurd hw id
  | dpadX =>
    rw [moveAxis, direction_resting hparms hrest] at h
    cases h
    cases reg with
    | flag bit => exact steerDpad_zero hw
    | _ => exact absurd hw id
  | dpadY =>
    rw [moveAxis, direction_resting hparms hrest] at h
    cases h
    cases reg with
    | flag bit => exact steerDpad_zero hw
    | _ => exact absurd hw id
  | _ =>
    rw [moveAxis, convert_resting hrest] at h
    cases h
    cases reg <;> first | rfl | exact absurd hw id

/-- A key at rest, or an axis, leaves every register it writes neutral. -/
theorem movePad_resting {reg : PadRegister} {src : EvdevSource} {drive : Drive}
    (h : movePad L dev ev (some drive) = some pad') (hsrc : evdevSource ev = some src)
    (hdrive : driveOf L dev.map src = some drive) (hrest : AtRest dev ev)
    (hparms : ∀ slot, ∃ axes code, dev.slotParms slot = evdevInitParms axes code)
    (hup : ∀ slot, slot = .leftTrigger ∨ slot = .rightTrigger → Upright (dev.slotParms slot))
    (hw : drive.Writes L reg) : reg.Neutral pad' := by
  unfold evdevSource at hsrc
  cases htype : ev.type with
  | key =>
    simp only [htype, Option.some.injEq] at hsrc
    simp only [AtRest, htype] at hrest
    cases drive with
    | button flag =>
      cases h
      cases reg with
      | flag bit =>
        have hbit : flag.getLsbD bit = true := hw
        simp [PadRegister.Neutral, hrest, hbit]
      | _ => exact absurd hw id
    | trigger right =>
      simp only [movePad, hrest] at h
      cases right <;> cases h <;> cases reg <;> first | rfl | exact absurd hw id
    | axis slot =>
      subst hsrc
      simp only [driveOf] at hdrive
      split at hdrive
      · cases hdrive
      · unfold keyDrive at hdrive
        repeat' split at hdrive
        all_goals cases hdrive
  | abs =>
    simp only [htype, Option.some.injEq] at hsrc
    simp only [AtRest, htype] at hrest
    subst hsrc
    obtain ⟨slot, hslot, rfl⟩ := Option.map_eq_some_iff.mp hdrive
    obtain ⟨axes, code, hinit⟩ := hparms slot
    exact moveAxis_resting h hinit (hrest slot hslot) (hup slot) hw
  | _ =>
    simp only [htype] at hsrc
    cases hsrc

/-- One event on the device; other devices may have changed the assigned ids in between. -/
def PadStep (L : Limelight) (s : InputDevice) (a : BitVec 32 × InputEvent) (t : InputDevice) :
    Prop :=
  ∃ r, evdevHandleEvent L a.1 a.2 s = some r ∧ t = r.dev

variable {init s t : InputDevice} {a : BitVec 32 × InputEvent}
  {run : List ((BitVec 32 × InputEvent) × InputDevice)}

theorem PadStep.sameAxes (h : PadStep L s a t) (hs : SameAxes init s) : SameAxes init t := by
  obtain ⟨r, hr, rfl⟩ := h
  have hstep := evdevHandleEvent_sameAxes hr
  exact ⟨hstep.1.trans hs.1, hstep.2.trans hs.2⟩

/-- The run ends with every key released and every axis at rest. -/
def Released (init : InputDevice) (events : List (BitVec 32 × InputEvent)) : Prop :=
  Settled (fun a => evdevSource a.2) (fun a => AtRest init a.2) events

theorem newDevice_slotParms (fd : Int) (absInfo : Int → AbsInfo) (map : Mapping) (slot : AxisSlot) :
    ∃ axes code, (newDevice fd absInfo map).slotParms slot = evdevInitParms axes code := by
  cases slot <;> exact ⟨_, _, rfl⟩

/-- No step lets go of a register it does not write. -/
theorem padStep_untouched {reg : PadRegister} (h : PadStep L s a t) (hs : SameAxes init s)
    (hw : ∀ src, evdevSource a.2 = some src →
      ¬ ∃ drive, driveOf L init.map src = some drive ∧ drive.Writes L reg)
    (hn : reg.Neutral s.toPad) : reg.Neutral t.toPad := by
  obtain ⟨r, hr, rfl⟩ := h
  apply movePad_untouched (evdevHandleEvent_pad hr) _ hn
  intro drive hdrive hwrite
  obtain ⟨src, hsrc, hdrive⟩ := Option.bind_eq_some_iff.mp hdrive
  rw [hs.1] at hdrive
  exact hw src hsrc ⟨drive, hdrive, hwrite⟩

theorem padStep_resting {reg : PadRegister} {src : EvdevSource} (h : PadStep L s a t)
    (hs : SameAxes init s) (hrest : AtRest init a.2)
    (hparms : ∀ slot, ∃ axes code, init.slotParms slot = evdevInitParms axes code)
    (hup : ∀ slot, slot = .leftTrigger ∨ slot = .rightTrigger → Upright (init.slotParms slot))
    (hsrc : evdevSource a.2 = some src)
    (hw : ∃ drive, driveOf L init.map src = some drive ∧ drive.Writes L reg) :
    reg.Neutral t.toPad := by
  obtain ⟨r, hr, rfl⟩ := h
  obtain ⟨drive, hdrive, hw⟩ := hw
  have hpad := evdevHandleEvent_pad hr
  rw [hsrc, Option.bind_some, hs.1, hdrive] at hpad
  rw [← hs.1] at hdrive
  apply movePad_resting hpad hsrc hdrive
  · unfold AtRest at hrest ⊢
    rw [hs.1, hs.2]
    exact hrest
  · rw [hs.2]
    exact hparms
  · rw [hs.2]
    exact hup
  · exact hw

/-- Whatever keys and axes share, a pad is neutral once they are all released. -/
theorem released_pad_neutral (fd : Int) (absInfo : Int → AbsInfo) (map : Mapping)
    (hup : ∀ slot, slot = .leftTrigger ∨ slot = .rightTrigger →
      Upright ((newDevice fd absInfo map).slotParms slot))
    (hrun : Run (PadStep L) (newDevice fd absInfo map) run)
    (hrel : Released (newDevice fd absInfo map) (labels run)) :
    (final (newDevice fd absInfo map) run).toPad = Pad.neutral := by
  apply neutral_of_registers
  intro reg
  apply neutral_of_settled (N := fun dev => reg.Neutral dev.toPad)
    (W := fun src => ∃ drive, driveOf L map src = some drive ∧ drive.Writes L reg)
    (fun s a t h hs => h.sameAxes hs) _ _ hrun ⟨rfl, rfl⟩ _ hrel
  · intro s a t h hs hw hn
    exact padStep_untouched h hs hw hn
  · intro s a t h hs hrest src hsrc hw
    exact padStep_resting h hs hrest (newDevice_slotParms fd absInfo map) hup hsrc hw
  · cases reg with
    | flag bit => exact BitVec.getLsbD_zero
    | _ => rfl

/-- A trigger key pulls its trigger or lets it go. -/
theorem evdevHandleEvent_trigger {c : UInt16} {v : Int} {assigned : BitVec 32} (hc : 121 ≤ c.toNat)
    (hm : mouseCode c = none) (hf : gamepadCode L dev.map c = none)
    (htl : dev.map.hasCode .btnTl2 c = true) :
    evdevHandleEvent L assigned ⟨.key, c, v⟩ dev = some ⟨true,
      { dev with leftTrigger := if v ≠ 0 then 255 else 0, gamepadModified := true },
      assigned, []⟩ := by
  have hlen : ¬ c.toNat < 121 := by omega
  simp [evdevHandleEvent, hlen, evdevButton, hm, hf, htl, finish]

/-- The left trigger of a pad with the shipped mapping, pulled as an axis and as a key, then let
go. -/
theorem released_pad_neutral_trigger :
    let dev := newDevice 3 (fun _ => ⟨0, 255, 15⟩) defaultMapping
    ({ dev with leftTrigger := 0, gamepadModified := true } : InputDevice).toPad = Pad.neutral := by
  intro dev
  have hmouse : mouseCode 312 = none := by decide
  have hbutton : gamepadCode documented defaultMapping 312 = none := by decide
  have htl : defaultMapping.hasCode .btnTl2 312 = true := by decide
  have hkey (v : Int) (b : BitVec 8) : evdevHandleEvent documented 0 ⟨.key, 312, v⟩
      { dev with leftTrigger := b, gamepadModified := true } = some ⟨true,
      { dev with leftTrigger := if v ≠ 0 then 255 else 0, gamepadModified := true }, 0, []⟩ :=
    evdevHandleEvent_trigger (by decide) hmouse hbutton htl
  have hrun : Run (PadStep documented) dev
      [((0, ⟨.abs, 2, 200⟩), { dev with leftTrigger := 196, gamepadModified := true }),
        ((0, ⟨.key, 312, 1⟩), { dev with leftTrigger := 255, gamepadModified := true }),
        ((0, ⟨.abs, 2, 10⟩), { dev with leftTrigger := 0, gamepadModified := true }),
        ((0, ⟨.key, 312, 0⟩), { dev with leftTrigger := 0, gamepadModified := true })] :=
    ⟨⟨_, rfl, rfl⟩, ⟨_, hkey 1 196, rfl⟩, ⟨_, rfl, rfl⟩, ⟨_, hkey 0 0, rfl⟩, trivial⟩
  apply released_pad_neutral 3 (fun _ => ⟨0, 255, 15⟩) defaultMapping _ hrun
  · rintro (code | code) ev hlast
    · by_cases hcode : (312 : UInt16) = code
      · simp [labels, lastOf, evdevSource, hcode] at hlast
        rw [← hlast]
        rfl
      · simp [labels, lastOf, evdevSource, hcode] at hlast
    · by_cases hcode : (2 : UInt16) = code
      · simp [labels, lastOf, evdevSource, hcode] at hlast
        have haxis : dev.map.axisSlot 2 = some .leftTrigger := by decide
        rw [← hlast, ← hcode]
        intro slot hslot
        rw [haxis] at hslot
        cases hslot
        exact Or.inr (by decide)
      · simp [labels, lastOf, evdevSource, hcode] at hlast
  · rintro slot (rfl | rfl) <;> exact ⟨by decide, by decide⟩

/-- A trigger whose ends are reversed reads as fully pulled at its minimum. -/
theorem reversed_trigger_pulled :
    let dev := newDevice 3 (fun _ => ⟨255, 0, 0⟩) defaultMapping
    ∃ run, Run (PadStep documented) dev run ∧ Released dev (labels run) ∧
      (final dev run).toPad ≠ Pad.neutral := by
  intro dev
  refine ⟨[((0, ⟨.abs, 2, 255⟩), { dev with leftTrigger := 255, gamepadModified := true })],
    ⟨⟨_, rfl, rfl⟩, trivial⟩, ?_, by decide⟩
  intro src ev hlast
  obtain ⟨hmem, _⟩ := lastOf_mem hlast
  obtain rfl := List.mem_singleton.mp hmem
  intro slot hslot
  have haxis : dev.map.axisSlot 2 = some .leftTrigger := by decide
  rw [haxis] at hslot
  cases hslot
  exact Or.inl rfl

end Moonlight
