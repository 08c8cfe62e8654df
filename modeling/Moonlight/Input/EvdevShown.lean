import Moonlight.Input.EvdevRelease
import Moonlight.Input.EvdevReports

/-! What the host is shown of a pad: in every place that one key or axis drives, what the last
event of this key or axis says, whatever else happened before and after it. -/
namespace Moonlight

open Lib.Trace Lib.LastWriter

variable {L : Limelight} {map : Mapping} {parms : InputAbsParms} {ev : InputEvent}
  {dev dev' init : InputDevice} {pad pad' other other' : Pad} {reg : PadRegister}
  {drive : Drive} {slot : AxisSlot} {src k : EvdevSource}

/-- Two pads agree in a register. -/
def PadRegister.Same (pad pad' : Pad) : PadRegister → Prop
  | .flag bit => pad.buttonFlags.getLsbD bit = pad'.buttonFlags.getLsbD bit
  | .leftTrigger => pad.leftTrigger = pad'.leftTrigger
  | .rightTrigger => pad.rightTrigger = pad'.rightTrigger
  | .leftX => pad.leftStickX = pad'.leftStickX
  | .leftY => pad.leftStickY = pad'.leftStickY
  | .rightX => pad.rightStickX = pad'.rightStickX
  | .rightY => pad.rightStickY = pad'.rightStickY

theorem PadRegister.Same.refl (pad : Pad) : reg.Same pad pad := by
  cases reg <;> rfl

theorem PadRegister.Same.trans {pad'' : Pad} (h : reg.Same pad pad') (h' : reg.Same pad' pad'') :
    reg.Same pad pad'' := by
  cases reg <;> exact Eq.trans h h'

/-- The key or axis drives something that writes this register. -/
def Drives (L : Limelight) (map : Mapping) (reg : PadRegister) (src : EvdevSource) : Prop :=
  ∃ drive, driveOf L map src = some drive ∧ drive.Writes L reg

theorem steerDpad_frame {flags : BitVec 32} {dir : Int} {ahead behind : PadButton} {bit : Nat}
    (hbit : (L.flag ahead ||| L.flag behind).getLsbD bit = false) :
    (steerDpad L flags dir ahead behind).getLsbD bit = flags.getLsbD bit := by
  simp only [BitVec.getLsbD_or, Bool.or_eq_false_iff] at hbit
  unfold steerDpad
  split_ifs <;> simp [hbit.1, hbit.2]
  all_goals exact fun h => BitVec.lt_of_getLsbD h

/-- What a D-pad block makes of its own bits does not depend on what they were. -/
theorem steerDpad_own {flags flags' : BitVec 32} {dir : Int} {ahead behind : PadButton} {bit : Nat}
    (hbit : (L.flag ahead ||| L.flag behind).getLsbD bit = true) :
    (steerDpad L flags dir ahead behind).getLsbD bit =
      (steerDpad L flags' dir ahead behind).getLsbD bit := by
  simp only [BitVec.getLsbD_or, Bool.or_eq_true] at hbit
  unfold steerDpad
  rcases hbit with hbit | hbit <;> split_ifs <;> simp [hbit]

theorem moveAxis_frame (h : moveAxis L map parms ev pad slot = some pad')
    (hw : ¬ (Drive.axis slot).Writes L reg) : reg.Same pad' pad := by
  cases slot with
  | dpadX =>
    cases h
    cases reg with
    | flag bit => exact steerDpad_frame (by simpa [Drive.Writes] using hw)
    | _ => rfl
  | dpadY =>
    cases h
    cases reg with
    | flag bit => exact steerDpad_frame (by simpa [Drive.Writes] using hw)
    | _ => rfl
  | _ =>
    obtain ⟨v, _, rfl⟩ := Option.map_eq_some_iff.mp h
    cases reg <;> first | rfl | exact absurd trivial hw

/-- An event keeps every register it does not write. -/
theorem movePad_frame {drive : Option Drive} (h : movePad L dev ev drive = some pad')
    (hw : ∀ d, drive = some d → ¬ d.Writes L reg) : reg.Same pad' dev.toPad := by
  cases drive with
  | none =>
    cases h
    exact PadRegister.Same.refl _
  | some d =>
    have hw := hw d rfl
    cases d with
    | button flag =>
      cases h
      cases reg with
      | flag bit =>
        have hbit : flag.getLsbD bit = false := by simpa [Drive.Writes] using hw
        simp only [PadRegister.Same]
        split_ifs <;> simp [hbit]
        exact fun h => BitVec.lt_of_getLsbD h
      | _ => rfl
    | trigger right =>
      cases right <;> cases h <;> cases reg <;> first | rfl | exact absurd trivial hw
    | axis slot => exact moveAxis_frame h hw

theorem moveAxis_own (h : moveAxis L map parms ev pad slot = some pad')
    (hw : (Drive.axis slot).Writes L reg) :
    ∃ other', moveAxis L map parms ev other slot = some other' ∧ reg.Same pad' other' := by
  cases slot with
  | dpadX =>
    cases h
    cases reg with
    | flag bit => exact ⟨_, rfl, steerDpad_own hw⟩
    | _ => exact absurd hw id
  | dpadY =>
    cases h
    cases reg with
    | flag bit => exact ⟨_, rfl, steerDpad_own hw⟩
    | _ => exact absurd hw id
  | _ =>
    obtain ⟨v, hv, rfl⟩ := Option.map_eq_some_iff.mp h
    refine ⟨_, by rw [moveAxis, hv]; rfl, ?_⟩
    cases reg <;> first | rfl | exact absurd hw id

/-- What an event writes into a register does not depend on the pad. -/
theorem movePad_own (h : movePad L dev ev (some drive) = some pad') (hw : drive.Writes L reg)
    (hsame : SameAxes dev' dev) :
    ∃ other, movePad L dev' ev (some drive) = some other ∧ reg.Same pad' other := by
  cases drive with
  | button flag =>
    cases h
    refine ⟨_, rfl, ?_⟩
    cases reg with
    | flag bit =>
      have hbit : flag.getLsbD bit = true := hw
      simp only [PadRegister.Same]
      split_ifs <;> simp [hbit]
    | _ => exact absurd hw id
  | trigger right =>
    cases right <;> cases h <;> refine ⟨_, rfl, ?_⟩ <;> cases reg <;>
      first | rfl | exact absurd hw id
  | axis slot =>
    obtain ⟨other, hother, hreg⟩ := moveAxis_own h hw
    refine ⟨other, ?_, hreg⟩
    rw [movePad, ← hsame.1, ← hsame.2]
    exact hother

/-- The pad holds in the register what the event alone makes of the pad of a fresh device. -/
def ShownAlone (L : Limelight) (init : InputDevice) (reg : PadRegister) (ev : InputEvent)
    (pad : Pad) : Prop :=
  ∃ alone, movePad L init ev ((evdevSource ev).bind (driveOf L init.map)) = some alone ∧
    reg.Same pad alone

theorem ShownAlone.congr (h : ShownAlone L init reg ev pad) (hsame : reg.Same pad' pad) :
    ShownAlone L init reg ev pad' := by
  obtain ⟨alone, hmove, hreg⟩ := h
  exact ⟨alone, hmove, hsame.trans hreg⟩

section Run
variable {s t : Reporting} {a e : BitVec 32 × InputEvent}
  {run : List ((BitVec 32 × InputEvent) × Reporting)}

theorem ReportStep.padStep (h : ReportStep L s a t) : PadStep L s.dev a t.dev := by
  obtain ⟨r, hr, hdev, _⟩ := h
  exact ⟨r, hr, hdev⟩

theorem padStep_pad {dev dev' : InputDevice} (h : PadStep L dev a dev') (hs : SameAxes init dev) :
    movePad L dev a.2 ((evdevSource a.2).bind (driveOf L init.map)) = some dev'.toPad := by
  obtain ⟨r, hr, rfl⟩ := h
  rw [← hs.1]
  exact evdevHandleEvent_pad hr

/-- An event of another key or axis keeps the register. -/
theorem padStep_frame {dev dev' : InputDevice} (h : PadStep L dev a dev')
    (hs : SameAxes init dev) (hone : ∀ src, Drives L init.map reg src → src = k)
    (hother : evdevSource a.2 ≠ some k) : reg.Same dev'.toPad dev.toPad := by
  refine movePad_frame (padStep_pad h hs) fun drive hdrive hwrite => hother ?_
  obtain ⟨src, hsrc, hdrive⟩ := Option.bind_eq_some_iff.mp hdrive
  rw [hsrc, hone src ⟨drive, hdrive, hwrite⟩]

/-- An event of the key or axis that drives the register is shown in it. -/
theorem padStep_shows {dev dev' : InputDevice} (h : PadStep L dev a dev')
    (hs : SameAxes init dev) (hdriven : Drives L init.map reg k)
    (hk : evdevSource a.2 = some k) : ShownAlone L init reg a.2 dev'.toPad := by
  obtain ⟨drive, hdrive, hwrite⟩ := hdriven
  have hmove := padStep_pad h hs
  rw [hk, Option.bind_some, hdrive] at hmove
  obtain ⟨alone, halone, hreg⟩ := movePad_own hmove hwrite hs
  refine ⟨alone, ?_, hreg⟩
  rw [hk, Option.bind_some, hdrive]
  exact halone

/-- Over a run the register holds what the last event of its key or axis makes of it. -/
theorem register_follows (hone : ∀ src, Drives L init.map reg src → src = k)
    (hdriven : Drives L init.map reg k) (hrun : Run (ReportStep L) s run)
    (hs : SameAxes init s.dev)
    (hlast : lastOf (fun a => evdevSource a.2) k (labels run) = some e) :
    ShownAlone L init reg e.2 (final s run).dev.toPad := by
  refine follows_last (P := fun e t => ShownAlone L init reg e.2 t.dev.toPad)
    (I := fun t : Reporting => SameAxes init t.dev) [] (fun s a t h hs => h.padStep.sameAxes hs)
    (fun s a t e h hs hother hshown => ?_) (fun s a t h hs hk => ?_) hrun hs
    (fun e he => by cases he) e hlast
  · exact hshown.congr (padStep_frame h.padStep hs hone hother)
  · exact padStep_shows h.padStep hs hdriven hk

/-- A register whose key or axis had no event is still neutral. -/
theorem register_neutral (hone : ∀ src, Drives L init.map reg src → src = k)
    (hrun : Run (ReportStep L) s run) (hs : SameAxes init s.dev) (hn : reg.Neutral s.dev.toPad)
    (hnone : lastOf (fun a => evdevSource a.2) k (labels run) = none) :
    reg.Neutral (final s run).dev.toPad := by
  have h : reg.Neutral (final s run).dev.toPad ∨ ∃ src, src = k ∧
      Active (fun a => evdevSource a.2) (fun _ => False) src (labels run) := by
    refine neutral_or_active (N := fun t : Reporting => reg.Neutral t.dev.toPad)
      (I := fun t : Reporting => SameAxes init t.dev) [] (fun s a t h hs => h.padStep.sameAxes hs)
      (fun s a t h hs hother hn => ?_) (fun s a t h hs hrest => hrest.elim) hrun hs (Or.inl hn)
    exact padStep_untouched h.padStep hs
      (fun src hsrc hdrives => hother src hsrc (hone src hdrives)) hn
  rcases h with hfinal | ⟨_, rfl, e, hlast, _⟩
  · exact hfinal
  · cases hlast.symm.trans hnone

/-- Through any events, and for any mapping: where one key or axis drives a part of the pad, every
`EV_SYN` leaves the host with what the last event of this key or axis says there, and with 0 where
there was none. -/
theorem host_shows_last (fd : Int) (absInfo : Int → AbsInfo) (map : Mapping)
    (hone : ∀ src, Drives L map reg src ↔ src = k)
    (hrun : Run (ReportStep L) ⟨newDevice fd absInfo map, []⟩ (run ++ [(a, t)]))
    (hsyn : a.2.type = .syn) :
    match lastOf (fun a => evdevSource a.2) k (labels run) with
    | some e => ShownAlone L (newDevice fd absInfo map) reg e.2 t.told
    | none => reg.Neutral t.told := by
  obtain ⟨hbefore, hstep⟩ := run_concat.mp hrun
  have hmirrored : Mirrored (final ⟨newDevice fd absInfo map, []⟩ run) :=
    always_final (always_of_invariant (fun _ _ _ h hs => mirrored_step h hs) hbefore
      fun _ => rfl)
  have htold : t.told = (final ⟨newDevice fd absInfo map, []⟩ run).dev.toPad := by
    rw [← told_after_syn hstep hmirrored hsyn]
    exact (reportStep_syn hstep hsyn).2.1
  rw [htold]
  have hs : SameAxes (newDevice fd absInfo map) (newDevice fd absInfo map) := ⟨rfl, rfl⟩
  have hone' : ∀ src, Drives L (newDevice fd absInfo map).map reg src → src = k :=
    fun src h => (hone src).mp h
  have hdriven : Drives L (newDevice fd absInfo map).map reg k := (hone k).mpr rfl
  cases hlast : lastOf (fun a => evdevSource a.2) k (labels run) with
  | some e =>
    exact register_follows hone' hdriven hbefore hs hlast
  | none =>
    refine register_neutral hone' hbefore hs ?_ hlast
    cases reg with
    | flag bit => exact BitVec.getLsbD_zero
    | _ => rfl

end Run

end Moonlight
