import Moonlight.Lib.Trace
import Moonlight.Input.EvdevFrame

/-! The controller reports of one device mirror its pad: whatever changes the pad marks the
device, and the next `EV_SYN` reports a marked device. -/
namespace Moonlight

open Lib.Trace

variable {L : Limelight} {a : BitVec 32 × InputEvent}

/-- A device beside the payloads it has reported so far. -/
structure Reporting where
  dev : InputDevice
  log : List Pad

variable {s t : Reporting} {run : List ((BitVec 32 × InputEvent) × Reporting)}

/-- One event on the device; other devices may have changed the assigned ids in between. -/
def ReportStep (L : Limelight) (s : Reporting) (a : BitVec 32 × InputEvent) (t : Reporting) :
    Prop :=
  ∃ r, evdevHandleEvent L a.1 a.2 s.dev = some r ∧
    t.dev = r.dev ∧ t.log = s.log ++ reports r.sent

/-- The tuple the host was told last. -/
def Reporting.told (s : Reporting) : Pad := s.log.getLast?.getD Pad.neutral

/-- A device that is not marked has nothing to tell. -/
def Mirrored (s : Reporting) : Prop := s.dev.gamepadModified = false → s.dev.toPad = s.told

/-- A step adds one report at most, only at `EV_SYN`, and `EV_SYN` leaves the pad as told. -/
def ReportsAtSyn (s : Reporting) (a : BitVec 32 × InputEvent) (t : Reporting) : Prop :=
  if a.2.type = .syn then t.dev.toPad = t.told ∧ ∃ new, t.log = s.log ++ new ∧ new.length ≤ 1
  else t.log = s.log

theorem reportStep_syn (h : ReportStep L s a t) (ht : a.2.type = .syn) :
    t.dev.gamepadModified = false ∧ t.dev.toPad = s.dev.toPad ∧
    t.log = s.log ++ if s.dev.gamepadModified then [s.dev.toPad] else [] := by
  obtain ⟨r, hr, hdev, hlog⟩ := h
  simp only [evdevHandleEvent, ht, Option.some.injEq] at hr
  subst hr
  obtain ⟨_, _, _, hpad, hmod⟩ := evdevSyn_keeps a.1 s.dev
  rw [hdev, hlog, evdevSyn_reports]
  exact ⟨hmod, hpad, rfl⟩

theorem reportStep_quiet (h : ReportStep L s a t) (ht : a.2.type ≠ .syn) :
    t.log = s.log ∧
    (t.dev.gamepadModified = false → s.dev.gamepadModified = false ∧ t.dev.toPad = s.dev.toPad) := by
  obtain ⟨r, hr, hdev, hlog⟩ := h
  have hq := evdevHandleEvent_quiet hr ht
  rw [hdev, hlog, hq.unreported]
  exact ⟨List.append_nil _, hq.unmarked⟩

/-- At `EV_SYN` a marked device tells its pad, and an unmarked one already had. -/
theorem told_after_syn (h : ReportStep L s a t) (hs : Mirrored s) (ht : a.2.type = .syn) :
    t.dev.toPad = t.told := by
  obtain ⟨_, hpad, hlog⟩ := reportStep_syn h ht
  rw [hpad, Reporting.told, hlog]
  cases hm : s.dev.gamepadModified with
  | true => simp
  | false => simpa [Reporting.told] using hs hm

theorem mirrored_step (h : ReportStep L s a t) (hs : Mirrored s) : Mirrored t := by
  by_cases ht : a.2.type = .syn
  · intro _
    exact told_after_syn h hs ht
  · obtain ⟨hlog, hpad⟩ := reportStep_quiet h ht
    intro hm
    obtain ⟨hm', hpad⟩ := hpad hm
    rw [hpad, Reporting.told, hlog]
    exact hs hm'

theorem reportsAtSyn_step (h : ReportStep L s a t) (hs : Mirrored s) : ReportsAtSyn s a t := by
  by_cases ht : a.2.type = .syn
  · rw [ReportsAtSyn, if_pos ht]
    obtain ⟨_, _, hlog⟩ := reportStep_syn h ht
    refine ⟨told_after_syn h hs ht, _, hlog, ?_⟩
    split <;> simp
  · rw [ReportsAtSyn, if_neg ht]
    exact (reportStep_quiet h ht).1

/-- Through any events a fresh device sees, the host's view after each `EV_SYN` is the pad. -/
theorem host_mirrors_pad (hpad : s.dev.toPad = Pad.neutral) (hlog : s.log = [])
    (hrun : Run (ReportStep L) s run) : EachStep ReportsAtSyn s run := by
  apply eachStep_of_invariant (fun _ _ _ h hs => mirrored_step h hs)
    (fun _ _ _ h hs => reportsAtSyn_step h hs) hrun
  intro _
  rw [hpad, Reporting.told, hlog]
  rfl

/-- A pad with the shipped mapping, as `evdev_create` opens it. -/
def freshPad (fd : Int) : InputDevice := newDevice fd (fun _ => ⟨0, 255, 15⟩) defaultMapping

/-- Pressing the south button of a fresh pad is reported at the next `EV_SYN`. -/
theorem host_mirrors_pad_press :
    EachStep ReportsAtSyn ⟨freshPad 3, []⟩
      [((0, ⟨.key, 304, 1⟩),
          ⟨{ freshPad 3 with buttonFlags := 0x1000, gamepadModified := true }, []⟩),
       ((0, ⟨.syn, 0, 0⟩),
          ⟨{ freshPad 3 with buttonFlags := 0x1000, controllerId := 0, gamepadModified := false },
            [⟨0x1000, 0, 0, 0, 0, 0, 0⟩]⟩)] := by
  have hpress : evdevHandleEvent documented 0 ⟨.key, 304, 1⟩ (freshPad 3) =
      some ⟨true, { freshPad 3 with buttonFlags := 0x1000, gamepadModified := true }, 0, []⟩ :=
    evdevHandleEvent_press (c := 304) (f := 0x1000) (by decide) (by decide) (by decide)
  exact host_mirrors_pad (L := documented) rfl rfl
    ⟨⟨_, hpress, rfl, rfl⟩, ⟨_, rfl, rfl, rfl⟩, trivial⟩

end Moonlight
