import Moonlight.Input.EvdevEvent

/-! What one call of `evdev_handle_event` leaves alone. Every later invariant is read off
these facts instead of the branches of the handler. -/
namespace Moonlight

variable {L : Limelight} {assigned : BitVec 32} {ev : InputEvent} {dev dev' : InputDevice}
  {modified keep : Bool} {sent : List HostEvent} {r : Handled}

/-- The payloads of the controller reports among the calls to the host. -/
def reports (sent : List HostEvent) : List Pad :=
  sent.filterMap fun e => match e with
    | .multiController _ pad => some pad
    | _ => none

theorem reports_append (xs ys : List HostEvent) :
    reports (xs ++ ys) = reports xs ++ reports ys := List.filterMap_append

/-- An event other than `EV_SYN` touches neither the ids nor the device's place in the table,
reports nothing, and marks the device whenever it changes the pad. -/
structure Quiet (assigned : BitVec 32) (dev : InputDevice) (r : Handled) : Prop where
  assigned_eq : r.assignedControllerIds = assigned
  dev_eq : r.dev.dev = dev.dev
  fd_eq : r.dev.fd = dev.fd
  map_eq : r.dev.map = dev.map
  controllerId_eq : r.dev.controllerId = dev.controllerId
  unreported : reports r.sent = []
  unmarked : r.dev.gamepadModified = false →
    dev.gamepadModified = false ∧ r.dev.toPad = dev.toPad

theorem evdevKeyboard_cases (h : evdevKeyboard L ev dev = (keep, dev', sent)) :
    dev' = { dev with modifiers := trackModifier L dev.modifiers ev.code ev.value } ∧
    reports sent = [] := by
  unfold evdevKeyboard at h
  dsimp only at h
  split at h <;> cases h <;> exact ⟨rfl, rfl⟩

/-- Nothing changed, or the pad alone and the change is noted. -/
def OnlyPad (dev dev' : InputDevice) (modified : Bool) : Prop :=
  (modified = false ∧ dev' = dev) ∨ (modified = true ∧ ∃ pad, dev' = { dev with toPad := pad })

theorem evdevButton_cases (h : evdevButton L ev dev = (dev', modified, sent)) :
    reports sent = [] ∧ OnlyPad dev dev' modified := by
  unfold evdevButton at h
  repeat' split at h
  all_goals
    cases h
    refine ⟨rfl, ?_⟩
    first
      | exact Or.inl ⟨rfl, rfl⟩
      | exact Or.inr ⟨rfl, _, rfl⟩

theorem evdevAbs_cases (h : evdevAbs L ev dev = some (dev', modified)) :
    OnlyPad dev dev' modified := by
  unfold evdevAbs at h
  repeat' split at h
  all_goals
    first
      | obtain ⟨v, _, h⟩ := Option.bind_eq_some_iff.mp h
        cases h
        exact Or.inr ⟨rfl, _, rfl⟩
      | cases h
        first
          | exact Or.inl ⟨rfl, rfl⟩
          | exact Or.inr ⟨rfl, _, rfl⟩

/-- The common end of the handler is quiet when only the pad can have changed. -/
theorem finish_quiet (hrep : reports sent = []) (hdev : OnlyPad dev dev' modified) :
    Quiet assigned dev (finish assigned dev' modified sent) := by
  rcases hdev with ⟨rfl, rfl⟩ | ⟨rfl, pad, rfl⟩
  · exact ⟨rfl, rfl, rfl, rfl, rfl, hrep, fun hm => ⟨by simpa [finish] using hm, rfl⟩⟩
  · exact ⟨rfl, rfl, rfl, rfl, rfl, hrep, fun hm => by simp [finish] at hm⟩

theorem evdevRel_quiet : Quiet assigned dev (finish assigned (evdevRel ev dev) false []) := by
  unfold evdevRel
  repeat' split
  all_goals exact ⟨rfl, rfl, rfl, rfl, rfl, rfl, fun hm => ⟨by simpa [finish] using hm, rfl⟩⟩

theorem evdevHandleEvent_quiet (h : evdevHandleEvent L assigned ev dev = some r)
    (ht : ev.type ≠ .syn) : Quiet assigned dev r := by
  unfold evdevHandleEvent at h
  cases htype : ev.type with
  | syn => exact absurd htype ht
  | key =>
    simp only [htype] at h
    split at h
    · rcases hk : evdevKeyboard L ev dev with ⟨keep, dev', sent⟩
      rw [hk] at h
      obtain ⟨rfl, hrep⟩ := evdevKeyboard_cases hk
      cases h
      exact ⟨rfl, rfl, rfl, rfl, rfl, hrep, fun hm => ⟨hm, rfl⟩⟩
    · rcases hb : evdevButton L ev dev with ⟨dev', modified, sent⟩
      rw [hb] at h
      obtain ⟨hrep, hdev⟩ := evdevButton_cases hb
      cases h
      exact finish_quiet hrep hdev
  | rel =>
    simp only [htype] at h
    cases h
    exact evdevRel_quiet
  | abs =>
    simp only [htype, Option.map_eq_some_iff] at h
    obtain ⟨⟨dev', modified⟩, habs, rfl⟩ := h
    exact finish_quiet rfl (evdevAbs_cases habs)
  | other =>
    simp only [htype] at h
    cases h
    exact finish_quiet rfl (Or.inl ⟨rfl, rfl⟩)

/-- Pressing a mapped button sets its flag and marks the device. -/
theorem evdevHandleEvent_press {c : UInt16} {f : BitVec 32} (hc : 121 ≤ c.toNat)
    (hm : mouseCode c = none) (hf : gamepadCode L dev.map c = some f) :
    evdevHandleEvent L assigned ⟨.key, c, 1⟩ dev = some ⟨true,
      { dev with buttonFlags := dev.buttonFlags ||| f, gamepadModified := true },
      assigned, []⟩ := by
  have hlen : ¬ c.toNat < 121 := by omega
  simp [evdevHandleEvent, hlen, evdevButton, hm, hf, finish]

/-- `EV_SYN` numbers a marked device that has no number yet. -/
theorem evdevSyn_numbers (assigned : BitVec 32) (dev : InputDevice) :
    ((evdevSyn assigned dev).dev.controllerId,
      (evdevSyn assigned dev).assignedControllerIds) =
    if dev.gamepadModified = true ∧ dev.controllerId < 0 then assignControllerId assigned
    else (dev.controllerId, assigned) := by
  by_cases hm : dev.gamepadModified = true
  · by_cases hc : dev.controllerId < 0 <;> simp [evdevSyn, hm, hc]
  · simp [evdevSyn, hm]

theorem evdevSyn_keeps (assigned : BitVec 32) (dev : InputDevice) :
    (evdevSyn assigned dev).dev.dev = dev.dev ∧
    (evdevSyn assigned dev).dev.fd = dev.fd ∧ (evdevSyn assigned dev).dev.map = dev.map ∧
    (evdevSyn assigned dev).dev.toPad = dev.toPad ∧
    (evdevSyn assigned dev).dev.gamepadModified = false := by
  unfold evdevSyn
  dsimp only
  split <;> simp_all

/-- An event moves neither the descriptor of a device nor what it was opened as. -/
theorem evdevHandleEvent_keeps (h : evdevHandleEvent L assigned ev dev = some r) :
    r.dev.fd = dev.fd ∧ r.dev.dev = dev.dev := by
  by_cases ht : ev.type = .syn
  · simp only [evdevHandleEvent, ht, Option.some.injEq] at h
    obtain ⟨hdev, hfd, _⟩ := evdevSyn_keeps assigned dev
    rw [← h]
    exact ⟨hfd, hdev⟩
  · have hq := evdevHandleEvent_quiet h ht
    exact ⟨hq.fd_eq, hq.dev_eq⟩

theorem evdevSyn_reports :
    reports (evdevSyn assigned dev).sent = if dev.gamepadModified then [dev.toPad] else [] := by
  unfold evdevSyn
  dsimp only
  split <;> rw [reports_append] <;> split <;> split <;> simp_all [reports]

end Moonlight
