import Moonlight.Lib.Replay
import Moonlight.Input.SdlKeys

/-! Which keys and mouse buttons the host holds after a run of events of any number of evdev
devices. -/
namespace Moonlight

open Lib.Trace Lib.Replay Lib.LastWriter Lib.Masks Lib.Presence

/-- The key code that the host is sent for a key of the table. -/
def evdevHostCode (code : UInt16) : Int :=
  ((0x80#16 <<< 8) ||| BitVec.ofInt 16 (keyCodes.getD code.toNat 0)).toInt

/-- The keys and mouse buttons in a list of calls, `true` for one going down. -/
def hostSwitches (sent : List HostEvent) : List (Bool × (Int ⊕ MouseButton)) :=
  sent.filterMap fun e => match e with
    | .keyboard code action _ => some (decide (action = .down), .inl code)
    | .mouseButton action button => some (decide (action = .press), .inr button)
    | _ => none

/-- The key or mouse button that an event moves on the host. -/
def evdevSwitch (ev : InputEvent) : Option (Bool × (Int ⊕ MouseButton)) :=
  if ev.type = .key then
    if ev.code.toNat < keyCodes.length then
      some (decide (ev.value ≠ 0), .inl (evdevHostCode ev.code))
    else (mouseCode ev.code).map fun button => (decide (ev.value ≠ 0), .inr button)
  else none

/-- Some devices, and all that was sent to the host. -/
structure Desk (ι : Type) where
  devs : ι → InputDevice
  sent : List HostEvent

section
variable {ι : Type} [DecidableEq ι] (L : Limelight)

/-- A device handles an event, and the loop goes on. -/
def DeskStep (s : Desk ι) (a : ι × InputEvent) (t : Desk ι) : Prop :=
  ∃ assigned r, evdevHandleEvent L assigned a.2 (s.devs a.1) = some r ∧ r.keepRunning = true ∧
    t = ⟨Function.update s.devs a.1 r.dev, s.sent ++ r.sent⟩

/-- What a key of the table other than Q does. -/
def Desk.key (s : Desk ι) (i : ι) (code : UInt16) (value : Int) : Desk ι :=
  let modifiers := trackModifier L (s.devs i).modifiers code value
  { devs := Function.update s.devs i { s.devs i with modifiers }
    sent := s.sent ++ [.keyboard (evdevHostCode code) (if value ≠ 0 then .down else .up)
      (modifiers.setWidth 32)] }

/-- A key of a device. -/
def keySource (a : ι × InputEvent) : Option (ι × UInt16) :=
  if a.2.type = .key then some (a.1, a.2.code) else none

def KeyUp (a : ι × InputEvent) : Prop := a.2.value = 0

end

section
variable {ι : Type} [DecidableEq ι] {L : Limelight} {assigned : BitVec 32} {ev : InputEvent}
  {dev : InputDevice} {r : Handled} {s t : Desk ι} {run : List ((ι × InputEvent) × Desk ι)}

theorem hostSwitches_append (xs ys : List HostEvent) :
    hostSwitches (xs ++ ys) = hostSwitches xs ++ hostSwitches ys := List.filterMap_append

theorem hostSwitches_syn : hostSwitches (evdevSyn assigned dev).sent = [] := by
  unfold evdevSyn
  dsimp only
  split_ifs <;> rfl

theorem hostSwitches_keyboard {keep : Bool} {dev' : InputDevice} {sent : List HostEvent}
    (h : evdevKeyboard L ev dev = (keep, dev', sent)) (hkeep : keep = true) :
    sent = [.keyboard (evdevHostCode ev.code) (if ev.value ≠ 0 then .down else .up)
      (dev'.modifiers.setWidth 32)] := by
  unfold evdevKeyboard at h
  dsimp only at h
  split at h
  · cases h
    cases hkeep
  · cases h
    rfl

theorem hostSwitches_button {modified : Bool} {dev' : InputDevice} {sent : List HostEvent}
    (h : evdevButton L ev dev = (dev', modified, sent)) :
    hostSwitches sent =
      ((mouseCode ev.code).map fun button => (decide (ev.value ≠ 0), Sum.inr button)).toList := by
  unfold evdevButton at h
  cases hmouse : mouseCode ev.code with
  | some button =>
    rw [hmouse] at h
    cases h
    by_cases hv : ev.value = 0 <;> simp [hostSwitches, hv]
  | none =>
    rw [hmouse] at h
    dsimp only at h
    repeat' split at h
    all_goals
      cases h
      rfl

/-- An event after which the loop goes on moves the switch that it is for. -/
theorem hostSwitches_event (h : evdevHandleEvent L assigned ev dev = some r)
    (hkeep : r.keepRunning = true) : hostSwitches r.sent = (evdevSwitch ev).toList := by
  unfold evdevHandleEvent at h
  unfold evdevSwitch
  cases htype : ev.type with
  | syn =>
    simp only [htype] at h
    cases h
    rw [if_neg (by decide)]
    exact hostSwitches_syn
  | key =>
    simp only [htype] at h
    rw [if_pos rfl]
    split at h
    · rcases hk : evdevKeyboard L ev dev with ⟨keep, dev', sent⟩
      rw [hk] at h
      cases h
      rw [if_pos ‹_›, hostSwitches_keyboard hk hkeep]
      by_cases hv : ev.value = 0 <;> simp [hostSwitches, hv]
    · rcases hb : evdevButton L ev dev with ⟨dev', modified, sent⟩
      rw [hb] at h
      cases h
      rw [if_neg ‹_›]
      exact hostSwitches_button hb
  | rel | other =>
    simp only [htype] at h
    cases h
    rfl
  | abs =>
    simp only [htype, Option.map_eq_some_iff] at h
    obtain ⟨_, _, rfl⟩ := h
    rfl

/-- The host's log is that of the events, whatever devices they are of. -/
theorem hostSwitches_run (hrun : Run (DeskStep L) s run) :
    hostSwitches (final s run).sent =
      hostSwitches s.sent ++ (labels run).filterMap fun a => evdevSwitch a.2 := by
  induction run generalizing s with
  | nil => simp [labels, final]
  | cons x run ih =>
    obtain ⟨a, t⟩ := x
    obtain ⟨assigned, r, hr, hkeep, rfl⟩ := hrun.1
    have hlog := hostSwitches_event hr hkeep
    rw [final, ih hrun.2, hostSwitches_append, hlog, List.append_assoc]
    congr 1
    cases hswitch : evdevSwitch a.2 <;> simp [labels, hswitch]

/-- A key of the table other than Q. -/
theorem deskStep_key {i : ι} {code : UInt16} (value : Int) (hcode : code.toNat < 121)
    (hq : code ≠ keyQ) :
    DeskStep L s (i, ⟨.key, code, value⟩) (s.key L i code value) := by
  refine ⟨0, ⟨true, _, 0, _⟩, ?_, rfl, rfl⟩
  simp [evdevHandleEvent, evdevKeyboard, evdevHostCode, hcode, hq]

/-- Once every key of every device was released, the host holds no key and no mouse button, also
where keys of several devices are the same key of the host. -/
theorem evdev_switches_released (devs : ι → InputDevice)
    (hrun : Run (DeskStep L) ⟨devs, []⟩ run) (hup : Settled keySource KeyUp (labels run)) :
    replay (hostSwitches (final ⟨devs, []⟩ run).sent) = [] := by
  rw [hostSwitches_run hrun]
  refine replay_settled (fun a b k hswitch => ?_) hup
  have hkey : a.2.type = .key := by
    by_contra hne
    rw [evdevSwitch, if_neg hne] at hswitch
    cases hswitch
  refine ⟨(a.1, a.2.code), if_pos hkey, fun c hc hrest => ?_⟩
  obtain ⟨hckey, hsame⟩ := Option.ite_none_right_eq_some.mp hc
  have hcode : c.2.code = a.2.code := congrArg Prod.snd (Option.some.inj hsame)
  have hvalue : c.2.value = 0 := hrest
  rw [evdevSwitch, if_pos hkey] at hswitch
  rw [evdevSwitch, if_pos hckey, hcode, hvalue]
  split at hswitch
  · cases hswitch
    rw [if_pos ‹_›]
    rfl
  · obtain ⟨button, hbutton, heq⟩ := Option.map_eq_some_iff.mp hswitch
    cases heq
    rw [if_neg ‹_›, hbutton]
    rfl

/-- The same key of two keyboards. -/
theorem evdev_switches_released_two :
    ∃ run : List ((Fin 2 × InputEvent) × Desk (Fin 2)),
      labels run = [(0, ⟨.key, 30, 1⟩), (1, ⟨.key, 30, 1⟩), (0, ⟨.key, 30, 0⟩),
        (1, ⟨.key, 30, 0⟩)] ∧
      replay (hostSwitches (final
        ⟨fun _ => newDevice 3 (fun _ => ⟨0, 255, 0⟩) defaultMapping, []⟩ run).sent) = [] := by
  refine ⟨[((0, ⟨.key, 30, 1⟩), _), ((1, ⟨.key, 30, 1⟩), _), ((0, ⟨.key, 30, 0⟩), _),
      ((1, ⟨.key, 30, 0⟩), _)], ?_, @evdev_switches_released _ _ documented _ _
    ⟨deskStep_key 1 (by decide) (by decide), deskStep_key 1 (by decide) (by decide),
      deskStep_key 0 (by decide) (by decide), deskStep_key 0 (by decide) (by decide), trivial⟩ ?_⟩
  · rfl
  · intro k e he
    obtain ⟨hmem, hk⟩ := lastOf_mem he
    simp only [labels, List.map_cons, List.map_nil, List.mem_cons, List.not_mem_nil,
      or_false] at hmem
    rcases hmem with rfl | rfl | rfl | rfl
    · cases hk
      simp [labels, lastOf, keySource] at he
    · cases hk
      simp [labels, lastOf, keySource] at he
    · rfl
    · rfl

end

/-! ### The modifiers of one keyboard -/

/-- The host's key for both keys of a modifier. -/
def modifierCode : Modifier → Int
  | .shift => evdevHostCode keyLeftShift
  | .alt => evdevHostCode keyLeftAlt
  | .ctrl => evdevHostCode keyLeftCtrl

theorem evdevHostCode_modifier {code : UInt16} {m : Modifier} (h : code.toNat < 121) :
    evdevHostCode code = modifierCode m ↔ keyModifier code = some m := by
  have hall : ∀ n < 121, ∀ m ∈ [Modifier.shift, .alt, .ctrl],
      evdevHostCode (UInt16.ofNat n) = modifierCode m ↔
        keyModifier (UInt16.ofNat n) = some m := by decide +kernel
  have hcode := hall code.toNat h m (by cases m <;> decide)
  rwa [UInt16.ofNat_toNat] at hcode

/-- The modifier keys that the host holds. -/
def hostModifiers (sent : List HostEvent) : Set Modifier :=
  {m | .inl (modifierCode m) ∈ replay (hostSwitches sent)}

section
variable {L : Limelight} {assigned : BitVec 32} {ev : InputEvent} {dev : InputDevice}
  {r : Handled} {sent : List HostEvent}

theorem hostModifiers_append (xs ys : List HostEvent) (h : hostSwitches ys = []) :
    hostModifiers (xs ++ ys) = hostModifiers xs := by
  rw [hostModifiers, hostSwitches_append, h, List.append_nil]
  rfl

/-- A key of the table moves the modifier it is for, if it is for one. -/
theorem hostModifiers_key {code : UInt16} {down : Bool} {ys : List HostEvent}
    (hcode : code.toNat < 121) (h : hostSwitches ys = [(down, .inl (evdevHostCode code))]) :
    hostModifiers (sent ++ ys) = update (touch keyModifier code down) (hostModifiers sent) := by
  ext m
  have hsame : modifierCode m = evdevHostCode code ↔ keyModifier code = some m :=
    eq_comm.trans (evdevHostCode_modifier hcode)
  have hheld : m ∈ hostModifiers (sent ++ ys) ↔
      .inl (modifierCode m) ∈
        apply (replay (hostSwitches sent)) (down, .inl (evdevHostCode code)) := by
    rw [← replay_concat, ← h, ← hostSwitches_append]
    rfl
  rw [hheld, mem_apply, Sum.inl.injEq, hsame, touch]
  cases hm : keyModifier code with
  | none => cases down <;> simp [update, hostModifiers]
  | some n => cases down <;> simp [update, hostModifiers, eq_comm, and_comm]

/-- A mouse button is no modifier. -/
theorem hostModifiers_button {button : MouseButton} {down : Bool} {ys : List HostEvent}
    (h : hostSwitches ys = [(down, .inr button)]) :
    hostModifiers (sent ++ ys) = hostModifiers sent := by
  ext m
  have hheld : m ∈ hostModifiers (sent ++ ys) ↔
      .inl (modifierCode m) ∈ apply (replay (hostSwitches sent)) (down, .inr button) := by
    rw [← replay_concat, ← h, ← hostSwitches_append]
    rfl
  rw [hheld, mem_apply]
  cases down <;> simp [hostModifiers]

theorem evdevSyn_running : (evdevSyn assigned dev).keepRunning = true := by
  unfold evdevSyn
  dsimp only
  split <;> rfl

/-- One event moves the bits and the host's keys alike. -/
theorem hostModifiers_event (h : evdevHandleEvent L assigned ev dev = some r)
    (hkeep : r.keepRunning = true) (hs : members L.modifier dev.modifiers = hostModifiers sent) :
    members L.modifier r.dev.modifiers = hostModifiers (sent ++ r.sent) := by
  have hm := evdevHandleEvent_modifiers h
  have hlog := hostSwitches_event h hkeep
  by_cases hkey : ev.type = .key
  · rw [if_pos hkey] at hm
    rw [evdevSwitch, if_pos hkey, keyCodes_length] at hlog
    by_cases hcode : ev.code.toNat < 121
    · rw [if_pos hcode] at hlog
      rw [hostModifiers_key hcode hlog, hm, trackModifier_eq_store, members_store L.separate, hs]
    · rw [if_neg hcode] at hlog
      rw [hm, trackModifier_of_le (by omega), hs]
      cases hbutton : mouseCode ev.code with
      | none =>
        rw [hbutton] at hlog
        exact (hostModifiers_append sent r.sent hlog).symm
      | some button =>
        rw [hbutton] at hlog
        exact (hostModifiers_button hlog).symm
  · rw [if_neg hkey] at hm
    rw [evdevSwitch, if_neg hkey] at hlog
    rw [hm, hs, hostModifiers_append sent r.sent hlog]

/-- The loop ends only while all three modifiers are set, and nothing is sent then. -/
theorem evdevHandleEvent_ends (h : evdevHandleEvent L assigned ev dev = some r)
    (hend : r.keepRunning = false) :
    Complete (members L.modifier dev.modifiers) ∧ r.sent = [] := by
  unfold evdevHandleEvent at h
  cases htype : ev.type with
  | syn =>
    simp only [htype] at h
    cases h
    rw [evdevSyn_running] at hend
    cases hend
  | key =>
    simp only [htype] at h
    split at h
    · unfold evdevKeyboard at h
      dsimp only at h
      split at h
      next hquit =>
        cases h
        have hcode : keyModifier ev.code = none := by
          rw [hquit.2.1]
          decide
        have hbits := hquit.1
        rw [trackModifier, hcode] at hbits
        exact ⟨quitModifiers_iff.mp hbits, rfl⟩
      next =>
        cases h
        cases hend
    · rcases hb : evdevButton L ev dev with ⟨dev', modified, sent⟩
      rw [hb] at h
      cases h
      cases hend
  | rel | other =>
    simp only [htype] at h
    cases h
    cases hend
  | abs =>
    simp only [htype, Option.map_eq_some_iff] at h
    obtain ⟨_, _, rfl⟩ := h
    cases hend

/-- A key is sent beside the bits that the device has then. -/
theorem keyboard_modifiers {code : Int} {action : KeyAction} {modifiers : BitVec 32}
    (h : evdevHandleEvent L assigned ev dev = some r)
    (hsent : .keyboard code action modifiers ∈ r.sent) :
    r.keepRunning = true ∧ modifiers = r.dev.modifiers.setWidth 32 := by
  unfold evdevHandleEvent at h
  cases htype : ev.type with
  | syn =>
    simp only [htype] at h
    cases h
    unfold evdevSyn at hsent
    dsimp only at hsent
    split_ifs at hsent <;> simp at hsent
  | key =>
    simp only [htype] at h
    split at h
    · unfold evdevKeyboard at h
      dsimp only at h
      split at h
      next =>
        cases h
        cases hsent
      next =>
        cases h
        cases List.mem_singleton.mp hsent
        exact ⟨rfl, rfl⟩
    · unfold evdevButton at h
      repeat' split at h
      all_goals
        cases h
        simp [finish] at hsent
  | rel | other =>
    simp only [htype] at h
    cases h
    cases hsent
  | abs =>
    simp only [htype, Option.map_eq_some_iff] at h
    obtain ⟨_, _, rfl⟩ := h
    cases hsent

/-- Over a run of one device its bits are the modifier keys that the host holds. -/
theorem hostModifiers_run {s : Desk Unit} {run : List ((Unit × InputEvent) × Desk Unit)}
    (hrun : Run (DeskStep L) s run)
    (hs : members L.modifier (s.devs ()).modifiers = hostModifiers s.sent) :
    members L.modifier ((final s run).devs ()).modifiers = hostModifiers (final s run).sent := by
  induction run generalizing s with
  | nil => exact hs
  | cons x run ih =>
    obtain ⟨a, t⟩ := x
    obtain ⟨assigned, r, hr, hkeep, rfl⟩ := hrun.1
    apply ih hrun.2
    have hdev : Function.update s.devs a.1 r.dev () = r.dev := Function.update_self a.1 r.dev s.devs
    dsimp only
    rw [hdev]
    exact hostModifiers_event hr hkeep hs

/-- One keyboard, in any state it gets into: a key is sent with exactly the modifiers whose keys
the host holds after it, and the quit combination leaves all three down on the host. -/
theorem evdev_modifiers_match (fd : Int) (absInfo : Int → AbsInfo) (map : Mapping)
    {run : List ((Unit × InputEvent) × Desk Unit)}
    (hrun : Run (DeskStep L) ⟨fun _ => newDevice fd absInfo map, []⟩ run)
    (h : evdevHandleEvent L assigned ev
      ((final ⟨fun _ => newDevice fd absInfo map, []⟩ run).devs ()) = some r) :
    (∀ code action modifiers, .keyboard code action modifiers ∈ r.sent →
      members L.wide modifiers = hostModifiers
        ((final ⟨fun _ => newDevice fd absInfo map, []⟩ run).sent ++ r.sent)) ∧
    (r.keepRunning = false → ∀ m, m ∈ hostModifiers
      ((final ⟨fun _ => newDevice fd absInfo map, []⟩ run).sent ++ r.sent)) := by
  have hstart : members L.modifier (newDevice fd absInfo map).modifiers = hostModifiers [] :=
    (members_zero L.separate).trans (by ext m; simp [hostModifiers, hostSwitches, replay])
  have hmatch := hostModifiers_run hrun hstart
  constructor
  · intro code action modifiers hsent
    obtain ⟨hkeep, rfl⟩ := keyboard_modifiers h hsent
    rw [← hostModifiers_event h hkeep hmatch]
    exact members_setWidth (by omega)
  · intro hend m
    obtain ⟨hall, hnone⟩ := evdevHandleEvent_ends h hend
    rw [hnone, List.append_nil, ← hmatch]
    exact hall m

end

/-- Shift, Alt, Ctrl and Q are pressed. -/
theorem evdev_modifiers_match_quit :
    let s : Desk Unit := ⟨fun _ => newDevice 3 (fun _ => ⟨0, 255, 0⟩) defaultMapping, []⟩
    let t := ((s.key documented () keyLeftShift 1).key documented () keyLeftAlt 1).key documented
      () keyLeftCtrl 1
    ∃ r, evdevHandleEvent documented 0 ⟨.key, keyQ, 1⟩ (t.devs ()) = some r ∧
      ∀ m, m ∈ hostModifiers (t.sent ++ r.sent) := by
  intro s t
  obtain ⟨r, hr, hend⟩ : ∃ r, evdevHandleEvent documented 0 ⟨.key, keyQ, 1⟩ (t.devs ()) = some r ∧
      r.keepRunning = false := evdevHandleEvent_quit (by decide) (by decide +kernel)
  have hrun : Run (DeskStep documented) s
      [(((), ⟨.key, keyLeftShift, 1⟩), s.key documented () keyLeftShift 1),
        (((), ⟨.key, keyLeftAlt, 1⟩),
          (s.key documented () keyLeftShift 1).key documented () keyLeftAlt 1),
        (((), ⟨.key, keyLeftCtrl, 1⟩), t)] :=
    ⟨deskStep_key 1 (by decide) (by decide), deskStep_key 1 (by decide) (by decide),
      deskStep_key 1 (by decide) (by decide), trivial⟩
  exact ⟨r, hr, (evdev_modifiers_match 3 (fun _ => ⟨0, 255, 0⟩) defaultMapping hrun hr).2 hend⟩

end Moonlight
