import Moonlight.Lib.Masks
import Moonlight.Lib.Trace
import Moonlight.Input.EvdevFrame
import Moonlight.Input.SdlInput

/-! Modifier tracking: one bit for the two keys of a modifier, in `evdev.c` and in `sdlinput.c`.
The bit is exact until one of the two keys goes up while the other is still down. -/
namespace Moonlight

open Lib.Trace Lib.Presence Lib.Masks

variable {L : Limelight} {S : Sdl} {ev : InputEvent} {event : SdlEvent}

theorem Limelight.separate (L : Limelight) : Separate L.modifier :=
  ⟨L.modifier_ne_zero, L.modifier_disjoint⟩

/-- The masks as `keyboard_modifiers` stores them. -/
def Limelight.wide (L : Limelight) (m : Modifier) : BitVec 32 := (L.modifier m).setWidth 32

theorem Limelight.separate_wide (L : Limelight) : Separate L.wide :=
  L.separate.setWidth (by omega)

/-- All three modifiers. -/
def Complete (held : Set Modifier) : Prop := ∀ m, m ∈ held

theorem quitModifiers_iff {x : BitVec 8} :
    x &&& quitModifiers L = quitModifiers L ↔ Complete (members L.modifier x) := by
  unfold quitModifiers Complete
  rw [and_or_eq_iff, and_or_eq_iff]
  constructor
  · rintro ⟨⟨hshift, halt⟩, hctrl⟩ m
    cases m with
    | shift => exact hshift
    | alt => exact halt
    | ctrl => exact hctrl
  · intro h
    exact ⟨⟨h .shift, h .alt⟩, h .ctrl⟩

theorem actionModifiers_iff {x : BitVec 32} :
    x &&& actionModifiers L = actionModifiers L ↔ Complete (members L.wide x) := by
  unfold actionModifiers Complete
  rw [and_or_eq_iff, and_or_eq_iff]
  constructor
  · rintro ⟨⟨hshift, halt⟩, hctrl⟩ m
    cases m with
    | shift => exact hshift
    | alt => exact halt
    | ctrl => exact hctrl
  · intro h
    exact ⟨⟨h .shift, h .alt⟩, h .ctrl⟩

/-! ### evdev -/

/-- A keyboard device beside the keys that are physically down on it. -/
structure EvdevKeys where
  dev : InputDevice
  held : Finset UInt16

/-- The keys that are down after an event; an auto-repeat counts as down. -/
def evdevHeld (ev : InputEvent) (held : Finset UInt16) : Finset UInt16 :=
  if ev.type = .key then move held ev.code (decide (ev.value ≠ 0)) else held

/-- The handler takes one event, whatever ids other devices were given. -/
def EvdevKeyStep (L : Limelight) (s : EvdevKeys) (ev : InputEvent) (t : EvdevKeys) : Prop :=
  ∃ assigned r, evdevHandleEvent L assigned ev s.dev = some r ∧
    t = ⟨r.dev, evdevHeld ev s.held⟩

/-- The bits are exact, and pressing Q ends the stream while every modifier is held. -/
def EvdevTracks (L : Limelight) (s : EvdevKeys) : Prop :=
  members L.modifier s.dev.modifiers = resources keyModifier s.held ∧
  (Complete (resources keyModifier s.held) → ∀ assigned value, value ≠ 0 →
    ∃ r, evdevHandleEvent L assigned ⟨.key, keyQ, value⟩ s.dev = some r ∧ r.keepRunning = false)

/-- No key of a modifier goes up while the other key of that modifier is down. -/
def EvdevSole (s : EvdevKeys) (ev : InputEvent) (_ : EvdevKeys) : Prop :=
  ev.type = .key → SoleRelease keyModifier s.held ev.code (decide (ev.value ≠ 0))

instance {s t : EvdevKeys} : Decidable (EvdevSole s ev t) :=
  inferInstanceAs (Decidable (_ → _))

theorem keyModifier_lt {code : UInt16} {m : Modifier} (h : keyModifier code = some m) :
    code.toNat < 121 := by
  unfold keyModifier at h
  split at h
  · rename_i hc
    rcases hc with rfl | rfl <;> decide
  · split at h
    · rename_i hc
      rcases hc with rfl | rfl <;> decide
    · split at h
      · rename_i hc
        rcases hc with rfl | rfl <;> decide
      · cases h

theorem trackModifier_eq_store (modifiers : BitVec 8) (code : UInt16) (value : Int) :
    trackModifier L modifiers code value =
      store L.modifier (touch keyModifier code (decide (value ≠ 0))) modifiers := by
  unfold trackModifier touch
  cases keyModifier code with
  | none => rfl
  | some m => by_cases hv : value = 0 <;> simp [hv, store]

/-- Only the keys of the keyboard table reach the modifiers. -/
theorem trackModifier_of_le {modifiers : BitVec 8} {code : UInt16} {value : Int}
    (h : 121 ≤ code.toNat) : trackModifier L modifiers code value = modifiers := by
  unfold trackModifier
  cases hk : keyModifier code with
  | none => rfl
  | some m =>
    have hlt := keyModifier_lt hk
    omega

theorem evdevSyn_modifiers {assigned : BitVec 32} {dev : InputDevice} :
    (evdevSyn assigned dev).dev.modifiers = dev.modifiers := by
  unfold evdevSyn
  dsimp only
  split <;> rfl

theorem evdevRel_modifiers {dev : InputDevice} : (evdevRel ev dev).modifiers = dev.modifiers := by
  unfold evdevRel
  repeat' split
  all_goals rfl

/-- Key events are all that moves the modifiers of a device. -/
theorem evdevHandleEvent_modifiers {assigned : BitVec 32} {dev : InputDevice} {r : Handled}
    (h : evdevHandleEvent L assigned ev dev = some r) :
    r.dev.modifiers =
      if ev.type = .key then trackModifier L dev.modifiers ev.code ev.value
      else dev.modifiers := by
  unfold evdevHandleEvent at h
  cases htype : ev.type with
  | syn =>
    simp only [htype] at h
    cases h
    exact evdevSyn_modifiers
  | key =>
    simp only [htype, keyCodes_length] at h
    rw [if_pos rfl]
    split at h
    · rcases hk : evdevKeyboard L ev dev with ⟨keep, dev', sent⟩
      rw [hk] at h
      obtain ⟨rfl, _⟩ := evdevKeyboard_cases hk
      cases h
      rfl
    · rename_i hcode
      rcases hb : evdevButton L ev dev with ⟨dev', modified, sent⟩
      rw [hb] at h
      obtain ⟨_, ⟨_, rfl⟩ | ⟨_, pad, rfl⟩⟩ := evdevButton_cases hb <;> cases h <;>
        exact (trackModifier_of_le (by omega)).symm
  | rel =>
    simp only [htype] at h
    cases h
    exact evdevRel_modifiers
  | abs =>
    simp only [htype, Option.map_eq_some_iff] at h
    obtain ⟨⟨dev', modified⟩, habs, rfl⟩ := h
    rcases evdevAbs_cases habs with ⟨_, rfl⟩ | ⟨_, pad, rfl⟩ <;> rfl
  | other =>
    simp only [htype] at h
    cases h
    rfl

theorem evdevHandleEvent_quit {assigned : BitVec 32} {dev : InputDevice} {value : Int}
    (hv : value ≠ 0) (hm : dev.modifiers &&& quitModifiers L = quitModifiers L) :
    ∃ r, evdevHandleEvent L assigned ⟨.key, keyQ, value⟩ dev = some r ∧ r.keepRunning = false := by
  have hq : keyQ.toNat < keyCodes.length := by
    rw [keyCodes_length]
    decide
  have hk : keyModifier keyQ = none := by decide
  refine ⟨⟨false, dev, assigned, []⟩, ?_, rfl⟩
  simp only [evdevHandleEvent, if_pos hq, evdevKeyboard, trackModifier, hk, hm, hv, ne_eq,
    not_false_eq_true, and_self, if_true]

/-- A device tracks its keys as soon as its bits are exact. -/
theorem evdevTracks_iff {s : EvdevKeys} :
    EvdevTracks L s ↔ members L.modifier s.dev.modifiers = resources keyModifier s.held := by
  constructor
  · intro h
    exact h.1
  · intro h
    refine ⟨h, fun hall assigned value hv => evdevHandleEvent_quit hv ?_⟩
    rw [quitModifiers_iff, h]
    exact hall

/-- One event keeps the bits exact if and only if it is no early release. -/
theorem evdevTracks_step {s t : EvdevKeys} (h : EvdevKeyStep L s ev t) (hs : EvdevTracks L s) :
    EvdevTracks L t ↔ EvdevSole s ev t := by
  obtain ⟨assigned, r, hr, rfl⟩ := h
  rw [evdevTracks_iff] at hs ⊢
  have hm := evdevHandleEvent_modifiers hr
  unfold EvdevSole evdevHeld
  by_cases ht : ev.type = .key
  · rw [if_pos ht] at hm ⊢
    simp only [hm, ht, true_imp_iff]
    rw [trackModifier_eq_store, members_store L.separate]
    exact move_exact_iff hs
  · rw [if_neg ht] at hm ⊢
    simp only [hm, ht, false_imp_iff, iff_true]
    exact hs

/-! ### SDL -/

/-- The handler's variables beside the keys that are physically down. -/
structure SdlKeys where
  input : SdlInput
  held : Finset Int

def sdlHeld (event : SdlEvent) (held : Finset Int) : Finset Int :=
  match event with
  | .key down sym => move held sym down
  | _ => held

def SdlKeyStep (L : Limelight) (S : Sdl) (s : SdlKeys) (event : SdlEvent) (t : SdlKeys) : Prop :=
  t = ⟨(sdlinputHandleEvent L S event s.input).2.1, sdlHeld event s.held⟩

/-- The bits are exact, and releasing Q quits while every modifier is held. -/
def SdlTracks (L : Limelight) (S : Sdl) (s : SdlKeys) : Prop :=
  members L.wide s.input.keyboardModifiers = resources (sdlModifier S) s.held ∧
  (Complete (resources (sdlModifier S) s.held) →
    (sdlinputHandleEvent L S (.key false S.quitKey) s.input).1 = .quitApplication)

def SdlSole (S : Sdl) (s : SdlKeys) (event : SdlEvent) (_ : SdlKeys) : Prop :=
  match event with
  | .key down sym => SoleRelease (sdlModifier S) s.held sym down
  | _ => True

instance {s t : SdlKeys} : Decidable (SdlSole S s event t) :=
  match event with
  | .key down sym => inferInstanceAs (Decidable (SoleRelease _ s.held sym down))
  | .mouseMotion _ _ | .mouseWheel _ | .mouseButton _ _ | .controllerAxis _ _ _
  | .controllerButton _ _ _ | .quit | .other => isTrue trivial

theorem trackKeyboard_eq_store (modifiers : BitVec 32) (down : Bool) (sym : Int) :
    trackKeyboard L S modifiers down sym =
      store L.wide (touch (sdlModifier S) sym down) modifiers := by
  unfold trackKeyboard touch
  cases sdlModifier S sym with
  | none => rfl
  | some m => cases down <;> rfl

theorem sdlModifier_quitKey (S : Sdl) : sdlModifier S S.quitKey = none := by
  have hd := S.nodup
  simp only [List.nodup_cons, List.mem_cons, not_or] at hd
  unfold sdlModifier
  simp [eq_comm (a := S.quitKey), hd]

theorem sdlKey_modifiers (modifiers : BitVec 32) (down : Bool) (sym : Int) :
    (sdlKey L S modifiers down sym).2.1 = trackKeyboard L S modifiers down sym := by
  unfold sdlKey
  dsimp only
  repeat' split
  all_goals rfl

theorem sdlController_keyboard {which : Int} {change : GamepadState → Option GamepadState}
    {s : SdlInput} : (sdlController which change s).2.1.keyboardModifiers = s.keyboardModifiers := by
  unfold sdlController
  rcases getGamepad which s.gamepads with ⟨i, gamepads⟩
  dsimp only
  split <;> rfl

/-- `keyboard_modifiers` after any event. -/
def trackEvent (L : Limelight) (S : Sdl) (modifiers : BitVec 32) (event : SdlEvent) : BitVec 32 :=
  match event with
  | .key down sym => trackKeyboard L S modifiers down sym
  | _ => modifiers

/-- Key events are all that moves `keyboard_modifiers`. -/
theorem sdlinputHandleEvent_modifiers (event : SdlEvent) (s : SdlInput) :
    (sdlinputHandleEvent L S event s).2.1.keyboardModifiers =
      trackEvent L S s.keyboardModifiers event := by
  unfold sdlinputHandleEvent trackEvent
  cases event with
  | key down sym => exact sdlKey_modifiers s.keyboardModifiers down sym
  | mouseButton down button =>
    dsimp only
    split <;> rfl
  | controllerAxis which axis value => exact sdlController_keyboard
  | controllerButton down which button => exact sdlController_keyboard
  | mouseMotion xrel yrel => rfl
  | mouseWheel y => rfl
  | quit => rfl
  | other => rfl

theorem sdlinputHandleEvent_quit {s : SdlInput}
    (hm : s.keyboardModifiers &&& actionModifiers L = actionModifiers L) :
    (sdlinputHandleEvent L S (.key false S.quitKey) s).1 = .quitApplication := by
  simp [sdlinputHandleEvent, sdlKey, trackKeyboard, sdlModifier_quitKey, hm]

theorem sdlTracks_iff {s : SdlKeys} :
    SdlTracks L S s ↔
      members L.wide s.input.keyboardModifiers = resources (sdlModifier S) s.held := by
  constructor
  · intro h
    exact h.1
  · intro h
    refine ⟨h, fun hall => sdlinputHandleEvent_quit ?_⟩
    rw [actionModifiers_iff, h]
    exact hall

theorem sdlTracks_step {s t : SdlKeys} (h : SdlKeyStep L S s event t) (hs : SdlTracks L S s) :
    SdlTracks L S t ↔ SdlSole S s event t := by
  subst h
  rw [sdlTracks_iff] at hs ⊢
  have hm := sdlinputHandleEvent_modifiers (L := L) (S := S) event s.input
  unfold trackEvent at hm
  unfold SdlSole sdlHeld
  cases event with
  | key down sym =>
    dsimp only at hm ⊢
    rw [hm, trackKeyboard_eq_store, members_store L.separate_wide]
    exact move_exact_iff hs
  | _ =>
    dsimp only at hm ⊢
    rw [hm, iff_true]
    exact hs

/-! ### Whole runs -/

def EvdevKeys.start (fd : Int) (absInfo : Int → AbsInfo) (map : Mapping) : EvdevKeys :=
  ⟨newDevice fd absInfo map, ∅⟩

def SdlKeys.start : SdlKeys := ⟨SdlInput.start, ∅⟩

theorem evdevTracks_start {fd : Int} {absInfo : Int → AbsInfo} {map : Mapping} :
    EvdevTracks L (EvdevKeys.start fd absInfo map) := by
  rw [evdevTracks_iff]
  exact (members_zero L.separate).trans resources_empty.symm

theorem sdlTracks_start : SdlTracks L S SdlKeys.start := by
  rw [sdlTracks_iff]
  exact (members_zero L.separate_wide).trans resources_empty.symm

/-- Both handlers track the modifiers throughout a run, and so recognise the quit combination
whenever it is held, exactly when no key of a modifier is released while the other one of that
modifier is still down. -/
theorem modifiers_track_iff (L : Limelight) (S : Sdl) (fd : Int) (absInfo : Int → AbsInfo)
    (map : Mapping) (events : List (InputEvent × EvdevKeys)) (sdlEvents : List (SdlEvent × SdlKeys))
    (hrun : Run (EvdevKeyStep L) (EvdevKeys.start fd absInfo map) events)
    (hsdl : Run (SdlKeyStep L S) SdlKeys.start sdlEvents) :
    (Always (EvdevTracks L) (EvdevKeys.start fd absInfo map) events ↔
      EachStep EvdevSole (EvdevKeys.start fd absInfo map) events) ∧
    (Always (SdlTracks L S) SdlKeys.start sdlEvents ↔
      EachStep (SdlSole S) SdlKeys.start sdlEvents) := by
  refine ⟨always_iff_eachStep ?_ hrun evdevTracks_start, always_iff_eachStep ?_ hsdl sdlTracks_start⟩
  · intro s ev t h hs
    exact evdevTracks_step h hs
  · intro s event t h hs
    exact sdlTracks_step h hs

/-- A modifier key only moves the bits and the keys. -/
theorem evdevKeyStep_modifier {s : EvdevKeys} {code : UInt16} {m : Modifier} (value : Int)
    (hm : keyModifier code = some m) :
    EvdevKeyStep L s ⟨.key, code, value⟩
      ⟨{ s.dev with modifiers := trackModifier L s.dev.modifiers code value },
        move s.held code (decide (value ≠ 0))⟩ := by
  have hlt : code.toNat < keyCodes.length := by
    rw [keyCodes_length]
    exact keyModifier_lt hm
  rcases hk : evdevKeyboard L ⟨.key, code, value⟩ s.dev with ⟨keep, dev, sent⟩
  obtain ⟨rfl, _⟩ := evdevKeyboard_cases hk
  refine ⟨0, ⟨keep, _, 0, sent⟩, ?_, rfl⟩
  simp only [evdevHandleEvent, if_pos hlt, hk]

/-- Left Shift and Alt go down, A is pressed, left Shift changes to the right one, A and Ctrl. -/
def typedKeys : List InputEvent :=
  [⟨.key, keyLeftShift, 1⟩, ⟨.key, keyLeftAlt, 1⟩, ⟨.key, 30, 1⟩, ⟨.key, keyLeftShift, 0⟩,
    ⟨.key, keyRightShift, 1⟩, ⟨.key, keyRightShift, 2⟩, ⟨.key, 30, 0⟩, ⟨.key, keyRightCtrl, 1⟩]

def typedSdlKeys : List SdlEvent :=
  [.key true sdl2.lshift, .key true sdl2.lalt, .key true 0x61, .key false sdl2.lshift,
    .mouseMotion 3 4, .key true sdl2.rshift, .key false 0x61, .key true sdl2.rctrl]

/-- One event on a device while no id is assigned. -/
def evdevKeyNext (L : Limelight) (s : EvdevKeys) (ev : InputEvent) : Option EvdevKeys :=
  (evdevHandleEvent L 0 ev s.dev).map fun r => ⟨r.dev, evdevHeld ev s.held⟩

def sdlKeyNext (L : Limelight) (S : Sdl) (s : SdlKeys) (event : SdlEvent) : Option SdlKeys :=
  some ⟨(sdlinputHandleEvent L S event s.input).2.1, sdlHeld event s.held⟩

theorem evdevKeyStep_of_next {s t : EvdevKeys} (h : evdevKeyNext L s ev = some t) :
    EvdevKeyStep L s ev t := by
  obtain ⟨r, hr, rfl⟩ := Option.map_eq_some_iff.mp h
  exact ⟨0, r, hr, rfl⟩

theorem sdlKeyStep_of_next {s t : SdlKeys} (h : sdlKeyNext L S s event = some t) :
    SdlKeyStep L S s event t :=
  (Option.some.inj h).symm

/-- Both programs follow the keys to the quit combination. -/
theorem modifiers_track_iff_press :
    ∃ (events : List (InputEvent × EvdevKeys)) (sdlEvents : List (SdlEvent × SdlKeys)),
      events.map Prod.fst = typedKeys ∧ sdlEvents.map Prod.fst = typedSdlKeys ∧
      Always (EvdevTracks documented) (EvdevKeys.start 3 (fun _ => ⟨0, 255, 0⟩) defaultMapping)
        events ∧
      Always (SdlTracks documented sdl2) SdlKeys.start sdlEvents := by
  have hevdev : (execute (checked (evdevKeyNext documented) EvdevSole)
      (EvdevKeys.start 3 (fun _ => ⟨0, 255, 0⟩) defaultMapping) typedKeys).isSome = true := by
    decide +kernel
  have hsdl : (execute (checked (sdlKeyNext documented sdl2) (SdlSole sdl2)) SdlKeys.start
      typedSdlKeys).isSome = true := by
    decide +kernel
  obtain ⟨t, ht⟩ := Option.isSome_iff_exists.mp hevdev
  obtain ⟨u, hu⟩ := Option.isSome_iff_exists.mp hsdl
  obtain ⟨events, hrun, hsole, hlabels, -⟩ := exists_run_of_checked ht
  obtain ⟨sdlEvents, hsdlRun, hsdlSole, hsdlLabels, -⟩ := exists_run_of_checked hu
  have h := modifiers_track_iff documented sdl2 3 (fun _ => ⟨0, 255, 0⟩) defaultMapping events
    sdlEvents (hrun.imp fun _ _ _ => evdevKeyStep_of_next)
    (hsdlRun.imp fun _ _ _ => sdlKeyStep_of_next)
  exact ⟨events, sdlEvents, hlabels, hsdlLabels, h.1.mpr hsole, h.2.mpr hsdlSole⟩

theorem not_evdevTracks {s : EvdevKeys} {k : UInt16} {m : Modifier} (hk : k ∈ s.held)
    (hm : keyModifier k = some m) (hb : s.dev.modifiers &&& L.modifier m ≠ L.modifier m) :
    ¬ EvdevTracks L s := by
  intro h
  have hmem : m ∈ members L.modifier s.dev.modifiers := by
    rw [h.1]
    exact ⟨k, hk, hm⟩
  exact hb hmem

theorem not_sdlTracks {s : SdlKeys} {k : Int} {m : Modifier} (hk : k ∈ s.held)
    (hm : sdlModifier S k = some m)
    (hb : s.input.keyboardModifiers &&& L.wide m ≠ L.wide m) : ¬ SdlTracks L S s := by
  intro h
  have hmem : m ∈ members L.wide s.input.keyboardModifiers := by
    rw [h.1]
    exact ⟨k, hk, hm⟩
  exact hb hmem

/-- Left shift down, right shift down, left shift up: the bit is gone, the right key is not. -/
theorem early_release_loses_shift :
    (∃ events : List (InputEvent × EvdevKeys),
      Run (EvdevKeyStep documented) (EvdevKeys.start 3 (fun _ => ⟨0, 255, 0⟩) defaultMapping)
        events ∧
      events.map Prod.fst =
        [⟨.key, keyLeftShift, 1⟩, ⟨.key, keyRightShift, 1⟩, ⟨.key, keyLeftShift, 0⟩] ∧
      ¬ Always (EvdevTracks documented)
        (EvdevKeys.start 3 (fun _ => ⟨0, 255, 0⟩) defaultMapping) events) ∧
    ∃ sdlEvents : List (SdlEvent × SdlKeys),
      Run (SdlKeyStep documented sdl2) SdlKeys.start sdlEvents ∧
      sdlEvents.map Prod.fst =
        [.key true sdl2.lshift, .key true sdl2.rshift, .key false sdl2.lshift] ∧
      ¬ Always (SdlTracks documented sdl2) SdlKeys.start sdlEvents := by
  constructor
  · have hleft : keyModifier keyLeftShift = some .shift := by decide
    have hright : keyModifier keyRightShift = some .shift := by decide
    refine ⟨[(⟨.key, keyLeftShift, 1⟩, _), (⟨.key, keyRightShift, 1⟩, _),
      (⟨.key, keyLeftShift, 0⟩, _)], ⟨evdevKeyStep_modifier 1 hleft,
        evdevKeyStep_modifier 1 hright, evdevKeyStep_modifier 0 hleft, trivial⟩, rfl, ?_⟩
    intro h
    exact not_evdevTracks (k := keyRightShift) (by decide +kernel) hright (by decide +kernel)
      (always_final h)
  · refine ⟨[(.key true sdl2.lshift, _), (.key true sdl2.rshift, _),
      (.key false sdl2.lshift, _)], ⟨rfl, rfl, rfl, trivial⟩, rfl, ?_⟩
    intro h
    exact not_sdlTracks (k := sdl2.rshift) (m := .shift) (by decide +kernel) (by decide +kernel)
      (by decide +kernel) (always_final h)

end Moonlight
