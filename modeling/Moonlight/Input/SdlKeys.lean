import Moonlight.Lib.LastWriter
import Moonlight.Lib.Replay
import Moonlight.Lib.Machine
import Moonlight.Input.Modifiers

/-! Which keys the host still holds after a run of SDL events. Every key event is swallowed
while the three modifiers are down, so a key that went down before can stay down. -/
namespace Moonlight

open Lib.LastWriter Lib.Machine Lib.Masks Lib.Presence Lib.Replay

variable {L : Limelight} {S : Sdl} {κ : Type*} {narrow : Int → κ} {event : SdlEvent}
  {events : List SdlEvent} {m : Modifier} {s : SdlInput}

/-- The key events in a list of calls, `true` for a key going down. The receiver reads the
key code through `narrow`, since the prototype of the call decides its width. -/
def hostKeys (narrow : Int → κ) (sent : List HostEvent) : List (Bool × κ) :=
  sent.filterMap fun e => match e with
    | .keyboard code action _ => some (decide (action = .down), narrow code)
    | _ => none

/-- The physical keys going down and up. -/
def presses (events : List SdlEvent) : List (Bool × Int) :=
  events.filterMap fun e => match e with
    | .key down sym => some (down, sym)
    | _ => none

/-- The modifier whose key an event moves. -/
def SdlEvent.modifier (S : Sdl) : SdlEvent → Option Modifier
  | key _ sym => sdlModifier S sym
  | _ => none

def SdlEvent.presses : SdlEvent → Bool
  | key down _ => down
  | _ => false

/-- What came last for each modifier, from either of its keys, was a press. -/
def AllDown (S : Sdl) (events : List SdlEvent) : Prop :=
  ∀ m, (lastOf (SdlEvent.modifier S) m events).any SdlEvent.presses = true

instance : Decidable (AllDown S events) :=
  decidable_of_iff (∀ m ∈ [Modifier.shift, .alt, .ctrl],
      (lastOf (SdlEvent.modifier S) m events).any SdlEvent.presses = true)
    ⟨fun h m => h m (by cases m <;> decide), fun h m _ => h m⟩

/-- A key event that comes after `before` is swallowed: with it, all three modifiers are down. -/
def Swallowed (S : Sdl) (before : List SdlEvent) (down : Bool) (sym : Int) : Prop :=
  AllDown S (before ++ [.key down sym])

instance {before : List SdlEvent} {down : Bool} {sym : Int} :
    Decidable (Swallowed S before down sym) :=
  inferInstanceAs (Decidable (AllDown S _))

section
variable (L : Limelight) (S : Sdl)

/-- The handler called on one event after the other. -/
def sdlRun : List SdlEvent → SdlInput → SdlInput × List HostEvent
  | [], s => (s, [])
  | event :: events, s =>
    let (_, s, sent) := sdlinputHandleEvent L S event s
    let (s, later) := sdlRun events s
    (s, sent ++ later)

/-- The key code passed to the host for a symbol. -/
def sdlHostCode (sym : Int) : Int :=
  ((0x80#32 <<< 8) ||| BitVec.ofInt 32 (sdlKeyCode S sym)).toInt

/-- The modifier bits after some events. -/
def modifiersAfter (events : List SdlEvent) : BitVec 32 :=
  events.foldl (trackEvent L S) 0

/-- What one event adds to the host's log, after the events before it. -/
def sdlEmit (narrow : Int → κ) (before : List SdlEvent) (event : SdlEvent) : Option (Bool × κ) :=
  match event with
  | .key down sym =>
    if Swallowed S before down sym then none else some (down, narrow (sdlHostCode S sym))
  | _ => none

end

theorem hostKeys_append (xs ys : List HostEvent) :
    hostKeys narrow (xs ++ ys) = hostKeys narrow xs ++ hostKeys narrow ys :=
  List.filterMap_append

theorem sdlRun_concat (events : List SdlEvent) (event : SdlEvent) (s : SdlInput) :
    sdlRun L S (events ++ [event]) s =
      ((sdlinputHandleEvent L S event (sdlRun L S events s).1).2.1,
        (sdlRun L S events s).2 ++
          (sdlinputHandleEvent L S event (sdlRun L S events s).1).2.2) := by
  induction events generalizing s with
  | nil => simp [sdlRun]
  | cons e events ih => simp [sdlRun, ih]

theorem modifiersAfter_concat (events : List SdlEvent) (event : SdlEvent) :
    modifiersAfter L S (events ++ [event]) = trackEvent L S (modifiersAfter L S events) event := by
  simp only [modifiersAfter, List.foldl_append, List.foldl_cons, List.foldl_nil]

/-- The bits are the modifiers that were pressed last. -/
theorem mem_modifiersAfter (events : List SdlEvent) :
    m ∈ members L.wide (modifiersAfter L S events) ↔
      (lastOf (SdlEvent.modifier S) m events).any SdlEvent.presses = true := by
  induction events using List.reverseRecOn with
  | nil =>
    have hnone : members L.wide (modifiersAfter L S []) = ∅ := members_zero L.separate_wide
    simp [hnone, lastOf]
  | append_singleton events event ih =>
    rw [modifiersAfter_concat]
    by_cases hm : event.modifier S = some m
    · rw [lastOf_concat_self hm]
      cases event with
      | key down sym =>
        rw [trackEvent, trackKeyboard_eq_store, members_store L.separate_wide, touch]
        have hsym : sdlModifier S sym = some m := hm
        cases down <;> simp [hsym, update, SdlEvent.presses]
      | _ => cases hm
    · rw [lastOf_concat_other hm, ← ih]
      cases event with
      | key down sym =>
        rw [trackEvent, trackKeyboard_eq_store, members_store L.separate_wide, touch]
        cases hn : sdlModifier S sym with
        | none => rfl
        | some n =>
          have hne : m ≠ n := fun h => hm (h ▸ hn)
          cases down <;> simp [update, hne]
      | _ => rfl

/-- The handler sees all three bits set if and only if it swallows the key event. -/
theorem swallowed_iff {before : List SdlEvent} {down : Bool} {sym : Int}
    (hs : s.keyboardModifiers = modifiersAfter L S before) :
    trackKeyboard L S s.keyboardModifiers down sym &&& actionModifiers L = actionModifiers L ↔
      Swallowed S before down sym := by
  have hafter : trackKeyboard L S s.keyboardModifiers down sym =
      modifiersAfter L S (before ++ [.key down sym]) := by
    rw [hs, modifiersAfter_concat, trackEvent]
  rw [hafter, actionModifiers_iff]
  exact forall_congr' fun m => mem_modifiersAfter _

/-- The handler keeps the bits that the events say. -/
theorem sdlRun_modifiers (events : List SdlEvent) :
    (sdlRun L S events SdlInput.start).1.keyboardModifiers = modifiersAfter L S events := by
  induction events using List.reverseRecOn with
  | nil => rfl
  | append_singleton events event ih =>
    rw [sdlRun_concat, modifiersAfter_concat, sdlinputHandleEvent_modifiers, ih]

theorem hostKeys_sdlController {which : Int} {change : GamepadState → Option GamepadState} :
    hostKeys narrow (sdlController which change s).2.2 = [] := by
  unfold sdlController
  rcases getGamepad which s.gamepads with ⟨i, gamepads⟩
  dsimp only
  split <;> rfl

/-- One event reaches the host unless it is a swallowed key. -/
theorem hostKeys_sdlinputHandleEvent (before : List SdlEvent) (event : SdlEvent)
    (hs : s.keyboardModifiers = modifiersAfter L S before) :
    hostKeys narrow (sdlinputHandleEvent L S event s).2.2 =
      (sdlEmit S narrow before event).toList := by
  cases event with
  | key down sym =>
    simp only [sdlinputHandleEvent, sdlKey, swallowed_iff hs, sdlEmit]
    by_cases hsw : Swallowed S before down sym
    · simp only [hsw, true_and, if_true]
      split
      · rfl
      · split <;> rfl
    · simp only [hsw, false_and, if_false]
      cases down <;> rfl
  | mouseButton down button =>
    unfold sdlinputHandleEvent
    dsimp only
    split <;> rfl
  | controllerAxis which axis value => exact hostKeys_sdlController
  | controllerButton down which button => exact hostKeys_sdlController
  | mouseMotion xrel yrel => rfl
  | mouseWheel y => rfl
  | quit => rfl
  | other => rfl

/-- The host's log is written event by event. -/
theorem hostKeys_sdlRun_concat (events : List SdlEvent) (event : SdlEvent) :
    hostKeys narrow (sdlRun L S (events ++ [event]) SdlInput.start).2 =
      hostKeys narrow (sdlRun L S events SdlInput.start).2 ++
        (sdlEmit S narrow events event).toList := by
  rw [sdlRun_concat, hostKeys_append,
    hostKeys_sdlinputHandleEvent events event (sdlRun_modifiers events)]

/-- An event that puts a key into the log is a key event that is not swallowed. -/
theorem sdlEmit_eq_some {before : List SdlEvent} {down : Bool} {code : κ} :
    sdlEmit S narrow before event = some (down, code) ↔
      ∃ sym, event = .key down sym ∧ ¬ Swallowed S before down sym ∧
        narrow (sdlHostCode S sym) = code := by
  constructor
  · intro h
    unfold sdlEmit at h
    cases event with
    | key d sym =>
      dsimp only at h
      by_cases hsw : Swallowed S before d sym
      · simp [hsw] at h
      · rw [if_neg hsw, Option.some.injEq, Prod.mk.injEq] at h
        obtain ⟨rfl, hcode⟩ := h
        exact ⟨sym, rfl, hsw, hcode⟩
    | _ => simp at h
  · rintro ⟨sym, rfl, hsw, rfl⟩
    simp [sdlEmit, hsw]

/-- The host ends up without a key exactly when every key that went down unswallowed is followed
by an unswallowed key going up with the same host code. -/
theorem sdl_keys_released_iff [DecidableEq κ] (L : Limelight) (S : Sdl) (narrow : Int → κ)
    (events : List SdlEvent) :
    replay (hostKeys narrow (sdlRun L S events SdlInput.start).2) = [] ↔
      ∀ pre sym post, events = pre ++ .key true sym :: post → ¬ Swallowed S pre true sym →
        ∃ mid sym' rest, post = mid ++ .key false sym' :: rest ∧
          narrow (sdlHostCode S sym') = narrow (sdlHostCode S sym) ∧
          ¬ Swallowed S (pre ++ .key true sym :: mid) false sym' := by
  have hstuck := unreleased_iff_stuck (sdlEmit S narrow)
    (fun xs => hostKeys narrow (sdlRun L S xs SdlInput.start).2) rfl hostKeys_sdlRun_concat events
  rw [replay_eq_nil]
  constructor
  · intro h pre sym post hsplit hsw
    by_contra hno
    refine h (narrow (sdlHostCode S sym)) ((hstuck _).mpr ⟨pre, _, post, hsplit,
      sdlEmit_eq_some.mpr ⟨sym, rfl, hsw, rfl⟩, fun mid y rest hpost hup => ?_⟩)
    obtain ⟨sym', rfl, hsw', hcode⟩ := sdlEmit_eq_some.mp hup
    exact hno ⟨mid, sym', rest, hpost, hcode, hsw'⟩
  · intro h code hun
    obtain ⟨pre, x, post, hsplit, hpress, hpost⟩ := (hstuck code).mp hun
    obtain ⟨sym, rfl, hsw, rfl⟩ := sdlEmit_eq_some.mp hpress
    obtain ⟨mid, sym', rest, hmid, hcode, hsw'⟩ := h pre sym post hsplit hsw
    exact hpost mid _ rest hmid (sdlEmit_eq_some.mpr ⟨sym', rfl, hsw', hcode⟩)

/-- A down, Ctrl, Alt and Shift down, A up, Shift, Alt and Ctrl up: the host keeps A. -/
theorem swallowed_release_stays_down :
    let events : List SdlEvent :=
      [.key true 0x61, .key true sdl2.lctrl, .key true sdl2.lalt, .key true sdl2.lshift,
        .key false 0x61, .key false sdl2.lshift, .key false sdl2.lalt, .key false sdl2.lctrl]
    DownBeforeUp [] (presses events) ∧ replay (presses events) = [] ∧
      replay (hostKeys (wrap 16) (sdlRun documented sdl2 events SdlInput.start).2) ≠ [] := by
  decide +kernel

theorem sdlLoopBody_eq (event : SdlEvent) (s : SdlLoop) :
    (sdlLoopBody L S event s).1.input = (sdlinputHandleEvent L S event s.input).2.1 ∧
    (sdlLoopBody L S event s).2 = (sdlinputHandleEvent L S event s.input).2.2 := by
  rcases hr : sdlinputHandleEvent L S event s.input with ⟨result, input, sent⟩
  unfold sdlLoopBody
  rw [hr]
  cases result with
  | nothing => by_cases hq : event = .quit <;> simp [hq]
  | _ => exact ⟨rfl, rfl⟩

/-- The loop hands the handler all events up to the one that ends the stream. -/
theorem sdlLoop_handles (events : List SdlEvent) (s : SdlLoop) :
    ∃ pre post, events = pre ++ post ∧
      (sdlLoop L S events s).1.input = (sdlRun L S pre s.input).1 ∧
      (sdlLoop L S events s).2 = (sdlRun L S pre s.input).2 ∧
      (post ≠ [] → (sdlLoop L S events s).1.done = true) := by
  induction events generalizing s with
  | nil => exact ⟨[], [], rfl, rfl, rfl, fun h => absurd rfl h⟩
  | cons event events ih =>
    by_cases hd : s.done = true
    · exact ⟨[], event :: events, rfl, by simp [sdlLoop, hd, sdlRun], by simp [sdlLoop, hd, sdlRun],
        fun _ => by simp [sdlLoop, hd]⟩
    · obtain ⟨hinput, hsent⟩ := sdlLoopBody_eq (L := L) (S := S) event s
      obtain ⟨pre, post, rfl, hin, hout, hdone⟩ := ih (sdlLoopBody L S event s).1
      refine ⟨event :: pre, post, rfl, ?_, ?_, ?_⟩
      · simpa [sdlLoop, hd, sdlRun, ← hinput] using hin
      · simpa [sdlLoop, hd, sdlRun, ← hinput, ← hsent] using hout
      · intro hpost
        simpa [sdlLoop, hd] using hdone hpost

end Moonlight
