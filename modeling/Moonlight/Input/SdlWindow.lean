import Moonlight.Input.SdlKeys

/-! The window of `src/sdl.c` over a whole run of its loop: when it ends, whether it fills the
screen and whether it holds the mouse is decided by the keys and buttons so far. -/
namespace Moonlight

variable {L : Limelight} {S : Sdl} {before events : List SdlEvent} {event : SdlEvent}
  {s : SdlLoop}

/-- What an event asks of the window: with all modifiers down every key is a command. -/
def command (S : Sdl) (before : List SdlEvent) (event : SdlEvent) : SdlResult :=
  match event with
  | .mouseButton _ _ => .mouseGrab
  | .key down sym =>
    if AllDown S (before ++ [event]) then
      if sym = S.quitKey ∧ down = false then .quitApplication
      else if sym = S.fullscreenKey ∧ down = false then .toggleFullscreen
      else .mouseUngrab
    else .nothing
  | _ => .nothing

/-- The commands of some events, after those before them. -/
def commandsFrom (S : Sdl) (before : List SdlEvent) : List SdlEvent → List SdlResult
  | [] => []
  | event :: events => command S before event :: commandsFrom S (before ++ [event]) events

def commands (S : Sdl) (events : List SdlEvent) : List SdlResult := commandsFrom S [] events

/-- The last event closes the window or is the quit combination. -/
def Ended (S : Sdl) (events : List SdlEvent) : Prop :=
  events.getLast? = some .quit ∨ (commands S events).getLast? = some .quitApplication

/-- The commands that set the mouse mode. -/
def SdlResult.movesMouse (r : SdlResult) : Bool :=
  r = .mouseGrab ∨ r = .toggleFullscreen ∨ r = .mouseUngrab

/-- What the window is after some events. -/
structure WindowFollows (S : Sdl) (fullscreen : Bool) (events : List SdlEvent) (s : SdlLoop) :
    Prop where
  done : s.done = true ↔ Ended S events
  fullscreen : s.fullscreen = (fullscreen ^^ (commands S events).count .toggleFullscreen % 2 = 1)
  free : s.relativeMouse = false ↔
    ((commands S events).filter SdlResult.movesMouse).getLast? = some .mouseUngrab

/-- `sdl_init` takes the mouse. -/
def SdlLoop.start (fullscreen : Bool) : SdlLoop := ⟨false, fullscreen, true, SdlInput.start⟩

theorem commandsFrom_concat : commandsFrom S before (events ++ [event]) =
    commandsFrom S before events ++ [command S (before ++ events) event] := by
  induction events generalizing before with
  | nil => simp [commandsFrom]
  | cons e events ih => simp [commandsFrom, ih]

theorem commands_concat :
    commands S (events ++ [event]) = commands S events ++ [command S events event] :=
  commandsFrom_concat

theorem sdlController_nothing {which : Int} {change : GamepadState → Option GamepadState}
    {s : SdlInput} : (sdlController which change s).1 = .nothing := by
  unfold sdlController
  rcases getGamepad which s.gamepads with ⟨i, gamepads⟩
  dsimp only
  split <;> rfl

/-- The handler returns the command. -/
theorem sdlinputHandleEvent_command {s : SdlInput}
    (hs : s.keyboardModifiers = modifiersAfter L S before) :
    (sdlinputHandleEvent L S event s).1 = command S before event := by
  cases event with
  | key down sym =>
    simp only [sdlinputHandleEvent, sdlKey, command, swallowed_iff hs, Swallowed]
    by_cases hdown : AllDown S (before ++ [.key down sym])
    · simp only [hdown, true_and, if_true]
      split
      · rfl
      · split <;> rfl
    · simp [hdown]
  | mouseButton down button =>
    simp only [sdlinputHandleEvent, command]
    split <;> rfl
  | controllerAxis which axis value => exact sdlController_nothing
  | controllerButton down which button => exact sdlController_nothing
  | _ => rfl

/-- One turn of the loop keeps the window as asked. -/
theorem WindowFollows.turn {fullscreen : Bool} (h : WindowFollows S fullscreen events s)
    (hopen : s.done = false) (hs : s.input.keyboardModifiers = modifiersAfter L S events) :
    WindowFollows S fullscreen (events ++ [event]) (sdlLoopBody L S event s).1 := by
  have hended : Ended S (events ++ [event]) ↔
      event = .quit ∨ command S events event = .quitApplication := by
    simp [Ended, commands_concat]
  have hcommand : (sdlinputHandleEvent L S event s.input).1 = command S events event :=
    sdlinputHandleEvent_command hs
  have hquit : event = .quit → command S events event = .nothing := by
    rintro rfl
    rfl
  rcases hr : sdlinputHandleEvent L S event s.input with ⟨result, input, sent⟩
  rw [hr] at hcommand
  obtain rfl : result = command S events event := hcommand
  unfold sdlLoopBody
  rw [hr]
  cases hc : command S events event with
  | nothing =>
    rw [hc] at hended
    have hfullscreen : s.fullscreen = (fullscreen ^^
        (commands S (events ++ [event])).count .toggleFullscreen % 2 = 1) := by
      simpa [commands_concat, hc] using h.fullscreen
    have hfree : s.relativeMouse = false ↔
        ((commands S (events ++ [event])).filter SdlResult.movesMouse).getLast? =
          some .mouseUngrab := by
      simpa [commands_concat, hc, SdlResult.movesMouse] using h.free
    dsimp only
    split
    next hq => exact ⟨iff_of_true rfl (hended.mpr (Or.inl hq)), hfullscreen, hfree⟩
    next hq => exact ⟨by simp [hended, hq, hopen], hfullscreen, hfree⟩
  | quitApplication =>
    exact ⟨by simp [hended, hc], by simpa [commands_concat, hc] using h.fullscreen,
      by simpa [commands_concat, hc, SdlResult.movesMouse] using h.free⟩
  | mouseGrab =>
    have hne : event ≠ .quit := fun hq => by simp [hquit hq] at hc
    exact ⟨by simp [hended, hc, hne, hopen], by simpa [commands_concat, hc] using h.fullscreen,
      by simp [commands_concat, hc, SdlResult.movesMouse]⟩
  | mouseUngrab =>
    have hne : event ≠ .quit := fun hq => by simp [hquit hq] at hc
    exact ⟨by simp [hended, hc, hne, hopen], by simpa [commands_concat, hc] using h.fullscreen,
      by simp [commands_concat, hc, SdlResult.movesMouse]⟩
  | toggleFullscreen =>
    have hne : event ≠ .quit := fun hq => by simp [hquit hq] at hc
    refine ⟨by simp [hended, hc, hne, hopen], ?_,
      by simp [commands_concat, hc, SdlResult.movesMouse]⟩
    simp only [commands_concat, hc, List.count_append, List.count_singleton_self, h.fullscreen]
    rcases Nat.mod_two_eq_zero_or_one ((commands S events).count .toggleFullscreen)
      with heven | hodd
    · simp [Nat.add_mod, heven]
    · simp [Nat.add_mod, hodd]

/-- The loop handles the events up to the first that ends it. -/
theorem WindowFollows.run {fullscreen : Bool} (h : WindowFollows S fullscreen before s)
    (hs : s.input.keyboardModifiers = modifiersAfter L S before) :
    ∃ handled, handled <+: events ∧ (handled = events ∨ Ended S (before ++ handled)) ∧
      (∀ pre, pre <+: handled → Ended S (before ++ pre) → pre = handled) ∧
      WindowFollows S fullscreen (before ++ handled) (sdlLoop L S events s).1 := by
  induction events generalizing before s with
  | nil =>
    refine ⟨[], List.nil_prefix, Or.inl rfl, fun pre hpre _ => List.prefix_nil.mp hpre, ?_⟩
    rwa [List.append_nil]
  | cons event events ih =>
    by_cases hdone : s.done = true
    · refine ⟨[], List.nil_prefix, Or.inr ?_, fun pre hpre _ => List.prefix_nil.mp hpre, ?_⟩
      · rw [List.append_nil]
        exact h.done.mp hdone
      · rw [List.append_nil, sdlLoop, if_pos hdone]
        exact h
    · have hopen : s.done = false := by simpa using hdone
      have hnext : (sdlLoopBody L S event s).1.input.keyboardModifiers =
          modifiersAfter L S (before ++ [event]) := by
        rw [(sdlLoopBody_eq event s).1, sdlinputHandleEvent_modifiers, hs, modifiersAfter_concat]
      obtain ⟨handled, hprefix, hend, hfirst, hwindow⟩ := ih (h.turn hopen hs) hnext
      simp only [List.append_assoc, List.singleton_append] at hend hfirst hwindow
      refine ⟨event :: handled, (List.prefix_cons_inj event).mpr hprefix, ?_, ?_, ?_⟩
      · exact hend.imp_left (congrArg (event :: ·))
      · intro pre hpre hended
        cases pre with
        | nil =>
          rw [List.append_nil] at hended
          exact absurd (h.done.mpr hended) hdone
        | cons e pre =>
          obtain ⟨rfl, hrest⟩ := List.cons_prefix_cons.mp hpre
          rw [hfirst pre hrest (by simpa using hended)]
      · rw [sdlLoop, if_neg hdone]
        exact hwindow

/-- However the loop goes on: it handles the events up to the first quit event or quit combination,
the window fills the screen after an odd number of full screen combinations if it did not before,
and it has let go of the mouse if and only if that is what the last of the keys and buttons did that
move the mouse mode. -/
theorem sdl_window_follows (L : Limelight) (S : Sdl) (fullscreen : Bool)
    (events : List SdlEvent) :
    ∃ handled, handled <+: events ∧ (handled = events ∨ Ended S handled) ∧
      (∀ pre, pre <+: handled → Ended S pre → pre = handled) ∧
      WindowFollows S fullscreen handled (sdlLoop L S events (SdlLoop.start fullscreen)).1 := by
  have hstart : WindowFollows S fullscreen [] (SdlLoop.start fullscreen) :=
    ⟨by simp [Ended, commands, commandsFrom, SdlLoop.start],
      by simp [commands, commandsFrom, SdlLoop.start],
      by simp [commands, commandsFrom, SdlLoop.start]⟩
  exact hstart.run rfl

end Moonlight
