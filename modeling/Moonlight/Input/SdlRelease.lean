import Moonlight.Input.SdlPads

/-! What the host was told last about controllers that were let go: buttons and sticks come back,
a trigger that has moved does not. -/
namespace Moonlight

open Lib.Trace Lib.LastWriter

variable {L : Limelight} {S : Sdl} {ids : Finset Int} {which w : Int} {i : Fin 4}
  {event e : SdlEvent} {pad : Pad} {reg : PadRegister}

/-- The handler's state beside all its calls. -/
structure SdlPads where
  input : SdlInput
  log : List HostEvent

variable {s t : SdlPads}

def sdlPadsNext (L : Limelight) (S : Sdl) (s : SdlPads) (event : SdlEvent) : SdlPads :=
  let r := sdlinputHandleEvent L S event s.input
  ⟨r.2.1, s.log ++ r.2.2⟩

/-- A button or an axis of one controller. -/
inductive SdlSource where
  | button (which : Int) (button : SdlButton)
  | axis (which : Int) (axis : SdlAxis)
  deriving DecidableEq

def sdlSource : SdlEvent → Option SdlSource
  | .controllerAxis which axis _ => some (.axis which axis)
  | .controllerButton _ which button => some (.button which button)
  | _ => none

/-- A button going up, or an axis at 0. -/
def SdlAtRest : SdlEvent → Prop
  | .controllerAxis _ _ value => value = 0
  | .controllerButton down _ _ => down = false
  | _ => True

def SdlEvent.OnTrigger : SdlEvent → Prop
  | .controllerAxis _ axis _ => axis = .triggerLeft ∨ axis = .triggerRight
  | _ => False

def SdlEvent.controller : SdlEvent → Option Int
  | .controllerAxis which _ _ => some which
  | .controllerButton _ which _ => some which
  | _ => none

/-- The controllers a list of events is about. -/
def controllerIds (events : List SdlEvent) : Finset Int :=
  (events.filterMap SdlEvent.controller).toFinset

/-- Nothing is pressed; a reversed stick may rest at -1. -/
def PadRegister.Slack (pad : Pad) : PadRegister → Prop
  | .flag bit => pad.buttonFlags.getLsbD bit = false
  | .leftTrigger => pad.leftTrigger = 0
  | .rightTrigger => pad.rightTrigger = 0
  | .leftX => -1 ≤ pad.leftStickX ∧ pad.leftStickX ≤ 0
  | .leftY => -1 ≤ pad.leftStickY ∧ pad.leftStickY ≤ 0
  | .rightX => -1 ≤ pad.rightStickX ∧ pad.rightStickX ≤ 0
  | .rightY => -1 ≤ pad.rightStickY ∧ pad.rightStickY ≤ 0

/-- No buttons, no triggers, and every stick between -1 and 0. -/
structure Pad.Slack (pad : Pad) : Prop where
  buttons : pad.buttonFlags = 0
  leftTrigger : pad.leftTrigger = 0
  rightTrigger : pad.rightTrigger = 0
  sticks : ∀ v ∈ [pad.leftStickX, pad.leftStickY, pad.rightStickX, pad.rightStickY],
    -1 ≤ v ∧ v ≤ 0

theorem Pad.slack_of_registers (h : ∀ reg : PadRegister, reg.Slack pad) : pad.Slack where
  buttons := flags_eq_zero fun bit => h (.flag bit)
  leftTrigger := h .leftTrigger
  rightTrigger := h .rightTrigger
  sticks v hv := by
    simp only [List.mem_cons, List.not_mem_nil, or_false] at hv
    rcases hv with rfl | rfl | rfl | rfl
    · exact h .leftX
    · exact h .leftY
    · exact h .rightX
    · exact h .rightY

theorem neutral_slack (reg : PadRegister) : reg.Slack Pad.neutral := by
  cases reg with
  | flag bit => exact BitVec.getLsbD_zero
  | leftTrigger => rfl
  | rightTrigger => rfl
  | _ => exact ⟨by decide, by decide⟩

/-- A button or axis writes this register of its controller's slot. -/
def SdlSource.Writes (L : Limelight) (w : Int) (reg : PadRegister) : SdlSource → Prop
  | .button which key => which = w ∧
    match sdlPadButton key, reg with
    | some p, .flag bit => (L.flag p).getLsbD bit = true
    | _, _ => False
  | .axis which a => which = w ∧
    match a, reg with
    | .leftX, .leftX => True
    | .leftY, .leftY => True
    | .rightX, .rightX => True
    | .rightY, .rightY => True
    | .triggerLeft, .leftTrigger => True
    | .triggerRight, .rightTrigger => True
    | _, _ => False

/-- An event leaves the registers of the slot that it does not write. -/
theorem play_untouched {change : GamepadState → Option GamepadState} {g g' : GamepadState}
    (h : event.play L = some (which, change)) (hg : change g = some g')
    (hw : ∀ src, sdlSource event = some src → ¬ src.Writes L which reg)
    (hn : reg.Slack g.toPad) : reg.Slack g'.toPad := by
  cases event with
  | controllerAxis w axis value =>
    cases h
    have hw := hw _ rfl
    cases axis <;> cases hg <;> cases reg <;>
      first | exact hn | exact absurd ⟨rfl, trivial⟩ hw
  | controllerButton down w button =>
    cases h
    obtain ⟨p, hp, rfl⟩ := Option.map_eq_some_iff.mp hg
    have hw := hw _ rfl
    cases reg with
    | flag bit =>
      have hbit : (L.flag p).getLsbD bit = false := by
        simpa [SdlSource.Writes, hp] using hw
      have hn : g.buttonFlags.getLsbD bit = false := hn
      simp only [PadRegister.Slack]
      split <;> simp [hn, hbit]
    | _ => exact hn
  | _ => cases h

/-- Away from the triggers, an event at rest leaves every register it writes slack. -/
theorem play_resting {change : GamepadState → Option GamepadState} {g g' : GamepadState}
    {src : SdlSource} (h : event.play L = some (which, change)) (hg : change g = some g')
    (hrest : SdlAtRest event) (htrigger : ¬ event.OnTrigger) (hsrc : sdlSource event = some src)
    (hw : src.Writes L w reg) : reg.Slack g'.toPad := by
  cases event with
  | controllerAxis w axis value =>
    cases h
    cases hsrc
    have hzero : value = 0 := hrest
    subst hzero
    obtain ⟨_, hw⟩ := hw
    have hx : -1 ≤ (0 : Int16).toInt ∧ (0 : Int16).toInt ≤ 0 := by decide
    have hy : -1 ≤ -(0 : Int16).toInt - 1 ∧ -(0 : Int16).toInt - 1 ≤ 0 := by decide
    cases axis with
    | triggerLeft => exact absurd (Or.inl rfl) htrigger
    | triggerRight => exact absurd (Or.inr rfl) htrigger
    | _ => cases hg <;> cases reg <;> first | exact absurd hw id | exact hx | exact hy
  | controllerButton down w button =>
    cases h
    cases hsrc
    obtain ⟨p, hp, rfl⟩ := Option.map_eq_some_iff.mp hg
    obtain ⟨_, hw⟩ := hw
    have hup : down = false := hrest
    rw [hp] at hw
    cases reg with
    | flag bit =>
      have hbit : (L.flag p).getLsbD bit = true := hw
      simp [PadRegister.Slack, hup, hbit]
    | _ => exact absurd hw id
  | _ => cases h

/-- The table is in order, and the last report of a number is the pad of that slot. -/
structure Coherent (ids : Finset Int) (s : SdlPads) : Prop where
  seats : Seats ids s.input.gamepads
  told : ∀ n pad, lastReport n s.log = some pad → ∃ i : Fin 4, n = i.val ∧
    (s.input.gamepads i).initialized = true ∧ pad = (s.input.gamepads i).toPad

theorem coherent_start : Coherent ids ⟨SdlInput.start, []⟩ where
  seats := seats_start
  told _ _ h := by cases h

/-- A controller event plays one slot. -/
theorem sdlPadsNext_played {change : GamepadState → Option GamepadState}
    (hs : Seats ids s.input.gamepads) (hids : ids.card ≤ 4)
    (hknown : ∀ w, event.controller = some w → w ∈ ids)
    (h : event.play L = some (which, change)) :
    ∃ i sent, Played ids which change s.input.gamepads (sdlPadsNext L S s event).input.gamepads
      sent i ∧ (sdlPadsNext L S s event).log = s.log ++ sent := by
  have hkeeps := play_keeps h
  cases event with
  | controllerAxis w axis value =>
    cases h
    obtain ⟨i, hi⟩ := sdlController_played hs hids (hknown _ rfl) hkeeps
    exact ⟨i, _, hi, rfl⟩
  | controllerButton down w button =>
    cases h
    obtain ⟨i, hi⟩ := sdlController_played hs hids (hknown _ rfl) hkeeps
    exact ⟨i, _, hi, rfl⟩
  | _ => cases h

/-- Any other event leaves the controllers and what was said about them. -/
theorem sdlPadsNext_quiet (h : event.play L = none) :
    (sdlPadsNext L S s event).input.gamepads = s.input.gamepads ∧
    ∀ n, lastReport n (sdlPadsNext L S s event).log = lastReport n s.log := by
  cases event with
  | mouseMotion xrel yrel => exact ⟨rfl, fun n => lastReport_none rfl⟩
  | mouseWheel y => exact ⟨rfl, fun n => lastReport_none rfl⟩
  | mouseButton down button =>
    cases button <;> exact ⟨rfl, fun n => lastReport_none rfl⟩
  | key down sym =>
    refine ⟨rfl, fun n => lastReport_none ?_⟩
    simp only [sdlinputHandleEvent, sdlKey]
    split_ifs <;> rfl
  | quit => exact ⟨rfl, fun n => lastReport_none rfl⟩
  | other => exact ⟨rfl, fun n => lastReport_none rfl⟩
  | _ => cases h

theorem coherent_step (hids : ids.card ≤ 4) (hknown : ∀ w, event.controller = some w → w ∈ ids)
    (hs : Coherent ids s) : Coherent ids (sdlPadsNext L S s event) := by
  cases hplay : event.play L with
  | none =>
    obtain ⟨hpads, hlog⟩ := sdlPadsNext_quiet (S := S) (s := s) hplay
    constructor
    · rw [hpads]
      exact hs.seats
    · intro n pad hn
      rw [hlog] at hn
      rw [hpads]
      exact hs.told n pad hn
  | some p =>
    obtain ⟨i, sent, hp, hlog⟩ := sdlPadsNext_played (S := S) hs.seats hids hknown hplay
    refine ⟨hp.seats, fun n pad hn => ?_⟩
    rw [hlog] at hn
    by_cases hi : n = i.val
    · subst hi
      refine ⟨i, rfl, hp.seated.1, ?_⟩
      rcases hp.effect with ⟨g, _, ⟨_, hpad, rfl⟩ | ⟨_, rfl⟩⟩
      · rw [List.append_nil] at hn
        obtain ⟨k, hk, _, htold⟩ := hs.told _ pad hn
        obtain rfl : i = k := Fin.ext (by exact_mod_cast hk)
        rw [hpad, htold]
      · rw [lastReport_self] at hn
        exact (Option.some.inj hn).symm
    · have hn : lastReport n s.log = some pad := by
        rcases hp.effect with ⟨g, _, ⟨_, _, rfl⟩ | ⟨_, rfl⟩⟩
        · simpa using hn
        · rwa [lastReport_other (Ne.symm hi)] at hn
      obtain ⟨k, rfl, hinit, htold⟩ := hs.told n pad hn
      have hk : k ≠ i := fun h => hi (by rw [h])
      rw [← hp.others k hk] at hinit htold
      exact ⟨k, rfl, hinit, htold⟩

/-- The register of every slot that belongs to the controller is slack. -/
def SlackFor (w : Int) (reg : PadRegister) (s : SdlPads) : Prop :=
  ∀ i, Seated s.input.gamepads i w → reg.Slack (s.input.gamepads i).toPad

theorem Played.slackFor {change : GamepadState → Option GamepadState} {sent : List HostEvent}
    (hp : Played ids which change s.input.gamepads t.input.gamepads sent i)
    (hs : Seats ids s.input.gamepads) (hslack : SlackFor w reg s)
    (hchange : ∀ g g', change g = some g' → w = which → reg.Slack g.toPad → reg.Slack g'.toPad) :
    SlackFor w reg t := by
  intro j hj
  by_cases hji : j = i
  · subst hji
    have hwhich : w = which := hj.2.symm.trans hp.seated.2
    have hold : reg.Slack (s.input.gamepads j).toPad := by
      by_cases hinit : (s.input.gamepads j).initialized = true
      · exact hslack j (hwhich ▸ hp.found hinit)
      · rw [hs.fresh j (by simpa using hinit)]
        exact neutral_slack reg
    rcases hp.effect with ⟨g, hg, ⟨_, hpad, _⟩ | ⟨hchanged, _⟩⟩
    · rw [hpad]
      exact hold
    · exact hchange g _ hchanged hwhich (hg ▸ hold)
  · rw [hp.others j hji]
    unfold Seated at hj
    rw [hp.others j hji] at hj
    exact hslack j hj

theorem slackFor_untouched (hids : ids.card ≤ 4)
    (hknown : ∀ w, event.controller = some w → w ∈ ids) (hs : Coherent ids s)
    (hw : ∀ src, sdlSource event = some src → ¬ src.Writes L w reg) (hslack : SlackFor w reg s) :
    SlackFor w reg (sdlPadsNext L S s event) := by
  cases hplay : event.play L with
  | none =>
    obtain ⟨hpads, _⟩ := sdlPadsNext_quiet (S := S) (s := s) hplay
    unfold SlackFor
    rw [hpads]
    exact hslack
  | some p =>
    obtain ⟨i, sent, hp, _⟩ := sdlPadsNext_played (S := S) hs.seats hids hknown hplay
    apply hp.slackFor hs.seats hslack
    rintro g g' hg rfl
    exact play_untouched hplay hg hw

/-- A source that writes a register plays its own controller, and to some effect. -/
theorem SdlSource.writes_plays {src : SdlSource} (hsrc : sdlSource event = some src)
    (hw : src.Writes L w reg) :
    ∃ change, event.play L = some (w, change) ∧ ∀ g, change g ≠ none := by
  cases event with
  | controllerAxis which axis value =>
    cases hsrc
    obtain ⟨rfl, hw⟩ := hw
    refine ⟨_, rfl, fun g => ?_⟩
    cases axis with
    | other => exact absurd hw id
    | _ => exact Option.some_ne_none _
  | controllerButton down which button =>
    cases hsrc
    obtain ⟨rfl, hw⟩ := hw
    refine ⟨_, rfl, fun g => ?_⟩
    cases button with
    | other => exact absurd hw id
    | _ => exact Option.some_ne_none _
  | _ => cases hsrc

theorem slackFor_resting {src : SdlSource} (hids : ids.card ≤ 4)
    (hknown : ∀ w, event.controller = some w → w ∈ ids) (hs : Coherent ids s)
    (hrest : SdlAtRest event) (htrigger : ¬ event.OnTrigger) (hsrc : sdlSource event = some src)
    (hw : src.Writes L w reg) : SlackFor w reg (sdlPadsNext L S s event) := by
  obtain ⟨change, hplay, heffect⟩ := SdlSource.writes_plays hsrc hw
  obtain ⟨i, sent, hp, _⟩ := sdlPadsNext_played (S := S) hs.seats hids hknown hplay
  intro j hj
  obtain rfl : j = i := hp.seats.sole j i w hj hp.seated
  rcases hp.effect with ⟨g, _, ⟨hnone, _⟩ | ⟨hg, _⟩⟩
  · exact absurd hnone (heffect g)
  · exact play_resting hplay hg hrest htrigger hsrc hw

/-- The triggers of a pad, by the axis that moves them. -/
def Pad.trigger (pad : Pad) (right : Bool) : BitVec 8 :=
  if right then pad.rightTrigger else pad.leftTrigger

def triggerAxis (right : Bool) : SdlAxis := if right then .triggerRight else .triggerLeft

/-- The host was told this pad, whose trigger is where the event has moved it. -/
def TriggerTold (w : Int) (right : Bool) (e : SdlEvent) (s : SdlPads) : Prop :=
  ∃ i value, Seated s.input.gamepads i w ∧ e = .controllerAxis w (triggerAxis right) value ∧
    (s.input.gamepads i).trigger right = BitVec.ofInt 8 ((value.toInt >>> (8 : Nat)) + 127) ∧
    lastReport i.val s.log = some (s.input.gamepads i).toPad

theorem play_trigger {change : GamepadState → Option GamepadState} {g g' : GamepadState}
    {right : Bool} (h : event.play L = some (which, change)) (hg : change g = some g')
    (hsrc : sdlSource event ≠ some (.axis which (triggerAxis right))) :
    g'.trigger right = g.trigger right := by
  cases event with
  | controllerAxis w axis value =>
    cases h
    cases axis <;> cases hg <;> cases right <;> first | rfl | exact absurd rfl hsrc
  | controllerButton down w button =>
    cases h
    obtain ⟨p, _, rfl⟩ := Option.map_eq_some_iff.mp hg
    rfl
  | _ => cases h

theorem sdlAxis_trigger {g g' : GamepadState} {value : Int16} {right : Bool}
    (h : sdlAxis (triggerAxis right) value g = some g') :
    g'.trigger right = BitVec.ofInt 8 ((value.toInt >>> (8 : Nat)) + 127) := by
  cases right <;> cases h <;> rfl

/-- What was told of a trigger stays true until the next event on it. -/
theorem triggerTold_kept {right : Bool} (hids : ids.card ≤ 4)
    (hknown : ∀ w, event.controller = some w → w ∈ ids) (hs : Coherent ids s)
    (hsrc : sdlSource event ≠ some (.axis w (triggerAxis right))) (htold : TriggerTold w right e s) :
    TriggerTold w right e (sdlPadsNext L S s event) := by
  obtain ⟨j, value, hseat, he, hvalue, hreport⟩ := htold
  cases hplay : event.play L with
  | none =>
    obtain ⟨hpads, hlog⟩ := sdlPadsNext_quiet (S := S) (s := s) hplay
    refine ⟨j, value, ?_, he, ?_, ?_⟩
    · rwa [hpads]
    · rwa [hpads]
    · rwa [hlog, hpads]
  | some p =>
    obtain ⟨i, sent, hp, hlog⟩ := sdlPadsNext_played (S := S) hs.seats hids hknown hplay
    by_cases hji : j = i
    · subst hji
      have hwhich : p.1 = w := (hp.found hseat.1).2.symm.trans hseat.2
      have hseat' : Seated (sdlPadsNext L S s event).input.gamepads j w := hwhich ▸ hp.seated
      refine ⟨j, value, hseat', he, ?_⟩
      rw [hlog]
      rcases hp.effect with ⟨g, hg, ⟨_, hpad, rfl⟩ | ⟨hchange, rfl⟩⟩
      · rw [hpad, List.append_nil]
        exact ⟨hvalue, hreport⟩
      · refine ⟨?_, lastReport_self⟩
        rw [play_trigger hplay hchange (hwhich ▸ hsrc), hg]
        exact hvalue
    · have hpad := hp.others j hji
      have hother : lastReport j.val (sdlPadsNext L S s event).log = lastReport j.val s.log := by
        rw [hlog]
        rcases hp.effect with ⟨g, _, ⟨_, _, rfl⟩ | ⟨_, rfl⟩⟩
        · rw [List.append_nil]
        · exact lastReport_other fun h => hji (Fin.ext (by exact_mod_cast h.symm))
      refine ⟨j, value, ?_, he, ?_, ?_⟩
      · unfold Seated
        rwa [hpad]
      · rwa [hpad]
      · rwa [hother, hpad]

theorem triggerTold_moved {right : Bool} (hids : ids.card ≤ 4)
    (hknown : ∀ w, event.controller = some w → w ∈ ids) (hs : Coherent ids s)
    (hsrc : sdlSource event = some (.axis w (triggerAxis right))) :
    TriggerTold w right event (sdlPadsNext L S s event) := by
  cases event with
  | controllerAxis which axis value =>
    cases hsrc
    obtain ⟨i, sent, hp, hlog⟩ := sdlPadsNext_played (L := L) (S := S) hs.seats hids hknown rfl
    refine ⟨i, value, hp.seated, rfl, ?_⟩
    rw [hlog]
    rcases hp.effect with ⟨g, _, ⟨hnone, _⟩ | ⟨hchange, rfl⟩⟩
    · cases right <;> cases hnone
    · exact ⟨sdlAxis_trigger hchange, lastReport_self⟩
  | _ => cases hsrc

theorem foldl_sdlPadsNext (events : List SdlEvent) (s : SdlPads) :
    events.foldl (sdlPadsNext L S) s =
      ⟨(sdlRun L S events s.input).1, s.log ++ (sdlRun L S events s.input).2⟩ := by
  induction events generalizing s with
  | nil => simp [sdlRun]
  | cons event events ih => simp [ih, sdlRun, sdlPadsNext]

theorem controller_mem {events : List SdlEvent} (h : event ∈ events) (w : Int)
    (hw : event.controller = some w) : w ∈ controllerIds events :=
  List.mem_toFinset.mpr (List.mem_filterMap.mpr ⟨event, h, hw⟩)

/-- The last event of every button and axis leaves it at rest. -/
def SdlReleased (events : List SdlEvent) : Prop := Settled sdlSource SdlAtRest events

/-- The last report of every controller number says that nothing is pressed. -/
def ReportsSlack (sent : List HostEvent) : Prop :=
  ∀ n pad, lastReport n sent = some pad → pad.Slack

/-- As long as no trigger moves, released controllers are reported slack. -/
theorem reportsSlack_of_no_trigger {events : List SdlEvent}
    (hids : (controllerIds events).card ≤ 4) (hrel : SdlReleased events)
    (hno : ∀ event ∈ events, ¬ event.OnTrigger) :
    ReportsSlack (sdlRun L S events SdlInput.start).2 := by
  have hall : ∀ event ∈ events, ¬ event.OnTrigger ∧
      ∀ w, event.controller = some w → w ∈ controllerIds events :=
    fun event h => ⟨hno event h, controller_mem h⟩
  obtain ⟨run, hrun, hlabels, hfinal⟩ :=
    exists_run_foldl (sdlPadsNext L S) hall ⟨SdlInput.start, []⟩
  have hinv : ∀ s event t, ((¬ event.OnTrigger ∧
      ∀ w, event.controller = some w → w ∈ controllerIds events) ∧ t = sdlPadsNext L S s event) →
      Coherent (controllerIds events) s → Coherent (controllerIds events) t := by
    rintro s event t ⟨⟨_, hknown⟩, rfl⟩ hs
    exact coherent_step hids hknown hs
  have hcoherent := always_final (always_of_invariant hinv hrun coherent_start)
  have hslack (w : Int) (reg : PadRegister) : SlackFor w reg (final ⟨SdlInput.start, []⟩ run) := by
    apply neutral_of_settled (W := fun src : SdlSource => src.Writes L w reg) hinv _ _ hrun
      coherent_start _ (hlabels ▸ hrel)
    · rintro s event t ⟨⟨_, hknown⟩, rfl⟩ hs hw hslack
      exact slackFor_untouched hids hknown hs hw hslack
    · rintro s event t ⟨⟨htrigger, hknown⟩, rfl⟩ hs hrest src hsrc hw
      exact slackFor_resting hids hknown hs hrest htrigger hsrc hw
    · intro i hi
      exact absurd hi.1 Bool.false_ne_true
  rw [hfinal, foldl_sdlPadsNext] at hcoherent hslack
  intro n pad hn
  obtain ⟨i, _, hinit, rfl⟩ := hcoherent.told n pad hn
  exact Pad.slack_of_registers fun reg => hslack _ reg i ⟨hinit, rfl⟩

/-- A trigger that has moved is reported half pulled once it is back. -/
theorem not_reportsSlack_of_trigger {events : List SdlEvent}
    (hids : (controllerIds events).card ≤ 4) (hrel : SdlReleased events)
    (hmem : event ∈ events) (htrigger : event.OnTrigger) :
    ¬ ReportsSlack (sdlRun L S events SdlInput.start).2 := by
  intro hreports
  obtain ⟨w, right, hsrc⟩ : ∃ w right, sdlSource event = some (.axis w (triggerAxis right)) := by
    cases event with
    | controllerAxis which axis value =>
      rcases htrigger with rfl | rfl
      · exact ⟨which, false, rfl⟩
      · exact ⟨which, true, rfl⟩
    | _ => exact absurd htrigger id
  obtain ⟨last, hlast⟩ := exists_lastOf hmem hsrc
  obtain ⟨run, hrun, hlabels, hfinal⟩ :=
    exists_run_foldl (sdlPadsNext L S) (fun _ h => controller_mem h) ⟨SdlInput.start, []⟩
  have hinv : ∀ s event t, ((∀ w, SdlEvent.controller event = some w → w ∈ controllerIds events) ∧
      t = sdlPadsNext L S s event) →
      Coherent (controllerIds events) s → Coherent (controllerIds events) t := by
    rintro s event t ⟨hknown, rfl⟩ hs
    exact coherent_step hids hknown hs
  have htold : ∀ e, lastOf sdlSource (.axis w (triggerAxis right)) ([] ++ labels run) = some e →
      TriggerTold w right e (final ⟨SdlInput.start, []⟩ run) := by
    apply follows_last (P := TriggerTold w right) [] hinv _ _ hrun coherent_start
    · intro e he
      cases he
    · rintro s event t e ⟨hknown, rfl⟩ hs hother htold
      exact triggerTold_kept hids hknown hs hother htold
    · rintro s event t ⟨hknown, rfl⟩ hs hself
      exact triggerTold_moved hids hknown hs hself
  rw [hlabels, hfinal, foldl_sdlPadsNext, List.nil_append] at htold
  obtain ⟨i, value, _, rfl, hvalue, hreport⟩ := htold last hlast
  have hzero : value = 0 := hrel _ _ hlast
  have hslack := hreports _ _ hreport
  rw [hzero] at hvalue
  cases right with
  | false => exact absurd (hvalue.symm.trans hslack.leftTrigger) (by decide)
  | true => exact absurd (hvalue.symm.trans hslack.rightTrigger) (by decide)

/-- Released controllers are reported slack exactly if none of their triggers ever moved. -/
theorem released_reports_slack_iff {events : List SdlEvent}
    (hids : (controllerIds events).card ≤ 4) (hrel : SdlReleased events) :
    ReportsSlack (sdlRun L S events SdlInput.start).2 ↔ ∀ event ∈ events, ¬ event.OnTrigger := by
  constructor
  · intro hreports event hmem htrigger
    exact not_reportsSlack_of_trigger hids hrel hmem htrigger hreports
  · exact reportsSlack_of_no_trigger hids hrel

/-- One controller presses a button, moves a stick and lets both go. -/
theorem released_reports_slack_iff_stick :
    ReportsSlack (sdlRun documented sdl2 [.controllerButton true 7 .a, .controllerAxis 7 .leftX 900,
      .controllerButton false 7 .a, .controllerAxis 7 .leftX 0] SdlInput.start).2 := by
  apply (released_reports_slack_iff _ _).mpr
  · simp [SdlEvent.OnTrigger]
  · decide
  · rintro (⟨which, button⟩ | ⟨which, axis⟩) last hlast
    · by_cases h : (7 : Int) = which ∧ SdlButton.a = button
      · obtain ⟨rfl, rfl⟩ := h
        cases hlast
        rfl
      · simp [lastOf, sdlSource, h] at hlast
    · by_cases h : (7 : Int) = which ∧ SdlAxis.leftX = axis
      · obtain ⟨rfl, rfl⟩ := h
        cases hlast
        rfl
      · simp [lastOf, sdlSource, h] at hlast

/-- A trigger pulled and let go is reported as 127. -/
theorem trigger_reported_pulled :
    let events := [SdlEvent.controllerAxis 7 .triggerLeft 32767, .controllerAxis 7 .triggerLeft 0]
    (controllerIds events).card ≤ 4 ∧ SdlReleased events ∧
      ¬ ReportsSlack (sdlRun documented sdl2 events SdlInput.start).2 := by
  intro events
  refine ⟨by decide, ?_, ?_⟩
  · rintro (⟨which, button⟩ | ⟨which, axis⟩) last hlast
    · simp [events, lastOf, sdlSource] at hlast
    · by_cases h : (7 : Int) = which ∧ SdlAxis.triggerLeft = axis
      · obtain ⟨rfl, rfl⟩ := h
        cases hlast
        rfl
      · simp [events, lastOf, sdlSource, h] at hlast
  · intro hreports
    have hslack := hreports 0 ⟨0, 127, 0, 0, 0, 0, 0⟩ (by decide)
    exact absurd hslack.leftTrigger (by decide)

end Moonlight
