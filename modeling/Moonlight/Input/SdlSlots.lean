import Moonlight.Lib.FirstCome
import Moonlight.Input.SdlRelease

/-! Which controllers the slots of `sdlinput.c` belong to: the first four that an event comes
from, in the order in which they come, and for the whole run. -/
namespace Moonlight

open Lib.FirstCome

variable {L : Limelight} {S : Sdl} {seen : List Int} {gamepads gamepads' : Fin 4 → GamepadState}
  {which : Int} {i j : Fin 4} {event : SdlEvent} {s : SdlInput}

/-- The controllers of some events, in the order of their first appearance. -/
def controllersSeen (events : List SdlEvent) : List Int :=
  arrivals (events.filterMap SdlEvent.controller)

/-- The table after these controllers have come, in this order. -/
structure SlotsOf (seen : List Int) (gamepads : Fin 4 → GamepadState) : Prop where
  taken : ∀ (i : Fin 4) w, seen[i.val]? = some w →
    Seated gamepads i w ∧ (gamepads i).id = i.val
  free : ∀ i : Fin 4, seen[i.val]? = none → (gamepads i).initialized = false

/-- Every slot belongs to the same controller, or to none, as before. -/
def SameSlots (gamepads gamepads' : Fin 4 → GamepadState) : Prop :=
  ∀ i, (gamepads' i).initialized = (gamepads i).initialized ∧
    (gamepads' i).sdlId = (gamepads i).sdlId ∧ (gamepads' i).id = (gamepads i).id

theorem slotsOf_start : SlotsOf [] SdlInput.start.gamepads where
  taken _ _ h := by simp at h
  free _ _ := rfl

theorem SlotsOf.seated_iff (h : SlotsOf seen gamepads) {w : Int} :
    Seated gamepads i w ↔ seen[i.val]? = some w := by
  cases hi : seen[i.val]? with
  | none =>
    have hfree := h.free i hi
    simp [Seated, hfree]
  | some v =>
    obtain ⟨⟨hinit, hid⟩, _⟩ := h.taken i v hi
    simp [Seated, hinit, hid]

theorem SlotsOf.initialized_iff (h : SlotsOf seen gamepads) :
    (gamepads i).initialized = true ↔ i.val < seen.length := by
  cases hi : seen[i.val]? with
  | none => simpa [h.free i hi] using List.getElem?_eq_none_iff.mp hi
  | some v => simpa [(h.taken i v hi).1.1] using (List.getElem?_eq_some_iff.mp hi).1

theorem SlotsOf.congr (h : SlotsOf seen gamepads) (hsame : SameSlots gamepads gamepads') :
    SlotsOf seen gamepads' := by
  constructor
  · intro i w hi
    obtain ⟨⟨hinit, hid⟩, hnum⟩ := h.taken i w hi
    obtain ⟨hinit', hid', hnum'⟩ := hsame i
    exact ⟨⟨hinit'.trans hinit, hid'.trans hid⟩, hnum'.trans hnum⟩
  · intro i hi
    exact (hsame i).1.trans (h.free i hi)

/-- The loop of `get_gamepad` accepts the places that the table accepts. -/
theorem SlotsOf.accepts (h : SlotsOf seen gamepads) (which : Int) (i : Fin 4) :
    (!(gamepads i).initialized || (gamepads i).sdlId == which) =
      decide (Lib.FirstCome.Accepts seen which i.val) := by
  cases hi : seen[i.val]? with
  | none => simp [Lib.FirstCome.Accepts, hi, h.free i hi]
  | some w =>
    obtain ⟨⟨hinit, hid⟩, _⟩ := h.taken i w hi
    simp [Lib.FirstCome.Accepts, hi, hinit, hid, beq_eq_decide]

theorem SlotsOf.find (h : SlotsOf seen gamepads) (which : Int) :
    [0, 1, 2, 3].find? (fun i => !(gamepads i).initialized || (gamepads i).sdlId == which) =
      if hlt : (arrive seen which).idxOf which < 4 then
        some ⟨(arrive seen which).idxOf which, hlt⟩
      else none := by
  have hplaces : ([0, 1, 2, 3] : List (Fin 4)) = List.finRange 4 := by decide
  rw [hplaces, ← find_accepts]
  congr 1
  funext i
  exact h.accepts which i

/-- A known controller finds its slot. -/
theorem getGamepad_known (h : SlotsOf seen gamepads) (hi : seen[i.val]? = some which)
    (hidx : seen.idxOf which = i.val) : getGamepad which gamepads = (i, gamepads) := by
  have hmem : which ∈ seen := List.mem_of_getElem? hi
  have hlt : seen.idxOf which < 4 := by omega
  have hinit := (h.taken i which hi).1.1
  unfold getGamepad
  rw [h.find which, arrive_of_mem hmem, dif_pos hlt]
  obtain rfl : i = ⟨seen.idxOf which, hlt⟩ := Fin.ext hidx.symm
  dsimp only
  rw [if_pos hinit]

/-- A new controller is given the next slot. -/
theorem getGamepad_new (h : SlotsOf seen gamepads) (hmem : which ∉ seen)
    (hi : seen.length = i.val) :
    getGamepad which gamepads = (i, Function.update gamepads i
      { gamepads i with sdlId := which, id := i.val, initialized := true }) := by
  have hidx : (seen ++ [which]).idxOf which = i.val := by
    rw [List.idxOf_append_of_notMem hmem]
    simpa using hi
  have hlt : (seen ++ [which]).idxOf which < 4 := by omega
  have hfree := h.free i (List.getElem?_eq_none_iff.mpr hi.le)
  unfold getGamepad
  rw [h.find which, arrive_of_not_mem hmem, dif_pos hlt]
  obtain rfl : i = ⟨(seen ++ [which]).idxOf which, hlt⟩ := Fin.ext hidx.symm
  dsimp only
  rw [if_neg (by rw [hfree]; exact Bool.false_ne_true)]

/-- Every other controller is given slot 0. -/
theorem getGamepad_beyond (h : SlotsOf seen gamepads)
    (hfull : ¬ (arrive seen which).idxOf which < 4) :
    getGamepad which gamepads = (0, gamepads) := by
  unfold getGamepad
  rw [h.find which, dif_neg hfull]

/-- A controller behind the fourth place changes no slot. -/
theorem SlotsOf.beyond (h : SlotsOf seen gamepads)
    (hfull : ¬ (arrive seen which).idxOf which < 4) : SlotsOf (arrive seen which) gamepads := by
  by_cases hmem : which ∈ seen
  · rwa [arrive_of_mem hmem]
  · rw [arrive_of_not_mem hmem, List.idxOf_append_of_notMem hmem] at hfull
    rw [arrive_of_not_mem hmem]
    have hlong (i : Fin 4) : i.val < seen.length := by simp at hfull; omega
    constructor
    · intro i w hi
      rw [List.getElem?_append_left (hlong i)] at hi
      exact h.taken i w hi
    · intro i hi
      rw [List.getElem?_append_left (hlong i)] at hi
      exact h.free i hi

/-- A new controller takes the place behind the ones that were seen. -/
theorem SlotsOf.take (h : SlotsOf seen gamepads) (hi : seen.length = i.val) :
    SlotsOf (seen ++ [which]) (Function.update gamepads i
      { gamepads i with sdlId := which, id := i.val, initialized := true }) := by
  constructor
  · intro j w hj
    by_cases hnew : j = i
    · subst hnew
      rw [← hi, List.getElem?_concat_length] at hj
      simp [Seated, Option.some.inj hj]
    · have hne : j.val ≠ seen.length := fun he => hnew (Fin.ext (he.trans hi))
      have hbefore : j.val < seen.length := by
        have hbound := (List.getElem?_eq_some_iff.mp hj).1
        simp at hbound
        omega
      rw [List.getElem?_append_left hbefore] at hj
      rw [seated_update_of_ne hnew, Function.update_of_ne hnew]
      exact h.taken j w hj
  · intro j hj
    have hbehind : seen.length + 1 ≤ j.val := by simpa using hj
    have hne : j ≠ i := by
      rintro rfl
      omega
    rw [Function.update_of_ne hne]
    exact h.free j (List.getElem?_eq_none_iff.mpr (by omega))

/-- What one lookup does to the table. -/
structure Looked (seen : List Int) (which : Int) (i : Fin 4)
    (gamepads gamepads' : Fin 4 → GamepadState) : Prop where
  slots : SlotsOf (arrive seen which) gamepads'
  others : ∀ j, j ≠ i → gamepads' j = gamepads j
  placed : (arrive seen which).idxOf which < 4 → (arrive seen which).idxOf which = i.val
  beyond : 4 ≤ (arrive seen which).idxOf which → i = 0 ∧ gamepads' = gamepads

/-- The lookup finds the slot of a known controller or gives out the next one. -/
theorem getGamepad_looked (h : SlotsOf seen gamepads) (which : Int) :
    ∃ i gamepads', getGamepad which gamepads = (i, gamepads') ∧
      Looked seen which i gamepads gamepads' := by
  by_cases hlt : (arrive seen which).idxOf which < 4
  · by_cases hmem : which ∈ seen
    · rw [arrive_of_mem hmem] at hlt
      have hget : seen[seen.idxOf which]? = some which := List.getElem?_eq_some_iff.mpr
        ⟨List.idxOf_lt_length_of_mem hmem, List.getElem_idxOf _⟩
      refine ⟨⟨seen.idxOf which, hlt⟩, gamepads, getGamepad_known h hget rfl, ?_⟩
      constructor
      · rwa [arrive_of_mem hmem]
      · exact fun _ _ => rfl
      · intro _
        rw [arrive_of_mem hmem]
      · intro hge
        rw [arrive_of_mem hmem] at hge
        omega
    · have hidx : (arrive seen which).idxOf which = seen.length := by
        rw [arrive_of_not_mem hmem, List.idxOf_append_of_notMem hmem]
        simp
      have hlen : seen.length < 4 := by omega
      refine ⟨⟨seen.length, hlen⟩, _, getGamepad_new h hmem rfl, ?_⟩
      constructor
      · rw [arrive_of_not_mem hmem]
        exact h.take rfl
      · exact fun j hj => Function.update_of_ne hj _ _
      · exact fun _ => hidx
      · intro hge
        omega
  · refine ⟨0, gamepads, getGamepad_beyond h hlt, ?_⟩
    constructor
    · exact h.beyond hlt
    · exact fun _ _ => rfl
    · exact fun hlt' => absurd hlt' hlt
    · exact fun _ => ⟨rfl, rfl⟩

/-- The event is about an axis or a button that the handler has a case for. -/
def SdlEvent.listed : SdlEvent → Bool
  | .controllerAxis _ axis _ => axis ≠ .other
  | .controllerButton _ _ button => button ≠ .other
  | _ => false

/-- An event of a controller reaches slot `i`: the code works on that slot alone, and the report
of a listed event carries the number and the pad of the slot. -/
structure Reaches (listed : Bool) (which : Int) (i : Fin 4) (s s' : SdlInput)
    (sent : List HostEvent) : Prop where
  reached : (getGamepad which s.gamepads).1 = i
  reported : sent = if listed then [.multiController i.val (s'.gamepads i).toPad] else []
  others : ∀ j, j ≠ i → s'.gamepads j = s.gamepads j

/-- What an event of a controller does when these were seen before it. -/
structure SlotServed (seen : List Int) (listed : Bool) (which : Int) (i : Fin 4) (s s' : SdlInput)
    (sent : List HostEvent) : Prop extends Reaches listed which i s s' sent where
  slots : SlotsOf (arrive seen which) s'.gamepads
  placed : (arrive seen which).idxOf which < 4 → (arrive seen which).idxOf which = i.val
  beyond : 4 ≤ (arrive seen which).idxOf which → i = 0 ∧ SameSlots s.gamepads s'.gamepads

/-- The slot that is looked up carries its own number. -/
theorem Looked.numbered (h : Looked seen which i gamepads gamepads') :
    (gamepads' i).id = i.val := by
  have hmem : which ∈ arrive seen which := mem_arrive.mpr (Or.inr rfl)
  have hlong := List.idxOf_lt_length_of_mem hmem
  have hi : i.val < (arrive seen which).length := by
    by_cases hlt : (arrive seen which).idxOf which < 4
    · rwa [← h.placed hlt]
    · obtain ⟨rfl, _⟩ := h.beyond (by omega)
      rw [Fin.val_zero]
      omega
  exact (h.slots.taken i _ (List.getElem?_eq_getElem hi)).2

theorem sameSlots_update {pad : GamepadState} (hinit : pad.initialized = (gamepads i).initialized)
    (hsdl : pad.sdlId = (gamepads i).sdlId) (hid : pad.id = (gamepads i).id) :
    SameSlots gamepads (Function.update gamepads i pad) := by
  intro j
  by_cases h : j = i
  · subst h
    simp [hinit, hsdl, hid]
  · simp [h]

theorem sdlController_served {change : GamepadState → Option GamepadState} {listed : Bool}
    (h : SlotsOf seen s.gamepads)
    (hchange : ∀ g g', change g = some g' →
      g'.initialized = g.initialized ∧ g'.sdlId = g.sdlId ∧ g'.id = g.id)
    (hlisted : ∀ g, (change g).isSome = listed) :
    ∃ i, SlotServed seen listed which i s (sdlController which change s).2.1
      (sdlController which change s).2.2 := by
  obtain ⟨i, looked, hget, hlooked⟩ := getGamepad_looked h which
  refine ⟨i, ?_⟩
  unfold sdlController
  rw [hget]
  dsimp only
  have hreached : (getGamepad which s.gamepads).1 = i := congrArg Prod.fst hget
  have hlisted := hlisted (looked i)
  cases hpad : change (looked i) with
  | none =>
    rw [hpad] at hlisted
    subst hlisted
    refine ⟨⟨hreached, rfl, hlooked.others⟩, hlooked.slots, hlooked.placed, fun hge => ?_⟩
    obtain ⟨hi, hsame⟩ := hlooked.beyond hge
    exact ⟨hi, fun j => by rw [hsame]; exact ⟨rfl, rfl, rfl⟩⟩
  | some pad =>
    obtain ⟨hinit, hsdl, hid⟩ := hchange _ _ hpad
    have hsame := sameSlots_update hinit hsdl hid
    rw [hpad] at hlisted
    subst hlisted
    refine ⟨⟨hreached, ?_, ?_⟩, hlooked.slots.congr hsame, hlooked.placed, fun hge => ?_⟩
    · simp [hid, hlooked.numbered]
    · intro j hj
      exact (Function.update_of_ne hj _ _).trans (hlooked.others j hj)
    · obtain ⟨hi, hkept⟩ := hlooked.beyond hge
      rw [hkept] at hsame
      rw [hkept]
      exact ⟨hi, hsame⟩

theorem sdlPadButton_isSome (button : SdlButton) :
    (sdlPadButton button).isSome = decide (button ≠ .other) := by
  cases button <;> rfl

/-- One event of a controller. -/
theorem sdlinputHandleEvent_served (h : SlotsOf seen s.gamepads)
    (hevent : event.controller = some which) :
    ∃ i, SlotServed seen event.listed which i s (sdlinputHandleEvent L S event s).2.1
      (sdlinputHandleEvent L S event s).2.2 := by
  cases event with
  | controllerAxis w axis value =>
    cases hevent
    refine sdlController_served h
      (play_keeps (show SdlEvent.play L (.controllerAxis which axis value) = _ from rfl))
      fun g => ?_
    cases axis <;> rfl
  | controllerButton down w button =>
    cases hevent
    refine sdlController_served h
      (play_keeps (show SdlEvent.play L (.controllerButton down which button) = _ from rfl))
      fun g => ?_
    rw [sdlButton, Option.isSome_map]
    exact sdlPadButton_isSome button
  | _ => cases hevent

/-- Any other event leaves the table alone. -/
theorem sdlinputHandleEvent_gamepads (hevent : event.controller = none) :
    (sdlinputHandleEvent L S event s).2.1.gamepads = s.gamepads := by
  cases event with
  | mouseButton down button => cases button <;> rfl
  | controllerAxis w axis value => cases hevent
  | controllerButton down w button => cases hevent
  | _ => rfl

theorem controllersSeen_concat (events : List SdlEvent) (event : SdlEvent) :
    controllersSeen (events ++ [event]) =
      match event.controller with
      | none => controllersSeen events
      | some which => arrive (controllersSeen events) which := by
  unfold controllersSeen
  cases h : event.controller with
  | none => simp [h]
  | some which => simp [h, arrivals_concat]

/-- After any events, the table is the one of the controllers they came from. -/
theorem slotsOf_sdlRun (L : Limelight) (S : Sdl) (events : List SdlEvent) :
    SlotsOf (controllersSeen events) (sdlRun L S events SdlInput.start).1.gamepads := by
  induction events using List.reverseRecOn with
  | nil => exact slotsOf_start
  | append_singleton events event ih =>
    rw [sdlRun_concat, controllersSeen_concat]
    cases hevent : event.controller with
    | none =>
      dsimp only
      rw [sdlinputHandleEvent_gamepads hevent]
      exact ih
    | some which =>
      obtain ⟨i, hi⟩ := sdlinputHandleEvent_served (L := L) (S := S) ih hevent
      exact hi.slots

/-- The number a controller has when its event comes is the one it keeps. -/
theorem idxOf_controllersSeen (pre post : List SdlEvent) (hevent : event.controller = some which) :
    (controllersSeen (pre ++ event :: post)).idxOf which =
      (arrive (controllersSeen pre) which).idxOf which := by
  have hmem : which ∈ (pre ++ [event]).filterMap SdlEvent.controller := by simp [hevent]
  have happend : pre ++ event :: post = (pre ++ [event]) ++ post := by simp
  have hseen := controllersSeen_concat pre event
  rw [hevent] at hseen
  rw [happend, controllersSeen, List.filterMap_append, idxOf_arrivals hmem]
  exact congrArg (List.idxOf which) hseen

/-- A controller has the place at its event that it has in the end. -/
theorem place_at_event (pre post : List SdlEvent) (hevent : event.controller = some which)
    {n : Nat} (hn : (controllersSeen (pre ++ event :: post))[n]? = some which) :
    (arrive (controllersSeen pre) which).idxOf which = n ∧
      (arrive (controllersSeen pre) which)[n]? = some which := by
  have hidx := idxOf_controllersSeen pre post hevent
  have hnodup : (controllersSeen (pre ++ event :: post)).Nodup := nodup_arrivals
  obtain ⟨hlt, hget⟩ := List.getElem?_eq_some_iff.mp hn
  have hplace : (controllersSeen (pre ++ event :: post)).idxOf which = n := by
    rw [← hget]
    exact hnodup.idxOf_getElem n hlt
  have hmem : which ∈ arrive (controllersSeen pre) which := mem_arrive.mpr (Or.inr rfl)
  have harrived : (arrive (controllersSeen pre) which).idxOf which = n := hidx.symm.trans hplace
  refine ⟨harrived, List.getElem?_eq_some_iff.mpr ⟨?_, ?_⟩⟩
  · rw [← harrived]
    exact List.idxOf_lt_length_of_mem hmem
  · simp only [← harrived]
    exact List.getElem_idxOf _

/-- One that does not come to the first four places is behind them at its event. -/
theorem beyond_at_event (pre post : List SdlEvent) (hevent : event.controller = some which)
    (hnot : which ∉ (controllersSeen (pre ++ event :: post)).take 4) :
    4 ≤ (arrive (controllersSeen pre) which).idxOf which := by
  rw [← idxOf_controllersSeen pre post hevent]
  by_contra hlt
  have hmem : which ∈ controllersSeen (pre ++ event :: post) :=
    mem_arrivals.mpr (by simp [hevent])
  refine hnot (List.mem_take_iff_getElem.mpr ⟨_, ?_, List.getElem_idxOf ?_⟩)
  · exact lt_min (by omega) (List.idxOf_lt_length_of_mem hmem)
  · exact List.idxOf_lt_length_of_mem hmem

/-- After any events, the taken slots are the first ones, they belong to the first four
controllers in the order in which these came, and every event of such a controller reached its
slot; an event of any other controller reached slot 0 and gave out no slot. -/
theorem slots_first_come (L : Limelight) (S : Sdl) (events : List SdlEvent) :
    let state (events : List SdlEvent) := (sdlRun L S events SdlInput.start).1
    (∀ i j : Fin 4, i ≤ j → ((state events).gamepads j).initialized = true →
      ((state events).gamepads i).initialized = true) ∧
    (controllersSeen events).Nodup ∧
    (∀ i w, Seated (state events).gamepads i w ↔ (controllersSeen events)[i.val]? = some w) ∧
    ∀ pre event post which, events = pre ++ event :: post → event.controller = some which →
      let sent := (sdlinputHandleEvent L S event (state pre)).2.2
      (∀ i : Fin 4, (controllersSeen events)[i.val]? = some which →
        Reaches event.listed which i (state pre) (state (pre ++ [event])) sent ∧
        Seated (state (pre ++ [event])).gamepads i which) ∧
      (which ∉ (controllersSeen events).take 4 →
        Reaches event.listed which 0 (state pre) (state (pre ++ [event])) sent ∧
        SameSlots (state pre).gamepads (state (pre ++ [event])).gamepads) := by
  intro state
  have hslots := slotsOf_sdlRun L S events
  have hnodup : (controllersSeen events).Nodup := nodup_arrivals
  refine ⟨?_, hnodup, fun i w => hslots.seated_iff, ?_⟩
  · intro i j hij hj
    have hlt := hslots.initialized_iff.mp hj
    have hle : i.val ≤ j.val := hij
    exact hslots.initialized_iff.mpr (by omega)
  intro pre event post which hsplit hevent sent
  subst hsplit
  obtain ⟨k, hk⟩ := sdlinputHandleEvent_served (L := L) (S := S) (slotsOf_sdlRun L S pre) hevent
  have hafter : state (pre ++ [event]) = (sdlinputHandleEvent L S event (state pre)).2.1 := by
    simp only [state, sdlRun_concat]
  rw [hafter]
  constructor
  · intro i hi
    obtain ⟨hidx, hget⟩ := place_at_event pre post hevent hi
    have hplaced := hk.placed (by omega)
    obtain rfl : k = i := Fin.ext (by omega)
    exact ⟨hk.toReaches, hk.slots.seated_iff.mpr hget⟩
  · intro hnot
    obtain ⟨rfl, hsame⟩ := hk.beyond (beyond_at_event pre post hevent hnot)
    exact ⟨hk.toReaches, hsame⟩

/-- Controllers 7, 0, -1, 3 and 5 press A, and 0 lets go: it still has slot 1, and 5 is told as
controller 0. -/
theorem slots_first_come_five :
    let press (which : Int) : SdlEvent := .controllerButton true which .a
    let pre : List SdlEvent := [press 7, press 0, press (-1), press 3, press 5]
    let event : SdlEvent := .controllerButton false 0 .a
    Reaches true 0 1 (sdlRun documented sdl2 pre SdlInput.start).1
      (sdlRun documented sdl2 (pre ++ [event]) SdlInput.start).1
      [.multiController 1 Pad.neutral] ∧
    Reaches true 5 0 (sdlRun documented sdl2 (pre.take 4) SdlInput.start).1
      (sdlRun documented sdl2 pre SdlInput.start).1
      [.multiController 0 { Pad.neutral with buttonFlags := documented.flag .a }] := by
  intro press pre event
  have hslots := slots_first_come documented sdl2 (pre ++ [event])
  have hrelease : (sdlinputHandleEvent documented sdl2 event
      (sdlRun documented sdl2 pre SdlInput.start).1).2.2 = [.multiController 1 Pad.neutral] := by
    decide +kernel
  have hpress : (sdlinputHandleEvent documented sdl2 (press 5)
      (sdlRun documented sdl2 (pre.take 4) SdlInput.start).1).2.2 =
        [.multiController 0 { Pad.neutral with buttonFlags := documented.flag .a }] := by
    decide +kernel
  rw [← hrelease, ← hpress]
  exact ⟨((hslots.2.2.2 pre event [] 0 rfl rfl).1 1 (by decide)).1,
    ((hslots.2.2.2 (pre.take 4) (press 5) [event] 5 rfl rfl).2 (by decide)).1⟩

end Moonlight
