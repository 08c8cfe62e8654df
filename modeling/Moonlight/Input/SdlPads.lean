import Mathlib.Data.Finset.Card
import Mathlib.Data.Fintype.Basic
import Mathlib.Data.Fintype.Card
import Mathlib.Order.Fin.Basic
import Moonlight.Lib.LastWriter
import Moonlight.Input.SdlKeys

/-! The controller table of `sdlinput.c` and what the host is told last about each of its slots.
With no more controllers than slots every controller keeps a slot of its own. -/
namespace Moonlight

open Lib.Trace Lib.LastWriter

variable {L : Limelight} {S : Sdl} {ids : Finset Int} {gamepads : Fin 4 → GamepadState}
  {which w : Int} {i j : Fin 4} {event e : SdlEvent}

/-- The slot belongs to the controller. -/
def Seated (gamepads : Fin 4 → GamepadState) (i : Fin 4) (w : Int) : Prop :=
  (gamepads i).initialized = true ∧ (gamepads i).sdlId = w

/-- Slots are given out in order, one for each controller, and numbered by their place. -/
structure Seats (ids : Finset Int) (gamepads : Fin 4 → GamepadState) : Prop where
  known : ∀ i w, Seated gamepads i w → w ∈ ids
  sole : ∀ i j w, Seated gamepads i w → Seated gamepads j w → i = j
  numbered : ∀ i, (gamepads i).initialized = true → (gamepads i).id = i.val
  inOrder : ∀ i j, i < j → (gamepads j).initialized = true → (gamepads i).initialized = true
  fresh : ∀ i, (gamepads i).initialized = false → (gamepads i).toPad = Pad.neutral

theorem seats_start : Seats ids SdlInput.start.gamepads where
  known _ _ h := absurd h.1 Bool.false_ne_true
  sole _ _ _ h := absurd h.1 Bool.false_ne_true
  numbered _ h := absurd h Bool.false_ne_true
  inOrder _ _ _ h := absurd h Bool.false_ne_true
  fresh _ _ := rfl

/-- The lookup stops at the first slot it accepts. -/
theorem find_slot {p : Fin 4 → Bool} (h : [0, 1, 2, 3].find? p = some i) :
    p i = true ∧ ∀ j < i, p j = false := by
  obtain ⟨hi, before, after, hsplit, hbefore⟩ := List.find?_eq_some_iff_append.mp h
  refine ⟨hi, fun j hj => ?_⟩
  have hall : ∀ j : Fin 4, j ∈ [0, 1, 2, 3] := by decide
  have hsorted : ([0, 1, 2, 3] : List (Fin 4)).Pairwise (· < ·) := by decide
  have hmem := hall j
  rw [hsplit] at hmem hsorted
  rcases List.mem_append.mp hmem with hj' | hj'
  · simpa using hbefore j hj'
  · rcases List.mem_cons.mp hj' with rfl | hj'
    · exact absurd hj (lt_irrefl _)
    · have hlt := List.rel_of_pairwise_cons (List.pairwise_append.mp hsorted).2.1 hj'
      exact absurd hj hlt.not_gt

/-- With no more controllers than slots, one is free or already theirs. -/
theorem Seats.exists_slot (hs : Seats ids gamepads) (hids : ids.card ≤ 4) (hw : which ∈ ids) :
    ∃ i, (gamepads i).initialized = false ∨ (gamepads i).sdlId = which := by
  by_contra hfull
  have hfull : ∀ i, (gamepads i).initialized = true ∧ (gamepads i).sdlId ≠ which := by
    intro i
    have hi := fun h => hfull ⟨i, h⟩
    exact ⟨by simpa using fun h => hi (Or.inl h), fun h => hi (Or.inr h)⟩
  have hinj : Set.InjOn (fun i => (gamepads i).sdlId) (Finset.univ : Finset (Fin 4)) := by
    intro i _ j _ hij
    exact hs.sole i j _ ⟨(hfull i).1, rfl⟩ ⟨(hfull j).1, hij.symm⟩
  have hcard := Finset.card_le_card_of_injOn (t := ids.erase which)
    (fun i => (gamepads i).sdlId) (fun i _ =>
      Finset.mem_coe.mpr (Finset.mem_erase.mpr ⟨(hfull i).2, hs.known i _ ⟨(hfull i).1, rfl⟩⟩)) hinj
  rw [Finset.card_erase_of_mem hw, Finset.card_univ, Fintype.card_fin] at hcard
  omega

theorem seated_update_self {pad : GamepadState} {w : Int} :
    Seated (Function.update gamepads i pad) i w ↔ pad.initialized = true ∧ pad.sdlId = w := by
  rw [Seated, Function.update_self]

theorem seated_update_of_ne {pad : GamepadState} {j : Fin 4} {w : Int} (h : j ≠ i) :
    Seated (Function.update gamepads i pad) j w ↔ Seated gamepads j w := by
  rw [Seated, Function.update_of_ne h, Seated]

/-- A lookup that comes to a free slot found none of the controller. -/
theorem Seats.not_seated (hs : Seats ids gamepads) (hfree : (gamepads i).initialized = false)
    (hbefore : ∀ j < i, (gamepads j).initialized = true ∧ (gamepads j).sdlId ≠ which)
    (j : Fin 4) : ¬ Seated gamepads j which := by
  intro hj
  rcases lt_trichotomy j i with hlt | rfl | hlt
  · exact (hbefore j hlt).2 hj.2
  · exact absurd hj.1 (by simp [hfree])
  · exact absurd (hs.inOrder i j hlt hj.1) (by simp [hfree])

/-- A free slot after the taken ones, for a controller that none of them belongs to. -/
theorem Seats.take (hs : Seats ids gamepads) (hw : which ∈ ids)
    (hfree : (gamepads i).initialized = false)
    (hbefore : ∀ j < i, (gamepads j).initialized = true ∧ (gamepads j).sdlId ≠ which) :
    Seats ids (Function.update gamepads i
      { gamepads i with sdlId := which, id := i.val, initialized := true }) := by
  have hnew := hs.not_seated hfree hbefore
  constructor
  · intro j w hj
    by_cases h : j = i
    · subst h
      exact (seated_update_self.mp hj).2 ▸ hw
    · exact hs.known j w ((seated_update_of_ne h).mp hj)
  · intro j k w hj hk
    by_cases hji : j = i <;> by_cases hki : k = i
    · rw [hji, hki]
    · subst hji
      have hkw := (seated_update_of_ne hki).mp hk
      have hw : which = w := (seated_update_self.mp hj).2
      exact absurd (hw ▸ hkw) (hnew k)
    · subst hki
      have hjw := (seated_update_of_ne hji).mp hj
      have hw : which = w := (seated_update_self.mp hk).2
      exact absurd (hw ▸ hjw) (hnew j)
    · exact hs.sole j k w ((seated_update_of_ne hji).mp hj) ((seated_update_of_ne hki).mp hk)
  · intro j hj
    by_cases h : j = i
    · subst h
      simp
    · rw [Function.update_of_ne h] at hj ⊢
      exact hs.numbered j hj
  · intro j k hjk hk
    by_cases hji : j = i
    · subst hji
      simp
    · rw [Function.update_of_ne hji]
      by_cases hki : k = i
      · exact (hbefore j (hki ▸ hjk)).1
      · rw [Function.update_of_ne hki] at hk
        exact hs.inOrder j k hjk hk
  · intro j hj
    by_cases h : j = i
    · subst h
      simp at hj
    · rw [Function.update_of_ne h] at hj ⊢
      exact hs.fresh j hj

/-- The lookup seats the controller, if it has no slot yet, and moves no pad. -/
theorem getGamepad_seats (hs : Seats ids gamepads) (hids : ids.card ≤ 4) (hw : which ∈ ids) :
    ∃ i gamepads', getGamepad which gamepads = (i, gamepads') ∧ Seats ids gamepads' ∧
      Seated gamepads' i which ∧ (gamepads' i).toPad = (gamepads i).toPad ∧
      (∀ j, j ≠ i → gamepads' j = gamepads j) ∧
      ((gamepads i).initialized = true → Seated gamepads i which) := by
  obtain ⟨k, hk⟩ := hs.exists_slot hids hw
  unfold getGamepad
  cases hfind : [0, 1, 2, 3].find?
      (fun i => !(gamepads i).initialized || (gamepads i).sdlId == which) with
  | none =>
    have hall : ∀ j : Fin 4, j ∈ [0, 1, 2, 3] := by decide
    have hnone := List.find?_eq_none.mp hfind k (hall k)
    rcases hk with hk | hk <;> simp [hk] at hnone
  | some i =>
    obtain ⟨hi, hbefore⟩ := find_slot hfind
    have hbefore : ∀ j < i, (gamepads j).initialized = true ∧ (gamepads j).sdlId ≠ which := by
      intro j hj
      simpa using hbefore j hj
    dsimp only
    by_cases hinit : (gamepads i).initialized = true
    · rw [if_pos hinit]
      have hid : (gamepads i).sdlId = which := by simpa [hinit] using hi
      exact ⟨i, gamepads, rfl, hs, ⟨hinit, hid⟩, rfl, fun _ _ => rfl, fun _ => ⟨hinit, hid⟩⟩
    · rw [if_neg hinit]
      have hfree : (gamepads i).initialized = false := by simpa using hinit
      exact ⟨i, _, rfl, hs.take hw hfree hbefore, by simp [Seated], by simp,
        fun j h => Function.update_of_ne h _ _, fun h => absurd h hinit⟩

/-- The controller of an event and what the event does to its slot. -/
def SdlEvent.play (L : Limelight) : SdlEvent → Option (Int × (GamepadState → Option GamepadState))
  | .controllerAxis which axis value => some (which, sdlAxis axis value)
  | .controllerButton down which button => some (which, sdlButton L down button)
  | _ => none

/-- The reports of one controller number. -/
def reportsTo (n : Int) (sent : List HostEvent) : List Pad :=
  sent.filterMap fun e => match e with
    | .multiController m pad => if m = n then some pad else none
    | _ => none

def lastReport (n : Int) (sent : List HostEvent) : Option Pad := (reportsTo n sent).getLast?

theorem lastReport_self {sent : List HostEvent} {n : Int} {pad : Pad} :
    lastReport n (sent ++ [.multiController n pad]) = some pad := by
  simp [lastReport, reportsTo]

theorem lastReport_other {sent : List HostEvent} {n m : Int} {pad : Pad} (h : m ≠ n) :
    lastReport n (sent ++ [.multiController m pad]) = lastReport n sent := by
  simp [lastReport, reportsTo, h]

theorem lastReport_none {sent later : List HostEvent} {n : Int} (h : reportsTo n later = []) :
    lastReport n (sent ++ later) = lastReport n sent := by
  rw [lastReport, reportsTo, List.filterMap_append]
  exact congrArg List.getLast? ((congrArg _ h).trans (List.append_nil _))

/-- What a controller event does: one slot changes, and the host is told unless the event means
nothing to it. -/
structure Played (ids : Finset Int) (which : Int) (change : GamepadState → Option GamepadState)
    (gamepads gamepads' : Fin 4 → GamepadState) (sent : List HostEvent) (i : Fin 4) : Prop where
  seats : Seats ids gamepads'
  seated : Seated gamepads' i which
  others : ∀ j, j ≠ i → gamepads' j = gamepads j
  found : (gamepads i).initialized = true → Seated gamepads i which
  effect : ∃ g, g.toPad = (gamepads i).toPad ∧
    ((change g = none ∧ (gamepads' i).toPad = (gamepads i).toPad ∧ sent = []) ∨
      (change g = some (gamepads' i) ∧ sent = [.multiController i.val (gamepads' i).toPad]))

theorem Seats.congr {gamepads' : Fin 4 → GamepadState} (hs : Seats ids gamepads)
    (h : ∀ j, (gamepads' j).initialized = (gamepads j).initialized ∧
      (gamepads' j).sdlId = (gamepads j).sdlId ∧ (gamepads' j).id = (gamepads j).id)
    (hfresh : ∀ j, (gamepads j).initialized = false → (gamepads' j).toPad = Pad.neutral) :
    Seats ids gamepads' := by
  have hseated (j : Fin 4) (w : Int) : Seated gamepads' j w ↔ Seated gamepads j w := by
    unfold Seated
    rw [(h j).1, (h j).2.1]
  constructor
  · intro j w hj
    exact hs.known j w ((hseated j w).mp hj)
  · intro j k w hj hk
    exact hs.sole j k w ((hseated j w).mp hj) ((hseated k w).mp hk)
  · intro j hj
    rw [(h j).1] at hj
    rw [(h j).2.2]
    exact hs.numbered j hj
  · intro j k hjk hk
    rw [(h k).1] at hk
    rw [(h j).1]
    exact hs.inOrder j k hjk hk
  · intro j hj
    rw [(h j).1] at hj
    exact hfresh j hj

theorem sdlController_played {change : GamepadState → Option GamepadState} {s : SdlInput}
    (hs : Seats ids s.gamepads) (hids : ids.card ≤ 4) (hw : which ∈ ids)
    (hchange : ∀ g g', change g = some g' →
      g'.initialized = g.initialized ∧ g'.sdlId = g.sdlId ∧ g'.id = g.id) :
    ∃ i, Played ids which change s.gamepads (sdlController which change s).2.1.gamepads
      (sdlController which change s).2.2 i := by
  obtain ⟨i, taken, hget, hseats, hseated, hpad, hothers, hfound⟩ := getGamepad_seats hs hids hw
  refine ⟨i, ?_⟩
  unfold sdlController
  rw [hget]
  dsimp only
  cases hg : change (taken i) with
  | none => exact ⟨hseats, hseated, hothers, hfound, taken i, hpad, Or.inl ⟨hg, hpad, rfl⟩⟩
  | some pad =>
    dsimp only
    obtain ⟨hinit, hsdl, hid⟩ := hchange _ _ hg
    have hsame (j : Fin 4) : (Function.update taken i pad j).initialized = (taken j).initialized ∧
        (Function.update taken i pad j).sdlId = (taken j).sdlId ∧
        (Function.update taken i pad j).id = (taken j).id := by
      by_cases h : j = i
      · subst h
        simp [hinit, hsdl, hid]
      · simp [h]
    refine ⟨hseats.congr hsame ?_, ?_, ?_, hfound,
      taken i, hpad, Or.inr ⟨by simpa using hg, ?_⟩⟩
    · intro j hj
      have h : j ≠ i := by
        rintro rfl
        exact absurd hj (by simp [hseated.1])
      rw [Function.update_of_ne h]
      exact hseats.fresh j hj
    · unfold Seated
      rw [(hsame i).1, (hsame i).2.1]
      exact hseated
    · intro j h
      rw [Function.update_of_ne h]
      exact hothers j h
    · simp [hid.trans (hseats.numbered i hseated.1)]

theorem play_keeps {change : GamepadState → Option GamepadState}
    (h : event.play L = some (which, change)) (g g' : GamepadState) (hg : change g = some g') :
    g'.initialized = g.initialized ∧ g'.sdlId = g.sdlId ∧ g'.id = g.id := by
  cases event with
  | controllerAxis _ axis value =>
    cases h
    cases axis <;> cases hg <;> exact ⟨rfl, rfl, rfl⟩
  | controllerButton down _ button =>
    cases h
    obtain ⟨p, _, rfl⟩ := Option.map_eq_some_iff.mp hg
    exact ⟨rfl, rfl, rfl⟩
  | _ => cases h

end Moonlight
