import Moonlight.Lib.Presence
import Moonlight.Lib.Trace
import Moonlight.Input.EvdevFrame
import Moonlight.Input.EvdevTable

/-! Controller ids: which bits of `assignedControllerIds` are set, and when a live device
still holds an id whose bit is clear. -/
namespace Moonlight

open Lib.Presence Lib.Trace Lib.SwapRemove

variable {L : Limelight} {s t : EvdevState} {i k : Nat} {dev dev' : InputDevice}

inductive TableAction where
  | create (fd : Int) (absInfo : Int → AbsInfo) (mapFile : Option (List Char))
  | event (i : Nat) (ev : InputEvent)
  | remove (i : Nat)

variable {a : TableAction} {run : List (TableAction × EvdevState)}

/-- `evdev_create`, an event on a live device, or the removal of a live device. -/
def tableNext (L : Limelight) (s : EvdevState) : TableAction → Option EvdevState
  | .create fd absInfo mapFile => some (evdevCreate fd absInfo mapFile s)
  | .event i ev => (evdevEvent L i ev s).map (·.1)
  | .remove i => if i < s.devices.length then some (evdevRemove i s) else none

def TableStep (L : Limelight) (s : EvdevState) (a : TableAction) (t : EvdevState) : Prop :=
  tableNext L s a = some t

/-- The ids of the live devices. -/
def holders (s : EvdevState) : Set Nat :=
  {k | ∃ dev ∈ s.devices, dev.controllerId = k}

/-- The bits of `assignedControllerIds`. -/
def assignedBits (s : EvdevState) : Set Nat :=
  {k | s.assignedControllerIds.getLsbD k = true}

def MaskExact (s : EvdevState) : Prop := assignedBits s = holders s

/-- A device that picks an id shares it only when all four ids are in use. -/
def PicksFreeId (s : EvdevState) (a : TableAction) (t : EvdevState) : Prop :=
  ∀ i ev dev dev', a = .event i ev → s.devices[i]? = some dev → t.devices[i]? = some dev' →
    dev.controllerId < 0 → 0 ≤ dev'.controllerId →
    (∃ j ≠ i, ∃ other, s.devices[j]? = some other ∧ other.controllerId = dev'.controllerId) →
    ∀ k < 4, k ∈ holders s

/-- No other live device has the id of device `i`, if it has one. -/
def Unshared (s : EvdevState) (i : Nat) : Prop :=
  ∀ dev, s.devices[i]? = some dev → 0 ≤ dev.controllerId →
    ∀ j ≠ i, ∀ other, s.devices[j]? = some other → other.controllerId ≠ dev.controllerId

/-- A device is removed only while no other live device has its id. -/
def RemovesUnshared (s : EvdevState) (a : TableAction) (_ : EvdevState) : Prop :=
  ∀ i, a = .remove i → Unshared s i

instance : Decidable (Unshared s i) :=
  decidable_of_iff (∀ dev ∈ s.devices[i]?, 0 ≤ dev.controllerId → ∀ j < s.devices.length, j ≠ i →
      ∀ other ∈ s.devices[j]?, other.controllerId ≠ dev.controllerId) (by
    refine forall₃_congr fun dev hdev hpos => ⟨fun h j hj other hother => ?_, fun h j _ => h j⟩
    exact h j (List.getElem?_eq_some_iff.mp hother).1 hj other hother)

instance : Decidable (RemovesUnshared s a t) :=
  match a with
  | .create _ _ _ | .event _ _ => isTrue fun _ h => by cases h
  | .remove i => decidable_of_iff (Unshared s i) (by simp [RemovesUnshared])

/-- Every id is one of 0 to 3, or -1 before the first report. -/
def IdsInRange (s : EvdevState) : Prop :=
  ∀ dev ∈ s.devices, -1 ≤ dev.controllerId ∧ dev.controllerId < 4

theorem getLsbD_one_shiftLeft (hi : i < 32) : (1#32 <<< i).getLsbD k = decide (k = i) := by
  simp only [BitVec.getLsbD_shiftLeft, BitVec.getLsbD_one]
  by_cases h : k = i
  · simp [h, hi]
  · simp [h]
    omega

theorem and_one_shiftLeft_eq_zero {m : BitVec 32} (hi : i < 32) :
    m &&& (1#32 <<< i) = 0#32 ↔ m.getLsbD i = false := by
  constructor
  · intro h
    have := congrArg (fun x : BitVec 32 => x.getLsbD i) h
    simpa [getLsbD_one_shiftLeft hi] using this
  · intro h
    apply BitVec.eq_of_getLsbD_eq
    intro k hk
    simp only [BitVec.getLsbD_and, getLsbD_one_shiftLeft hi, BitVec.getLsbD_zero]
    by_cases hki : k = i
    · simp [hki, h]
    · simp [hki]

/-- Either a clear bit among the four is set and its number returned, or all four are set. -/
theorem assignControllerId_cases (m : BitVec 32) :
    (∃ k < 4, m.getLsbD k = false ∧ assignControllerId m = ((k : Int), m ||| (1#32 <<< k))) ∨
    ((∀ k < 4, m.getLsbD k = true) ∧ assignControllerId m = (0, m)) := by
  unfold assignControllerId
  split
  · next k hk =>
    have hmem := List.mem_of_find?_eq_some hk
    have hbit := List.find?_some hk
    have hlt : k < 4 := by simp at hmem; omega
    refine Or.inl ⟨k, hlt, ?_, rfl⟩
    exact (and_one_shiftLeft_eq_zero (by omega)).mp (by simpa using hbit)
  · next hk =>
    refine Or.inr ⟨fun k hlt => ?_, rfl⟩
    have hmem : k ∈ [0, 1, 2, 3] := by simp; omega
    have hbit := List.find?_eq_none.mp hk k hmem
    simpa [and_one_shiftLeft_eq_zero (show k < 32 by omega)] using hbit

/-- The ids of the live devices other than device `i`. -/
def otherHolders (s : EvdevState) (i : Nat) : Set Nat :=
  {k | ∃ j ≠ i, ∃ dev, s.devices[j]? = some dev ∧ dev.controllerId = k}

theorem mem_holders : k ∈ holders s ↔
    ∃ (j : Nat) (dev : InputDevice), s.devices[j]? = some dev ∧ dev.controllerId = k := by
  simp only [holders, Set.mem_ofPred_eq, List.mem_iff_getElem?]
  constructor
  · rintro ⟨dev, ⟨j, hj⟩, hk⟩
    exact ⟨j, dev, hj, hk⟩
  · rintro ⟨j, dev, hj, hk⟩
    exact ⟨dev, ⟨j, hj⟩, hk⟩

theorem mem_holders_of_getElem? (h : s.devices[i]? = some dev) :
    k ∈ holders s ↔ dev.controllerId = k ∨ k ∈ otherHolders s i := by
  rw [mem_holders]
  constructor
  · rintro ⟨j, d, hj, hk⟩
    by_cases hji : j = i
    · subst hji
      rw [h] at hj
      cases hj
      exact Or.inl hk
    · exact Or.inr ⟨j, hji, d, hj, hk⟩
  · rintro (hk | ⟨j, _, d, hj, hk⟩)
    · exact ⟨i, dev, h, hk⟩
    · exact ⟨j, d, hj, hk⟩

theorem otherHolders_set (m : BitVec 32) :
    otherHolders ⟨s.devices.set i dev', m⟩ i = otherHolders s i := by
  ext k
  simp only [otherHolders, Set.mem_ofPred_eq]
  constructor
  · rintro ⟨j, hj, d, hd, hk⟩
    rw [List.getElem?_set_ne (Ne.symm hj)] at hd
    exact ⟨j, hj, d, hd, hk⟩
  · rintro ⟨j, hj, d, hd, hk⟩
    refine ⟨j, hj, d, ?_, hk⟩
    rw [List.getElem?_set_ne (Ne.symm hj)]
    exact hd

theorem mem_holders_set (h : s.devices[i]? = some dev) (m : BitVec 32) :
    k ∈ holders ⟨s.devices.set i dev', m⟩ ↔
      dev'.controllerId = k ∨ k ∈ otherHolders s i := by
  have hi : i < s.devices.length := (List.getElem?_eq_some_iff.mp h).1
  have hget : (s.devices.set i dev')[i]? = some dev' := List.getElem?_set_self hi
  rw [mem_holders_of_getElem? (s := ⟨s.devices.set i dev', m⟩) hget, otherHolders_set]

theorem holders_remove (h : s.devices[i]? = some dev) :
    holders (evdevRemove i s) = otherHolders s i := by
  have hi : i < s.devices.length := (List.getElem?_eq_some_iff.mp h).1
  ext k
  simp only [holders, evdevRemove, h, otherHolders, Set.mem_ofPred_eq, mem_swapRemove hi]
  constructor
  · rintro ⟨d, ⟨j, hj, hd⟩, hk⟩
    exact ⟨j, hj, d, hd, hk⟩
  · rintro ⟨j, hj, d, hd, hk⟩
    exact ⟨d, ⟨j, hj, hd⟩, hk⟩

theorem assignedBits_or {d : List InputDevice} {m : BitVec 32} (hk : k < 32) :
    assignedBits ⟨d, m ||| (1#32 <<< k)⟩ = insert k (assignedBits ⟨d, m⟩) := by
  ext j
  simp [assignedBits, BitVec.getLsbD_or, getLsbD_one_shiftLeft hk, or_comm]

theorem assignedBits_clear {d : List InputDevice} {m : BitVec 32} (hk : k < 32) :
    assignedBits ⟨d, m &&& ~~~ (1#32 <<< k)⟩ = assignedBits ⟨d, m⟩ \ {k} := by
  ext j
  simp only [assignedBits, BitVec.getLsbD_and, BitVec.getLsbD_not, getLsbD_one_shiftLeft hk,
    Set.mem_ofPred_eq, Set.mem_sdiff, Set.mem_singleton_iff, Bool.and_eq_true, Bool.not_eq_true',
    decide_eq_true_eq, decide_eq_false_iff_not]
  constructor
  · rintro ⟨hm, _, hj⟩
    exact ⟨hm, hj⟩
  · rintro ⟨hm, hj⟩
    exact ⟨hm, BitVec.lt_of_getLsbD hm, hj⟩

/-- Numbering a device that had no number sets exactly the bit of its new id. -/
theorem assign_follows (h : s.devices[i]? = some dev) (hid : dev.controllerId < 0)
    (hdev : dev'.controllerId = (assignControllerId s.assignedControllerIds).1) :
    ∃ k, Follows (.acquire k) (assignedBits s)
      (assignedBits ⟨s.devices.set i dev', (assignControllerId s.assignedControllerIds).2⟩)
      (holders s) (holders ⟨s.devices.set i dev', (assignControllerId s.assignedControllerIds).2⟩) := by
  have hheld : ∀ j : Nat, dev'.controllerId = j →
      holders ⟨s.devices.set i dev', (assignControllerId s.assignedControllerIds).2⟩ =
        insert j (holders s) := by
    intro j hj
    ext k
    rw [mem_holders_set h, Set.mem_insert_iff, mem_holders_of_getElem? h, hj]
    have : dev.controllerId ≠ k := by omega
    simp [this, eq_comm]
  rcases assignControllerId_cases s.assignedControllerIds with ⟨k, hk, _, ha⟩ | ⟨hall, ha⟩
  · refine ⟨k, ?_, hheld k (by rw [hdev, ha])⟩
    rw [ha]
    exact assignedBits_or (by omega)
  · have hmem : 0 ∈ assignedBits s := hall 0 (by omega)
    refine ⟨0, ?_, hheld 0 (by rw [hdev, ha]; rfl)⟩
    rw [ha]
    exact (Set.insert_eq_self.mpr hmem).symm

theorem create_follows (fd : Int) (absInfo : Int → AbsInfo) (mapFile : Option (List Char)) :
    Follows .keep (assignedBits s) (assignedBits (evdevCreate fd absInfo mapFile s))
      (holders s) (holders (evdevCreate fd absInfo mapFile s)) := by
  unfold evdevCreate
  split
  · exact ⟨rfl, rfl⟩
  · refine ⟨rfl, ?_⟩
    ext k
    simp only [holders, List.mem_append, List.mem_singleton, Set.mem_ofPred_eq]
    constructor
    · rintro ⟨dev, hdev | rfl, hk⟩
      · exact ⟨dev, hdev, hk⟩
      · exact absurd hk (by simp [newDevice])
    · rintro ⟨dev, hdev, hk⟩
      exact ⟨dev, Or.inl hdev, hk⟩

theorem keep_follows (h : s.devices[i]? = some dev) (hc : dev'.controllerId = dev.controllerId) :
    Follows .keep (assignedBits s)
      (assignedBits ⟨s.devices.set i dev', s.assignedControllerIds⟩) (holders s)
      (holders ⟨s.devices.set i dev', s.assignedControllerIds⟩) := by
  refine ⟨rfl, ?_⟩
  ext k
  rw [mem_holders_set h, mem_holders_of_getElem? h, hc]

/-- What an event does to the ids: nothing, or the device picks one. -/
theorem evdevEvent_ids {ev : InputEvent} (h : TableStep L s (.event i ev) t) :
    ∃ dev dev', s.devices[i]? = some dev ∧
      ((dev'.controllerId = dev.controllerId ∧
          t = ⟨s.devices.set i dev', s.assignedControllerIds⟩) ∨
        (dev.controllerId < 0 ∧ dev'.controllerId = (assignControllerId s.assignedControllerIds).1 ∧
          t = ⟨s.devices.set i dev', (assignControllerId s.assignedControllerIds).2⟩)) := by
  obtain ⟨out, hout, rfl⟩ := Option.map_eq_some_iff.mp h
  simp only [evdevEvent, Option.bind_eq_bind, Option.bind_eq_some_iff, Option.pure_def,
    Option.some.injEq] at hout
  obtain ⟨dev, hdev, r, hr, rfl⟩ := hout
  refine ⟨dev, r.dev, hdev, ?_⟩
  by_cases hsyn : ev.type = .syn
  · simp only [evdevHandleEvent, hsyn, Option.some.injEq] at hr
    have hn := evdevSyn_numbers s.assignedControllerIds dev
    rw [hr] at hn
    split at hn
    · next hnew =>
      rw [← hn]
      exact Or.inr ⟨hnew.2, rfl, rfl⟩
    · rw [Prod.mk.injEq] at hn
      rw [hn.2]
      exact Or.inl ⟨hn.1, rfl⟩
  · have hq := evdevHandleEvent_quiet hr hsyn
    rw [hq.assigned_eq]
    exact Or.inl ⟨hq.controllerId_eq, rfl⟩

/-- Removing a device releases its id, cleanly if and only if nobody shares it. -/
theorem remove_follows (h : s.devices[i]? = some dev) (hlt : dev.controllerId < 4) :
    ∃ u, Follows u (assignedBits s) (assignedBits (evdevRemove i s))
        (holders s) (holders (evdevRemove i s)) ∧
      (Clean u (holders (evdevRemove i s)) ↔ Unshared s i) := by
  rw [holders_remove h]
  by_cases hid : 0 ≤ dev.controllerId
  · obtain ⟨k, hk⟩ := Int.eq_ofNat_of_zero_le hid
    have hmask : assignedBits (evdevRemove i s) = assignedBits s \ {k} := by
      have := assignedBits_clear (d := s.devices) (m := s.assignedControllerIds)
        (show k < 32 by omega)
      simpa [assignedBits, evdevRemove, h, hk] using this
    refine ⟨.release k, ⟨hmask, ?_⟩, ?_⟩
    · ext j
      simp only [Set.mem_sdiff, Set.mem_singleton_iff, mem_holders_of_getElem? h, hk]
      constructor
      · rintro ⟨hj, hjk⟩
        exact ⟨Or.inr hj, hjk⟩
      · rintro ⟨hj | hj, hjk⟩
        · omega
        · exact ⟨hj, hjk⟩
    · constructor
      · intro hclean d hd _ j hj other hother heq
        rw [h] at hd
        cases hd
        exact hclean ⟨j, hj, other, hother, heq.trans hk⟩
      · rintro hun ⟨j, hj, other, hother, heq⟩
        exact hun dev h hid j hj other hother (heq.trans hk.symm)
  · refine ⟨.keep, ⟨?_, ?_⟩, ?_⟩
    · simp [assignedBits, evdevRemove, h, hid]
    · ext j
      rw [mem_holders_of_getElem? h]
      have : dev.controllerId ≠ j := by omega
      simp [this]
    · simp only [Clean, true_iff]
      intro d hd hd0
      rw [h] at hd
      cases hd
      exact absurd hd0 hid

/-- A removal step is a removal of a live device. -/
theorem removeStep_cases (h : TableStep L s (.remove i) t) :
    ∃ dev, s.devices[i]? = some dev ∧ t = evdevRemove i s := by
  simp only [TableStep, tableNext] at h
  split at h
  · next hi => exact ⟨_, List.getElem?_eq_getElem hi, (Option.some.inj h).symm⟩
  · cases h

/-- Every step follows some update of the bits, which is clean unless the step removes a device
whose id another live device has. -/
theorem tableStep_follows (h : TableStep L s a t) (hr : IdsInRange s) :
    ∃ u, Follows u (assignedBits s) (assignedBits t) (holders s) (holders t) ∧
      (Clean u (holders t) ↔ RemovesUnshared s a t) := by
  cases a with
  | create fd absInfo mapFile =>
    obtain rfl := Option.some.inj h
    exact ⟨.keep, create_follows fd absInfo mapFile, by simp [Clean, RemovesUnshared]⟩
  | event i ev =>
    obtain ⟨dev, dev', hdev, ⟨hc, rfl⟩ | ⟨hneg, hc, rfl⟩⟩ := evdevEvent_ids h
    · exact ⟨.keep, keep_follows hdev hc, by simp [Clean, RemovesUnshared]⟩
    · obtain ⟨k, hk⟩ := assign_follows hdev hneg hc
      exact ⟨_, hk, by simp [Clean, RemovesUnshared]⟩
  | remove i =>
    obtain ⟨dev, hdev, rfl⟩ := removeStep_cases h
    obtain ⟨u, hu, hclean⟩ := remove_follows hdev (hr dev (List.mem_of_getElem? hdev)).2
    exact ⟨u, hu, by simp [hclean, RemovesUnshared]⟩

theorem assignControllerId_range (m : BitVec 32) :
    0 ≤ (assignControllerId m).1 ∧ (assignControllerId m).1 < 4 := by
  rcases assignControllerId_cases m with ⟨k, hk, _, ha⟩ | ⟨_, ha⟩ <;> rw [ha] <;> simp
  omega

theorem idsInRange_step (h : TableStep L s a t) (hr : IdsInRange s) : IdsInRange t := by
  intro d hd
  cases a with
  | create fd absInfo mapFile =>
    obtain rfl := Option.some.inj h
    unfold evdevCreate at hd
    split at hd
    · exact hr d hd
    · rcases List.mem_append.mp hd with hd | hd
      · exact hr d hd
      · rw [List.mem_singleton.mp hd]
        simp [newDevice]
  | event i ev =>
    obtain ⟨dev, dev', hdev, ⟨hc, rfl⟩ | ⟨_, hc, rfl⟩⟩ := evdevEvent_ids h
    · rcases List.mem_or_eq_of_mem_set hd with hd | rfl
      · exact hr d hd
      · rw [hc]
        exact hr dev (List.mem_of_getElem? hdev)
    · rcases List.mem_or_eq_of_mem_set hd with hd | rfl
      · exact hr d hd
      · have := assignControllerId_range s.assignedControllerIds
        omega
  | remove i =>
    obtain ⟨dev, hdev, rfl⟩ := removeStep_cases h
    have hi := (List.getElem?_eq_some_iff.mp hdev).1
    simp only [evdevRemove, hdev, mem_swapRemove hi] at hd
    obtain ⟨j, _, hj⟩ := hd
    exact hr d (List.mem_of_getElem? hj)

/-- While the mask is exact, a free bit is a free id and a full mask is four ids in use. -/
theorem picksFreeId_step (h : TableStep L s a t) (he : MaskExact s) : PicksFreeId s a t := by
  rintro i ev old new rfl hold hnew hneg hpos ⟨j, hj, other, hother, hshare⟩
  obtain ⟨dev, dev', hdev, ⟨hc, rfl⟩ | ⟨_, hc, rfl⟩⟩ := evdevEvent_ids h
  all_goals
    have hi : i < s.devices.length := (List.getElem?_eq_some_iff.mp hdev).1
    simp only [List.getElem?_set_self hi, Option.some.injEq] at hnew
    rw [hdev, Option.some.injEq] at hold
    subst hold hnew
  · omega
  · rcases assignControllerId_cases s.assignedControllerIds with ⟨k, _, hfree, ha⟩ | ⟨hall, _⟩
    · have hk : k ∈ holders s := mem_holders.mpr ⟨j, other, hother, by rw [hshare, hc, ha]⟩
      rw [← he] at hk
      simp [assignedBits, hfree] at hk
    · intro k hk
      rw [← he]
      exact hall k hk

/-- In a run from the start the mask records exactly the ids of the live devices, and ids are
shared only when all four are in use, if and only if no step removes a device whose id another
live device has. -/
theorem ids_exact_iff (hrun : Run (TableStep L) EvdevState.start run) :
    (Always MaskExact EvdevState.start run ∧ EachStep PicksFreeId EvdevState.start run) ↔
      EachStep RemovesUnshared EvdevState.start run := by
  have hrange : IdsInRange EvdevState.start := by simp [IdsInRange, EvdevState.start]
  have hexact : MaskExact EvdevState.start := by
    ext k
    simp [assignedBits, holders, EvdevState.start]
  have hstep (s a t) (h : TableStep L s a t) (hs : IdsInRange s ∧ MaskExact s) :
      (IdsInRange t ∧ MaskExact t) ↔ RemovesUnshared s a t := by
    obtain ⟨u, hu, hclean⟩ := tableStep_follows h hs.1
    rw [and_iff_right (idsInRange_step h hs.1), ← hclean]
    exact follows_exact_iff hu hs.2
  have hiff := always_iff_eachStep hstep hrun ⟨hrange, hexact⟩
  have hin := always_of_invariant (fun _ _ _ h hs => idsInRange_step h hs) hrun hrange
  rw [always_and, and_iff_right hin] at hiff
  rw [← hiff]
  exact and_iff_left_of_imp fun hs =>
    eachStep_of_always (fun _ _ _ h he _ => picksFreeId_step h he) hrun hs

def openPad (fd : Int) : TableAction := .create fd (fun _ => ⟨0, 255, 15⟩) none

/-- The stick of a pad is moved, and the pad reports. -/
def pushStick (i : Nat) (value : Int) : List TableAction :=
  [.event i ⟨.abs, 0, value⟩, .event i ⟨.syn, 0, 0⟩]

/-- Two pads report, the first is unplugged, and a third one reports. -/
def replacedTable : List TableAction :=
  [openPad 3, openPad 4] ++ pushStick 0 200 ++ pushStick 1 255 ++ [.remove 0, openPad 5] ++
    pushStick 1 0

/-- The third pad has the number of the first. -/
theorem ids_exact_iff_unplug : ∃ run, run.map Prod.fst = replacedTable ∧
    (final EvdevState.start run).devices.map (·.controllerId) = [1, 0] ∧
    Always MaskExact EvdevState.start run ∧ EachStep PicksFreeId EvdevState.start run := by
  have hexec : (execute (checked (tableNext documented) RemovesUnshared) EvdevState.start
      replacedTable).map (fun s => s.devices.map (·.controllerId)) = some [1, 0] := by
    decide +kernel
  obtain ⟨t, ht, hids⟩ := Option.map_eq_some_iff.mp hexec
  obtain ⟨run, hrun, hunshared, hlabels, rfl⟩ := exists_run_of_checked ht
  exact ⟨run, hlabels, hids, (ids_exact_iff hrun).mpr hunshared⟩

/-- Five pads report in turn and the fifth, which shares id 0, is unplugged. -/
def crowdedTable : List TableAction :=
  [3, 4, 5, 6, 7].map openPad ++ [0, 1, 2, 3, 4].flatMap (pushStick · 200) ++ [.remove 4]

/-- The fifth pad takes bit 0 with it although the first pad still has id 0. -/
theorem crowded_removal_clears_id : ¬ ∀ L run, Run (TableStep L) EvdevState.start run →
    Always MaskExact EvdevState.start run ∧ EachStep PicksFreeId EvdevState.start run := by
  intro h
  have hexec : (execute (tableNext documented) EvdevState.start crowdedTable).map
      (fun s => (s.assignedControllerIds, s.devices.map (·.controllerId))) =
      some (0b1110#32, [0, 1, 2, 3]) := by decide +kernel
  obtain ⟨t, ht, hend⟩ := Option.map_eq_some_iff.mp hexec
  obtain ⟨run, hrun, -, rfl⟩ := exists_run_of_execute ht
  have hexact := always_final (h documented run hrun).1
  generalize final EvdevState.start run = t at hend hexact
  rw [Prod.mk.injEq] at hend
  have hheld : 0 ∈ holders t := by
    have hmem : 0 ∈ t.devices.map (·.controllerId) := by simp [hend.2]
    obtain ⟨dev, hdev, hid⟩ := List.mem_map.mp hmem
    exact ⟨dev, hdev, hid⟩
  rw [← hexact] at hheld
  simp [assignedBits, hend.1] at hheld

end Moonlight
