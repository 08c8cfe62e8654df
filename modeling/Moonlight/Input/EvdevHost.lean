import Moonlight.Input.EvdevControllers

/-! What the host sees of all gamepads while they come and go: each number shows the pad of the
device that has it, and nobody else writes it. -/
namespace Moonlight

open Lib.Presence Lib.Trace Lib.SwapRemove

/-- The table of devices, and the pad that the host has for each controller number. -/
structure Play where
  table : EvdevState
  host : Int → Pad

def Play.start : Play := ⟨.start, fun _ => Pad.neutral⟩

/-- The host keeps the last report for each number. -/
def receive (host : Int → Pad) : HostEvent → Int → Pad
  | .multiController controllerNumber pad => Function.update host controllerNumber pad
  | _ => host

/-- One step of the table, with the calls that an event makes. -/
def PlayStep (L : Limelight) (s : Play) (a : TableAction) (t : Play) : Prop :=
  TableStep L s.table a t.table ∧
    match a with
    | .event i ev => ∃ out, evdevEvent L i ev s.table = some out ∧
        t.host = out.2.2.foldl receive s.host
    | _ => t.host = s.host

/-- A device that is about to be numbered finds a number that no live device has. -/
def FindsNumber (s : Play) (a : TableAction) (_ : Play) : Prop :=
  ∀ i ev dev, a = .event i ev → s.table.devices[i]? = some dev → ev.type = .syn →
    dev.gamepadModified = true → dev.controllerId < 0 → ∃ k < 4, k ∉ holders s.table

/-- What the host has for a number only changes to the pad of the device with this number, when
that device reports. -/
def ReportedByHolder (s : Play) (a : TableAction) (t : Play) : Prop :=
  ∀ id, t.host id ≠ s.host id → ∃ i ev dev, a = .event i ev ∧ ev.type = .syn ∧
    t.table.devices[i]? = some dev ∧ dev.controllerId = id ∧ t.host id = dev.toPad

/-- A device that has nothing to report shows at the host under its number, or is at rest. -/
def Shown (host : Int → Pad) (dev : InputDevice) : Prop :=
  dev.gamepadModified = false →
    (0 ≤ dev.controllerId → host dev.controllerId = dev.toPad) ∧
    (dev.controllerId < 0 → dev.toPad = Pad.neutral)

/-- No two live devices have one number, the bits say which numbers are in use, and every device is
shown. -/
structure Play.Sound (s : Play) : Prop where
  range : IdsInRange s.table
  exact : MaskExact s.table
  unshared : ∀ i, Unshared s.table i
  shown : ∀ dev ∈ s.table.devices, Shown s.host dev

variable {L : Limelight} {s t : Play} {i : Nat} {a : TableAction} {ev : InputEvent}
  {dev dev' : InputDevice} {host : Int → Pad} {sent : List HostEvent} {assigned : BitVec 32}
  {run : List (TableAction × Play)}

theorem newDevice_controllerId {fd : Int} {absInfo : Int → AbsInfo} {map : Mapping} :
    (newDevice fd absInfo map).controllerId = -1 := rfl

theorem receive_unreported (h : reports sent = []) : sent.foldl receive host = host := by
  induction sent generalizing host with
  | nil => rfl
  | cons e sent ih =>
    cases e with
    | multiController controllerNumber pad => cases h
    | _ => exact ih h

theorem evdevSyn_receive :
    (evdevSyn assigned dev).sent.foldl receive host =
      if dev.gamepadModified then
        Function.update host (evdevSyn assigned dev).dev.controllerId dev.toPad
      else host := by
  have hquiet (scroll : Int) (moved : List HostEvent) (hmoved : reports moved = []) :
      (moved ++ if scroll ≠ 0 then [HostEvent.scroll scroll] else []).foldl receive host = host := by
    refine receive_unreported ?_
    rw [reports_append, hmoved]
    split <;> rfl
  have hmoved : reports (if dev.mouseDeltaX ≠ 0 ∨ dev.mouseDeltaY ≠ 0 then
      [HostEvent.mouseMove dev.mouseDeltaX dev.mouseDeltaY] else []) = [] := by
    split <;> rfl
  unfold evdevSyn
  dsimp only
  cases dev.gamepadModified with
  | false => exact hquiet _ _ hmoved
  | true =>
    simp only [if_true]
    rw [List.foldl_append, hquiet _ _ hmoved]
    rfl

/-- What an event does to its device and to the host. -/
structure EventPlayed (s t : Play) (ev : InputEvent) (dev dev' : InputDevice) : Prop where
  quiet : ev.type ≠ .syn → t.host = s.host ∧ dev'.controllerId = dev.controllerId ∧
    (dev'.gamepadModified = false → dev.gamepadModified = false ∧ dev'.toPad = dev.toPad)
  syn : ev.type = .syn → dev'.toPad = dev.toPad ∧ t.host =
    if dev.gamepadModified then Function.update s.host dev'.controllerId dev.toPad else s.host
  number : ev.type = .syn → dev'.controllerId =
    if dev.gamepadModified = true ∧ dev.controllerId < 0 then
      (assignControllerId s.table.assignedControllerIds).1
    else dev.controllerId

theorem playStep_event (h : PlayStep L s (.event i ev) t) :
    ∃ dev dev', s.table.devices[i]? = some dev ∧ t.table.devices = s.table.devices.set i dev' ∧
      EventPlayed s t ev dev dev' := by
  obtain ⟨hstep, out, hout, hhost⟩ := h
  have htable : t.table = out.1 := by
    rw [TableStep, tableNext, hout] at hstep
    exact (Option.some.inj hstep).symm
  simp only [evdevEvent, Option.bind_eq_bind, Option.bind_eq_some_iff, Option.pure_def,
    Option.some.injEq] at hout
  obtain ⟨dev, hdev, r, hr, rfl⟩ := hout
  refine ⟨dev, r.dev, hdev, by rw [htable], ?_⟩
  by_cases hsyn : ev.type = .syn
  · simp only [evdevHandleEvent, hsyn, Option.some.injEq] at hr
    subst hr
    obtain ⟨_, _, _, hpad, _⟩ := evdevSyn_keeps s.table.assignedControllerIds dev
    refine ⟨fun hne => absurd hsyn hne, fun _ => ⟨hpad, hhost.trans evdevSyn_receive⟩, fun _ => ?_⟩
    have hn := congrArg Prod.fst (evdevSyn_numbers s.table.assignedControllerIds dev)
    split at hn <;> simp_all
  · have hq := evdevHandleEvent_quiet hr hsyn
    exact ⟨fun _ => ⟨hhost.trans (receive_unreported hq.unreported), hq.controllerId_eq,
      hq.unmarked⟩, fun h => absurd h hsyn, fun h => absurd h hsyn⟩

/-- A device that reports has a number. -/
theorem EventPlayed.numbered (h : EventPlayed s t ev dev dev') (hsyn : ev.type = .syn)
    (hmod : dev.gamepadModified = true) : 0 ≤ dev'.controllerId := by
  rw [h.number hsyn]
  split
  · exact (assignControllerId_range _).1
  · next hno => exact not_lt.mp fun hneg => hno ⟨hmod, hneg⟩

/-- Two devices with one number have none. -/
def Apart (d d' : InputDevice) : Prop := d.controllerId = d'.controllerId → d.controllerId < 0

theorem apart_symm {d d' : InputDevice} (h : Apart d d') : Apart d' d := by
  intro heq
  rw [heq]
  exact h heq.symm

theorem pairwise_apart_iff {table : EvdevState} :
    table.devices.Pairwise Apart ↔ ∀ i, Unshared table i := by
  rw [List.pairwise_iff_getElem]
  constructor
  · intro h i dev hdev hpos j hj other hother heq
    obtain ⟨hi, rfl⟩ := List.getElem?_eq_some_iff.mp hdev
    obtain ⟨hj', rfl⟩ := List.getElem?_eq_some_iff.mp hother
    rcases Nat.lt_or_gt_of_ne hj with hlt | hlt
    · exact absurd (h j i hj' hi hlt heq) (by omega)
    · exact absurd (h i j hi hj' hlt heq.symm) (by omega)
  · intro h i j hi hj hlt heq
    by_contra hpos
    exact h i _ (List.getElem?_eq_getElem hi) (not_lt.mp hpos) j hlt.ne' _
      (List.getElem?_eq_getElem hj) heq.symm

/-- A number that is assigned while one of the four is free is nobody's. -/
theorem assign_unheld {k : Nat} (hexact : MaskExact s.table) (hk : k < 4)
    (hfree : k ∉ holders s.table) {other : InputDevice} (hother : other ∈ s.table.devices) :
    other.controllerId ≠ (assignControllerId s.table.assignedControllerIds).1 := by
  intro heq
  rcases assignControllerId_cases s.table.assignedControllerIds with ⟨m, _, hm, ha⟩ | ⟨hall, _⟩
  · rw [ha] at heq
    have hmem : m ∈ holders s.table := ⟨other, hother, heq⟩
    rw [← hexact] at hmem
    exact absurd (hm.symm.trans hmem) (by decide)
  · rw [← hexact] at hfree
    exact hfree (hall k hk)

theorem unshared_event {i : Nat} (hs : s.Sound) (hfinds : FindsNumber s (.event i ev) t)
    (hdev : s.table.devices[i]? = some dev)
    (hset : t.table.devices = s.table.devices.set i dev') (hplayed : EventPlayed s t ev dev dev') :
    ∀ j, Unshared t.table j := by
  have hi := (List.getElem?_eq_some_iff.mp hdev).1
  -- the number of `dev'` is no other device's
  have hown : ∀ j ≠ i, ∀ other, s.table.devices[j]? = some other → 0 ≤ dev'.controllerId →
      other.controllerId ≠ dev'.controllerId := by
    intro j hj other hother hpos
    by_cases hsyn : ev.type = .syn
    · rw [hplayed.number hsyn]
      split
      · next hnew =>
        obtain ⟨k, hk, hfree⟩ := hfinds i ev dev rfl hdev hsyn hnew.1 hnew.2
        exact assign_unheld hs.exact hk hfree (List.mem_of_getElem? hother)
      · next hold =>
        rw [hplayed.number hsyn, if_neg hold] at hpos
        exact hs.unshared i dev hdev hpos j hj other hother
    · have hid := (hplayed.quiet hsyn).2.1
      rw [hid] at hpos ⊢
      exact hs.unshared i dev hdev hpos j hj other hother
  intro j d hd hpos m hm other hother
  rw [hset] at hd hother
  by_cases hji : j = i
  · subst hji
    rw [List.getElem?_set_self hi, Option.some.injEq] at hd
    subst hd
    rw [List.getElem?_set_ne hm.symm] at hother
    exact hown m hm other hother hpos
  · rw [List.getElem?_set_ne (Ne.symm hji)] at hd
    by_cases hmi : m = i
    · subst hmi
      rw [List.getElem?_set_self hi, Option.some.injEq] at hother
      subst hother
      intro heq
      exact hown j hji d hd (heq ▸ hpos) heq.symm
    · rw [List.getElem?_set_ne (Ne.symm hmi)] at hother
      exact hs.unshared j d hd hpos m hm other hother

theorem unshared_step (h : PlayStep L s a t) (hfinds : FindsNumber s a t) (hs : s.Sound) :
    ∀ i, Unshared t.table i := by
  cases a with
  | create fd absInfo mapFile =>
    have ht : evdevCreate fd absInfo mapFile s.table = t.table := Option.some.inj h.1
    rw [← ht, ← pairwise_apart_iff]
    unfold evdevCreate
    split
    · exact pairwise_apart_iff.mpr hs.unshared
    · refine List.pairwise_append.mpr ⟨pairwise_apart_iff.mpr hs.unshared,
        List.pairwise_singleton _ _, fun d _ d' hd' heq => ?_⟩
      rw [heq, List.mem_singleton.mp hd', newDevice_controllerId]
      decide
  | event i ev =>
    obtain ⟨dev, dev', hdev, hset, hplayed⟩ := playStep_event h
    exact unshared_event hs hfinds hdev hset hplayed
  | remove i =>
    obtain ⟨dev, hdev, ht⟩ := removeStep_cases h.1
    have hi := (List.getElem?_eq_some_iff.mp hdev).1
    have hperm : t.table.devices.Perm (s.table.devices.eraseIdx i) := by
      simpa [ht, evdevRemove, hdev] using swapRemove_perm hi
    rw [← pairwise_apart_iff]
    refine (hperm.pairwise_iff apart_symm).mpr ?_
    exact (pairwise_apart_iff.mpr hs.unshared).sublist (List.eraseIdx_sublist _ _)

/-- The device an event is for is shown after it as before. -/
theorem EventPlayed.shown (h : EventPlayed s t ev dev dev') (hold : Shown s.host dev) :
    Shown t.host dev' := by
  intro hmod
  by_cases hsyn : ev.type = .syn
  · obtain ⟨hpad, hhost⟩ := h.syn hsyn
    cases hmarked : dev.gamepadModified with
    | true =>
      have hpos := h.numbered hsyn hmarked
      rw [hhost, hmarked, if_pos rfl, hpad]
      exact ⟨fun _ => Function.update_self _ _ _, fun hneg => absurd hpos (not_le.mpr hneg)⟩
    | false =>
      have hid := h.number hsyn
      rw [if_neg (by simp [hmarked])] at hid
      rw [hhost, hmarked, if_neg (by decide), hid, hpad]
      exact hold hmarked
  · obtain ⟨hhost, hid, hquiet⟩ := h.quiet hsyn
    obtain ⟨hunmarked, hpad⟩ := hquiet hmod
    rw [hhost, hid, hpad]
    exact hold hunmarked

theorem shown_step (h : PlayStep L s a t) (hs : s.Sound) (hun : ∀ i, Unshared t.table i) :
    ∀ dev ∈ t.table.devices, Shown t.host dev := by
  cases a with
  | create fd absInfo mapFile =>
    have ht : evdevCreate fd absInfo mapFile s.table = t.table := Option.some.inj h.1
    have hhost : t.host = s.host := h.2
    rw [← ht, hhost]
    unfold evdevCreate
    split
    · exact hs.shown
    · intro d hd
      rcases List.mem_append.mp hd with hd | hd
      · exact hs.shown d hd
      · rw [List.mem_singleton.mp hd]
        refine fun _ => ⟨fun hpos => ?_, fun _ => rfl⟩
        rw [newDevice_controllerId] at hpos
        exact absurd hpos (by decide)
  | event i ev =>
    obtain ⟨dev, dev', hdev, hset, hplayed⟩ := playStep_event h
    have hi := (List.getElem?_eq_some_iff.mp hdev).1
    have hnew : t.table.devices[i]? = some dev' := by rw [hset, List.getElem?_set_self hi]
    intro d hd hmod
    obtain ⟨j, hj⟩ := List.mem_iff_getElem?.mp hd
    by_cases hji : j = i
    · obtain rfl : dev' = d := Option.some.inj (hnew.symm.trans (hji ▸ hj))
      exact hplayed.shown (hs.shown dev (List.mem_of_getElem? hdev)) hmod
    · rw [hset, List.getElem?_set_ne (Ne.symm hji)] at hj
      obtain ⟨hpos, hneg⟩ := hs.shown d (List.mem_of_getElem? hj) hmod
      refine ⟨fun hid => ?_, hneg⟩
      by_cases hsyn : ev.type = .syn
      · rw [(hplayed.syn hsyn).2]
        split
        · rw [Function.update_of_ne, hpos hid]
          refine (hun j d ?_ hid i (Ne.symm hji) dev' hnew).symm
          rw [hset, List.getElem?_set_ne (Ne.symm hji), hj]
        · exact hpos hid
      · rw [(hplayed.quiet hsyn).1]
        exact hpos hid
  | remove i =>
    obtain ⟨dev, hdev, ht⟩ := removeStep_cases h.1
    have hhost : t.host = s.host := h.2
    have hi := (List.getElem?_eq_some_iff.mp hdev).1
    intro d hd
    rw [ht, evdevRemove, hdev] at hd
    obtain ⟨j, _, hj⟩ := (mem_swapRemove hi).mp hd
    rw [hhost]
    exact hs.shown d (List.mem_of_getElem? hj)

theorem playStep_sound (h : PlayStep L s a t) (hfinds : FindsNumber s a t) (hs : s.Sound) :
    t.Sound := by
  have hun := unshared_step h hfinds hs
  obtain ⟨u, hu, hclean⟩ := tableStep_follows h.1 hs.range
  have hremove : RemovesUnshared s.table a t.table := fun i _ => hs.unshared i
  exact ⟨idsInRange_step h.1 hs.range, (follows_exact_iff hu hs.exact).mpr (hclean.mpr hremove),
    hun, shown_step h hs hun⟩

theorem play_start : Play.start.Sound where
  range := by simp [IdsInRange, Play.start, EvdevState.start]
  exact := by
    ext k
    simp [assignedBits, holders, Play.start, EvdevState.start]
  unshared i dev hdev := by cases hdev
  shown dev hdev := by cases hdev

theorem reported_step (h : PlayStep L s a t) : ReportedByHolder s a t := by
  intro id hne
  cases a with
  | create fd absInfo mapFile => exact absurd (congrFun h.2 id) hne
  | remove i => exact absurd (congrFun h.2 id) hne
  | event i ev =>
    obtain ⟨dev, dev', hdev, hset, hplayed⟩ := playStep_event h
    have hi := (List.getElem?_eq_some_iff.mp hdev).1
    by_cases hsyn : ev.type = .syn
    · obtain ⟨hpad, hhost⟩ := hplayed.syn hsyn
      refine ⟨i, ev, dev', rfl, hsyn, by rw [hset, List.getElem?_set_self hi], ?_⟩
      rw [hhost] at hne ⊢
      split at hne
      · next hmod =>
        rw [if_pos hmod]
        by_cases hid : id = dev'.controllerId
        · rw [hid, Function.update_self, hpad]
          exact ⟨rfl, rfl⟩
        · exact absurd (Function.update_of_ne hid _ _) hne
      · exact absurd rfl hne
    · exact absurd (congrFun (hplayed.quiet hsyn).1 id) hne

/-- While gamepads come and go, and every one that reports for the first time finds a free number,
no two of them have one number, each shows at the host under its own as soon as it has reported,
and the host's pad of a number changes to nothing but the pad of the device that has it. -/
theorem host_mirrors_pads (hrun : Run (PlayStep L) .start run)
    (hfinds : EachStep FindsNumber .start run) :
    Always (fun s => (∀ i, Unshared s.table i) ∧ ∀ dev ∈ s.table.devices, Shown s.host dev)
      .start run ∧ EachStep ReportedByHolder .start run := by
  have hsound : Always Play.Sound .start run :=
    always_of_invariant (fun _ _ _ h hs => playStep_sound h.1 h.2 hs) (run_and hrun hfinds)
      play_start
  refine ⟨hsound.imp fun s hs => ⟨hs.unshared, hs.shown⟩, ?_⟩
  exact eachStep_of_always (fun _ _ _ h _ _ => reported_step h) hrun hsound

/-- Among at most four devices there is always a free number for one that has none. -/
theorem findsNumber_of_length (h : s.table.devices.length ≤ 4) : FindsNumber s a t := by
  intro i ev dev _ hdev _ _ hneg
  by_contra hall
  push Not at hall
  have hsub : [dev.controllerId, 0, 1, 2, 3] ⊆ s.table.devices.map (·.controllerId) := by
    intro id hid
    rcases List.mem_cons.mp hid with rfl | hid
    · exact List.mem_map_of_mem (List.mem_of_getElem? hdev)
    · have hheld : ∃ k : Nat, k < 4 ∧ id = k := by
        simp only [List.mem_cons, List.not_mem_nil, or_false] at hid
        exact ⟨id.toNat, by omega, by omega⟩
      obtain ⟨k, hk, rfl⟩ := hheld
      obtain ⟨d, hd, hdk⟩ := hall k hk
      exact List.mem_map.mpr ⟨d, hd, hdk⟩
  have hnodup : [dev.controllerId, 0, 1, 2, 3].Nodup := by
    simp
    omega
  have hlen := (List.subperm_of_subset hnodup hsub).length_le
  simp only [List.length_cons, List.length_nil, List.length_map] at hlen
  omega

/-- A step on the table and the host. -/
def playNext (L : Limelight) (s : Play) (a : TableAction) : Option Play :=
  match a with
  | .event i ev =>
    (evdevEvent L i ev s.table).map fun out => ⟨out.1, out.2.2.foldl receive s.host⟩
  | _ => (tableNext L s.table a).map fun table => ⟨table, s.host⟩

theorem playStep_of_next (h : playNext L s a = some t) : PlayStep L s a t := by
  cases a with
  | event i ev =>
    obtain ⟨out, hout, rfl⟩ := Option.map_eq_some_iff.mp h
    exact ⟨Option.map_eq_some_iff.mpr ⟨out, hout, rfl⟩, out, hout, rfl⟩
  | create fd absInfo mapFile =>
    cases h
    exact ⟨rfl, rfl⟩
  | remove i =>
    simp only [playNext] at h
    obtain ⟨table, htable, rfl⟩ := Option.map_eq_some_iff.mp h
    exact ⟨htable, rfl⟩

/-- Of the three pads the last two are shown, the third in the place of the first. -/
theorem host_mirrors_pads_replaced : ∃ run, run.map Prod.fst = replacedTable ∧
    [0, 1].map (fun id => ((final .start run).host id).leftStickX) = [-32768, 32767] ∧
    Always (fun s => (∀ i, Unshared s.table i) ∧ ∀ dev ∈ s.table.devices, Shown s.host dev)
      .start run ∧ EachStep ReportedByHolder .start run := by
  have hexec : (execute (checked (playNext documented)
      fun s _ _ => s.table.devices.length ≤ 4) .start replacedTable).map
        (fun s => [0, 1].map fun id => (s.host id).leftStickX) = some [-32768, 32767] := by
    decide +kernel
  obtain ⟨t, ht, hhost⟩ := Option.map_eq_some_iff.mp hexec
  obtain ⟨run, hrun, hfew, hlabels, rfl⟩ := exists_run_of_checked ht
  exact ⟨run, hlabels, hhost, host_mirrors_pads (hrun.imp fun _ _ _ => playStep_of_next)
    (hfew.imp fun _ _ _ => findsNumber_of_length)⟩

end Moonlight
