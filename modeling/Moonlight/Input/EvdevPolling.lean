import Moonlight.Lib.Trace
import Moonlight.Input.EvdevLoop

/-! The device table beside the poll table. A dispatch writes the readable descriptor into every
device it reaches, and a removed device stays in the poll table. -/
namespace Moonlight

open Lib.Trace Lib.SwapRemove

/-- A device is opened, a descriptor of another part of the program is added, `evdev_init` or
`evdev_map` installs an event handler, or `loop_main` calls the handler of a poll entry. -/
inductive LoopAction where
  | create (fd : Int) (absInfo : Int → AbsInfo) (mapFile : Option (List Char))
  | watch (fd : Int) (handler : FdHandler) (events : Int)
  | install (handler : EventHandler)
  | dispatch (i : Nat) (reads : Nat → Readout)

variable {L : Limelight} {s t : EvdevLoop} {a : LoopAction} {i j : Nat} {dev d : InputDevice}
  {fd : Int} {r : Readout} {reads : Nat → Readout} {goOn : Bool} {ret : LoopResult}
  {sent : List HostEvent} {run : List (LoopAction × EvdevLoop)} {entry : PollEntry}

/-- `evdev_create`, with the `loop_add_fd` at its end. -/
def evdevCreateLoop (fd : Int) (absInfo : Int → AbsInfo) (mapFile : Option (List Char))
    (s : EvdevLoop) : EvdevLoop :=
  { s with
    toEvdevState := evdevCreate fd absInfo mapFile s.toEvdevState
    poll := if fd ≤ 0 then s.poll else loopAddFd fd .evdevHandle pollIn s.poll }

/-- No descriptor is ever closed, so `open` returns one that is not in the poll table. -/
def LoopStep (L : Limelight) (s : EvdevLoop) (a : LoopAction) (t : EvdevLoop) : Prop :=
  match a with
  | .create fd absInfo mapFile =>
    (∀ e ∈ s.poll, e.fd ≠ fd) ∧ t = evdevCreateLoop fd absInfo mapFile s
  | .watch fd handler events =>
    handler ≠ .evdevHandle ∧ t = { s with poll := loopAddFd fd handler events s.poll }
  | .install handler => t = { s with handler }
  | .dispatch i reads =>
    ∃ entry ret sent, s.poll[i]? = some entry ∧ entry.handler = .evdevHandle ∧
      evdevHandle L entry.fd reads s = some (ret, t, sent)

/-- The descriptor is polled with handler `evdev_handle`. -/
def Polled (s : EvdevLoop) (fd : Int) : Prop :=
  ∃ entry ∈ s.poll, entry.handler = .evdevHandle ∧ entry.fd = fd

/-- The device table and the poll table agree. -/
structure InStep (s : EvdevLoop) : Prop where
  nodup : (s.devices.map (·.fd)).Nodup
  opened : ∀ dev ∈ s.devices, dev.fd = dev.dev.fd
  polled : ∀ fd, Polled s fd ↔ fd ∈ s.devices.map (·.fd)

/-- An event read from the device makes the event handler give up. -/
def Stops (L : Limelight) (s : EvdevLoop) (dev : InputDevice) (r : Readout) : Prop :=
  ∃ handler res, readEvents L r.events s.handler s.assignedControllerIds dev = some (handler, res) ∧
    res.keepRunning = false

/-- A dispatched descriptor is that of the first device, and no other device is reached nor
the first one removed: either an event read from it stops the loop, or it is alone and stays. -/
def DispatchesFirst (L : Limelight) (s : EvdevLoop) (a : LoopAction) (_ : EvdevLoop) : Prop :=
  ∀ i reads entry dev rest, a = .dispatch i reads → s.poll[i]? = some entry →
    s.devices = dev :: rest →
    dev.fd = entry.fd ∧ (Stops L s dev (reads 0) ∨ (rest = [] ∧ (reads 0).last ≠ .noDevice))

instance : Decidable (Stops L s dev r) :=
  decidable_of_iff
    (∃ out ∈ readEvents L r.events s.handler s.assignedControllerIds dev, out.2.keepRunning = false)
    ⟨fun ⟨⟨handler, res⟩, hres, hstop⟩ => ⟨handler, res, hres, hstop⟩,
      fun ⟨handler, res, hres, hstop⟩ => ⟨⟨handler, res⟩, hres, hstop⟩⟩

/-- Only descriptors above 0 are polled for devices, so the assignment counts as true. -/
def PolledPositive (s : EvdevLoop) : Prop := ∀ fd, Polled s fd → 0 < fd

theorem callHandler_keeps {handler handler' : EventHandler} {ev : InputEvent}
    {assigned : BitVec 32} {res : Handled}
    (h : callHandler L handler ev assigned dev = some (handler', res)) :
    res.dev.fd = dev.fd ∧ res.dev.dev = dev.dev := by
  unfold callHandler at h
  cases handler with
  | unset => cases h
  | play =>
    obtain ⟨r, hr, heq⟩ := Option.map_eq_some_iff.mp h
    cases heq
    exact evdevHandleEvent_keeps hr
  | mapping prompt =>
    cases h
    exact ⟨rfl, rfl⟩

/-- Reading events moves no descriptor. -/
theorem readEvents_keeps {events : List (Option InputEvent)} {handler handler' : EventHandler}
    {assigned : BitVec 32} {res : Handled}
    (h : readEvents L events handler assigned dev = some (handler', res)) :
    res.dev.fd = dev.fd ∧ res.dev.dev = dev.dev := by
  induction events generalizing handler assigned dev res with
  | nil =>
    cases h
    exact ⟨rfl, rfl⟩
  | cons event events ih =>
    cases event with
    | none => exact ih h
    | some ev =>
      obtain ⟨⟨next, first⟩, hfirst, h⟩ := Option.bind_eq_some_iff.mp h
      have hkeep := callHandler_keeps hfirst
      dsimp only at h
      split at h
      · obtain ⟨⟨after, last⟩, hlast, h⟩ := Option.bind_eq_some_iff.mp h
        cases h
        have hrest := ih hlast
        exact ⟨hrest.1.trans hkeep.1, hrest.2.trans hkeep.2⟩
      · cases h
        exact hkeep

/-- What one turn does: the descriptor is overwritten, and the turn ends the loop, goes on, or
goes on without the device. -/
theorem evdevHandleDevice_cases (hfd : fd ≠ 0) (hi : i < s.devices.length)
    (h : evdevHandleDevice L fd r i dev s = some (goOn, t, sent)) :
    t.poll = s.poll ∧ ∃ dev', dev'.fd = fd ∧ dev'.dev = dev.dev ∧
      ((goOn = false ∧ Stops L s { dev with fd } r ∧ t.devices = s.devices.set i dev') ∨
        (goOn = true ∧ ¬ Stops L s { dev with fd } r ∧ r.last ≠ .noDevice ∧
          t.devices = s.devices.set i dev') ∨
        (goOn = true ∧ ¬ Stops L s { dev with fd } r ∧ r.last = .noDevice ∧
          t.devices = swapRemove (s.devices.set i dev') i)) := by
  unfold evdevHandleDevice at h
  rw [if_neg hfd] at h
  obtain ⟨⟨handler, res⟩, hres, h⟩ := Option.bind_eq_some_iff.mp h
  obtain ⟨hkfd, hkdev⟩ := readEvents_keeps hres
  dsimp only at h
  by_cases hk : res.keepRunning = true
  · have hstop : ¬ Stops L s { dev with fd } r := by
      rintro ⟨handler', res', hres', hfalse⟩
      rw [hres] at hres'
      cases hres'
      rw [hk] at hfalse
      cases hfalse
    rw [if_pos hk] at h
    cases hl : r.last with
    | again =>
      rw [hl] at h
      cases h
      exact ⟨rfl, res.dev, hkfd, hkdev, Or.inr (Or.inl ⟨rfl, hstop, by simp, rfl⟩)⟩
    | noDevice =>
      rw [hl] at h
      cases h
      refine ⟨rfl, res.dev, hkfd, hkdev, Or.inr (Or.inr ⟨rfl, hstop, rfl, ?_⟩)⟩
      simp [evdevRemove, hi]
    | error =>
      rw [hl] at h
      cases h
  · rw [if_neg hk] at h
    cases h
    exact ⟨rfl, res.dev, hkfd, hkdev, Or.inl ⟨rfl, ⟨handler, res, hres, by simpa using hk⟩, rfl⟩⟩

/-- The loop from device `i` on removes devices or leaves the table as long as it was; then the
entries before `i` are untouched and the descriptor is written into entry `i`. -/
theorem evdevHandleFrom_spec (hfd : fd ≠ 0)
    (h : evdevHandleFrom L fd reads i s = some (ret, t, sent)) :
    t.poll = s.poll ∧ t.devices.length ≤ s.devices.length ∧
    (t.devices.length = s.devices.length →
      (∀ j < i, t.devices[j]? = s.devices[j]?) ∧
      ∀ dev, s.devices[i]? = some dev →
        ∃ dev', t.devices[i]? = some dev' ∧ dev'.fd = fd ∧ dev'.dev = dev.dev) := by
  induction i, s using evdevHandleFrom.induct L fd reads generalizing ret t sent with
  | case1 i s hi =>
    rw [evdevHandleFrom_end hi] at h
    cases h
    exact ⟨rfl, le_rfl, fun _ => ⟨fun _ _ => rfl, fun dev hdev => by simp [hi] at hdev⟩⟩
  | case2 i s dev hi hturn =>
    rw [evdevHandleFrom_exit hi hturn] at h
    cases h
  | case3 i s dev hi u first hturn =>
    have hlt := (List.getElem?_eq_some_iff.mp hi).1
    rw [evdevHandleFrom_return hi hturn] at h
    cases h
    obtain ⟨hpoll, dev', hfd', hdev', ⟨_, _, ht⟩ | ⟨hgo, _⟩ | ⟨hgo, _⟩⟩ :=
      evdevHandleDevice_cases hfd hlt hturn
    · refine ⟨hpoll, by simp [ht], fun _ => ⟨fun j hj => ?_, fun d hd => ⟨dev', ?_, hfd', ?_⟩⟩⟩
      · rw [ht, List.getElem?_set_ne (by omega)]
      · rw [ht, List.getElem?_set_self hlt]
      · rw [hi, Option.some.injEq] at hd
        rw [hdev', hd]
    · cases hgo
    · cases hgo
  | case4 i s dev hi u first hturn ih =>
    have hlt := (List.getElem?_eq_some_iff.mp hi).1
    rw [evdevHandleFrom_next hi hturn] at h
    obtain ⟨⟨ret', t', later⟩, hrest, heq⟩ := Option.map_eq_some_iff.mp h
    cases heq
    obtain ⟨hpoll', hle, hkeep⟩ := ih hrest
    obtain ⟨hpoll, dev', hfd', hdev', ⟨hgo, _⟩ | ⟨_, _, _, hu⟩ | ⟨_, _, _, hu⟩⟩ :=
      evdevHandleDevice_cases hfd hlt hturn
    · cases hgo
    · have hlen : u.devices.length = s.devices.length := by simp [hu]
      refine ⟨hpoll'.trans hpoll, by omega, fun htlen => ?_⟩
      obtain ⟨hbefore, _⟩ := hkeep (by omega)
      refine ⟨fun j hj => ?_, fun d hd => ⟨dev', ?_, hfd', ?_⟩⟩
      · rw [hbefore j (by omega), hu, List.getElem?_set_ne (by omega)]
      · rw [hbefore i (by omega), hu, List.getElem?_set_self hlt]
      · rw [hi, Option.some.injEq] at hd
        rw [hdev', hd]
    · have hlen : u.devices.length = s.devices.length - 1 := by
        rw [hu, length_swapRemove (by simpa using hlt), List.length_set]
      exact ⟨hpoll'.trans hpoll, by omega, fun htlen => by omega⟩

theorem polled_congr (hpoll : t.poll = s.poll) : Polled t fd ↔ Polled s fd := by
  unfold Polled
  rw [hpoll]

theorem polled_append {e : PollEntry} (hpoll : t.poll = s.poll ++ [e]) :
    Polled t fd ↔ Polled s fd ∨ (e.handler = .evdevHandle ∧ e.fd = fd) := by
  simp only [Polled, hpoll, List.mem_append, List.mem_singleton, or_and_right, exists_or,
    exists_eq_left]

/-- Handling events in place keeps the tables in step. -/
theorem inStep_set (hs : InStep s) (hpoll : t.poll = s.poll) (hi : s.devices[i]? = some dev)
    (ht : t.devices = s.devices.set i d) (hfd : d.fd = dev.fd) (hdev : d.dev = dev.dev) :
    InStep t := by
  have hmap : t.devices.map (·.fd) = s.devices.map (·.fd) := by
    have hget : (s.devices.map (·.fd))[i]? = some d.fd := by simp [hi, hfd]
    obtain ⟨hlt, hd⟩ := List.getElem?_eq_some_iff.mp hget
    rw [ht, List.map_set, ← hd]
    exact List.set_getElem_self hlt
  refine ⟨by rw [hmap]; exact hs.nodup, fun x hx => ?_, fun fd => ?_⟩
  · rw [ht] at hx
    rcases List.mem_or_eq_of_mem_set hx with hx | rfl
    · exact hs.opened x hx
    · rw [hfd, hdev]
      exact hs.opened dev (List.mem_of_getElem? hi)
  · rw [polled_congr hpoll, hmap]
    exact hs.polled fd

/-- Tables in step with the same poll entries have equally many devices. -/
theorem inStep_length_eq (hs : InStep s) (ht : InStep t) (hpoll : t.poll = s.poll) :
    t.devices.length = s.devices.length := by
  have hperm : (t.devices.map (·.fd)).Perm (s.devices.map (·.fd)) := by
    rw [List.perm_ext_iff_of_nodup ht.nodup hs.nodup]
    intro fd
    rw [← ht.polled, ← hs.polled]
    exact polled_congr hpoll
  simpa using hperm.length_eq

theorem inStep_fd_inj (hs : InStep s) (hi : s.devices[i]? = some dev) (hj : s.devices[j]? = some d)
    (h : dev.fd = d.fd) : i = j := by
  have hlt : i < (s.devices.map (·.fd)).length := by
    simpa using (List.getElem?_eq_some_iff.mp hi).1
  refine (List.getElem?_inj hlt hs.nodup).mp ?_
  simp [hi, hj, h]

/-- A dispatch that keeps the tables in step reaches only the first device, and by its own
descriptor. -/
theorem dispatchesFirst_of_inStep {rest : List InputDevice} (hs : InStep s) (ht : InStep t)
    (hfd : fd ≠ 0) (h : evdevHandle L fd reads s = some (ret, t, sent))
    (hdevs : s.devices = dev :: rest) :
    dev.fd = fd ∧ (Stops L s dev (reads 0) ∨ (rest = [] ∧ (reads 0).last ≠ .noDevice)) := by
  have h0 : s.devices[0]? = some dev := by simp [hdevs]
  have hlt : 0 < s.devices.length := by simp [hdevs]
  obtain ⟨hpoll, _, hsame⟩ := evdevHandleFrom_spec hfd h
  have hlen := inStep_length_eq hs ht hpoll
  obtain ⟨_, hfirst⟩ := hsame hlen
  obtain ⟨d, hd, hdfd, hddev⟩ := hfirst dev h0
  have heq : dev.fd = fd := by
    rw [hs.opened dev (List.mem_of_getElem? h0), ← hddev, ← ht.opened d (List.mem_of_getElem? hd),
      hdfd]
  refine ⟨heq, ?_⟩
  have hsame : ({ dev with fd } : InputDevice) = dev := by rw [← heq]
  rcases hturn : evdevHandleDevice L fd (reads 0) 0 dev s with _ | ⟨goOn, u, first⟩
  · simp [evdevHandle, evdevHandleFrom_exit h0 hturn] at h
  · obtain ⟨_, d', hd'fd, _, ⟨_, hstop, _⟩ | ⟨rfl, _, hlast, hu⟩ | ⟨rfl, _, _, hu⟩⟩ :=
      evdevHandleDevice_cases hfd hlt hturn
    · rw [hsame] at hstop
      exact Or.inl hstop
    · refine Or.inr ⟨?_, hlast⟩
      rw [evdevHandle, evdevHandleFrom_next h0 hturn] at h
      obtain ⟨⟨ret', t', later⟩, hrest, hout⟩ := Option.map_eq_some_iff.mp h
      cases hout
      obtain ⟨_, _, hkeep⟩ := evdevHandleFrom_spec hfd hrest
      obtain ⟨hbefore, hsecond⟩ := hkeep (by simpa [hu] using hlen)
      -- a second device would get the descriptor of the first
      cases rest with
      | nil => rfl
      | cons d2 rest =>
        obtain ⟨x, hx, hxfd, _⟩ := hsecond d2 (by simp [hu, hdevs])
        have h0t : t.devices[0]? = some d' := by
          rw [hbefore 0 (by omega), hu, List.getElem?_set_self hlt]
        exact absurd (inStep_fd_inj ht h0t hx (hd'fd.trans hxfd.symm)) (by omega)
    · rw [evdevHandle, evdevHandleFrom_next h0 hturn] at h
      obtain ⟨⟨ret', t', later⟩, hrest, hout⟩ := Option.map_eq_some_iff.mp h
      cases hout
      obtain ⟨_, hle, _⟩ := evdevHandleFrom_spec hfd hrest
      have hulen : u.devices.length = s.devices.length - 1 := by
        rw [hu, length_swapRemove (by simpa using hlt), List.length_set]
      omega

/-- A dispatch of the first device that reaches no other keeps the tables in step. -/
theorem inStep_of_dispatchesFirst (hs : InStep s) (hfd : fd ≠ 0)
    (h : evdevHandle L fd reads s = some (ret, t, sent))
    (hfirst : ∀ dev rest, s.devices = dev :: rest →
      dev.fd = fd ∧ (Stops L s dev (reads 0) ∨ (rest = [] ∧ (reads 0).last ≠ .noDevice))) :
    InStep t := by
  rcases hdevs : s.devices with _ | ⟨dev, rest⟩
  · rw [evdevHandle, evdevHandleFrom_end (by simp [hdevs])] at h
    cases h
    exact hs
  · obtain ⟨heq, hsafe⟩ := hfirst dev rest hdevs
    have h0 : s.devices[0]? = some dev := by simp [hdevs]
    have hlt : 0 < s.devices.length := by simp [hdevs]
    have hsame : ({ dev with fd } : InputDevice) = dev := by rw [← heq]
    rcases hturn : evdevHandleDevice L fd (reads 0) 0 dev s with _ | ⟨goOn, u, first⟩
    · simp [evdevHandle, evdevHandleFrom_exit h0 hturn] at h
    · obtain ⟨hpoll, d, hdfd, hddev, ⟨rfl, _, hu⟩ | ⟨rfl, hgo, _, hu⟩ | ⟨_, hgo, hgone, _⟩⟩ :=
        evdevHandleDevice_cases hfd hlt hturn
      · rw [evdevHandle, evdevHandleFrom_return h0 hturn] at h
        cases h
        exact inStep_set hs hpoll h0 hu (hdfd.trans heq.symm) hddev
      · rw [hsame] at hgo
        have hrest : rest = [] := by
          rcases hsafe with hstop | ⟨hrest, _⟩
          · exact absurd hstop hgo
          · exact hrest
        have hend : u.devices[1]? = none := by simp [hu, hdevs, hrest]
        rw [evdevHandle, evdevHandleFrom_next h0 hturn, evdevHandleFrom_end hend] at h
        cases h
        exact inStep_set hs hpoll h0 hu (hdfd.trans heq.symm) hddev
      · rw [hsame] at hgo
        rcases hsafe with hstop | ⟨_, hlast⟩
        · exact absurd hstop hgo
        · exact absurd hgone hlast

theorem inStep_create {absInfo : Int → AbsInfo} {mapFile : Option (List Char)} (hs : InStep s)
    (hfresh : ∀ e ∈ s.poll, e.fd ≠ fd) : InStep (evdevCreateLoop fd absInfo mapFile s) := by
  by_cases hfd : fd ≤ 0
  · simpa [evdevCreateLoop, evdevCreate, hfd] using hs
  · obtain ⟨map, hdevs⟩ : ∃ map, (evdevCreateLoop fd absInfo mapFile s).devices =
        s.devices ++ [newDevice fd absInfo map] := by
      simp only [evdevCreateLoop, evdevCreate, hfd, if_false]
      exact ⟨_, rfl⟩
    have hpoll : (evdevCreateLoop fd absInfo mapFile s).poll =
        s.poll ++ [⟨fd, pollIn, .evdevHandle⟩] := by
      simp [evdevCreateLoop, hfd, loopAddFd]
    have hnew : fd ∉ s.devices.map (·.fd) := by
      intro hmem
      obtain ⟨e, he, _, heq⟩ := (hs.polled fd).mpr hmem
      exact hfresh e he heq
    refine ⟨?_, fun x hx => ?_, fun fd' => ?_⟩
    · rw [hdevs, List.map_append, List.nodup_append]
      refine ⟨hs.nodup, by simp, ?_⟩
      rintro a ha b hb rfl
      obtain rfl := List.mem_singleton.mp hb
      exact hnew ha
    · rw [hdevs] at hx
      rcases List.mem_append.mp hx with hx | hx
      · exact hs.opened x hx
      · rw [List.mem_singleton.mp hx]
        rfl
    · rw [polled_append hpoll, hs.polled, hdevs, List.map_append, List.mem_append]
      simp [newDevice, eq_comm]

/-- One step keeps the tables in step if and only if it dispatches as it should. -/
theorem inStep_step (h : LoopStep L s a t) (hs : InStep s) (hpos : PolledPositive s) :
    InStep t ↔ DispatchesFirst L s a t := by
  cases a with
  | create fd absInfo mapFile =>
    obtain ⟨hfresh, rfl⟩ := h
    simp [DispatchesFirst, inStep_create hs hfresh]
  | watch fd handler events =>
    obtain ⟨hother, rfl⟩ := h
    have ht : InStep { s with poll := loopAddFd fd handler events s.poll } := by
      refine ⟨hs.nodup, hs.opened, fun fd' => ?_⟩
      rw [polled_append rfl, hs.polled]
      simp [hother]
    simp [DispatchesFirst, ht]
  | install handler =>
    subst h
    have ht : InStep { s with handler } := ⟨hs.nodup, hs.opened, hs.polled⟩
    simp [DispatchesFirst, ht]
  | dispatch i reads =>
    obtain ⟨entry, ret, sent, hentry, hhandler, hrun⟩ := h
    have hfd : entry.fd ≠ 0 := by
      have := hpos entry.fd ⟨entry, List.mem_of_getElem? hentry, hhandler, rfl⟩
      omega
    constructor
    · intro ht i' reads' entry' dev rest ha hentry' hdevs
      cases ha
      rw [hentry] at hentry'
      cases hentry'
      exact dispatchesFirst_of_inStep hs ht hfd hrun hdevs
    · intro hfirst
      exact inStep_of_dispatchesFirst hs hfd hrun fun dev rest hdevs =>
        hfirst i reads entry dev rest rfl hentry hdevs

theorem polledPositive_step (h : LoopStep L s a t) (hpos : PolledPositive s) :
    PolledPositive t := by
  intro fd hfd
  cases a with
  | create new absInfo mapFile =>
    obtain ⟨_, rfl⟩ := h
    by_cases hnew : new ≤ 0
    · exact hpos fd (by simpa [Polled, evdevCreateLoop, hnew] using hfd)
    · have hpoll : (evdevCreateLoop new absInfo mapFile s).poll =
          s.poll ++ [⟨new, pollIn, .evdevHandle⟩] := by
        simp [evdevCreateLoop, hnew, loopAddFd]
      rcases (polled_append hpoll).mp hfd with hfd | ⟨_, rfl⟩
      · exact hpos fd hfd
      · exact Int.not_le.mp hnew
  | watch new handler events =>
    obtain ⟨hother, rfl⟩ := h
    rcases (polled_append rfl).mp hfd with hfd | ⟨hhandler, _⟩
    · exact hpos fd hfd
    · exact absurd hhandler hother
  | install handler =>
    subst h
    exact hpos fd hfd
  | dispatch i reads =>
    obtain ⟨entry, ret, sent, hentry, hhandler, hrun⟩ := h
    have hne : entry.fd ≠ 0 := by
      have := hpos entry.fd ⟨entry, List.mem_of_getElem? hentry, hhandler, rfl⟩
      omega
    exact hpos fd ((polled_congr (evdevHandleFrom_spec hne hrun).1).mp hfd)

/-- The device table and the poll table stay in step throughout a run exactly when every
dispatched descriptor is that of the first device, and that device either stops the loop or is
alone and is not gone. -/
theorem inStep_iff_dispatchesFirst (hrun : Run (LoopStep L) EvdevLoop.start run) :
    Always InStep EvdevLoop.start run ↔ EachStep (DispatchesFirst L) EvdevLoop.start run := by
  have hstart : InStep EvdevLoop.start := by
    refine ⟨List.nodup_nil, fun dev hdev => absurd hdev List.not_mem_nil, fun fd => ?_⟩
    simp [Polled, EvdevLoop.start, EvdevState.start]
  have hpos : PolledPositive EvdevLoop.start := by
    rintro fd ⟨e, he, _⟩
    cases he
  have hstep (s a t) (h : LoopStep L s a t) (hs : PolledPositive s ∧ InStep s) :
      (PolledPositive t ∧ InStep t) ↔ DispatchesFirst L s a t := by
    rw [and_iff_right (polledPositive_step h hs.1)]
    exact inStep_step h hs.2 hs.1
  have hiff := always_iff_eachStep hstep hrun ⟨hpos, hstart⟩
  have hin := always_of_invariant (fun _ _ _ h hs => polledPositive_step h hs) hrun hpos
  rw [always_and, and_iff_right hin] at hiff
  exact hiff

/-- Nothing to read. -/
def idle (_ : Nat) : Readout := ⟨[], .again⟩

/-- A dispatch that reads nothing still writes its descriptor into every device. -/
theorem evdevHandleFrom_idle (hfd : fd ≠ 0) (pre rest : List InputDevice)
    (hs : s.devices = pre ++ rest) :
    evdevHandleFrom L fd idle pre.length s =
      some (.ok, { s with devices := pre ++ rest.map fun dev => { dev with fd } }, []) := by
  induction rest generalizing pre s with
  | nil =>
    rw [evdevHandleFrom_end (by simp [hs])]
    simp [← hs]
  | cons dev rest ih =>
    have hdev : s.devices[pre.length]? = some dev := by simp [hs]
    have hturn : evdevHandleDevice L fd (idle pre.length) pre.length dev s =
        some (true, { s with devices := s.devices.set pre.length { dev with fd } }, []) := by
      simp [evdevHandleDevice, hfd, idle, readEvents]
    have hset : s.devices.set pre.length { dev with fd } = (pre ++ [{ dev with fd }]) ++ rest := by
      simp [hs]
    have hrest := ih (s := { s with devices := s.devices.set pre.length { dev with fd } })
      (pre ++ [{ dev with fd }]) hset
    rw [List.length_append, List.length_singleton] at hrest
    rw [evdevHandleFrom_next hdev hturn, hrest]
    simp

theorem dispatch_idle (hentry : s.poll[i]? = some entry) (hhandler : entry.handler = .evdevHandle)
    (hfd : entry.fd ≠ 0) :
    LoopStep L s (.dispatch i idle)
      { s with devices := s.devices.map fun dev => { dev with fd := entry.fd } } :=
  ⟨entry, .ok, [], hentry, hhandler, evdevHandleFrom_idle hfd [] s.devices rfl⟩

/-- A step of the loop, where the program goes on. -/
def loopNext (L : Limelight) (s : EvdevLoop) (a : LoopAction) : Option EvdevLoop :=
  match a with
  | .create fd absInfo mapFile =>
    if ∀ e ∈ s.poll, e.fd ≠ fd then some (evdevCreateLoop fd absInfo mapFile s) else none
  | .watch fd handler events =>
    if handler = .evdevHandle then none
    else some { s with poll := loopAddFd fd handler events s.poll }
  | .install handler => some { s with handler }
  | .dispatch i reads => do
    let entry ← s.poll[i]?
    if entry.handler = .evdevHandle then
      let (_, t, _) ← evdevHandle L entry.fd reads s
      return t
    else none

theorem loopStep_of_next (h : loopNext L s a = some t) : LoopStep L s a t := by
  cases a with
  | create fd absInfo mapFile =>
    simp only [loopNext] at h
    split at h
    next hfresh => exact ⟨hfresh, (Option.some.inj h).symm⟩
    next => cases h
  | watch fd handler events =>
    simp only [loopNext] at h
    split at h
    next => cases h
    next hother => exact ⟨hother, (Option.some.inj h).symm⟩
  | install handler => exact (Option.some.inj h).symm
  | dispatch i reads =>
    obtain ⟨entry, hentry, h⟩ := Option.bind_eq_some_iff.mp h
    split at h
    next hhandler =>
      obtain ⟨⟨ret, u, sent⟩, hrun, h⟩ := Option.bind_eq_some_iff.mp h
      cases h
      exact ⟨entry, ret, sent, hentry, hhandler, hrun⟩
    next => cases h

instance : Decidable (DispatchesFirst L s a t) :=
  match a with
  | .create _ _ _ | .watch _ _ _ | .install _ => isTrue fun _ _ _ _ _ h => by cases h
  | .dispatch i reads =>
    decidable_of_iff (∀ entry ∈ s.poll[i]?, ∀ dev ∈ s.devices.head?, dev.fd = entry.fd ∧
        (Stops L s dev (reads 0) ∨ s.devices.length = 1 ∧ (reads 0).last ≠ .noDevice)) (by
      constructor
      · intro h i reads entry dev rest ha hentry hdevs
        cases ha
        simpa [hdevs] using h entry hentry dev (by simp [hdevs])
      · intro h entry hentry dev hdev
        obtain ⟨rest, hdevs⟩ := List.head?_eq_some_iff.mp hdev
        simpa [hdevs] using h i reads entry dev rest rfl hentry hdevs)

/-- Presses of some keys, all read from the first device. -/
def typed (codes : List UInt16) (i : Nat) : Readout :=
  if i = 0 then ⟨codes.map fun code => some ⟨.key, code, 1⟩, .again⟩ else idle i

/-- The only device is read twice, another one is opened, and the first ends the stream. -/
def quitActions : List LoopAction :=
  [.create 3 (fun _ => ⟨0, 255, 15⟩) none, .dispatch 0 idle, .watch 4 .loopSigHandler pollIn,
    .install .play, .dispatch 0 (typed [30, keyLeftShift]), .create 5 (fun _ => ⟨0, 255, 15⟩) none,
    .dispatch 0 (typed [keyLeftAlt, keyLeftCtrl, keyQ])]

theorem inStep_iff_dispatchesFirst_quit : ∃ run, run.map Prod.fst = quitActions ∧
    (final EvdevLoop.start run).devices.map (·.fd) = [3, 5] ∧
    Always InStep EvdevLoop.start run := by
  have hexec : (execute (checked (loopNext documented) (DispatchesFirst documented))
      EvdevLoop.start quitActions).map (fun s => s.devices.map (·.fd)) = some [3, 5] := by
    decide +kernel
  obtain ⟨t, ht, hfds⟩ := Option.map_eq_some_iff.mp hexec
  obtain ⟨run, hrun, hfirst, hlabels, rfl⟩ := exists_run_of_checked ht
  exact ⟨run, hlabels, hfds,
    (inStep_iff_dispatchesFirst (hrun.imp fun _ _ _ => loopStep_of_next)).mpr hfirst⟩

/-- Two devices, and the descriptor of the second becomes readable. -/
theorem second_dispatch_overwrites_first :
    ∃ run : List (LoopAction × EvdevLoop), Run (LoopStep documented) EvdevLoop.start run ∧
      run.map Prod.fst = [.create 3 (fun _ => ⟨0, 255, 15⟩) none,
        .create 4 (fun _ => ⟨0, 255, 15⟩) none, .dispatch 1 idle] ∧
      ¬ Always InStep EvdevLoop.start run := by
  refine ⟨[(.create 3 (fun _ => ⟨0, 255, 15⟩) none, _), (.create 4 (fun _ => ⟨0, 255, 15⟩) none, _),
    (.dispatch 1 idle, _)], ⟨⟨fun e he => absurd he List.not_mem_nil, rfl⟩, ⟨fun e he => ?_, rfl⟩,
    dispatch_idle rfl rfl (by decide), trivial⟩, rfl, fun h => ?_⟩
  · obtain rfl : e = ⟨3, pollIn, .evdevHandle⟩ := List.mem_singleton.mp he
    decide
  · have hnodup := (always_final h).nodup
    have hfds : ([4, 4] : List Int).Nodup := hnodup
    simp at hfds

end Moonlight
