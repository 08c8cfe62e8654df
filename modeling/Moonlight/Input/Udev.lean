import Mathlib.Data.List.Count
import Moonlight.Lib.Stdio
import Moonlight.Lib.Trace

/-! `src/input/udev.c`: devices are found by a scan and, later on, by a monitor. Between the two
the kernel may announce any device. -/
namespace Moonlight

open Lib.Stdio Lib.Trace

/-- A device of the subsystem `input`, which is what the enumeration and the monitor select. -/
structure UdevDevice where
  syspath : List Char
  devnode : Option (List Char)
  deriving DecidableEq

/-- The next thing `udev_init` or the loop does. -/
inductive UdevPhase where
  | entered
  | scan
  | create (devices : List UdevDevice)
  | enable
  | register
  | running
  | exited
  deriving DecidableEq

/-- The static variables of `udev.c`, the libudev objects behind them, the devices announced so
far, and the calls of `evdev_create`. -/
structure UdevState where
  phase : UdevPhase
  autoadd : Bool
  defaultMapfile : Option (List Char)
  enabled : Bool
  queue : List (Option (List Char) × UdevDevice)
  present : List UdevDevice
  created : List (List Char × Option (List Char))

def UdevState.start : UdevState where
  phase := .entered
  autoadd := false
  defaultMapfile := none
  enabled := false
  queue := []
  present := []
  created := []

/-- `%d` finds a number: after space and a sign there is a digit. -/
def scansInt (s : List Char) : Bool :=
  match s.dropWhile isspace with
  | '-' :: rest => rest.head?.any Char.isDigit
  | '+' :: rest => rest.head?.any Char.isDigit
  | rest => rest.head?.any Char.isDigit

def eventPath : List Char := "/dev/input/event".toList

/-- `sscanf(devnode, "/dev/input/event%d", &id) == 1`. -/
def scansEvent (devnode : List Char) : Bool :=
  eventPath.isPrefixOf devnode && scansInt (cstring (devnode.drop eventPath.length))

def addAction : List Char := "add".toList

/-- The call of `evdev_create` for a device node, if it is one to open. -/
def createCall (mapfile : Option (List Char)) :
    Option (List Char) → List (List Char × Option (List Char))
  | some devnode => if scansEvent devnode then [(devnode, mapfile)] else []
  | none => []

/-- `udev_handle` on the message it receives. -/
def udevHandle (message : Option (List Char) × UdevDevice) (s : UdevState) : UdevState :=
  if s.autoadd ∧ message.1 = some addAction then
    { s with created := s.created ++ createCall s.defaultMapfile message.2.devnode }
  else s

inductive UdevAction where
  /-- The kernel announces something about a device. -/
  | uevent (action : Option (List Char)) (dev : UdevDevice)
  | udevNew (ok : Bool)
  /-- The scan, with the order in which it lists the devices. -/
  | scan (devices : List UdevDevice)
  | next
  | enable
  | register
  | handle

/-- One step of the kernel, of `udev_init(autoload, mapfile)`, or of the loop after it. -/
def udevNext (autoload : Bool) (mapfile : Option (List Char)) (s : UdevState) :
    UdevAction → Option UdevState
  | .uevent action dev =>
    some { s with
      present := if action = some addAction then s.present ++ [dev] else s.present
      queue := if s.enabled then s.queue ++ [(action, dev)] else s.queue }
  | .udevNew ok =>
    if s.phase = .entered then
      if ok then
        some { s with autoadd := autoload, phase := if autoload then .scan else .enable }
      else some { s with phase := .exited }
    else none
  | .scan devices =>
    if s.phase = .scan ∧ devices.Perm s.present then some { s with phase := .create devices }
    else none
  | .next =>
    match s.phase with
    | .create (dev :: devices) =>
      some { s with
        phase := .create devices
        created := s.created ++ createCall mapfile dev.devnode }
    | .create [] => some { s with phase := .enable }
    | _ => none
  | .enable =>
    if s.phase = .enable then some { s with phase := .register, enabled := true } else none
  | .register =>
    if s.phase = .register then some { s with phase := .running, defaultMapfile := mapfile }
    else none
  | .handle =>
    match s.phase, s.queue with
    | .running, message :: queue => some (udevHandle message { s with queue })
    | _, _ => none

def UdevStep (autoload : Bool) (mapfile : Option (List Char)) (s : UdevState) (a : UdevAction)
    (t : UdevState) : Prop :=
  udevNext autoload mapfile s a = some t

variable {autoload : Bool} {mapfile : Option (List Char)} {s t : UdevState} {a : UdevAction}
  {run : List (UdevAction × UdevState)} {n : Nat}

/-- The node `/dev/input/eventN`. -/
def eventNode (n : Nat) : List Char := eventPath ++ Nat.toDigits 10 n

theorem scansEvent_eventNode (n : Nat) : scansEvent (eventNode n) = true := by
  have hword : Word (Nat.toDigits 10 n) := word_toDigits
  have hdrop : (eventNode n).drop eventPath.length = Nat.toDigits 10 n := by
    simp [eventNode]
  have hcstring : cstring (Nat.toDigits 10 n) = Nat.toDigits 10 n :=
    List.takeWhile_eq_self_iff.mpr fun c hc => by simpa using (hword.2 c hc).2
  have hspace : (Nat.toDigits 10 n).dropWhile isspace = Nat.toDigits 10 n := by
    have h : (Nat.toDigits 10 n ++ []).dropWhile isspace = Nat.toDigits 10 n ++ [] :=
      dropWhile_space_word hword
    rwa [List.append_nil] at h
  have hdigit : ∀ c ∈ Nat.toDigits 10 n, c.isDigit = true := fun c hc =>
    Nat.isDigit_of_mem_toDigits (by decide) (by decide) hc
  have hprefix : eventPath.isPrefixOf (eventNode n) = true := by
    simp [eventNode]
  rw [scansEvent, hprefix, hdrop, hcstring, scansInt, hspace]
  cases hd : Nat.toDigits 10 n with
  | nil => exact absurd hd Nat.toDigits_ne_nil
  | cons c rest =>
    rw [hd] at hdigit
    have hc := hdigit c List.mem_cons_self
    split
    · next h => cases h; exact absurd hc (by decide)
    · next h => cases h; exact absurd hc (by decide)
    · simpa using hc

/-- The announcements of a node, the calls for it, and the messages about it. -/
def announced (n : Nat) (devices : List UdevDevice) : Nat :=
  devices.countP (·.devnode = some (eventNode n))

def calls (n : Nat) (created : List (List Char × Option (List Char))) : Nat :=
  created.countP (·.1 = eventNode n)

def queued (n : Nat) (queue : List (Option (List Char) × UdevDevice)) : Nat :=
  queue.countP fun m => m.1 = some addAction ∧ m.2.devnode = some (eventNode n)

/-- The announcements that the scan finds, or has found and not handed over yet. -/
def outstanding (n : Nat) (s : UdevState) : Nat :=
  match s.phase with
  | .entered | .scan | .exited => announced n s.present
  | .create devices => announced n devices
  | _ => 0

/-- The scan is over and the monitor does not listen yet. -/
def unwatched (s : UdevState) : Bool :=
  match s.phase with
  | .create _ | .enable => true
  | _ => false

/-- A node announced while nobody watches. -/
def missed (n : Nat) (s : UdevState) : UdevAction → Bool
  | .uevent action dev =>
    action = some addAction && dev.devnode = some (eventNode n) && unwatched s
  | _ => false

/-- What the phases of a run with `autoload` say about the static variables. -/
structure UdevState.Ready (s : UdevState) : Prop where
  autoadd : s.autoadd = true ∨ s.phase = .entered ∨ s.phase = .exited
  listening : s.enabled = true ↔ s.phase = .register ∨ s.phase = .running
  silent : s.enabled = false → s.queue = []

theorem ready_start : UdevState.start.Ready where
  autoadd := Or.inr (Or.inl rfl)
  listening := by simp [UdevState.start]
  silent _ := rfl

theorem calls_append (n : Nat) (xs ys : List (List Char × Option (List Char))) :
    calls n (xs ++ ys) = calls n xs + calls n ys := List.countP_append

theorem calls_createCall (n : Nat) (mapfile devnode : Option (List Char)) :
    calls n (createCall mapfile devnode) = if devnode = some (eventNode n) then 1 else 0 := by
  cases devnode with
  | none => rfl
  | some node =>
    by_cases h : node = eventNode n
    · subst h
      simp [createCall, scansEvent_eventNode, calls]
    · by_cases hscan : scansEvent node = true <;> simp [createCall, hscan, calls, h]

/-- A message handled is a call, if it announces the node. -/
theorem calls_udevHandle (message : Option (List Char) × UdevDevice) (hadd : s.autoadd = true) :
    calls n (udevHandle message s).created = calls n s.created + queued n [message] := by
  unfold udevHandle
  by_cases h : message.1 = some addAction
  · rw [if_pos ⟨hadd, h⟩, calls_append, calls_createCall]
    simp [queued, h, List.countP_cons]
  · rw [if_neg fun hc => h hc.2]
    simp [queued, h]

theorem udevHandle_keeps (message : Option (List Char) × UdevDevice) (s : UdevState) :
    (udevHandle message s).phase = s.phase ∧ (udevHandle message s).present = s.present ∧
    (udevHandle message s).queue = s.queue := by
  unfold udevHandle
  split <;> exact ⟨rfl, rfl, rfl⟩

/-- What each step finds and what it leaves. -/
inductive UdevMoves (autoload : Bool) (mapfile : Option (List Char)) (s : UdevState) :
    UdevAction → UdevState → Prop where
  | announced (action : Option (List Char)) (dev : UdevDevice) :
      UdevMoves autoload mapfile s (.uevent action dev) { s with
        present := if action = some addAction then s.present ++ [dev] else s.present
        queue := if s.enabled then s.queue ++ [(action, dev)] else s.queue }
  | failed (hphase : s.phase = .entered) :
      UdevMoves autoload mapfile s (.udevNew false) { s with phase := .exited }
  | opened (hphase : s.phase = .entered) :
      UdevMoves autoload mapfile s (.udevNew true) { s with
        autoadd := autoload, phase := if autoload then .scan else .enable }
  | scanned (devices : List UdevDevice) (hphase : s.phase = .scan)
      (hlisted : devices.Perm s.present) :
      UdevMoves autoload mapfile s (.scan devices) { s with phase := .create devices }
  | created (dev : UdevDevice) (devices : List UdevDevice)
      (hphase : s.phase = .create (dev :: devices)) :
      UdevMoves autoload mapfile s .next { s with
        phase := .create devices
        created := s.created ++ createCall mapfile dev.devnode }
  | finished (hphase : s.phase = .create []) :
      UdevMoves autoload mapfile s .next { s with phase := .enable }
  | enabled (hphase : s.phase = .enable) :
      UdevMoves autoload mapfile s .enable { s with phase := .register, enabled := true }
  | registered (hphase : s.phase = .register) :
      UdevMoves autoload mapfile s .register { s with
        phase := .running, defaultMapfile := mapfile }
  | handled (message : Option (List Char) × UdevDevice)
      (queue : List (Option (List Char) × UdevDevice)) (hphase : s.phase = .running)
      (hqueue : s.queue = message :: queue) :
      UdevMoves autoload mapfile s .handle (udevHandle message { s with queue })

theorem UdevStep.moves (h : UdevStep autoload mapfile s a t) :
    UdevMoves autoload mapfile s a t := by
  cases a with
  | uevent action dev =>
    cases h
    exact .announced action dev
  | udevNew ok =>
    simp only [UdevStep, udevNext] at h
    split at h
    · next hphase =>
      cases ok with
      | false =>
        cases h
        exact .failed hphase
      | true =>
        cases h
        exact .opened hphase
    · cases h
  | scan devices =>
    simp only [UdevStep, udevNext] at h
    split at h
    · next hphase =>
      cases h
      exact .scanned devices hphase.1 hphase.2
    · cases h
  | next =>
    simp only [UdevStep, udevNext] at h
    split at h
    · next dev devices hphase =>
      cases h
      exact .created dev devices hphase
    · next hphase =>
      cases h
      exact .finished hphase
    · cases h
  | enable =>
    simp only [UdevStep, udevNext] at h
    split at h
    · next hphase =>
      cases h
      exact .enabled hphase
    · cases h
  | register =>
    simp only [UdevStep, udevNext] at h
    split at h
    · next hphase =>
      cases h
      exact .registered hphase
    · cases h
  | handle =>
    simp only [UdevStep, udevNext] at h
    split at h
    · next message queue hphase hqueue =>
      cases h
      exact .handled message queue hphase hqueue
    · cases h

/-- An announcement is one more device there, and one more message where the monitor listens. -/
theorem accounted_uevent (hs : s.Ready) (action : Option (List Char)) (dev : UdevDevice)
    (ht : t = { s with
      present := if action = some addAction then s.present ++ [dev] else s.present
      queue := if s.enabled then s.queue ++ [(action, dev)] else s.queue }) :
    announced n t.present + (calls n s.created + outstanding n s + queued n s.queue) =
      announced n s.present + (calls n t.created + outstanding n t + queued n t.queue)
        + (missed n s (.uevent action dev)).toNat := by
  subst ht
  have hpresent : announced n (if action = some addAction then s.present ++ [dev]
      else s.present) = announced n s.present +
        if action = some addAction ∧ dev.devnode = some (eventNode n) then 1 else 0 := by
    by_cases hadd : action = some addAction <;> simp [announced, hadd]
  have hqueue : queued n (s.queue ++ [(action, dev)]) = queued n s.queue +
        if action = some addAction ∧ dev.devnode = some (eventNode n) then 1 else 0 := by
    by_cases hnew : action = some addAction ∧ dev.devnode = some (eventNode n) <;>
      simp [queued, hnew]
  have hlisten := hs.listening
  -- before the scan the announcement is left to the scan, later it is queued or missed
  cases hphase : s.phase <;> simp only [hphase, reduceCtorEq, or_self, or_true, true_or, iff_true,
      iff_false, Bool.not_eq_true] at hlisten <;>
    simp only [outstanding, hphase, hlisten, missed, unwatched, hpresent, hqueue, if_true,
      Bool.false_eq_true, if_false, Bool.and_true, Bool.and_false, Bool.toNat_false] <;>
    try omega
  all_goals
    by_cases hnew : action = some addAction ∧ dev.devnode = some (eventNode n)
    · simp [hnew]
      omega
    · simpa [hnew] using not_and.mp hnew

/-- One step accounts for every announcement that is not missed. -/
theorem accounted_step (h : UdevStep true mapfile s a t) (hs : s.Ready) :
    announced n t.present + (calls n s.created + outstanding n s + queued n s.queue) =
      announced n s.present + (calls n t.created + outstanding n t + queued n t.queue)
        + (missed n s a).toNat := by
  cases h.moves with
  | announced action dev => exact accounted_uevent hs action dev rfl
  | failed hphase => simp [outstanding, hphase, missed]
  | opened hphase => simp [outstanding, hphase, missed]
  | scanned devices hphase hlisted =>
    have hperm : announced n devices = announced n s.present := hlisted.countP_eq _
    simp [outstanding, hphase, missed, hperm]
  | created dev devices hphase =>
    simp only [outstanding, hphase, missed, calls_append, calls_createCall, announced,
      List.countP_cons, decide_eq_true_eq, Bool.toNat_false]
    omega
  | finished hphase => simp [outstanding, hphase, missed, announced]
  | enabled hphase => simp [outstanding, hphase, missed]
  | registered hphase => simp [outstanding, hphase, missed]
  | handled message queue hphase hqueue =>
    have hauto : s.autoadd = true := by simpa [hphase] using hs.autoadd
    have hcalls : calls n (udevHandle message { s with queue }).created = _ :=
      calls_udevHandle message hauto
    obtain ⟨hp, hpresent, hq⟩ := udevHandle_keeps message { s with queue }
    have hout : outstanding n s = 0 := by simp [outstanding, hphase]
    have hrunning := hp.trans hphase
    have hout' : outstanding n (udevHandle message { s with queue }) = 0 := by
      simp only [outstanding, hrunning]
    have hsplit : queued n ([message] ++ queue) = queued n [message] + queued n queue :=
      List.countP_append
    rw [List.singleton_append] at hsplit
    rw [hpresent, hcalls, hout, hout', hq, hqueue, hsplit]
    simp only [missed, Bool.toNat_false]
    omega

theorem ready_step (h : UdevStep true mapfile s a t) (hs : s.Ready) : t.Ready := by
  obtain ⟨hauto, hlisten, hsilent⟩ := hs
  cases h.moves with
  | announced action dev =>
    refine ⟨hauto, hlisten, fun hoff => ?_⟩
    have hoff : s.enabled = false := hoff
    simp only [hoff, Bool.false_eq_true, if_false]
    exact hsilent hoff
  | handled message queue hphase hqueue =>
    have hon := hlisten.mpr (Or.inr hphase)
    unfold udevHandle
    split <;> exact ⟨hauto, hlisten, fun hoff => absurd hoff (by simp [hon])⟩
  | created dev devices hphase =>
    simp only [hphase, reduceCtorEq, or_self, or_false, iff_false, Bool.not_eq_true] at hauto hlisten
    exact ⟨Or.inl hauto, by simp [hlisten], hsilent⟩
  | finished hphase =>
    simp only [hphase, reduceCtorEq, or_self, or_false, iff_false, Bool.not_eq_true] at hauto hlisten
    exact ⟨Or.inl hauto, by simp [hlisten], hsilent⟩
  | failed hphase =>
    simp only [hphase, reduceCtorEq, or_self, iff_false, Bool.not_eq_true] at hlisten
    exact ⟨Or.inr (Or.inr rfl), by simp [hlisten], hsilent⟩
  | opened hphase =>
    simp only [hphase, reduceCtorEq, or_self, iff_false, Bool.not_eq_true] at hlisten
    exact ⟨Or.inl rfl, by simp [hlisten], hsilent⟩
  | scanned devices hphase _ =>
    simp only [hphase, reduceCtorEq, or_self, or_false, iff_false, Bool.not_eq_true] at hauto hlisten
    exact ⟨Or.inl hauto, by simp [hlisten], hsilent⟩
  | enabled hphase =>
    simp only [hphase, reduceCtorEq, or_self, or_false] at hauto
    exact ⟨Or.inl hauto, by simp, fun hoff => by cases hoff⟩
  | registered hphase =>
    simp only [hphase, reduceCtorEq, or_self, or_false] at hauto
    exact ⟨Or.inl hauto, by simp [hlisten.mpr (Or.inl hphase)], hsilent⟩

/-- How often a node was missed in a run. -/
def missedIn (n : Nat) : UdevState → List (UdevAction × UdevState) → Nat
  | _, [] => 0
  | s, (a, t) :: rest => (missed n s a).toNat + missedIn n t rest

theorem accounted (hrun : Run (UdevStep true mapfile) s run) (hs : s.Ready) :
    announced n (final s run).present + (calls n s.created + outstanding n s + queued n s.queue) =
      announced n s.present + (calls n (final s run).created + outstanding n (final s run)
        + queued n (final s run).queue) + missedIn n s run := by
  induction run generalizing s with
  | nil => rfl
  | cons x rest ih =>
    obtain ⟨a, t⟩ := x
    have hstep := accounted_step (n := n) hrun.1 hs
    have hrest := ih hrun.2 (ready_step hrun.1 hs)
    simp only [final, missedIn]
    omega

theorem missedIn_eq_zero_iff :
    missedIn n s run = 0 ↔ EachStep (fun s a _ => missed n s a = false) s run := by
  induction run generalizing s with
  | nil => simp [missedIn]
  | cons x rest ih =>
    obtain ⟨a, t⟩ := x
    simp [missedIn, ih]

/-- Every `/dev/input/eventN` was handed to `evdev_create` as often as it was announced. -/
def AllCreated (s : UdevState) : Prop := ∀ n, calls n s.created = announced n s.present

/-- No event node is announced between the scan and the subscription. -/
def WatchedArrivals (run : List (UdevAction × UdevState)) : Prop :=
  EachStep (fun s a _ => ∀ n, missed n s a = false) .start run

/-- Once `udev_init` is done and every message is handled, no device is lost exactly if none was
announced between the scan and the subscription. -/
theorem all_created_iff (hrun : Run (UdevStep true mapfile) .start run)
    (hphase : (final .start run).phase = .running) (hqueue : (final .start run).queue = []) :
    AllCreated (final .start run) ↔ WatchedArrivals run := by
  have hbalance (n : Nat) : announced n (final .start run).present =
      calls n (final .start run).created + missedIn n .start run := by
    have h := accounted (n := n) hrun ready_start
    have hout : outstanding n (final .start run) = 0 := by simp [outstanding, hphase]
    rw [hout, hqueue] at h
    simpa [UdevState.start, calls, outstanding, queued, announced] using h
  have heach : WatchedArrivals run ↔ ∀ n, missedIn n .start run = 0 := by
    simp only [missedIn_eq_zero_iff]
    exact eachStep_forall
  rw [heach]
  refine forall_congr' fun n => ?_
  have h := hbalance n
  omega

/-- A device that is there before the scan, and one that comes once the monitor listens. -/
theorem all_created_iff_two :
    let pad : UdevDevice := ⟨[], some (eventNode 0)⟩
    let mouse : UdevDevice := ⟨[], some (eventNode 1)⟩
    AllCreated ⟨.running, true, none, true, [], [pad, mouse],
      [(eventNode 0, none), (eventNode 1, none)]⟩ := by
  intro pad mouse
  let scan : UdevState := ⟨.scan, true, none, false, [], [], []⟩
  let found : UdevState := { scan with present := [pad] }
  let enable : UdevState := { found with phase := .enable, created := [(eventNode 0, none)] }
  let running : UdevState := { enable with phase := .running, enabled := true }
  let done : UdevState := { running with
    present := [pad, mouse], created := [(eventNode 0, none), (eventNode 1, none)] }
  have hrun : Run (UdevStep true none) .start
      [(.udevNew true, scan), (.uevent (some addAction) pad, found),
        (.scan [pad], { found with phase := .create [pad] }),
        (.next, { enable with phase := .create [] }), (.next, enable),
        (.enable, { running with phase := .register }), (.register, running),
        (.uevent (some addAction) mouse,
          { running with present := [pad, mouse], queue := [(some addAction, mouse)] }),
        (.handle, done)] :=
    ⟨rfl, rfl, rfl, rfl, rfl, rfl, rfl, rfl, rfl, trivial⟩
  apply (all_created_iff hrun rfl rfl).mpr
  simp [WatchedArrivals, missed, unwatched, UdevState.start, scan, found, enable, running]

/-- A device announced after the scan and before the monitor listens is never created. -/
theorem late_arrival_lost :
    ∃ run, Run (UdevStep true none) .start run ∧ (final .start run).phase = .running ∧
      (final .start run).queue = [] ∧ ¬ AllCreated (final .start run) := by
  let pad : UdevDevice := ⟨[], some (eventNode 0)⟩
  let scan : UdevState := ⟨.scan, true, none, false, [], [], []⟩
  let enable : UdevState := { scan with phase := .enable, present := [pad] }
  let running : UdevState := { enable with phase := .running, enabled := true }
  refine ⟨[(.udevNew true, scan), (.scan [], { scan with phase := .create [] }),
    (.uevent (some addAction) pad, { enable with phase := .create [] }), (.next, enable),
    (.enable, { running with phase := .register }), (.register, running)],
    ⟨rfl, rfl, rfl, rfl, rfl, rfl, trivial⟩, rfl, rfl, fun h => ?_⟩
  exact absurd (h 0) (by decide)

end Moonlight
