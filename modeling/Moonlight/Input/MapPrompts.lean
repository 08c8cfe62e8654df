import Moonlight.Input.EvdevEvent
import Moonlight.Input.MappingFile

/-! `evdev_map`: which members of its local `struct mapping` the prompts assign, whatever the
struct held before. -/
namespace Moonlight

/-- The events that are read while the program waits, each with the device it comes from. -/
abbrev Answer := List (InputEvent × Libevdev)

/-- The struct being filled, and the answers to the prompts that are still to come. -/
structure MapSession where
  map : Mapping
  answers : List Answer

def Mapping.setShort (f : ShortField) (v : Int16) (map : Mapping) : Mapping :=
  { map with short := Function.update map.short f v }

def Mapping.setFlag (f : FlagField) (v : Bool) (map : Mapping) : Mapping :=
  { map with flag := Function.update map.flag f v }

/-- `loop_main` until the handler gives up; what is read after that is drained. `none` is a loop
that still waits. -/
def loopPrompt : Answer → Prompt → Option Prompt
  | [], _ => none
  | x :: answer, prompt =>
    let r := evdevHandleMappingEvent x.1 x.2 prompt
    if r.1 then loopPrompt answer r.2 else some r.2

def MapSession.ask (prompt : Prompt) (s : MapSession) : Option (Prompt × MapSession) :=
  match s.answers with
  | [] => none
  | answer :: answers => (loopPrompt answer prompt).map fun prompt => (prompt, { s with answers })

def evdevMapKey (key : ShortField) (s : MapSession) : Option MapSession := do
  let (prompt, s) ← s.ask ⟨some (-1), none, false⟩
  let v ← prompt.currentKey
  return { s with map := s.map.setShort key v }

/-- `*reverse` is not initialised. -/
def evdevMapAbs (abs : ShortField) (reverse : FlagField) (s : MapSession) : Option MapSession := do
  let (prompt, s) ← s.ask ⟨none, some (-1), s.map.flag reverse⟩
  let v ← prompt.currentAbs
  return { s with map := (s.map.setShort abs v).setFlag reverse prompt.currentReverse }

/-- What `reverse` points to: a member, or the local variable `ignored`. -/
def Mapping.setReverse (reverse : Option FlagField) (v : Bool) (map : Mapping) : Mapping :=
  match reverse with
  | some f => map.setFlag f v
  | none => map

def evdevMapAbskey (key abs : ShortField) (reverse : Option FlagField) (s : MapSession) :
    Option MapSession := do
  let (prompt, s) ← s.ask ⟨some (-1), some (-1), false⟩
  let k ← prompt.currentKey
  let v ← prompt.currentAbs
  let map := (s.map.setShort key k).setShort abs v
  return { s with map := map.setReverse reverse prompt.currentReverse }

/-- The prompts of `evdev_map`; a direction of the pad that was answered by a key is followed by
the prompt for the opposite one. -/
inductive MapCall where
  | key (key : ShortField)
  | abs (abs : ShortField) (reverse : FlagField)
  | abskey (key abs : ShortField)
  | dpad (key abs : ShortField) (reverse : FlagField) (opposite : ShortField)

def MapCall.run : MapCall → MapSession → Option MapSession
  | key k, s => evdevMapKey k s
  | abs a r, s => evdevMapAbs a r s
  | abskey k a, s => evdevMapAbskey k a none s
  | dpad k a r opposite, s => do
    let s ← evdevMapAbskey k a (some r) s
    if s.map.short k ≥ 0 then evdevMapKey opposite s
    else return { s with map := s.map.setShort opposite (-1) }

/-- The calls of `evdev_map`, in its order. -/
def mapCalls : List MapCall :=
  [.abs .absX .reverseX, .abs .absY .reverseY, .key .btnThumbl,
   .abs .absRx .reverseRx, .abs .absRy .reverseRy, .key .btnThumbr,
   .dpad .btnDpadRight .absDpadX .reverseDpadX .btnDpadLeft,
   .dpad .btnDpadDown .absDpadY .reverseDpadY .btnDpadUp,
   .key .btnWest, .key .btnSouth, .key .btnEast, .key .btnNorth,
   .key .btnSelect, .key .btnStart, .key .btnMode,
   .abskey .btnTl2 .absZ, .abskey .btnTr2 .absRz,
   .key .btnTl, .key .btnTr]

def runCalls : List MapCall → MapSession → Option MapSession
  | [], s => some s
  | c :: calls, s => (c.run s).bind fun s => runCalls calls s

/-- The struct at the end of `evdev_map`, when the answers complete all prompts. -/
def evdevMap (answers : List Answer) (map : Mapping) : Option Mapping :=
  (runCalls mapCalls ⟨map, answers⟩).map (·.map)

/-- Two structs hold the same value of a member. -/
def Entry.Same (map map' : Mapping) : Entry → Prop
  | .short f => map.short f = map'.short f
  | .flag f => map.flag f = map'.flag f

/-- Two structs agree on the listed members. -/
def AgreeOn (done : List Entry) (map map' : Mapping) : Prop := ∀ e ∈ done, e.Same map map'

/-- The members that a call assigns. -/
def MapCall.assigned : MapCall → List Entry
  | key k => [.short k]
  | abs a r => [.short a, .flag r]
  | abskey k a => [.short k, .short a]
  | dpad k a r opposite => [.short k, .short a, .flag r, .short opposite]

variable {map map' : Mapping} {done : List Entry} {e : Entry} {answer : Answer} {axis : Int16}
  {reverse reverse' : Bool} {prompt prompt' : Prompt} {s s' t : MapSession} {c : MapCall}
  {calls : List MapCall}

theorem AgreeOn.setShort (h : AgreeOn done map map') (f : ShortField) (v : Int16) :
    AgreeOn (.short f :: done) (map.setShort f v) (map'.setShort f v) := by
  intro e he
  cases e with
  | short g =>
    simp only [Entry.Same, Mapping.setShort, Function.update_apply]
    split
    · rfl
    next hne =>
      have hg : Entry.short g ∈ done := by simpa [hne] using he
      exact h _ hg
  | flag g =>
    have hg : Entry.flag g ∈ done := by simpa using he
    exact h _ hg

theorem AgreeOn.setFlag (h : AgreeOn done map map') (f : FlagField) (v : Bool) :
    AgreeOn (.flag f :: done) (map.setFlag f v) (map'.setFlag f v) := by
  intro e he
  cases e with
  | short g =>
    have hg : Entry.short g ∈ done := by simpa using he
    exact h _ hg
  | flag g =>
    simp only [Entry.Same, Mapping.setFlag, Function.update_apply]
    split
    · rfl
    next hne =>
      have hg : Entry.flag g ∈ done := by simpa [hne] using he
      exact h _ hg

/-- An axis prompt that completes has stored the axis, and the direction with it: what the
direction was before the axis was stored makes no difference. -/
theorem loopPrompt_abs (h : loopPrompt answer ⟨none, some axis, reverse⟩ = some prompt)
    (hsame : reverse = reverse' ∨ axis = -1) :
    loopPrompt answer ⟨none, some axis, reverse'⟩ = some prompt := by
  induction answer generalizing axis reverse reverse' with
  | nil => cases h
  | cons x answer ih =>
    obtain ⟨ev, dev⟩ := x
    simp only [loopPrompt, evdevHandleMappingEvent] at h ⊢
    cases htype : ev.type with
    | abs =>
      simp only [htype] at h ⊢
      split at h
      next hpos =>
        rw [if_pos hpos]
        exact h
      next hpos =>
        rw [if_neg hpos]
        split at h
        next hneg =>
          rw [if_pos hneg]
          exact h
        next hneg =>
          rw [if_neg hneg]
          by_cases hcode : (ev.code.toNat : Int) = axis.toInt
          · -- No event code is -1, so the axis was stored.
            have haxis : axis ≠ -1 := by
              rintro rfl
              have hminus : (-1 : Int16).toInt = -1 := by decide
              omega
            obtain rfl := hsame.resolve_right haxis
            exact h
          · simp only [hcode, ne_eq, not_false_eq_true, decide_true, if_true] at h ⊢
            exact ih h hsame
    | key => simp only [htype] at h ⊢; exact ih h hsame
    | syn => simp only [htype] at h ⊢; exact ih h hsame
    | rel => simp only [htype] at h ⊢; exact ih h hsame
    | other => simp only [htype] at h ⊢; exact ih h hsame

theorem ask_eq_some : s.ask prompt = some (prompt', t) ↔
    ∃ answer answers, s.answers = answer :: answers ∧ loopPrompt answer prompt = some prompt' ∧
      t = { s with answers } := by
  unfold MapSession.ask
  cases hs : s.answers with
  | nil => simp
  | cons answer answers =>
    simp only [Option.map_eq_some_iff, Prod.mk.injEq, List.cons.injEq]
    constructor
    · rintro ⟨p, hp, rfl, rfl⟩
      exact ⟨answer, answers, ⟨rfl, rfl⟩, hp, rfl⟩
    · rintro ⟨_, _, ⟨rfl, rfl⟩, hp, rfl⟩
      exact ⟨prompt', hp, rfl, rfl⟩

theorem evdevMapKey_eq_some {k : ShortField} : evdevMapKey k s = some t ↔
    ∃ prompt u v, s.ask ⟨some (-1), none, false⟩ = some (prompt, u) ∧
      prompt.currentKey = some v ∧ t = { u with map := u.map.setShort k v } := by
  simp only [evdevMapKey, Option.bind_eq_bind, Option.bind_eq_some_iff, Prod.exists]
  constructor
  · rintro ⟨prompt, u, hask, v, hv, h⟩
    exact ⟨prompt, u, v, hask, hv, (Option.some.inj h).symm⟩
  · rintro ⟨prompt, u, v, hask, hv, rfl⟩
    exact ⟨prompt, u, hask, v, hv, rfl⟩

theorem evdevMapAbs_eq_some {a : ShortField} {r : FlagField} : evdevMapAbs a r s = some t ↔
    ∃ prompt u v, s.ask ⟨none, some (-1), s.map.flag r⟩ = some (prompt, u) ∧
      prompt.currentAbs = some v ∧
      t = { u with map := (u.map.setShort a v).setFlag r prompt.currentReverse } := by
  simp only [evdevMapAbs, Option.bind_eq_bind, Option.bind_eq_some_iff, Prod.exists]
  constructor
  · rintro ⟨prompt, u, hask, v, hv, h⟩
    exact ⟨prompt, u, v, hask, hv, (Option.some.inj h).symm⟩
  · rintro ⟨prompt, u, v, hask, hv, rfl⟩
    exact ⟨prompt, u, hask, v, hv, rfl⟩

theorem evdevMapAbskey_eq_some {k a : ShortField} {r : Option FlagField} :
    evdevMapAbskey k a r s = some t ↔
      ∃ prompt u v w, s.ask ⟨some (-1), some (-1), false⟩ = some (prompt, u) ∧
        prompt.currentKey = some v ∧ prompt.currentAbs = some w ∧
        t = { u with
          map := ((u.map.setShort k v).setShort a w).setReverse r prompt.currentReverse } := by
  simp only [evdevMapAbskey, Option.bind_eq_bind, Option.bind_eq_some_iff, Prod.exists]
  constructor
  · rintro ⟨prompt, u, hask, v, hv, w, hw, h⟩
    exact ⟨prompt, u, v, w, hask, hv, hw, (Option.some.inj h).symm⟩
  · rintro ⟨prompt, u, v, w, hask, hv, hw, rfl⟩
    exact ⟨prompt, u, hask, v, hv, w, hw, rfl⟩

/-- Two sessions that wait for the same answers with structs that agree on some members. -/
def SameAnswers (done : List Entry) (s s' : MapSession) : Prop :=
  s'.answers = s.answers ∧ AgreeOn done s.map s'.map

theorem SameAnswers.ask (h : SameAnswers done s s') (hask : s.ask prompt = some (prompt', t)) :
    ∃ t', s'.ask prompt = some (prompt', t') ∧ SameAnswers done t t' := by
  obtain ⟨answer, answers, hs, hloop, rfl⟩ := ask_eq_some.mp hask
  refine ⟨{ s' with answers }, ?_, rfl, h.2⟩
  exact ask_eq_some.mpr ⟨answer, answers, h.1.trans hs, hloop, rfl⟩

theorem SameAnswers.mapKey {k : ShortField} (h : SameAnswers done s s')
    (hrun : evdevMapKey k s = some t) :
    ∃ t', evdevMapKey k s' = some t' ∧ SameAnswers (.short k :: done) t t' := by
  obtain ⟨prompt, u, v, hask, hv, rfl⟩ := evdevMapKey_eq_some.mp hrun
  obtain ⟨u', hask', halike⟩ := h.ask hask
  exact ⟨_, evdevMapKey_eq_some.mpr ⟨prompt, u', v, hask', hv, rfl⟩, halike.1,
    halike.2.setShort k v⟩

/-- The direction is asked for with whatever the two structs hold for it. -/
theorem SameAnswers.mapAbs {a : ShortField} {r : FlagField} (h : SameAnswers done s s')
    (hrun : evdevMapAbs a r s = some t) :
    ∃ t', evdevMapAbs a r s' = some t' ∧ SameAnswers (.flag r :: .short a :: done) t t' := by
  obtain ⟨prompt, u, v, hask, hv, rfl⟩ := evdevMapAbs_eq_some.mp hrun
  obtain ⟨answer, answers, hs, hloop, rfl⟩ := ask_eq_some.mp hask
  have hloop' : loopPrompt answer ⟨none, some (-1), s'.map.flag r⟩ = some prompt :=
    loopPrompt_abs hloop (Or.inr rfl)
  have hask' := ask_eq_some.mpr ⟨answer, answers, h.1.trans hs, hloop', rfl⟩
  exact ⟨_, evdevMapAbs_eq_some.mpr ⟨prompt, _, v, hask', hv, rfl⟩, rfl,
    (h.2.setShort a v).setFlag r _⟩

theorem AgreeOn.setReverse (h : AgreeOn done map map') (r : Option FlagField) (v : Bool) :
    AgreeOn (r.toList.map .flag ++ done) (map.setReverse r v) (map'.setReverse r v) := by
  cases r with
  | none => exact h
  | some r => exact h.setFlag r v

theorem SameAnswers.mapAbskey {k a : ShortField} {r : Option FlagField} (h : SameAnswers done s s')
    (hrun : evdevMapAbskey k a r s = some t) :
    ∃ t', evdevMapAbskey k a r s' = some t' ∧
      SameAnswers (r.toList.map .flag ++ .short a :: .short k :: done) t t' := by
  obtain ⟨prompt, u, v, w, hask, hv, hw, rfl⟩ := evdevMapAbskey_eq_some.mp hrun
  obtain ⟨u', hask', halike⟩ := h.ask hask
  exact ⟨_, evdevMapAbskey_eq_some.mpr ⟨prompt, u', v, w, hask', hv, hw, rfl⟩, halike.1,
    ((halike.2.setShort k v).setShort a w).setReverse r _⟩

theorem AgreeOn.subset {done' : List Entry} (h : AgreeOn done map map') (hsub : done' ⊆ done) :
    AgreeOn done' map map' :=
  fun e he => h e (hsub he)

/-- A call assigns its members the same values in two alike sessions. -/
theorem SameAnswers.run (h : SameAnswers done s s') (hrun : c.run s = some t) :
    ∃ t', c.run s' = some t' ∧ SameAnswers (c.assigned ++ done) t t' := by
  cases c with
  | key k => exact h.mapKey hrun
  | abs a r =>
    obtain ⟨t', hrun', hans, hagree⟩ := h.mapAbs hrun
    exact ⟨t', hrun', hans, hagree.subset (by simp [MapCall.assigned])⟩
  | abskey k a =>
    obtain ⟨t', hrun', hans, hagree⟩ := h.mapAbskey hrun
    exact ⟨t', hrun', hans, hagree.subset (by simp [MapCall.assigned])⟩
  | dpad k a r opposite =>
    obtain ⟨u, hu, hrun⟩ := Option.bind_eq_some_iff.mp hrun
    obtain ⟨u', hu', halike⟩ := h.mapAbskey hu
    have hkey : u.map.short k = u'.map.short k := halike.2 (.short k) (by simp)
    have hsub : (MapCall.dpad k a r opposite).assigned ++ done ⊆
        .short opposite :: ([.flag r] ++ .short a :: .short k :: done) := by
      intro e he
      simp only [MapCall.assigned, List.mem_append, List.mem_cons] at he ⊢
      tauto
    split at hrun
    next hpressed =>
      obtain ⟨t', hrun', hans, hagree⟩ := halike.mapKey hrun
      refine ⟨t', ?_, hans, hagree.subset hsub⟩
      rw [hkey] at hpressed
      simp only [MapCall.run, hu', Option.bind_eq_bind, Option.bind_some, if_pos hpressed, hrun']
    next hmoved =>
      cases hrun
      rw [hkey] at hmoved
      refine ⟨{ u' with map := u'.map.setShort opposite (-1) }, ?_, halike.1,
        (halike.2.setShort opposite (-1)).subset hsub⟩
      simp only [MapCall.run, hu', Option.bind_eq_bind, Option.bind_some, if_neg hmoved]
      rfl

/-- What the calls assign does not depend on what the struct held. -/
theorem SameAnswers.runCalls (h : SameAnswers done s s') (hrun : runCalls calls s = some t) :
    ∃ t', runCalls calls s' = some t' ∧
      SameAnswers (calls.flatMap MapCall.assigned ++ done) t t' := by
  induction calls generalizing s s' done with
  | nil => exact ⟨s', rfl, Option.some.inj hrun ▸ h⟩
  | cons c calls ih =>
    obtain ⟨u, hu, hrun⟩ := Option.bind_eq_some_iff.mp hrun
    obtain ⟨u', hu', halike⟩ := h.run hu
    obtain ⟨t', hrun', hans, hagree⟩ := ih halike hrun
    refine ⟨t', ?_, hans, hagree.subset ?_⟩
    · rw [Moonlight.runCalls, hu', Option.bind_some, hrun']
    · intro e he
      simp only [List.flatMap_cons, List.mem_append] at he ⊢
      tauto

theorem short_setReverse (r : Option FlagField) (v : Bool) (f : ShortField) :
    (map.setReverse r v).short f = map.short f := by
  cases r <;> rfl

/-- A call leaves every other member alone. -/
theorem MapCall.run_frame (hrun : c.run s = some t) {f : ShortField}
    (hf : .short f ∉ c.assigned) : t.map.short f = s.map.short f := by
  have hask {prompt prompt' : Prompt} {s u : MapSession} (h : s.ask prompt = some (prompt', u)) :
      u.map = s.map := by
    obtain ⟨_, _, _, _, rfl⟩ := ask_eq_some.mp h
    rfl
  have hkey {k : ShortField} {s t : MapSession} (h : evdevMapKey k s = some t) (hne : f ≠ k) :
      t.map.short f = s.map.short f := by
    obtain ⟨_, u, v, hu, _, rfl⟩ := evdevMapKey_eq_some.mp h
    simp [Mapping.setShort, hne, hask hu]
  have habskey {k a : ShortField} {r : Option FlagField} {t : MapSession}
      (h : evdevMapAbskey k a r s = some t) (hk : f ≠ k) (ha : f ≠ a) :
      t.map.short f = s.map.short f := by
    obtain ⟨_, u, v, w, hu, _, _, rfl⟩ := evdevMapAbskey_eq_some.mp h
    simp [short_setReverse, Mapping.setShort, hk, ha, hask hu]
  cases c with
  | key k => exact hkey hrun (by simpa [assigned] using hf)
  | abs a r =>
    obtain ⟨_, u, v, hu, _, rfl⟩ := evdevMapAbs_eq_some.mp hrun
    have hne : f ≠ a := by simpa [assigned] using hf
    simp [Mapping.setShort, Mapping.setFlag, hne, hask hu]
  | abskey k a =>
    have hne : f ≠ k ∧ f ≠ a := by simpa [assigned] using hf
    exact habskey hrun hne.1 hne.2
  | dpad k a r opposite =>
    have hne : f ≠ k ∧ f ≠ a ∧ f ≠ opposite := by simpa [assigned] using hf
    obtain ⟨u, hu, hrun⟩ := Option.bind_eq_some_iff.mp hrun
    rw [← habskey hu hne.1 hne.2.1]
    split at hrun
    · exact hkey hrun hne.2.2
    · cases hrun
      simp [Mapping.setShort, hne.2.2]

theorem runCalls_frame (hrun : runCalls calls s = some t) {f : ShortField}
    (hf : .short f ∉ calls.flatMap MapCall.assigned) : t.map.short f = s.map.short f := by
  induction calls generalizing s with
  | nil => rw [Option.some.inj hrun]
  | cons c calls ih =>
    obtain ⟨u, hu, hrun⟩ := Option.bind_eq_some_iff.mp hrun
    rw [List.flatMap_cons, List.mem_append, not_or] at hf
    exact (ih hrun hf.2).trans (MapCall.run_frame hu hf.1)

/-- The prompts assign every member but `abs_deadzone`. -/
theorem assigned_iff : e ∈ mapCalls.flatMap MapCall.assigned ↔ e ≠ .short .absDeadzone := by
  cases e with
  | short f => cases f <;> decide
  | flag f => cases f <;> decide

/-- Answers that complete all prompts do so whatever the struct held before, with the same
result in every member but `abs_deadzone`, which keeps what it held. -/
theorem evdevMap_alike {answers : List Answer} (map' : Mapping) {filled : Mapping}
    (h : evdevMap answers map = some filled) :
    ∃ filled', evdevMap answers map' = some filled' ∧
      (∀ e : Entry, e ≠ .short .absDeadzone → e.Same filled filled') ∧
      filled.short .absDeadzone = map.short .absDeadzone ∧
      filled'.short .absDeadzone = map'.short .absDeadzone := by
  obtain ⟨t, hrun, rfl⟩ := Option.map_eq_some_iff.mp h
  have halike : SameAnswers [] ⟨map, answers⟩ ⟨map', answers⟩ := ⟨rfl, by simp [AgreeOn]⟩
  obtain ⟨t', hrun', _, hagree⟩ := halike.runCalls hrun
  have hdead : Entry.short .absDeadzone ∉ mapCalls.flatMap MapCall.assigned :=
    fun he => assigned_iff.mp he rfl
  refine ⟨t'.map, Option.map_eq_some_iff.mpr ⟨t', hrun', rfl⟩, fun e he => ?_,
    runCalls_frame hrun hdead, runCalls_frame hrun' hdead⟩
  exact hagree e (List.mem_append_left _ (assigned_iff.mpr he))

/-- For answers that complete all prompts, the files written from two initial contents of the
struct are the same exactly when these hold the same `abs_deadzone`. -/
theorem mapping_file_same_iff (answers : List Answer) (map map' filled : Mapping)
    (h : evdevMap answers map = some filled) :
    ∃ filled', evdevMap answers map' = some filled' ∧
      ((mappingSave filled = mappingSave filled' ∧ ∀ e : Entry, e.Same filled filled') ↔
        map.short .absDeadzone = map'.short .absDeadzone) := by
  obtain ⟨filled', hfilled', hsame, hdead, hdead'⟩ := evdevMap_alike map' h
  refine ⟨filled', hfilled', fun hfile => ?_, fun heq => ?_⟩
  · rw [← hdead, ← hdead', mappingSave_injective hfile.1]
  · have hall : ∀ e : Entry, e.Same filled filled' := by
      intro e
      by_cases he : e = .short .absDeadzone
      · rw [he, Entry.Same, hdead, hdead', heq]
      · exact hsame e he
    refine ⟨?_, hall⟩
    have hfilled : filled = filled' :=
      Mapping.ext (funext fun f => hall (.short f)) (funext fun f => hall (.flag f))
    rw [hfilled]

/-- A device whose axes all range over a byte. -/
def byteAxes : Libevdev := ⟨3, fun _ => ⟨0, 255, 0⟩⟩

/-- A key that is pressed and released. -/
def keyAnswer : Answer := [(⟨.key, 304, 1⟩, byteAxes), (⟨.key, 304, 0⟩, byteAxes)]

/-- An axis that is pushed to its end and let go. -/
def axisAnswer : Answer := [(⟨.abs, 0, 255⟩, byteAxes), (⟨.abs, 0, 127⟩, byteAxes)]

/-- The sticks are moved where they are asked for, and every other prompt is answered by a key. -/
def allAnswers : List Answer :=
  [axisAnswer, axisAnswer, keyAnswer, axisAnswer, axisAnswer] ++ List.replicate 16 keyAnswer

theorem exists_filled (map : Mapping) : ∃ filled, evdevMap allAnswers map = some filled := by
  have hsome : (evdevMap allAnswers .cleared).isSome = true := by decide +kernel
  obtain ⟨filled, hfilled⟩ := Option.isSome_iff_exists.mp hsome
  obtain ⟨filled', hfilled', _⟩ := evdevMap_alike map hfilled
  exact ⟨filled', hfilled'⟩

/-- Memory that is like cleared memory in `abs_deadzone` and nowhere else. -/
def leftover : Mapping := ⟨fun f => if f = .absDeadzone then 0 else -1, fun _ => true⟩

theorem mapping_file_same_iff_cleared :
    ∃ filled filled', evdevMap allAnswers leftover = some filled ∧
      evdevMap allAnswers .cleared = some filled' ∧ mappingSave filled = mappingSave filled' := by
  obtain ⟨filled, hfilled⟩ := exists_filled leftover
  obtain ⟨filled', hfilled', hiff⟩ :=
    mapping_file_same_iff allAnswers leftover .cleared filled hfilled
  exact ⟨filled, filled', hfilled, hfilled', (hiff.mpr rfl).1⟩

/-- From a struct whose memory held zeros and one whose memory held ones, the same answers lead
to two files. -/
theorem file_depends_on_memory :
    ¬ ∀ answers map map' filled filled', evdevMap answers map = some filled →
      evdevMap answers map' = some filled' → mappingSave filled = mappingSave filled' := by
  intro h
  obtain ⟨filled, hfilled⟩ := exists_filled .cleared
  obtain ⟨filled', hfilled', _, hdead, hdead'⟩ :=
    evdevMap_alike ⟨fun _ => -1, fun _ => true⟩ hfilled
  have hsame := mappingSave_injective (h _ _ _ _ _ hfilled hfilled')
  rw [← hsame, hdead] at hdead'
  exact absurd hdead' (by decide)

end Moonlight
