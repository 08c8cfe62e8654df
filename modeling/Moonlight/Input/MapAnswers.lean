import Moonlight.Lib.Fold
import Moonlight.Input.MapPrompts

/-! What a session of `evdev_map` makes of its answers: each prompt stores the key that was pressed
last while it waited, or the axis that was pushed last and the direction of the push. -/
namespace Moonlight

open Lib.Fold Lib.Machine

/-- The events that are read before the handler gives up. -/
def heard : Answer → Prompt → Answer
  | [], _ => []
  | x :: answer, prompt =>
    let r := evdevHandleMappingEvent x.1 x.2 prompt
    x :: if r.1 then heard answer r.2 else []

def pressedKey (x : InputEvent × Libevdev) : Option UInt16 :=
  if x.1.type = .key ∧ x.1.value ≠ 0 then some x.1.code else none

/-- An axis that is pushed out of the middle half of its range, and whether downwards. -/
def pushedAxis (x : InputEvent × Libevdev) : Option (UInt16 × Bool) :=
  let parms := evdevInitParms x.2 x.1.code.toNat
  if x.1.type ≠ .abs then none
  else if x.1.value > wrap 32 (parms.avg + parms.range.tdiv 2) then some (x.1.code, false)
  else if x.1.value < wrap 32 (parms.avg - parms.range.tdiv 2) then some (x.1.code, true)
  else none

/-- What a prompt takes for its answer: the key that was pressed last, or the last push. -/
def lastPressed (answer : Answer) : Option UInt16 := (answer.filterMap pressedKey).getLast?

def lastPushed (answer : Answer) : Option (UInt16 × Bool) := (answer.filterMap pushedAxis).getLast?

/-- What is stored for a code, or for none. -/
def storedCode (code : Option UInt16) : Int16 := (code.map UInt16.toInt16).getD (-1)

/-- One prompt of a session: the members for a key, an axis and its direction, and the events that
were read. -/
structure Asked where
  key : Option ShortField
  axis : Option ShortField
  reverse : Option FlagField
  heard : Answer

def keyPrompt : Prompt := ⟨some (-1), none, false⟩

def eitherPrompt : Prompt := ⟨some (-1), some (-1), false⟩

def MapSession.heard (s : MapSession) (prompt : Prompt) : Answer :=
  Moonlight.heard (s.answers.headD []) prompt

/-- The prompts of a call. -/
def MapCall.asked : MapCall → MapSession → List Asked
  | key k, s => [⟨some k, none, none, s.heard keyPrompt⟩]
  | abs a r, s => [⟨none, some a, some r, s.heard ⟨none, some (-1), s.map.flag r⟩⟩]
  | abskey k a, s => [⟨some k, some a, none, s.heard eitherPrompt⟩]
  | dpad k a r opposite, s =>
    ⟨some k, some a, some r, s.heard eitherPrompt⟩ ::
      match evdevMapAbskey k a (some r) s with
      | some t => if t.map.short k ≥ 0 then [⟨some opposite, none, none, t.heard keyPrompt⟩] else []
      | none => []

def asked : List MapCall → MapSession → List Asked
  | [], _ => []
  | c :: calls, s =>
    c.asked s ++
      match c.run s with
      | some t => asked calls t
      | none => []

/-- The members for keys and for axes that the calls ask for. -/
def MapCall.keyMembers : MapCall → List ShortField
  | key k => [k]
  | abs _ _ => []
  | abskey k _ => [k]
  | dpad k _ _ opposite => [k, opposite]

def MapCall.axisMembers : MapCall → List ShortField
  | key _ => []
  | abs a _ => [a]
  | abskey _ a => [a]
  | dpad _ a _ _ => [a]

/-- The struct holds what the prompt heard. -/
structure Asked.Stored (q : Asked) (map : Mapping) : Prop where
  key : ∀ f, q.key = some f → map.short f = storedCode (lastPressed q.heard)
  axis : ∀ f, q.axis = some f → map.short f = storedCode ((lastPushed q.heard).map (·.1))
  reverse : ∀ f push, q.reverse = some f → lastPushed q.heard = some push → map.flag f = push.2

variable {map map' filled : Mapping} {answer : Answer} {answers : List Answer} {s t : MapSession}
  {prompt prompt' : Prompt} {c : MapCall} {calls : List MapCall} {f k a : ShortField}
  {r : FlagField} {q : Asked} {v : Int16} {x : InputEvent × Libevdev}

theorem handleMapping_key (h : prompt.currentKey = some v) :
    (evdevHandleMappingEvent x.1 x.2 prompt).2.currentKey =
      some (((pressedKey x).map UInt16.toInt16).getD v) := by
  rw [evdevHandleMappingEvent, pressedKey]
  cases htype : x.1.type with
  | key =>
    dsimp only
    rw [h]
    by_cases hvalue : x.1.value = 0 <;> simp [hvalue, h]
  | abs =>
    dsimp only
    split
    · simp [h]
    · split_ifs <;> simp_all
  | _ => simp [h]

theorem handleMapping_axis (h : prompt.currentAbs = some v) :
    (evdevHandleMappingEvent x.1 x.2 prompt).2.currentAbs =
        some (((pushedAxis x).map fun push => push.1.toInt16).getD v) ∧
      (evdevHandleMappingEvent x.1 x.2 prompt).2.currentReverse =
        ((pushedAxis x).map (·.2)).getD prompt.currentReverse := by
  rw [evdevHandleMappingEvent, pushedAxis]
  cases htype : x.1.type with
  | key =>
    dsimp only
    split
    · simp [h]
    · split_ifs <;> simp_all
  | abs =>
    dsimp only
    rw [h]
    by_cases hup : x.1.value > wrap 32 ((evdevInitParms x.2 x.1.code.toNat).avg +
        (evdevInitParms x.2 x.1.code.toNat).range.tdiv 2)
    · simp [hup]
    · by_cases hdown : x.1.value < wrap 32 ((evdevInitParms x.2 x.1.code.toNat).avg -
        (evdevInitParms x.2 x.1.code.toNat).range.tdiv 2)
      · simp [hup, hdown]
      · simp [hup, hdown, h]
  | _ => simp [h]

/-- A prompt that waits for a key ends with the last one that was pressed. -/
theorem loopPrompt_key (h : loopPrompt answer prompt = some prompt')
    (hkey : prompt.currentKey = some v) :
    prompt'.currentKey = some (((lastPressed (heard answer prompt)).map UInt16.toInt16).getD v) := by
  induction answer generalizing prompt v with
  | nil => cases h
  | cons x answer ih =>
    have hnext := handleMapping_key (x := x) hkey
    rw [heard, lastPressed, getLast_filterMap_cons]
    rw [loopPrompt] at h
    split at h
    · next hgoes =>
      rw [if_pos hgoes]
      exact ih h hnext
    · next hends =>
      rw [if_neg hends]
      cases h
      exact hnext

/-- A prompt that waits for an axis ends with the last one that was pushed, and its direction. -/
theorem loopPrompt_axis (h : loopPrompt answer prompt = some prompt')
    (haxis : prompt.currentAbs = some v) :
    prompt'.currentAbs =
        some (((lastPushed (heard answer prompt)).map fun push => push.1.toInt16).getD v) ∧
      prompt'.currentReverse =
        ((lastPushed (heard answer prompt)).map (·.2)).getD prompt.currentReverse := by
  induction answer generalizing prompt v with
  | nil => cases h
  | cons x answer ih =>
    have hnext := handleMapping_axis (x := x) haxis
    rw [heard, lastPushed, getLast_filterMap_cons, getLast_filterMap_cons]
    rw [loopPrompt] at h
    split at h
    · next hgoes =>
      rw [if_pos hgoes]
      obtain ⟨hcode, hreverse⟩ := ih h hnext.1
      exact ⟨hcode, hreverse.trans (by rw [hnext.2]; rfl)⟩
    · next hends =>
      rw [if_neg hends]
      cases h
      exact hnext

theorem ask_key (h : s.ask prompt = some (prompt', t)) (hkey : prompt.currentKey = some (-1)) :
    prompt'.currentKey = some (storedCode (lastPressed (s.heard prompt))) := by
  obtain ⟨answer, rest, hs, hloop, _⟩ := ask_eq_some.mp h
  rw [loopPrompt_key hloop hkey, storedCode, MapSession.heard, hs, List.headD_cons]

theorem ask_axis (h : s.ask prompt = some (prompt', t)) (haxis : prompt.currentAbs = some (-1)) :
    prompt'.currentAbs = some (storedCode ((lastPushed (s.heard prompt)).map (·.1))) ∧
      ∀ push, lastPushed (s.heard prompt) = some push → prompt'.currentReverse = push.2 := by
  obtain ⟨answer, rest, hs, hloop, _⟩ := ask_eq_some.mp h
  obtain ⟨hcode, hreverse⟩ := loopPrompt_axis hloop haxis
  rw [MapSession.heard, hs, List.headD_cons]
  refine ⟨by rw [hcode, storedCode, Option.map_map]; rfl, fun push hpush => ?_⟩
  rw [hreverse, hpush]
  rfl

theorem evdevMapKey_stored (h : evdevMapKey k s = some t) :
    Asked.Stored ⟨some k, none, none, s.heard keyPrompt⟩ t.map := by
  obtain ⟨prompt, u, v, hask, hv, rfl⟩ := evdevMapKey_eq_some.mp h
  rw [ask_key hask rfl] at hv
  refine ⟨?_, (fun f hf => nomatch hf), fun f push hf => nomatch hf⟩
  rintro f ⟨⟩
  rw [keyPrompt, Option.some.inj hv]
  simp [Mapping.setShort]

theorem evdevMapAbs_stored (h : evdevMapAbs a r s = some t) :
    Asked.Stored ⟨none, some a, some r, s.heard ⟨none, some (-1), s.map.flag r⟩⟩ t.map := by
  obtain ⟨prompt, u, v, hask, hv, rfl⟩ := evdevMapAbs_eq_some.mp h
  obtain ⟨hcode, hreverse⟩ := ask_axis hask rfl
  rw [hcode] at hv
  refine ⟨(fun f hf => nomatch hf), ?_, ?_⟩
  · rintro f ⟨⟩
    rw [Option.some.inj hv]
    simp [Mapping.setShort, Mapping.setFlag]
  · rintro f push ⟨⟩ hpush
    rw [← hreverse push hpush]
    simp [Mapping.setFlag]

theorem evdevMapAbskey_stored {r : Option FlagField} (h : evdevMapAbskey k a r s = some t)
    (hne : k ≠ a) : Asked.Stored ⟨some k, some a, r, s.heard eitherPrompt⟩ t.map := by
  obtain ⟨prompt, u, v, w, hask, hv, hw, rfl⟩ := evdevMapAbskey_eq_some.mp h
  obtain ⟨hcode, hreverse⟩ := ask_axis hask rfl
  rw [ask_key hask rfl] at hv
  rw [hcode] at hw
  refine ⟨?_, ?_, ?_⟩
  · rintro f ⟨⟩
    rw [eitherPrompt, Option.some.inj hv, short_setReverse]
    simp [Mapping.setShort, hne]
  · rintro f ⟨⟩
    rw [eitherPrompt, Option.some.inj hw, short_setReverse]
    simp [Mapping.setShort]
  · rintro f push rfl hpush
    rw [← hreverse push hpush]
    simp [Mapping.setReverse, Mapping.setFlag]

/-- The members a prompt asks for. -/
def Asked.members (q : Asked) : List Entry :=
  q.key.toList.map .short ++ q.axis.toList.map .short ++ q.reverse.toList.map .flag

theorem Asked.Stored.congr (h : q.Stored map) (hsame : AgreeOn q.members map map') :
    q.Stored map' := by
  refine ⟨fun f hf => ?_, fun f hf => ?_, fun f push hf hpush => ?_⟩
  · have hf' : map.short f = map'.short f := hsame (.short f) (by simp [members, hf])
    exact hf'.symm.trans (h.key f hf)
  · have hf' : map.short f = map'.short f := hsame (.short f) (by simp [members, hf])
    exact hf'.symm.trans (h.axis f hf)
  · have hf' : map.flag f = map'.flag f := hsame (.flag f) (by simp [members, hf])
    exact hf'.symm.trans (h.reverse f push hf hpush)

theorem MapCall.run_frame_flag (h : c.run s = some t) {f : FlagField} (hf : .flag f ∉ c.assigned) :
    t.map.flag f = s.map.flag f := by
  have hask {prompt prompt' : Prompt} {s u : MapSession} (h : s.ask prompt = some (prompt', u)) :
      u.map = s.map := by
    obtain ⟨_, _, _, _, rfl⟩ := ask_eq_some.mp h
    rfl
  have hkey {k : ShortField} {s t : MapSession} (h : evdevMapKey k s = some t) :
      t.map.flag f = s.map.flag f := by
    obtain ⟨_, u, v, hu, _, rfl⟩ := evdevMapKey_eq_some.mp h
    simp [Mapping.setShort, hask hu]
  have habskey {k a : ShortField} {r : Option FlagField} {t : MapSession}
      (h : evdevMapAbskey k a r s = some t) (hr : r ≠ some f) : t.map.flag f = s.map.flag f := by
    obtain ⟨_, u, v, w, hu, _, _, rfl⟩ := evdevMapAbskey_eq_some.mp h
    cases r with
    | none => simp [Mapping.setReverse, Mapping.setShort, hask hu]
    | some r =>
      have hne : f ≠ r := by rintro rfl; exact hr rfl
      simp [Mapping.setReverse, Mapping.setFlag, Mapping.setShort, hne, hask hu]
  cases c with
  | key k => exact hkey h
  | abs a r =>
    obtain ⟨_, u, v, hu, _, rfl⟩ := evdevMapAbs_eq_some.mp h
    have hne : f ≠ r := by simpa [assigned] using hf
    simp [Mapping.setShort, Mapping.setFlag, hne, hask hu]
  | abskey k a => exact habskey h (by simp)
  | dpad k a r opposite =>
    have hne : r ≠ f := by
      rintro rfl
      exact hf (by simp [assigned])
    obtain ⟨u, hu, h⟩ := Option.bind_eq_some_iff.mp h
    rw [← habskey hu (by simpa using hne)]
    split at h
    · exact hkey h
    · cases h
      rfl

/-- What no later call assigns stays as it is. -/
theorem runCalls_agree {done : List Entry} (h : runCalls calls s = some t)
    (happart : ∀ e ∈ done, e ∉ calls.flatMap MapCall.assigned) : AgreeOn done s.map t.map := by
  induction calls generalizing s with
  | nil =>
    cases h
    intro e _
    cases e <;> rfl
  | cons c calls ih =>
    obtain ⟨u, hu, h⟩ := Option.bind_eq_some_iff.mp h
    intro e he
    have hnot := happart e he
    rw [List.flatMap_cons, List.mem_append, not_or] at hnot
    have hrest : e.Same u.map t.map := ih h (fun e he hmem => happart e he (by
      rw [List.flatMap_cons]
      exact List.mem_append_right _ hmem)) e he
    cases e with
    | short f => exact (MapCall.run_frame hu hnot.1).symm.trans hrest
    | flag f => exact (MapCall.run_frame_flag hu hnot.1).symm.trans hrest

/-- A call stores what its prompts heard, and no key in a member it has no prompt for. -/
theorem MapCall.run_stored (h : c.run s = some t) (hnodup : c.assigned.Nodup) :
    (∀ q ∈ c.asked s, q.Stored t.map ∧ q.members ⊆ c.assigned) ∧
    (∀ f ∈ c.keyMembers, t.map.short f ≠ -1 → ∃ q ∈ c.asked s, q.key = some f) ∧
    ∀ f ∈ c.axisMembers, ∃ q ∈ c.asked s, q.axis = some f := by
  cases c with
  | key k =>
    simp only [asked, keyMembers, axisMembers, List.mem_singleton, forall_eq, exists_eq_left,
      List.not_mem_nil]
    exact ⟨⟨evdevMapKey_stored h, by simp [Asked.members, assigned]⟩, fun _ => trivial,
      fun _ hmem => hmem.elim⟩
  | abs a r =>
    simp only [asked, keyMembers, axisMembers, List.mem_singleton, forall_eq, exists_eq_left,
      List.not_mem_nil]
    exact ⟨⟨evdevMapAbs_stored h, by simp [Asked.members, assigned]⟩,
      fun _ hmem => hmem.elim, trivial⟩
  | abskey k a =>
    have hne : k ≠ a := by simpa [assigned] using hnodup
    simp only [asked, keyMembers, axisMembers, List.mem_singleton, forall_eq, exists_eq_left]
    exact ⟨⟨evdevMapAbskey_stored h hne, by simp [Asked.members, assigned]⟩,
      fun _ => trivial, trivial⟩
  | dpad k a r opposite =>
    have hne : k ≠ a ∧ k ≠ opposite ∧ a ≠ opposite := by
      simp only [assigned, List.nodup_cons, List.mem_cons] at hnodup
      grind
    obtain ⟨u, hu, h⟩ := Option.bind_eq_some_iff.mp h
    have hstored := evdevMapAbskey_stored hu hne.1
    have hmembers : Asked.members ⟨some k, some a, some r, s.heard eitherPrompt⟩ ⊆
        (MapCall.dpad k a r opposite).assigned := by
      simp [Asked.members, assigned]
    simp only [asked, keyMembers, axisMembers, hu]
    split at h
    next hpressed =>
      have hrun : runCalls [.key opposite] u = some t := by simp [runCalls, run, h]
      have hkept := hstored.congr (runCalls_agree hrun (by simp [Asked.members, assigned, hne]))
      rw [if_pos hpressed]
      simp only [List.mem_cons, List.not_mem_nil, or_false, forall_eq_or_imp, forall_eq,
        exists_eq_or_imp, exists_eq_left]
      refine ⟨⟨⟨hkept, hmembers⟩, evdevMapKey_stored h, by simp [Asked.members, assigned]⟩,
        ⟨fun _ => Or.inl trivial, fun _ => Or.inr trivial⟩, Or.inl trivial⟩
    next hmoved =>
      cases h
      have hkept : Asked.Stored ⟨some k, some a, some r, s.heard eitherPrompt⟩
          (u.map.setShort opposite (-1)) := by
        refine hstored.congr fun e he => ?_
        cases e with
        | short f =>
          have hf : f ≠ opposite := by
            rintro rfl
            simp [Asked.members, hne.2.1.symm, hne.2.2.symm] at he
          simp [Entry.Same, Mapping.setShort, hf]
        | flag f => rfl
      rw [if_neg hmoved]
      simp only [List.mem_cons, List.not_mem_nil, or_false, forall_eq_or_imp, forall_eq,
        exists_eq_left]
      refine ⟨⟨hkept, hmembers⟩, ⟨fun _ => trivial, fun hset => ?_⟩, trivial⟩
      simp [Mapping.setShort] at hset

theorem MapCall.members_assigned (hf : f ∈ c.keyMembers ∨ f ∈ c.axisMembers) :
    .short f ∈ c.assigned := by
  cases c <;> simp only [keyMembers, axisMembers, assigned, List.mem_cons, List.not_mem_nil,
    or_false, Entry.short.injEq] at hf ⊢ <;> tauto

/-- The same for all calls, when none assigns a member of another. -/
theorem runCalls_stored (h : runCalls calls s = some t)
    (hnodup : (calls.flatMap MapCall.assigned).Nodup) :
    (∀ q ∈ asked calls s, q.Stored t.map) ∧
    (∀ f ∈ calls.flatMap MapCall.keyMembers, t.map.short f ≠ -1 →
      ∃ q ∈ asked calls s, q.key = some f) ∧
    ∀ f ∈ calls.flatMap MapCall.axisMembers, ∃ q ∈ asked calls s, q.axis = some f := by
  induction calls generalizing s with
  | nil => simp [asked]
  | cons c calls ih =>
    obtain ⟨u, hu, h⟩ := Option.bind_eq_some_iff.mp h
    rw [List.flatMap_cons, List.nodup_append] at hnodup
    obtain ⟨hcall, hrest, happart⟩ := hnodup
    obtain ⟨hfirst, hkeys, haxes⟩ := c.run_stored hu hcall
    obtain ⟨hlater, hkeys', haxes'⟩ := ih h hrest
    have hagree : AgreeOn c.assigned u.map t.map :=
      runCalls_agree h fun e he hmem => happart e he e hmem rfl
    simp only [asked, hu, List.mem_append, List.flatMap_cons]
    refine ⟨?_, ?_, ?_⟩
    · rintro q (hq | hq)
      · obtain ⟨hstored, hmembers⟩ := hfirst q hq
        exact hstored.congr (hagree.subset hmembers)
      · exact hlater q hq
    · rintro f (hf | hf) hset
      · have hsame : u.map.short f = t.map.short f :=
          hagree (.short f) (MapCall.members_assigned (Or.inl hf))
        rw [← hsame] at hset
        obtain ⟨q, hq, hkey⟩ := hkeys f hf hset
        exact ⟨q, Or.inl hq, hkey⟩
      · obtain ⟨q, hq, hkey⟩ := hkeys' f hf hset
        exact ⟨q, Or.inr hq, hkey⟩
    · rintro f (hf | hf)
      · obtain ⟨q, hq, haxis⟩ := haxes f hf
        exact ⟨q, Or.inl hq, haxis⟩
      · obtain ⟨q, hq, haxis⟩ := haxes' f hf
        exact ⟨q, Or.inr hq, haxis⟩

/-- The prompts of a whole session. -/
def mapAsked (answers : List Answer) (map : Mapping) : List Asked :=
  asked mapCalls ⟨map, answers⟩

/-- The file holds what the prompts heard, and no key in a member that was not asked for. -/
theorem evdevMap_stored (h : evdevMap answers map = some filled) :
    (∀ q ∈ mapAsked answers map, q.Stored filled) ∧
    (∀ f ∈ mapCalls.flatMap MapCall.keyMembers, filled.short f ≠ -1 →
      ∃ q ∈ mapAsked answers map, q.key = some f) ∧
    ∀ f ∈ mapCalls.flatMap MapCall.axisMembers, ∃ q ∈ mapAsked answers map, q.axis = some f := by
  obtain ⟨t, hrun, rfl⟩ := Option.map_eq_some_iff.mp h
  exact runCalls_stored hrun (by decide)

end Moonlight
