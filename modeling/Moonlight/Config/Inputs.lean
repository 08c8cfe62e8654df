import Moonlight.Config.Fields
import Moonlight.Config.Reload

/-! The input devices that a start names, and the mapping file each of them is used with. -/
namespace Moonlight

open Lib.Fold

/-- The devices that were named, in order. -/
def inputList (c : Configuration) : List InputConfig := (List.ofFn c.inputs).take c.inputsCount

/-- The device that an option names, beside the mapping file in force. -/
def Setting.input (mapping : Option (List Char)) : Setting → Option InputConfig
  | .option c value => if c = 'j' then some ⟨value, mapping⟩ else none
  | _ => none

/-- Every device beside the mapping file that was named last before it. -/
def pairedInputs (env : Env) (files : Files) : Option (List Char) → List Setting →
    List InputConfig
  | _, [] => []
  | mapping, x :: l =>
    (x.input mapping).toList ++ pairedInputs env files ((x.mapping env files).getD mapping) l

/-- Whether a device follows the last mapping file. -/
def Setting.mapped : Setting → Option Bool
  | .option c _ => match c with
    | 'j' => some true
    | 'k' => some false
    | _ => none
  | _ => none

variable {env : Env} {files : Files} {s t : ConfigState} {x : Setting} {l : List Setting}
  {n : Nat} {argv : List (List Char)} {before : Configuration} {r : Parsed}

/-- One more device stands behind the others. -/
theorem take_update {inputs : Fin maxInputs → InputConfig} {count : Nat} {input : InputConfig}
    (h : count < maxInputs) :
    (List.ofFn (Function.update inputs ⟨count, h⟩ input)).take (count + 1) =
      (List.ofFn inputs).take count ++ [input] := by
  have hset : List.ofFn (Function.update inputs ⟨count, h⟩ input) =
      (List.ofFn inputs).set count input := by
    apply List.ext_getElem (by simp)
    intro i hi _
    simp only [List.getElem_ofFn, List.getElem_set, Function.update_apply, Fin.ext_iff, eq_comm]
  rw [hset, List.take_succ_eq_append_getElem (by simpa using h), List.getElem_set_self,
    List.take_set_of_le le_rfl]

/-- What one option does to the devices and to the variables that `config_parse` checks them
with. -/
structure InputsApplied (x : Setting) (s t : ConfigState) : Prop where
  inputs : inputList t.config = inputList s.config ++ (x.input s.config.mapping).toList
  added : t.inputAdded = (s.inputAdded || (x.input s.config.mapping).isSome)
  mapped : t.mapped = x.mapped.getD s.mapped

theorem inputsApplied_apply (h : x.apply env files s = .ok t) : InputsApplied x s t := by
  cases x with
  | option c value =>
    rw [Setting.apply] at h
    unfold parseArgument at h
    split at h
    case h_10 => -- input
      split at h
      next hroom =>
        cases h
        exact ⟨take_update hroom, by simp [Setting.input], rfl⟩
      · cases h
    case h_11 => -- mapping
      obtain ⟨found, hfound, h⟩ := bind_eq_ok.mp h
      cases found with
      | none => cases h
      | some path =>
        cases h
        constructor <;> simp [Setting.input, Setting.mapped, inputList]
    case h_15 => cases h
    case h_18 => -- keydir
      obtain ⟨keyDir, _, h⟩ := bind_eq_ok.mp h
      cases h
      constructor <;> simp [Setting.input, Setting.mapped, inputList]
    case h_26 => -- a word that is no option
      split at h
      · cases h
        constructor <;> simp [Setting.input, Setting.mapped, inputList]
      · cases h
        constructor <;> simp [Setting.input, Setting.mapped, inputList]
      · cases h
    case h_27 => -- no option
      cases h
      constructor <;> simp_all [Setting.input, Setting.mapped, inputList]
    all_goals
      cases h
      constructor <;> simp [Setting.input, Setting.mapped, inputList]
  | address value | sops on | localaudio on | action value =>
    cases h
    constructor <;> simp [Setting.input, Setting.mapped, inputList]

/-- Reading options pairs every device with the mapping file of its place. -/
theorem inputList_foldlM (h : l.foldlM (Setting.apply env files) s = .ok t) :
    inputList t.config = inputList s.config ++ pairedInputs env files s.config.mapping l := by
  induction l generalizing s with
  | nil =>
    cases h
    simp [pairedInputs]
  | cons x l ih =>
    obtain ⟨u, hu, hrest⟩ := foldlM_cons_eq_ok.mp h
    rw [ih hrest, (inputsApplied_apply hu).inputs, (apply_applied hu).mapping, pairedInputs,
      List.append_assoc]

/-- What `config_parse` relies on when it looks at `inputAdded` and `mapped`. -/
structure Tracked (s : ConfigState) : Prop where
  room : s.config.inputsCount ≤ maxInputs
  added : s.inputAdded = true ↔ inputList s.config ≠ []
  last : s.mapped = true → ∀ input, (inputList s.config).getLast? = some input →
    input.mapping = s.config.mapping

theorem tracked_initial {mapping : Option (List Char)} :
    Tracked (initialState env mapping before) := by
  constructor <;> simp [initialState, defaultConfiguration, inputList]

/-- There is room for a device that was named. -/
theorem room_apply (h : x.apply env files s = .ok t) (hroom : s.config.inputsCount ≤ maxInputs) :
    t.config.inputsCount ≤ maxInputs := by
  rw [(apply_applied h).inputs]
  split
  · next hletter =>
    cases x with
    | option c value =>
      obtain rfl := Option.some.inj hletter
      rw [Setting.apply, parseArgument] at h
      split at h
      · next hlt => exact hlt
      · cases h
    | address _ | sops _ | localaudio _ | action _ => cases hletter
  · exact hroom

/-- Only an input and a mapping touch what is tracked. -/
theorem setting_cases (x : Setting) :
    (∃ value, x = .option 'j' value) ∨ (∃ value, x = .option 'k' value) ∨
      (∀ mapping, x.input mapping = none) ∧ x.mapping env files = none ∧ x.mapped = none := by
  cases x with
  | option c value =>
    by_cases hj : c = 'j'
    · exact Or.inl ⟨value, by rw [hj]⟩
    by_cases hk : c = 'k'
    · exact Or.inr (Or.inl ⟨value, by rw [hk]⟩)
    · exact Or.inr (Or.inr (by simp [Setting.input, Setting.mapped, hj, hk]))
  | address _ | sops _ | localaudio _ | action _ =>
    exact Or.inr (Or.inr (by simp [Setting.input, Setting.mapped]))

theorem tracked_apply (h : x.apply env files s = .ok t) (hs : Tracked s) : Tracked t := by
  have hinputs := inputsApplied_apply h
  have hmapping := (apply_applied h).mapping
  refine ⟨room_apply h hs.room, ?_, ?_⟩
  · rw [hinputs.added, hinputs.inputs]
    cases x.input s.config.mapping with
    | none => simpa using hs.added
    | some input => simp
  · intro hmapped
    rcases setting_cases x with ⟨value, rfl⟩ | ⟨value, rfl⟩ | ⟨hinput, hnone, hkept⟩
    · intro input hlast
      rw [hinputs.inputs] at hlast
      simp only [Setting.input, if_true, Option.toList_some, List.getLast?_append,
        List.getLast?_singleton, Option.some_or, Option.some.injEq] at hlast
      rw [hmapping, ← hlast]
      rfl
    · rw [hinputs.mapped] at hmapped
      cases hmapped
    · rw [hinputs.mapped, hkept] at hmapped
      rw [hinputs.inputs, hinput, hmapping, hnone]
      simpa using hs.last hmapped

/-- Every start uses each named device with the mapping file that was named last before it, and
none of them is lost. A mapping file in force at the end is the one of the last device. -/
theorem inputs_paired (h : configParse env files n argv before = .ok r) :
    ∃ mapping, getPath env files "mappings/default.conf".toList env.xdgDataDirs = .ok mapping ∧
      inputList r.state.config = pairedInputs env files mapping (sources env files n argv) ∧
      (inputList r.state.config).length = r.state.config.inputsCount ∧
      ∀ input, (inputList r.state.config).getLast? = some input →
        input.mapping = r.state.config.mapping ∧ input.mapping ≠ none := by
  obtain ⟨s, hread, hcomplete⟩ := bind_eq_ok.mp h
  obtain ⟨mapping, hmapping, hfold⟩ := readOptions_sources hread
  obtain ⟨dir, _, hstate, _⟩ := completeOptions_ok hcomplete
  have hs : Tracked s := foldlM_invariant (fun _ _ _ => tracked_apply) hfold tracked_initial
  have hchecked : ¬ (s.inputAdded ∧ (s.mapped = false ∨ s.config.mapping = none)) := by
    intro hbad
    obtain ⟨_, _, hcomplete⟩ := bind_eq_ok.mp hcomplete
    obtain ⟨_, _, hcomplete⟩ := bind_eq_ok.mp hcomplete
    rw [if_pos hbad] at hcomplete
    cases hcomplete
  rw [hstate]
  refine ⟨mapping, hmapping, ?_, ?_, fun input hlast => ?_⟩
  · exact inputList_foldlM hfold
  · simpa [inputList, completed] using hs.room
  · have hadded : s.inputAdded = true :=
      hs.added.mpr (List.ne_nil_of_mem (List.mem_of_getLast? hlast))
    have hlegal : s.mapped = true ∧ s.config.mapping ≠ none := by
      simpa [hadded, not_or] using hchecked
    have hsame : input.mapping = s.config.mapping := hs.last hlegal.1 input hlast
    exact ⟨hsame, hsame ▸ hlegal.2⟩

/-- A command line with two gamepads, the second of them with a mapping file of its own. -/
def padLine : List (List Char) :=
  ["moonlight", "stream", "-input", "pad0", "-mapping", "pad.conf", "-input", "pad1"].map
    String.toList

theorem inputs_paired_two : ∃ r,
    configParse homeEnv (oneFile "pad.conf".toList []) 1 padLine zeroConfiguration = .ok r ∧
    inputList r.state.config =
      [⟨"pad0".toList, some "mappings/default.conf".toList⟩,
        ⟨"pad1".toList, some "pad.conf".toList⟩] := by
  have hparse : (configParse homeEnv (oneFile "pad.conf".toList []) 1 padLine
      zeroConfiguration).map (fun _ => ()) = .ok () := by decide +kernel
  have hpaired : pairedInputs homeEnv (oneFile "pad.conf".toList [])
      (some "mappings/default.conf".toList)
      (sources homeEnv (oneFile "pad.conf".toList []) 1 padLine) =
        [⟨"pad0".toList, some "mappings/default.conf".toList⟩,
          ⟨"pad1".toList, some "pad.conf".toList⟩] := by decide +kernel
  have hdefault : getPath homeEnv (oneFile "pad.conf".toList [])
      "mappings/default.conf".toList homeEnv.xdgDataDirs =
        .ok (some "mappings/default.conf".toList) := by decide +kernel
  obtain ⟨r, hr, _⟩ := map_eq_ok.mp hparse
  obtain ⟨mapping, hmapping, hlist, _⟩ := inputs_paired hr
  cases hdefault.symm.trans hmapping
  exact ⟨r, hr, hlist.trans hpaired⟩

end Moonlight
