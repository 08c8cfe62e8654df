import Moonlight.Config.Reload

/-! Two starts that find different contents in the configuration. -/
namespace Moonlight

open Lib.Fold Lib.Getopt Lib.Stdio

/-- The state with other contents where `config_parse` assigns nothing at first. -/
def ConfigState.disturb (s : ConfigState) (forcehw : Bool)
    (inputs : Fin maxInputs → InputConfig) : ConfigState :=
  { s with config.forcehw := forcehw, config.inputs := inputs }

/-- The states differ in `forcehw` and in unused inputs at most. -/
def Alike (s s' : ConfigState) : Prop :=
  ∃ forcehw inputs, s' = s.disturb forcehw inputs ∧
    ∀ i : Fin maxInputs, i.val < s.config.inputsCount → inputs i = s.config.inputs i

/-- A file is read alike into states that are alike. -/
def ReadsAlike (parse : List Char → ConfigState → Except Halt (Bool × ConfigState)) : Prop :=
  ∀ name s s' ok t, Alike s s' → parse name s = .ok (ok, t) →
    ∃ t', parse name s' = .ok (ok, t') ∧ Alike t t'

/-- All that is read of the configuration later is the same. -/
structure SameConfiguration (c d : Configuration) : Prop where
  stream : c.stream = d.stream
  app : c.app = d.app
  action : c.action = d.action
  address : c.address = d.address
  mapping : c.mapping = d.mapping
  platform : c.platform = d.platform
  configFile : c.configFile = d.configFile
  keyDir : c.keyDir = d.keyDir
  sops : c.sops = d.sops
  localaudio : c.localaudio = d.localaudio
  fullscreen : c.fullscreen = d.fullscreen
  forcehw : c.forcehw = d.forcehw
  unsupportedVersion : c.unsupportedVersion = d.unsupportedVersion
  inputsCount : c.inputsCount = d.inputsCount
  inputs : ∀ i : Fin maxInputs, i.val < c.inputsCount → c.inputs i = d.inputs i

/-- The command line asks for hardware acceleration. -/
def ForcehwGiven (files : Files) (argv : List (List Char)) : Prop :=
  ¬ OnlyFile files argv ∧ ∃ o ∈ getoptLongOnly optstring longOptions argv.tail, o.code = 'w'

instance (files : Files) (argv : List (List Char)) : Decidable (ForcehwGiven files argv) :=
  inferInstanceAs (Decidable (_ ∧ _))

variable {env : Env} {files : Files} {s s' t : ConfigState} {c : Char} {value line : List Char}
  {n : Nat} {argv : List (List Char)} {before before' : Configuration} {r : Parsed}
  {parse : List Char → ConfigState → Except Halt (Bool × ConfigState)}
  {mapping : Option (List Char)}

theorem update_alike {inputs inputs' : Fin maxInputs → InputConfig} {count : Nat}
    {x : InputConfig} (h : ∀ i : Fin maxInputs, i.val < count → inputs i = inputs' i)
    (hlt : count < maxInputs) (i : Fin maxInputs) (hi : i.val < count + 1) :
    Function.update inputs ⟨count, hlt⟩ x i = Function.update inputs' ⟨count, hlt⟩ x i := by
  by_cases heq : i = ⟨count, hlt⟩
  · rw [heq, Function.update_self, Function.update_self]
  · have hne : i.val ≠ count := fun he => heq (Fin.ext he)
    rw [Function.update_of_ne heq, Function.update_of_ne heq]
    exact h i (by omega)

theorem parseArgument_alike (hparse : ReadsAlike parse) (hs : Alike s s')
    (h : parseArgument env files parse c value s = .ok t) :
    ∃ t', parseArgument env files parse c value s' = .ok t' ∧ Alike t t' := by
  have hs' := hs
  obtain ⟨forcehw, inputs, rfl, hinputs⟩ := hs
  unfold parseArgument at h ⊢
  split at h
  case h_10 => -- input
    split at h
    · next hlt =>
      cases h
      exact ⟨_, dif_pos hlt, _, _, rfl, update_alike hinputs hlt⟩
    · cases h
  case h_11 => -- mapping
    obtain ⟨found, hfound, h⟩ := bind_eq_ok.mp h
    cases found with
    | none => cases h
    | some path =>
      cases h
      exact ⟨_, bind_eq_ok.mpr ⟨some path, hfound, rfl⟩, _, inputs, rfl, hinputs⟩
  case h_15 => -- config
    obtain ⟨⟨ok, u⟩, hu, hok⟩ := bind_eq_ok.mp h
    obtain ⟨u', hu', halike⟩ := hparse value _ _ ok u hs' hu
    cases ok with
    | false => cases hok
    | true =>
      cases hok
      exact ⟨u', bind_eq_ok.mpr ⟨(true, u'), hu', rfl⟩, halike⟩
  case h_18 => -- keydir
    obtain ⟨keyDir, hkeyDir, h⟩ := bind_eq_ok.mp h
    cases h
    exact ⟨_, bind_eq_ok.mpr ⟨keyDir, hkeyDir, rfl⟩, _, inputs, rfl, hinputs⟩
  case h_26 => -- a word that is no option
    split at h
    · next haction =>
      cases h
      refine ⟨ConfigState.disturb { s with config.action := some value } forcehw inputs, ?_,
        forcehw, inputs, rfl, hinputs⟩
      simp [ConfigState.disturb, haction]
    · next haction haddress =>
      cases h
      refine ⟨ConfigState.disturb { s with config.address := some value } forcehw inputs, ?_,
        forcehw, inputs, rfl, hinputs⟩
      simp [ConfigState.disturb, haction, haddress]
    · cases h
  case h_27 => -- no option
    cases h
    exact ⟨s.disturb forcehw inputs, by simp [*], hs'⟩
  all_goals
    cases h
    exact ⟨_, rfl, _, inputs, rfl, hinputs⟩

theorem configLine_alike (hparse : ReadsAlike parse) (hs : Alike s s')
    (h : configLine env files parse s line = .ok t) :
    ∃ t', configLine env files parse s' line = .ok t' ∧ Alike t t' := by
  have hs' := hs
  obtain ⟨forcehw, inputs, rfl, hinputs⟩ := hs
  unfold configLine at h ⊢
  cases hscan : scanAssign scanLine line with
  | none =>
    rw [hscan] at h
    cases h
    exact ⟨_, rfl, hs'⟩
  | some assign =>
    obtain ⟨key, value⟩ := assign
    rw [hscan] at h
    dsimp only at h ⊢
    split_ifs at h ⊢
    · cases h
      exact ⟨_, rfl, forcehw, inputs, rfl, hinputs⟩
    · cases h
      exact ⟨_, rfl, forcehw, inputs, rfl, hinputs⟩
    · cases h
      exact ⟨_, rfl, forcehw, inputs, rfl, hinputs⟩
    · exact foldlM_simulation (fun _ _ _ _ => parseArgument_alike hparse) hs' h

theorem configFileParse_alike (n : Nat) : ReadsAlike (configFileParse env files n) := by
  induction n with
  | zero =>
    intro name s s' ok t _ h
    cases h
  | succ n ih =>
    intro name s s' ok t hs h
    rw [configFileParse] at h ⊢
    cases hfile : files.contents name with
    | none =>
      rw [hfile] at h
      cases h
      exact ⟨s', rfl, hs⟩
    | some text =>
      rw [hfile] at h
      obtain ⟨u, hu, hok⟩ := bind_eq_ok.mp h
      cases hok
      obtain ⟨u', hu', halike⟩ :=
        foldlM_simulation (fun _ _ _ _ => configLine_alike ih) hs hu
      exact ⟨u', bind_eq_ok.mpr ⟨u', hu', rfl⟩, halike⟩

theorem readSystemFile_alike (hs : Alike s s') (h : readSystemFile env files n s = .ok t) :
    ∃ t', readSystemFile env files n s' = .ok t' ∧ Alike t t' := by
  obtain ⟨conf, hconf, h⟩ := bind_eq_ok.mp h
  cases conf with
  | none =>
    cases h
    exact ⟨s', bind_eq_ok.mpr ⟨none, hconf, rfl⟩, hs⟩
  | some configFile =>
    obtain ⟨⟨ok, u⟩, hu, rfl⟩ := map_eq_ok.mp h
    obtain ⟨u', hu', halike⟩ := configFileParse_alike n configFile s s' ok u hs hu
    exact ⟨u', bind_eq_ok.mpr ⟨some configFile, hconf, map_eq_ok.mpr ⟨_, hu', rfl⟩⟩, halike⟩

theorem readCommandLine_alike (hs : Alike s s')
    (h : readCommandLine env files n argv s = .ok t) :
    ∃ t', readCommandLine env files n argv s' = .ok t' ∧ Alike t t' := by
  unfold readCommandLine at h ⊢
  split_ifs at h ⊢
  · obtain ⟨⟨ok, u⟩, hu, hok⟩ := bind_eq_ok.mp h
    have hstream : Alike { s with config.action := some "stream".toList }
        { s' with config.action := some "stream".toList } := by
      obtain ⟨forcehw, inputs, rfl, hinputs⟩ := hs
      exact ⟨forcehw, inputs, rfl, hinputs⟩
    obtain ⟨u', hu', halike⟩ := configFileParse_alike n _ _ _ ok u hstream hu
    cases ok with
    | false => cases hok
    | true =>
      cases hok
      exact ⟨u', bind_eq_ok.mpr ⟨(true, u'), hu', rfl⟩, halike⟩
  · exact foldlM_simulation
      (fun _ _ _ _ => parseArgument_alike (configFileParse_alike n)) hs h

theorem readOptions_alike (before' : Configuration)
    (h : readOptions env files n argv before = .ok t) :
    ∃ t', readOptions env files n argv before' = .ok t' ∧ Alike t t' := by
  obtain ⟨mapping, hmapping, h⟩ := bind_eq_ok.mp h
  obtain ⟨u, hu, h⟩ := bind_eq_ok.mp h
  have hinitial : Alike (initialState env mapping before) (initialState env mapping before') :=
    ⟨before'.forcehw, before'.inputs, rfl, fun i hi => absurd hi (Nat.not_lt_zero _)⟩
  obtain ⟨u', hu', halike⟩ := readSystemFile_alike hinitial hu
  obtain ⟨t', ht', halike'⟩ := readCommandLine_alike halike h
  exact ⟨t', bind_eq_ok.mpr ⟨mapping, hmapping, bind_eq_ok.mpr ⟨u', hu', ht'⟩⟩, halike'⟩

theorem completeOptions_alike (hs : Alike s s') (h : completeOptions env files s = .ok r) :
    ∃ r', completeOptions env files s' = .ok r' ∧ Alike r.state r'.state := by
  obtain ⟨forcehw, inputs, rfl, hinputs⟩ := hs
  obtain ⟨files', hfiles, h⟩ := bind_eq_ok.mp h
  obtain ⟨dir, hdir, h⟩ := bind_eq_ok.mp h
  split at h
  · cases h
  · next hinput =>
    cases h
    exact ⟨_, bind_eq_ok.mpr ⟨files', hfiles, bind_eq_ok.mpr ⟨dir, hdir, if_neg hinput⟩⟩,
      forcehw, inputs, rfl, hinputs⟩

theorem sameConfiguration_iff (h : Alike s s') :
    SameConfiguration s.config s'.config ↔ s.config.forcehw = s'.config.forcehw := by
  obtain ⟨forcehw, inputs, rfl, hinputs⟩ := h
  constructor
  · intro hsame
    exact hsame.forcehw
  · intro hforce
    exact ⟨rfl, rfl, rfl, rfl, rfl, rfl, rfl, rfl, rfl, rfl, rfl, hforce, rfl, rfl,
      fun i hi => (hinputs i hi).symm⟩

/-- No file can ask for hardware acceleration. -/
theorem letter_fileSettings {name : List Char} {x : Setting}
    (hx : x ∈ fileSettings files n name) : x.letter ≠ some 'w' := by
  have hvals : ∀ o ∈ longOptions, o.required = true → o.val ≠ 'w' := by decide
  refine fileSettings_forall (Q := fun x => x.letter ≠ some 'w') (fun _ _ => ?_) (fun _ => ?_)
    (fun _ => ?_) (fun o ho hreq v _ h => ?_) n name x hx
  · simp
  · simp
  · simp
  · exact hvals o ho hreq (Option.some.inj h)

theorem letter_sources : (∃ x ∈ sources env files n argv, x.letter = some 'w') ↔
    ForcehwGiven files argv := by
  have hsystem : ∀ x ∈ systemSettings env files n, x.letter ≠ some 'w' := by
    intro x hx
    rw [systemSettings] at hx
    split at hx
    · exact letter_fileSettings hx
    · cases hx
  constructor
  · rintro ⟨x, hx, hletter⟩
    rcases List.mem_append.mp hx with hx | hx
    · exact absurd hletter (hsystem x hx)
    · rw [commandSettings] at hx
      split_ifs at hx with honly
      · rcases List.mem_cons.mp hx with rfl | hx
        · simp at hletter
        · exact absurd hletter (letter_fileSettings hx)
      · obtain ⟨o, ho, hx⟩ := List.mem_flatMap.mp hx
        rw [optionSettings] at hx
        split_ifs at hx
        · exact absurd hletter (letter_fileSettings hx)
        · obtain rfl := List.mem_singleton.mp hx
          exact ⟨honly, o, ho, Option.some.inj hletter⟩
  · rintro ⟨honly, o, ho, hcode⟩
    refine ⟨.option o.code o.optarg, List.mem_append_right _ ?_, congrArg some hcode⟩
    rw [commandSettings, if_neg honly]
    refine List.mem_flatMap.mpr ⟨o, ho, ?_⟩
    simp [optionSettings, hcode]

/-- The flag is what the structure held, unless the command line sets it. -/
theorem forcehw_configParse (h : configParse env files n argv before = .ok r) :
    r.state.config.forcehw = if ForcehwGiven files argv then true else before.forcehw := by
  obtain ⟨s, hread, hcomplete⟩ := bind_eq_ok.mp h
  obtain ⟨dir, _, hstate, _⟩ := completeOptions_ok hcomplete
  obtain ⟨mapping, _, happly⟩ := readOptions_sources hread
  have hforce : s.config.forcehw =
      lastValue (Setting.flag 'w' true) before.forcehw (sources env files n argv) :=
    field_lastValue (·.config.forcehw) _ (fun _ _ _ h => h.forcehw) happly
  rw [hstate, show (completed dir s.config).forcehw = s.config.forcehw from rfl, hforce,
    lastValue_flag]
  exact if_congr letter_sources rfl rfl

/-- Two starts that only differ in what the structure held before both go through, and leave the
same configuration exactly when the flag that is never reset was the same or is set. -/
theorem config_determined_iff (before' : Configuration)
    (h : configParse env files n argv before = .ok r) :
    ∃ r', configParse env files n argv before' = .ok r' ∧
      (SameConfiguration r.state.config r'.state.config ↔
        before.forcehw = before'.forcehw ∨ ForcehwGiven files argv) := by
  obtain ⟨s, hread, hcomplete⟩ := bind_eq_ok.mp h
  obtain ⟨s', hread', halike⟩ := readOptions_alike before' hread
  obtain ⟨r', hcomplete', halike'⟩ := completeOptions_alike halike hcomplete
  have hparse' : configParse env files n argv before' = .ok r' :=
    bind_eq_ok.mpr ⟨s', hread', hcomplete'⟩
  refine ⟨r', hparse', ?_⟩
  rw [sameConfiguration_iff halike', forcehw_configParse h, forcehw_configParse hparse']
  split_ifs with hgiven
  · exact ⟨fun _ => Or.inr hgiven, fun _ => rfl⟩
  · exact ⟨Or.inl, fun hor => hor.resolve_right hgiven⟩

/-- Without the option, the flag is whatever was on the stack. -/
theorem forcehw_leftover :
    (configParse homeEnv (oneFile [] []) 1 ["moonlight".toList, "stream".toList]
      { zeroConfiguration with forcehw := true }).map (·.state.config.forcehw) = .ok true ∧
    (configParse homeEnv (oneFile [] []) 1 ["moonlight".toList, "stream".toList]
      zeroConfiguration).map (·.state.config.forcehw) = .ok false := by
  constructor <;> decide +kernel

theorem config_determined_forcehw : ∃ r r',
    configParse homeEnv (oneFile [] []) 1 ["moonlight".toList, "stream".toList,
      "-forcehw".toList] zeroConfiguration = .ok r ∧
    configParse homeEnv (oneFile [] []) 1 ["moonlight".toList, "stream".toList,
      "-forcehw".toList] { zeroConfiguration with forcehw := true } = .ok r' ∧
    SameConfiguration r.state.config r'.state.config := by
  have hrun : (configParse homeEnv (oneFile [] []) 1 ["moonlight".toList, "stream".toList,
      "-forcehw".toList] zeroConfiguration).map (fun _ => ()) = .ok () := by decide +kernel
  obtain ⟨r, hr, _⟩ := map_eq_ok.mp hrun
  obtain ⟨r', hr', hiff⟩ := config_determined_iff { zeroConfiguration with forcehw := true } hr
  exact ⟨r, r', hr, hr', hiff.mpr (Or.inr (by decide +kernel))⟩

end Moonlight
