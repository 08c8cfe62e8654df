import Moonlight.Config.Save

/-! A second start that is only given the file which the first one saved. -/
namespace Moonlight

open Lib.Fold Lib.Getopt Lib.Stdio

/-- Whether the options name an address: a line of a file, or a word behind the action. -/
def namesAddress : Bool → List Setting → Bool
  | _, [] => false
  | acted, x :: l =>
    x.isAddress || (x.isWord && acted) || namesAddress (acted || x.isAction) l

/-- The streaming options, the platform, the address, the mapping and the inputs are the same. -/
structure SameOptions (c d : Configuration) : Prop where
  width : c.stream.width = d.stream.width
  height : c.stream.height = d.stream.height
  fps : c.stream.fps = d.stream.fps
  bitrate : c.stream.bitrate = d.stream.bitrate
  packetSize : c.stream.packetSize = d.stream.packetSize
  supportsHevc : c.stream.supportsHevc = d.stream.supportsHevc
  streamingRemotely : c.stream.streamingRemotely = d.stream.streamingRemotely
  audioConfiguration : c.stream.audioConfiguration = d.stream.audioConfiguration
  app : c.app = d.app
  sops : c.sops = d.sops
  localaudio : c.localaudio = d.localaudio
  platform : c.platform = d.platform
  address : c.address = d.address
  mapping : c.mapping = d.mapping
  inputsCount : c.inputsCount = d.inputsCount
  inputs : ∀ i : Fin maxInputs, i.val < c.inputsCount → c.inputs i = d.inputs i

/-- What a saved file does not hold is as in a start without options, which finds `mapping`. -/
structure Unchanged (mapping : Option (List Char)) (c : Configuration) : Prop where
  supportsHevc : c.stream.supportsHevc = false
  streamingRemotely : c.stream.streamingRemotely = 0
  audioConfiguration : c.stream.audioConfiguration = .stereo
  inputsCount : c.inputsCount = 0
  address : c.address = none
  platform : c.platform = "default".toList
  mapping : c.mapping = mapping

/-- The given options are all of a kind that a saved file holds; `mapping` is the mapping file that
a start without options finds. -/
structure Saveable (env : Env) (files : Files) (mapping : Option (List Char))
    (given : List Setting) : Prop where
  letters : ∀ x ∈ given, x.letter ≠ some 'x' ∧ x.letter ≠ some 's' ∧ x.letter ≠ some 'u' ∧
    x.letter ≠ some 'j'
  address : namesAddress false given = false
  platform : lastValue Setting.platform "default".toList given = "default".toList
  mapping : ∃ first,
    getPath env files "mappings/default.conf".toList env.xdgDataDirs = .ok first ∧
      lastValue (Setting.mapping env files) first given = mapping
  app : Line (lastValue Setting.app "Steam".toList given)

variable {env env' : Env} {files files' : Files} {s t : ConfigState} {c d : Configuration}
  {l given : List Setting} {n m : Nat} {argv : List (List Char)} {r : Parsed}
  {before before' : Configuration} {mapping : Option (List Char)} {prog name dir : List Char}
  {text : List Char}

theorem address_eq_none_iff (h : l.foldlM (Setting.apply env files) s = .ok t) :
    t.config.address = none ↔
      s.config.address = none ∧ namesAddress s.config.action.isSome l = false := by
  induction l generalizing s with
  | nil =>
    cases h
    simp [namesAddress]
  | cons x l ih =>
    obtain ⟨u, hu, hrest⟩ := foldlM_cons_eq_ok.mp h
    have hx := apply_applied hu
    have hacted : u.config.action.isSome = (s.config.action.isSome || x.isAction) := by
      have := hx.noAction
      cases hu' : u.config.action <;> cases hs : s.config.action <;> simp_all
    rw [ih hrest, hx.noAddress, hacted, namesAddress]
    cases s.config.action <;> simp [and_assoc]

theorem inputsCount_eq_zero_iff (h : l.foldlM (Setting.apply env files) s = .ok t)
    (hs : s.config.inputsCount = 0) :
    t.config.inputsCount = 0 ↔ ∀ x ∈ l, x.letter ≠ some 'j' := by
  refine foldlM_history
    (P := fun past u => u.config.inputsCount = 0 ↔ ∀ x ∈ past, x.letter ≠ some 'j') [] ?_ h
    (by simp [hs])
  intro past u x v huv hu
  rw [(apply_applied huv).inputs]
  rw [List.forall_mem_append, List.forall_mem_singleton, ← hu]
  by_cases hx : x.letter = some 'j'
  · rw [if_pos hx]
    exact ⟨fun h => absurd h (Nat.succ_ne_zero _), fun h => absurd hx h.2⟩
  · rw [if_neg hx]
    exact (and_iff_left hx).symm

/-- The eight options of the file come back; the others are the defaults again. -/
theorem sameOptions_restore_iff {dir dir' : List Char} :
    SameOptions (completed dir c)
        (completed dir' (restore (defaultConfiguration env mapping before) c)) ↔
      Unchanged mapping c := by
  have hvalue {α : Type} [DecidableEq α] (v d : α) : (if v = d then d else v) = v := by
    split
    · next h => exact h.symm
    · rfl
  constructor
  · intro h
    exact ⟨h.supportsHevc, h.streamingRemotely, h.audioConfiguration, h.inputsCount, h.address,
      h.platform, h.mapping⟩
  · rintro ⟨hhevc, hremote, haudio, hinputs, haddress, hplatform, hmapping⟩
    have hsops : c.sops = if c.sops then true else false := by cases c.sops <;> rfl
    have hlocalaudio : c.localaudio = if c.localaudio then true else false := by
      cases c.localaudio <;> rfl
    refine ⟨(hvalue _ _).symm, (hvalue _ _).symm, (hvalue _ _).symm, ?_, (hvalue _ _).symm, hhevc,
      hremote, haudio, (hvalue _ _).symm, hsops, hlocalaudio, hplatform, haddress, hmapping,
      hinputs, ?_⟩
    · simp [completed, completeBitrate, restore, defaultConfiguration, hvalue]
    · intro i hi
      rw [completed, hinputs] at hi
      exact absurd hi (Nat.not_lt_zero _)

theorem completeOptions_ok (h : completeOptions env files s = .ok r) :
    ∃ dir, completeKeyDir env s.config = .ok dir ∧
      r.state = { s with config := completed dir s.config } ∧
      r.saved = s.config.configFile.map fun name => (name, configSave s.config) := by
  obtain ⟨files', _, h⟩ := bind_eq_ok.mp h
  obtain ⟨dir, hdir, h⟩ := bind_eq_ok.mp h
  refine ⟨dir, hdir, ?_⟩
  split at h
  · cases h
  · cases h
    exact ⟨rfl, rfl⟩

/-- A start that saves nothing and has no inputs gets its default directory. -/
theorem completeOptions_plain (hfile : s.config.configFile = none) (hkey : s.config.keyDir = [])
    (hinput : s.inputAdded = false) (hdir : defaultKeyDir env = .ok dir) :
    completeOptions env files s =
      .ok ⟨{ s with config := completed dir s.config }, files, none⟩ := by
  simp [completeOptions, saveOptions, completeKeyDir, hfile, hkey, hdir, hinput]
  rfl

theorem getopt_config : getoptLongOnly optstring longOptions ["-config".toList, name] =
    [⟨'o', name⟩] :=
  getoptLongOnly_exact (o := requiredArgument "config" 'o') (by decide) (by decide) rfl
    (by decide) (by decide)

theorem not_onlyFile_config : ¬ OnlyFile files [prog, "-config".toList, name] := by
  intro h
  simpa using h.1

theorem sources_config
    (hconf : getPath env files "moonlight.conf".toList (some "/etc".toList) = .ok none) :
    sources env files n [prog, "-config".toList, name] = fileSettings files n name := by
  rw [sources, systemSettings, hconf, commandSettings, if_neg not_onlyFile_config]
  rw [List.tail_cons, getopt_config]
  simp [optionSettings]

theorem readOptions_config
    (hmap : getPath env files "mappings/default.conf".toList env.xdgDataDirs = .ok mapping)
    (hconf : getPath env files "moonlight.conf".toList (some "/etc".toList) = .ok none)
    (h : configFileParse env files n name (initialState env mapping before) = .ok (true, t)) :
    readOptions env files n [prog, "-config".toList, name] before = .ok t := by
  rw [readOptions, hmap]
  refine bind_eq_ok.mpr ⟨_, rfl, bind_eq_ok.mpr ⟨initialState env mapping before, ?_, ?_⟩⟩
  · rw [readSystemFile, hconf]
    rfl
  · rw [readCommandLine, if_neg not_onlyFile_config, List.tail_cons, getopt_config]
    refine foldlM_cons_eq_ok.mpr ⟨t, ?_, rfl⟩
    refine bind_eq_ok.mpr ⟨(true, t), h, rfl⟩

/-- The application that a file names is always a line. -/
theorem line_app_fileSettings :
    Line (lastValue Setting.app "Steam".toList (fileSettings files n name)) := by
  refine lastValue_invariant (Word.toLine (by decide)) fun x hx => ?_
  refine fileSettings_forall (Q := fun x => ∀ v, x.app = some v → Line v)
    (fun _ _ _ h => ?_) (fun _ _ h => ?_) (fun _ _ h => ?_) (fun o _ _ v hv w h => ?_) n name x hx
  · cases h
  · cases h
  · cases h
  · simp only [Setting.app, Option.ite_none_right_eq_some, Option.some.injEq] at h
    exact h.2 ▸ hv

/-- What the given options have to be, read off the configuration they lead to. -/
theorem saveable_iff {first : Option (List Char)}
    (hfirst : getPath env files "mappings/default.conf".toList env.xdgDataDirs = .ok first)
    (h : given.foldlM (Setting.apply env files) (initialState env first before) = .ok s) :
    Saveable env files mapping given ↔ Line s.config.app ∧ Unchanged mapping s.config := by
  have hhevc : s.config.stream.supportsHevc = false ↔ ∀ x ∈ given, x.letter ≠ some 'x' :=
    field_eq_default_iff (·.config.stream.supportsHevc) (fun _ _ _ h => h.hevc) (by decide) rfl h
  have hremote : s.config.stream.streamingRemotely = 0 ↔ ∀ x ∈ given, x.letter ≠ some 's' :=
    field_eq_default_iff (·.config.stream.streamingRemotely) (fun _ _ _ h => h.remote)
      (by decide) rfl h
  have haudio : s.config.stream.audioConfiguration = .stereo ↔
      ∀ x ∈ given, x.letter ≠ some 'u' :=
    field_eq_default_iff (·.config.stream.audioConfiguration) (fun _ _ _ h => h.audio)
      (by decide) rfl h
  have hinputs := inputsCount_eq_zero_iff h rfl
  have haddress : s.config.address = none ↔ namesAddress false given = false := by
    simpa [initialState, defaultConfiguration] using address_eq_none_iff h
  have happ : s.config.app = lastValue Setting.app "Steam".toList given :=
    field_lastValue (·.config.app) _ (fun _ _ _ h => h.app) h
  have hplatform : s.config.platform = lastValue Setting.platform "default".toList given :=
    field_lastValue (·.config.platform) _ (fun _ _ _ h => h.platform) h
  have hmapping : s.config.mapping = lastValue (Setting.mapping env files) first given :=
    field_lastValue (·.config.mapping) _ (fun _ _ _ h => h.mapping) h
  constructor
  · rintro ⟨hletters, hno, hdefault, ⟨first', hfirst', hfound⟩, hline⟩
    cases hfirst.symm.trans hfirst'
    exact ⟨happ ▸ hline, hhevc.mpr fun x hx => (hletters x hx).1,
      hremote.mpr fun x hx => (hletters x hx).2.1, haudio.mpr fun x hx => (hletters x hx).2.2.1,
      hinputs.mpr fun x hx => (hletters x hx).2.2.2, haddress.mpr hno, hplatform.trans hdefault,
      hmapping.trans hfound⟩
  · rintro ⟨hline, hx, hs, hu, hj, hno, hdefault, hfound⟩
    exact ⟨fun x h => ⟨hhevc.mp hx x h, hremote.mp hs x h, haudio.mp hu x h, hinputs.mp hj x h⟩,
      haddress.mp hno, hplatform.symm.trans hdefault, ⟨first, hfirst, hmapping.symm.trans hfound⟩,
      happ ▸ hline⟩

/-- A start that is given one file has a line for an application. -/
theorem line_app_configParse
    (hconf : getPath env files "moonlight.conf".toList (some "/etc".toList) = .ok none)
    (h : configParse env files n [prog, "-config".toList, name] before = .ok r) :
    Line r.state.config.app := by
  obtain ⟨s, hread, hcomplete⟩ := bind_eq_ok.mp h
  obtain ⟨dir, _, hstate, _⟩ := completeOptions_ok hcomplete
  obtain ⟨first, _, happly⟩ := readOptions_sources hread
  have happ : s.config.app = lastValue Setting.app "Steam".toList _ :=
    field_lastValue (·.config.app) _ (fun _ _ _ h => h.app) happly
  rw [sources_config hconf] at happ
  rw [hstate, show (completed dir s.config).app = s.config.app from rfl, happ]
  exact line_app_fileSettings

theorem readOptions_saved (hints : Ints c) (happ : Line c.app)
    (hfile : files.contents name = some (configSave c))
    (hconf : getPath env files "moonlight.conf".toList (some "/etc".toList) = .ok none)
    (hmap : getPath env files "mappings/default.conf".toList env.xdgDataDirs = .ok mapping) :
    readOptions env files (n + 1) [prog, "-config".toList, name] before =
      .ok { initialState env mapping before with
        config := restore (defaultConfiguration env mapping before) c } :=
  readOptions_config hmap hconf (configFileParse_configSave hints happ hfile)

/-- What a start is left with that is only given a saved file. -/
theorem configParse_saved (hints : Ints c) (happ : Line c.app)
    (hfile : files.contents name = some (configSave c))
    (hconf : getPath env files "moonlight.conf".toList (some "/etc".toList) = .ok none)
    (h : configParse env files (n + 1) [prog, "-config".toList, name] before = .ok r) :
    ∃ mapping dir,
      getPath env files "mappings/default.conf".toList env.xdgDataDirs = .ok mapping ∧
      defaultKeyDir env = .ok dir ∧
      r.state.config = completed dir (restore (defaultConfiguration env mapping before) c) := by
  obtain ⟨s, hread, hcomplete⟩ := bind_eq_ok.mp h
  obtain ⟨mapping, hmap, _⟩ := readOptions_sources hread
  rw [readOptions_saved hints happ hfile hconf hmap] at hread
  cases hread
  obtain ⟨dir, hdir, hstate, _⟩ := completeOptions_ok hcomplete
  exact ⟨mapping, dir, hmap, hdir, congrArg ConfigState.config hstate⟩

theorem exists_configParse_saved (hints : Ints c) (happ : Line c.app)
    (hfile : files.contents name = some (configSave c))
    (hconf : getPath env files "moonlight.conf".toList (some "/etc".toList) = .ok none)
    (hmap : getPath env files "mappings/default.conf".toList env.xdgDataDirs = .ok mapping)
    (hdir : defaultKeyDir env = .ok dir) :
    ∃ r, configParse env files (n + 1) [prog, "-config".toList, name] before = .ok r ∧
      r.state.config = completed dir (restore (defaultConfiguration env mapping before) c) := by
  have hread : readOptions env files (n + 1) [prog, "-config".toList, name] before = _ :=
    readOptions_saved hints happ hfile hconf hmap
  exact ⟨_, bind_eq_ok.mpr ⟨_, hread, completeOptions_plain rfl rfl rfl hdir⟩, rfl⟩

/-- A second start that is given nothing but the saved file has the options of the first one
exactly when it has its default paths and the first one was given no option that the file cannot
hold. -/
theorem save_restores_iff (hrun : configParse env files n argv before = .ok r)
    (hsaved : r.saved = some (name, text)) (hfile : files'.contents name = some text)
    (hconf : getPath env' files' "moonlight.conf".toList (some "/etc".toList) = .ok none) :
    (∃ r', configParse env' files' (m + 1) [prog, "-config".toList, name] before' = .ok r' ∧
        SameOptions r.state.config r'.state.config) ↔
      ∃ mapping dir,
        getPath env' files' "mappings/default.conf".toList env'.xdgDataDirs = .ok mapping ∧
        defaultKeyDir env' = .ok dir ∧ Saveable env files mapping (sources env files n argv) := by
  obtain ⟨s, hread, hcomplete⟩ := bind_eq_ok.mp hrun
  obtain ⟨dir, _, hstate, hsave⟩ := completeOptions_ok hcomplete
  obtain ⟨first, hfirst, happly⟩ := readOptions_sources hread
  have hints : Ints s.config :=
    foldlM_invariant (P := fun s => Ints s.config) (fun _ _ _ => ints_apply) happly ints_initial
  obtain ⟨filename, _, hentry⟩ := Option.map_eq_some_iff.mp (hsave.symm.trans hsaved)
  cases hentry
  rw [hstate]
  constructor
  · rintro ⟨r', hr', hsame⟩
    have happ : Line s.config.app := by
      have hline := line_app_configParse hconf hr'
      rw [← hsame.app] at hline
      exact hline
    obtain ⟨mapping, dir', hmap, hdir, hstate'⟩ := configParse_saved hints happ hfile hconf hr'
    rw [hstate'] at hsame
    exact ⟨mapping, dir', hmap, hdir,
      (saveable_iff hfirst happly).mpr ⟨happ, sameOptions_restore_iff.mp hsame⟩⟩
  · rintro ⟨mapping, dir', hmap, hdir, hsaveable⟩
    obtain ⟨happ, hfields⟩ := (saveable_iff hfirst happly).mp hsaveable
    obtain ⟨r', hr', hstate'⟩ := exists_configParse_saved hints happ hfile hconf hmap hdir
    refine ⟨r', hr', ?_⟩
    rw [hstate']
    exact sameOptions_restore_iff.mpr hfields

/-- A system with a home directory, where any file can be written. -/
def homeEnv : Env where
  home := some "/home/user".toList
  xdgConfigDir := none
  xdgDataDirs := none
  xdgCacheDir := none
  initialStream := ⟨⟨0, 0, 0, .stereo, [], []⟩, 0, 0, 0, false⟩
  rewrite files name text := some
    { contents := Function.update files.contents name (some text)
      readable := Function.update files.readable name true
      present := Function.update files.present name true }

/-- One file besides the default mapping. -/
def oneFile (name text : List Char) : Files where
  contents := Function.update (fun _ => none) name (some text)
  readable filename := filename = name || filename = "mappings/default.conf".toList
  present filename := filename = name || filename = "mappings/default.conf".toList

def zeroConfiguration : Configuration :=
  ⟨homeEnv.initialStream, [], none, none, none, [], none, [], false, false, false, false, false,
    fun _ => ⟨[], none⟩, 0⟩

def saveLine (options : List String) : List (List Char) :=
  ["moonlight".toList] ++ options.map String.toList ++ ["-save".toList, "saved".toList]

/-- The options that are no numbers, no switches of two values and no application are lost. -/
theorem remote_lost :
    (configParse homeEnv (oneFile [] []) 1 (saveLine ["stream", "-remote"])
        zeroConfiguration).map (fun r => (r.state.config.stream.streamingRemotely, r.saved)) =
      .ok (1, some ("saved".toList, [])) ∧
    (configParse homeEnv (oneFile "saved".toList []) 1 ["moonlight".toList, "-config".toList,
        "saved".toList] zeroConfiguration).map (·.state.config.stream.streamingRemotely) =
      .ok 0 := by
  constructor <;> decide +kernel

theorem save_restores_width : ∃ r r' text,
    configParse homeEnv (oneFile [] []) 1 (saveLine ["stream", "-width", "640", "-app=Doom II"])
      zeroConfiguration = .ok r ∧
    configParse homeEnv (oneFile "saved".toList text) 1
      ["moonlight".toList, "-config".toList, "saved".toList] zeroConfiguration = .ok r' ∧
    r.saved = some ("saved".toList, text) ∧ SameOptions r.state.config r'.state.config := by
  have hsaved : (configParse homeEnv (oneFile [] []) 1
      (saveLine ["stream", "-width", "640", "-app=Doom II"]) zeroConfiguration).map (·.saved) =
      .ok (some ("saved".toList, "width = 640\napp = Doom II\n".toList)) := by decide +kernel
  have hgiven : sources homeEnv (oneFile [] []) 1
      (saveLine ["stream", "-width", "640", "-app=Doom II"]) =
      [.option '\x01' "stream".toList, .option 'c' "640".toList, .option 'i' "Doom II".toList,
        .option 'q' "saved".toList] := by decide +kernel
  obtain ⟨r, hr, hsaved⟩ := map_eq_ok.mp hsaved
  have hdir : defaultKeyDir homeEnv = .ok "/home/user/.cache/moonlight".toList := by
    decide +kernel
  have hsaveable : Saveable homeEnv (oneFile [] []) (some "mappings/default.conf".toList)
      (sources homeEnv (oneFile [] []) 1
        (saveLine ["stream", "-width", "640", "-app=Doom II"])) := by
    rw [hgiven]
    refine ⟨by decide, by decide, by decide, ?_, ?_⟩
    · exact ⟨some "mappings/default.conf".toList, by decide +kernel, by decide⟩
    · exact ⟨⟨'D', "oom II".toList, by decide, by decide⟩, by decide, by decide⟩
  have hiff : (∃ r', configParse homeEnv
      (oneFile "saved".toList "width = 640\napp = Doom II\n".toList) 1
      ["moonlight".toList, "-config".toList, "saved".toList] zeroConfiguration = .ok r' ∧
        SameOptions r.state.config r'.state.config) ↔ _ :=
    save_restores_iff hr hsaved (by decide +kernel) (by decide +kernel)
  obtain ⟨r', hr', hsame⟩ := hiff.mpr ⟨_, _, by decide +kernel, hdir, hsaveable⟩
  exact ⟨r, r', _, hr, hr', hsaved, hsame⟩

end Moonlight
