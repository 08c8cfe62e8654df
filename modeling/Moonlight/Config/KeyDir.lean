import Moonlight.Config.Sources

/-! Which options make `config_parse` write past the end of `key_dir`. -/
namespace Moonlight

open Lib.Fold Lib.Getopt Lib.Stdio

/-- The text that an option copies into `key_dir`. -/
def Setting.keyDir : Setting → Option (List Char)
  | .option c value => if c = 'r' then some value else none
  | _ => none

/-- An option that stays inside `key_dir`. -/
def Setting.KeyDirFits (x : Setting) : Prop := ∀ dir, x.keyDir = some dir → dir.length < 4096

/-- The directory for keys that no option names; the text of an unset `HOME` has no meaning. -/
def keyDirDefault (env : Env) : Option (List Char) :=
  match env.xdgCacheDir, env.home with
  | some dir, _ => some (dir ++ "/moonlight".toList)
  | none, some home => some (home ++ "/.cache/moonlight".toList)
  | none, none => none

variable {env : Env} {files : Files} {s t : ConfigState} {x : Setting} {l : List Setting}
  {c : Char} {value line name dir : List Char} {extra : Option (List Char)} {n : Nat}
  {argv : List (List Char)} {config : Configuration}
  {parse : List Char → ConfigState → Except Halt (Bool × ConfigState)}
  {expand : List Char → List Setting}

theorem storeKeyDir_eq_ok : storeKeyDir value = .ok dir ↔ value = dir ∧ dir.length < 4096 := by
  unfold storeKeyDir
  split
  · next h =>
    constructor
    · intro hok
      cases hok
      exact ⟨rfl, h⟩
    · rintro ⟨rfl, _⟩
      rfl
  · next h =>
    constructor
    · intro hok
      cases hok
    · rintro ⟨rfl, hlen⟩
      exact absurd hlen h

theorem defaultKeyDir_eq_ok :
    defaultKeyDir env = .ok dir ↔ keyDirDefault env = some dir ∧ dir.length < 4096 := by
  unfold defaultKeyDir keyDirDefault
  cases env.xdgCacheDir with
  | some cache => simp [storeKeyDir_eq_ok]
  | none =>
    cases env.home with
    | some home => simp [storeKeyDir_eq_ok]
    | none => simp

/-- An option that is read without writing past `key_dir` fits. -/
theorem apply_keyDirFits (h : x.apply env files s = .ok t) : x.KeyDirFits := by
  intro dir hx
  cases x with
  | option c value =>
    obtain ⟨rfl, rfl⟩ : c = 'r' ∧ value = dir := by simpa [Setting.keyDir] using hx
    obtain ⟨keyDir, hstore, _⟩ := bind_eq_ok.mp h
    obtain ⟨rfl, hlen⟩ := storeKeyDir_eq_ok.mp hstore
    exact hlen
  | address value | sops on | localaudio on | action value => cases hx

theorem foldlM_keyDirFits (h : l.foldlM (Setting.apply env files) s = .ok t) :
    ∀ x ∈ l, x.KeyDirFits := by
  induction l generalizing s with
  | nil => exact fun _ hx => absurd hx List.not_mem_nil
  | cons x l ih =>
    obtain ⟨u, hu, hrest⟩ := foldlM_cons_eq_ok.mp h
    exact List.forall_mem_cons.mpr ⟨apply_keyDirFits hu, ih hrest⟩

theorem storeKeyDir_avoids (h : value.length < 4096) : Avoids .undefined (storeKeyDir value) := by
  rw [storeKeyDir, if_pos h]
  exact .ok

theorem getPath_avoids (hhome : env.home ≠ none) :
    Avoids .undefined (getPath env files name extra) := by
  obtain ⟨home, hhome⟩ := Option.ne_none_iff_exists'.mp hhome
  rw [getPath, hhome]
  split <;> exact .ok

/-- With a home directory, an option that fits has a meaning. -/
theorem apply_avoids (hhome : env.home ≠ none) (hx : x.KeyDirFits) :
    Avoids .undefined (x.apply env files s) := by
  cases x with
  | option c value =>
    rw [Setting.apply]
    unfold parseArgument
    split
    case h_10 => -- input
      split
      · exact .ok
      · exact .error (by decide)
    case h_11 => -- mapping
      refine (getPath_avoids hhome).bind fun found _ => ?_
      cases found with
      | none => exact .error (by decide)
      | some path => exact .ok
    case h_15 => exact .error (by decide)
    case h_18 => -- keydir
      exact (storeKeyDir_avoids (hx value rfl)).bind fun keyDir _ => .ok
    case h_26 => -- a word that is no option
      split
      · exact .ok
      · exact .ok
      · exact .error (by decide)
    all_goals exact .ok
  | address value | sops on | localaudio on | action value => exact .ok

/-- What is read from a file has a meaning if all that the file gives fits. -/
def Fitting (parse : List Char → ConfigState → Except Halt (Bool × ConfigState))
    (expand : List Char → List Setting) : Prop :=
  ∀ name s, (∀ x ∈ expand name, x.KeyDirFits) → Avoids .undefined (parse name s)

theorem parseArgument_avoids (hhome : env.home ≠ none) (hparse : Fitting parse expand)
    (h : ∀ x ∈ optionSettings expand c value, x.KeyDirFits) :
    Avoids .undefined (parseArgument env files parse c value s) := by
  rw [optionSettings] at h
  split at h
  · next hc =>
    subst hc
    refine (hparse value s h).bind fun read _ => ?_
    obtain ⟨ok, u⟩ := read
    cases ok with
    | false => exact .error (by decide)
    | true => exact .ok
  · next hc =>
    rw [parseArgument_leaf hc]
    exact apply_avoids hhome (h _ List.mem_cons_self)

theorem configLine_avoids (hhome : env.home ≠ none) (hparse : Fitting parse expand)
    (h : ∀ x ∈ lineSettings expand line, x.KeyDirFits) :
    Avoids .undefined (configLine env files parse s line) := by
  rw [configLine]
  rw [lineSettings] at h
  cases hscan : scanAssign scanLine line with
  | none => exact .ok
  | some assign =>
    obtain ⟨key, value⟩ := assign
    rw [hscan] at h
    dsimp only at h ⊢
    split_ifs at h ⊢
    · exact .ok
    · exact .ok
    · exact .ok
    · exact .foldlM fun o ho s =>
        parseArgument_avoids hhome hparse (List.forall_mem_flatMap.mp h o ho)

theorem configFileParse_fitting (hhome : env.home ≠ none) (n : Nat) :
    Fitting (configFileParse env files n) (fileSettings files n) := by
  induction n with
  | zero => exact fun _ _ _ => .error (by decide)
  | succ n ih =>
    intro name s h
    rw [configFileParse]
    rw [fileSettings] at h
    cases hfile : files.contents name with
    | none => exact .ok
    | some text =>
      rw [hfile] at h
      refine Avoids.bind (.foldlM fun line hline s => ?_) fun _ _ => .ok
      exact configLine_avoids hhome ih (List.forall_mem_flatMap.mp h line hline)

theorem readSystemFile_avoids (hhome : env.home ≠ none)
    (h : ∀ x ∈ systemSettings env files n, x.KeyDirFits) :
    Avoids .undefined (readSystemFile env files n s) := by
  refine (getPath_avoids hhome).bind fun conf hconf => ?_
  rw [systemSettings, hconf] at h
  cases conf with
  | none => exact .ok
  | some configFile => exact (configFileParse_fitting hhome n configFile s h).map

theorem readCommandLine_avoids (hhome : env.home ≠ none)
    (h : ∀ x ∈ commandSettings files n argv, x.KeyDirFits) :
    Avoids .undefined (readCommandLine env files n argv s) := by
  rw [readCommandLine]
  rw [commandSettings] at h
  split_ifs at h ⊢
  · refine (configFileParse_fitting hhome n _ _ (List.forall_mem_cons.mp h).2).bind
      fun read _ => ?_
    obtain ⟨ok, u⟩ := read
    cases ok with
    | false => exact .error (by decide)
    | true => exact .ok
  · exact .foldlM fun o ho s => parseArgument_avoids hhome (configFileParse_fitting hhome n)
      (List.forall_mem_flatMap.mp h o ho)

theorem readOptions_avoids {before : Configuration} (hhome : env.home ≠ none)
    (h : ∀ x ∈ sources env files n argv, x.KeyDirFits) :
    Avoids .undefined (readOptions env files n argv before) := by
  obtain ⟨hsystem, hcommand⟩ := List.forall_mem_append.mp h
  exact (getPath_avoids hhome).bind fun mapping _ =>
    (readSystemFile_avoids hhome hsystem).bind fun u _ => readCommandLine_avoids hhome hcommand

/-- The second half of `config_parse` writes `key_dir` once more, if no option did. -/
theorem completeOptions_avoids (hhome : env.home ≠ none)
    (h : s.config.keyDir = [] → ∀ dir, keyDirDefault env = some dir → dir.length < 4096) :
    Avoids .undefined (completeOptions env files s) := by
  have hkeyDir : Avoids .undefined (completeKeyDir env s.config) := by
    unfold completeKeyDir
    split
    · next hnone =>
      obtain ⟨home, hhome⟩ := Option.ne_none_iff_exists'.mp hhome
      unfold defaultKeyDir
      unfold keyDirDefault at h
      rw [hhome] at h ⊢
      cases hcache : env.xdgCacheDir with
      | some cache =>
        rw [hcache] at h
        exact storeKeyDir_avoids (h hnone _ rfl)
      | none =>
        rw [hcache] at h
        exact storeKeyDir_avoids (h hnone _ rfl)
    · exact .ok
  have hsave : Avoids .undefined (saveOptions env files s.config) := by
    unfold saveOptions
    split
    · exact .ok
    · split
      · exact .error (by decide)
      · exact .ok
  refine hsave.bind fun saved _ => hkeyDir.bind fun dir _ => ?_
  split
  · exact .error (by decide)
  · exact .ok

end Moonlight
