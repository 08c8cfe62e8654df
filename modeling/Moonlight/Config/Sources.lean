import Moonlight.Lib.Fold
import Moonlight.Config.Parse

/-! The options that a start of the program is given, file by file and in order, and that reading
them is applying them one by one. -/
namespace Moonlight

open Lib.Fold Lib.Getopt Lib.Stdio

/-- One option, wherever it was read. -/
inductive Setting where
  | option (c : Char) (value : List Char)
  | address (value : List Char)
  | sops (on : Bool)
  | localaudio (on : Bool)
  | action (value : List Char)
  deriving DecidableEq

variable (env : Env) (files : Files)

def Setting.apply (s : ConfigState) : Setting → Except Halt ConfigState
  | .option c value => parseArgument env files (fun _ _ => .error .unfinished) c value s
  | .address value => .ok { s with config.address := some value }
  | .sops on => .ok { s with config.sops := on }
  | .localaudio on => .ok { s with config.localaudio := on }
  | .action value => .ok { s with config.action := some value }

/-- An option that is no file stands for itself. -/
def optionSettings (expand : List Char → List Setting) (c : Char) (value : List Char) :
    List Setting :=
  if c = 'o' then expand value else [.option c value]

def lineSettings (expand : List Char → List Setting) (line : List Char) : List Setting :=
  match scanAssign scanLine line with
  | none => []
  | some (key, value) =>
    if key = "address".toList then [.address value]
    else if key = "sops".toList then [.sops (value = "true".toList)]
    else if key = "localaudio".toList then [.localaudio (value = "true".toList)]
    else (longOptions.filter (fun o => o.required && o.name = key)).flatMap
      fun o => optionSettings expand o.val value

/-- The options of a file, with the files it names expanded in place. -/
def fileSettings : Nat → List Char → List Setting
  | 0, _ => []
  | n + 1, filename =>
    match files.contents filename with
    | none => []
    | some text => (getlines text).flatMap (lineSettings (fileSettings n))

/-- The options of `moonlight.conf`. -/
def systemSettings (n : Nat) : List Setting :=
  match getPath env files "moonlight.conf".toList (some "/etc".toList) with
  | .ok (some configFile) => fileSettings files n configFile
  | _ => []

/-- The options of the command line. -/
def commandSettings (n : Nat) (argv : List (List Char)) : List Setting :=
  if OnlyFile files argv then
    .action "stream".toList :: fileSettings files n (argv.getD 1 [])
  else
    (getoptLongOnly optstring longOptions argv.tail).flatMap
      fun o => optionSettings (fileSettings files n) o.code o.optarg

/-- Everything `config_parse` is given, in the order it is read. -/
def sources (n : Nat) (argv : List (List Char)) : List Setting :=
  systemSettings env files n ++ commandSettings files n argv

variable {env files} {n : Nat} {s t : ConfigState} {c : Char} {value line name : List Char}
  {ok : Bool} {argv args : List (List Char)} {before : Configuration}
  {parse : List Char → ConfigState → Except Halt (Bool × ConfigState)}
  {expand : List Char → List Setting}

/-- `parse_argument` calls for a file only on one option. -/
theorem parseArgument_leaf (h : c ≠ 'o') :
    parseArgument env files parse c value s = (Setting.option c value).apply env files s := by
  unfold Setting.apply parseArgument
  split <;> first | rfl | contradiction | simp [*]

/-- What is read from a file is what the file gives, applied in order. -/
def Expands (env : Env) (files : Files)
    (parse : List Char → ConfigState → Except Halt (Bool × ConfigState))
    (expand : List Char → List Setting) : Prop :=
  ∀ name s ok t, parse name s = .ok (ok, t) →
    (expand name).foldlM (Setting.apply env files) s = .ok t

theorem parseArgument_settings (hparse : Expands env files parse expand)
    (h : parseArgument env files parse c value s = .ok t) :
    (optionSettings expand c value).foldlM (Setting.apply env files) s = .ok t := by
  rw [optionSettings]
  split
  · next hc =>
    subst hc
    obtain ⟨⟨ok, u⟩, hu, hok⟩ := bind_eq_ok.mp h
    cases ok with
    | false => cases hok
    | true =>
      cases hok
      exact hparse value s true _ hu
  · next hc =>
    rw [parseArgument_leaf hc] at h
    exact foldlM_cons_eq_ok.mpr ⟨t, h, rfl⟩

theorem configLine_settings (hparse : Expands env files parse expand)
    (h : configLine env files parse s line = .ok t) :
    (lineSettings expand line).foldlM (Setting.apply env files) s = .ok t := by
  rw [configLine] at h
  rw [lineSettings]
  cases hscan : scanAssign scanLine line with
  | none =>
    rw [hscan] at h
    exact h
  | some assign =>
    obtain ⟨key, value⟩ := assign
    rw [hscan] at h
    dsimp only at h ⊢
    split_ifs at h ⊢
    · exact foldlM_cons_eq_ok.mpr ⟨t, h, rfl⟩
    · exact foldlM_cons_eq_ok.mpr ⟨t, h, rfl⟩
    · exact foldlM_cons_eq_ok.mpr ⟨t, h, rfl⟩
    · exact foldlM_flatMap (fun s o t ht => parseArgument_settings hparse ht) h

theorem lineSettings_forall {Q : Setting → Prop} {x : Setting}
    (haddress : ∀ v, Line v → Q (.address v)) (hsops : ∀ on, Q (.sops on))
    (hlocalaudio : ∀ on, Q (.localaudio on))
    (hoption : ∀ o ∈ longOptions, o.required = true → ∀ v, Line v → Q (.option o.val v))
    (hexpand : ∀ name, ∀ x ∈ expand name, Q x) (hx : x ∈ lineSettings expand line) : Q x := by
  rw [lineSettings] at hx
  cases hscan : scanAssign scanLine line with
  | none =>
    rw [hscan] at hx
    cases hx
  | some assign =>
    obtain ⟨key, value⟩ := assign
    have hvalue := line_of_scanAssign hscan
    rw [hscan] at hx
    dsimp only at hx
    split_ifs at hx
    · obtain rfl := List.mem_singleton.mp hx
      exact haddress value hvalue
    · obtain rfl := List.mem_singleton.mp hx
      exact hsops _
    · obtain rfl := List.mem_singleton.mp hx
      exact hlocalaudio _
    · obtain ⟨o, ho, hx⟩ := List.mem_flatMap.mp hx
      obtain ⟨hmem, hreq⟩ := List.mem_filter.mp ho
      rw [optionSettings] at hx
      split_ifs at hx
      · exact hexpand value x hx
      · obtain rfl := List.mem_singleton.mp hx
        exact hoption o hmem (Bool.and_eq_true_iff.mp hreq).1 value hvalue

/-- What holds of every line of a file holds of everything a file gives. -/
theorem fileSettings_forall {Q : Setting → Prop} (haddress : ∀ v, Line v → Q (.address v))
    (hsops : ∀ on, Q (.sops on)) (hlocalaudio : ∀ on, Q (.localaudio on))
    (hoption : ∀ o ∈ longOptions, o.required = true → ∀ v, Line v → Q (.option o.val v))
    (n : Nat) : ∀ name, ∀ x ∈ fileSettings files n name, Q x := by
  induction n with
  | zero =>
    intro name x hx
    cases hx
  | succ n ih =>
    intro name x hx
    rw [fileSettings] at hx
    cases hfile : files.contents name with
    | none =>
      rw [hfile] at hx
      cases hx
    | some text =>
      rw [hfile] at hx
      obtain ⟨line, _, hx⟩ := List.mem_flatMap.mp hx
      exact lineSettings_forall haddress hsops hlocalaudio hoption ih hx

/-- A file that was read had its options applied in order, included files in place. -/
theorem configFileParse_settings (n : Nat) :
    Expands env files (configFileParse env files n) (fileSettings files n) := by
  induction n with
  | zero =>
    intro name s ok t h
    cases h
  | succ n ih =>
    intro name s ok t h
    rw [configFileParse] at h
    rw [fileSettings]
    cases hfile : files.contents name with
    | none =>
      rw [hfile] at h
      cases h
      rfl
    | some text =>
      rw [hfile] at h
      obtain ⟨u, hu, hok⟩ := bind_eq_ok.mp h
      cases hok
      exact foldlM_flatMap (fun s line t ht => configLine_settings ih ht) hu

theorem readSystemFile_settings (h : readSystemFile env files n s = .ok t) :
    (systemSettings env files n).foldlM (Setting.apply env files) s = .ok t := by
  obtain ⟨conf, hconf, h⟩ := bind_eq_ok.mp h
  rw [systemSettings, hconf]
  cases conf with
  | none => exact h
  | some configFile =>
    obtain ⟨⟨ok, u⟩, hu, rfl⟩ := map_eq_ok.mp h
    exact configFileParse_settings n configFile s ok u hu

theorem readCommandLine_settings (h : readCommandLine env files n argv s = .ok t) :
    (commandSettings files n argv).foldlM (Setting.apply env files) s = .ok t := by
  rw [readCommandLine] at h
  rw [commandSettings]
  split_ifs at h ⊢
  · obtain ⟨⟨ok, u⟩, hu, hok⟩ := bind_eq_ok.mp h
    cases ok with
    | false => cases hok
    | true =>
      cases hok
      exact foldlM_cons_eq_ok.mpr ⟨_, rfl, configFileParse_settings n _ _ true t hu⟩
  · exact foldlM_flatMap (fun _ _ _ ht => parseArgument_settings (configFileParse_settings n) ht) h

/-- Reading the options is applying all of them in order to the defaults. -/
theorem readOptions_sources (h : readOptions env files n argv before = .ok t) :
    ∃ mapping, getPath env files "mappings/default.conf".toList env.xdgDataDirs = .ok mapping ∧
      (sources env files n argv).foldlM (Setting.apply env files)
        (initialState env mapping before) = .ok t := by
  obtain ⟨mapping, hmapping, h⟩ := bind_eq_ok.mp h
  obtain ⟨u, hu, h⟩ := bind_eq_ok.mp h
  refine ⟨mapping, hmapping, foldlM_append_eq_ok.mpr ⟨u, ?_, ?_⟩⟩
  · exact readSystemFile_settings hu
  · exact readCommandLine_settings h

end Moonlight
