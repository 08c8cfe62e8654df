import Moonlight.Config.Fields

/-! Reading back the file that `config_save` writes. -/
namespace Moonlight

open Lib.Fold Lib.Machine Lib.Stdio

variable {env : Env} {files : Files} {s t : ConfigState} {x : Setting} {c : Configuration}
  {key value name : List Char} {n : Nat} {v : Int} {l : List Setting}
  {parse : List Char → ConfigState → Except Halt (Bool × ConfigState)}

/-- An `int`. -/
def IsInt (v : Int) : Prop := -2147483648 ≤ v ∧ v ≤ 2147483647

/-- The numbers of the configuration are an `int` each. -/
structure Ints (c : Configuration) : Prop where
  width : IsInt c.stream.width
  height : IsInt c.stream.height
  fps : IsInt c.stream.fps
  bitrate : IsInt c.stream.bitrate
  packetSize : IsInt c.stream.packetSize

theorem isInt_atoi : IsInt (atoi value) := wrap_int_bounds _

theorem atoi_printDec (h : IsInt v) : atoi (printDec v) = v := by
  obtain ⟨hlo, hhi⟩ := h
  rw [atoi, strtol_printDec (by unfold LONG_MIN; omega) (by unfold LONG_MAX; omega)]
  exact wrap_int hlo hhi

theorem ints_initial {mapping : Option (List Char)} {before : Configuration} :
    Ints (initialState env mapping before).config := by
  constructor <;> simp [IsInt, initialState, defaultConfiguration]

theorem isInt_getD {o : Option Int} (ho : ∀ w, o = some w → IsInt w) (hv : IsInt v) :
    IsInt (o.getD v) := by
  cases o with
  | none => exact hv
  | some w => exact ho w rfl

/-- Every number that an option gives is an `int`. -/
theorem isInt_setting {w : Int} (h : x.width = some w ∨ x.height = some w ∨ x.fps = some w ∨
    x.bitrate = some w ∨ x.packetSize = some w) : IsInt w := by
  cases x with
  | option c value =>
    have hatoi : IsInt (atoi value) := isInt_atoi
    simp only [Setting.width, Setting.height, Setting.fps, Setting.bitrate,
      Setting.packetSize] at h
    rcases h with h | h | h | h | h
    all_goals
      split at h <;> cases h <;> first | exact hatoi | exact ⟨by decide, by decide⟩
  | address _ | sops _ | localaudio _ | action _ => simp at h

theorem ints_apply (h : x.apply env files s = .ok t) (hs : Ints s.config) : Ints t.config := by
  have hx := apply_applied h
  constructor
  · rw [hx.width]
    exact isInt_getD (fun w hw => isInt_setting (Or.inl hw)) hs.width
  · rw [hx.height]
    exact isInt_getD (fun w hw => isInt_setting (Or.inr (Or.inl hw))) hs.height
  · rw [hx.fps]
    exact isInt_getD (fun w hw => isInt_setting (Or.inr (Or.inr (Or.inl hw)))) hs.fps
  · rw [hx.bitrate]
    exact isInt_getD (fun w hw => isInt_setting (Or.inr (Or.inr (Or.inr (Or.inl hw)))))
      hs.bitrate
  · rw [hx.packetSize]
    exact isInt_getD (fun w hw => isInt_setting (Or.inr (Or.inr (Or.inr (Or.inr hw)))))
      hs.packetSize

/-- The configuration with what a saved file says. -/
def restore (d c : Configuration) : Configuration :=
  { d with
    stream :=
      { d.stream with
        width := if c.stream.width = 1280 then d.stream.width else c.stream.width
        height := if c.stream.height = 720 then d.stream.height else c.stream.height
        fps := if c.stream.fps = 60 then d.stream.fps else c.stream.fps
        bitrate := if c.stream.bitrate = -1 then d.stream.bitrate else c.stream.bitrate
        packetSize :=
          if c.stream.packetSize = 1024 then d.stream.packetSize else c.stream.packetSize }
    sops := if c.sops then d.sops else false
    localaudio := if c.localaudio then true else d.localaudio
    app := if c.app = "Steam".toList then d.app else c.app }

/-- The line for one key. -/
def entryLine (e : List Char × List Char) : List Char := e.1 ++ " = ".toList ++ e.2 ++ ['\n']

/-- Lines that are read one after the other. -/
def Reads (env : Env) (files : Files)
    (parse : List Char → ConfigState → Except Halt (Bool × ConfigState))
    (entries : List (List Char × List Char)) (s t : ConfigState) : Prop :=
  entries.foldlM (fun s e => configLine env files parse s (entryLine e)) s = .ok t

theorem Reads.append {es es' : List (List Char × List Char)} {u : ConfigState}
    (h : Reads env files parse es s t) (h' : Reads env files parse es' t u) :
    Reads env files parse (es ++ es') s u :=
  foldlM_append_eq_ok.mpr ⟨t, h, h'⟩

theorem Reads.one (h : configLine env files parse s (entryLine (key, value)) = .ok t) :
    Reads env files parse [(key, value)] s t :=
  foldlM_cons_eq_ok.mpr ⟨t, h, rfl⟩

theorem configLine_entry (hk : Word key) (hv : Line value) :
    configLine env files parse s (entryLine (key, value)) =
      if key = "address".toList then .ok { s with config.address := some value }
      else if key = "sops".toList then .ok { s with config.sops := value = "true".toList }
      else if key = "localaudio".toList then
        .ok { s with config.localaudio := value = "true".toList }
      else (longOptions.filter (fun o => o.required && o.name = key)).foldlM
        (fun s o => parseArgument env files parse o.val value s) s := by
  have hline : entryLine (key, value) = key ++ ' ' :: '=' :: ' ' :: (value ++ ['\n']) := by
    simp [entryLine]
  rw [configLine, hline, scanAssign_line hk hv]

/-- A number that is left out or written, through the option that reads it. -/
theorem reads_number (key : String) (d : Int) (set : Int → ConfigState → ConfigState)
    (get : ConfigState → Int)
    (hset : ∀ value, Line value → configLine env files parse s (entryLine (key.toList, value)) =
      .ok (set (atoi value) s))
    (hget : set (get s) s = s) (hv : IsInt v) :
    Reads env files parse (if v = d then [] else [(key.toList, printDec v)]) s
      (set (if v = d then get s else v) s) := by
  split
  · rw [hget]
    exact rfl
  · have hline := hset _ (word_printDec (v := v)).toLine
    rw [atoi_printDec hv] at hline
    exact Reads.one hline

/-- The lines of a saved file are read one after the other. -/
theorem reads_savedEntries (hc : Ints c) (happ : Line c.app) :
    Reads env files parse (savedEntries c) s { s with config := restore s.config c } := by
  have width (s) : Reads env files parse _ s _ :=
    reads_number "width" 1280 (fun v s => { s with config.stream.width := v })
      (·.config.stream.width) (fun _ hv => by rw [configLine_entry (by decide) hv]; rfl)
      rfl hc.width
  have height (s) : Reads env files parse _ s _ :=
    reads_number "height" 720 (fun v s => { s with config.stream.height := v })
      (·.config.stream.height) (fun _ hv => by rw [configLine_entry (by decide) hv]; rfl)
      rfl hc.height
  have fps (s) : Reads env files parse _ s _ :=
    reads_number "fps" 60 (fun v s => { s with config.stream.fps := v })
      (·.config.stream.fps) (fun _ hv => by rw [configLine_entry (by decide) hv]; rfl)
      rfl hc.fps
  have bitrate (s) : Reads env files parse _ s _ :=
    reads_number "bitrate" (-1) (fun v s => { s with config.stream.bitrate := v })
      (·.config.stream.bitrate) (fun _ hv => by rw [configLine_entry (by decide) hv]; rfl)
      rfl hc.bitrate
  have packetSize (s) : Reads env files parse _ s _ :=
    reads_number "packetsize" 1024 (fun v s => { s with config.stream.packetSize := v })
      (·.config.stream.packetSize) (fun _ hv => by rw [configLine_entry (by decide) hv]; rfl)
      rfl hc.packetSize
  have sops (s) : Reads env files parse
      (if c.sops then [] else [("sops".toList, "false".toList)]) s
      { s with config.sops := if c.sops then s.config.sops else false } := by
    split
    · exact rfl
    · refine Reads.one ?_
      rw [configLine_entry (by decide) (Word.toLine (by decide))]
      rfl
  have localaudio (s) : Reads env files parse
      (if c.localaudio then [("localaudio".toList, "true".toList)] else []) s
      { s with config.localaudio := if c.localaudio then true else s.config.localaudio } := by
    split
    · refine Reads.one ?_
      rw [configLine_entry (by decide) (Word.toLine (by decide))]
      rfl
    · exact rfl
  have app (s) : Reads env files parse
      (if c.app = "Steam".toList then [] else [("app".toList, c.app)]) s
      { s with config.app := if c.app = "Steam".toList then s.config.app else c.app } := by
    split
    · exact rfl
    · refine Reads.one ?_
      rw [configLine_entry (by decide) happ]
      rfl
  have stream := ((((width s).append (height _)).append (fps _)).append (bitrate _)).append
    (packetSize _)
  exact ((stream.append (sops _)).append (localaudio _)).append (app _)

/-- An entry is its key and the value that belongs to it. -/
theorem savedEntries_cases {e : List Char × List Char} (h : e ∈ savedEntries c) :
    Word e.1 ∧ (Word e.2 ∨ e.2 = c.app) := by
  simp only [savedEntries, List.mem_append, List.mem_ite_nil_left, List.mem_ite_nil_right,
    List.mem_singleton] at h
  rcases h with ((((((⟨_, rfl⟩ | ⟨_, rfl⟩) | ⟨_, rfl⟩) | ⟨_, rfl⟩) | ⟨_, rfl⟩) | ⟨_, rfl⟩) |
    ⟨_, rfl⟩) | ⟨_, rfl⟩
  · exact ⟨by dsimp only; decide, Or.inl word_printDec⟩
  · exact ⟨by dsimp only; decide, Or.inl word_printDec⟩
  · exact ⟨by dsimp only; decide, Or.inl word_printDec⟩
  · exact ⟨by dsimp only; decide, Or.inl word_printDec⟩
  · exact ⟨by dsimp only; decide, Or.inl word_printDec⟩
  · exact ⟨by dsimp only; decide, Or.inl (by dsimp only; decide)⟩
  · exact ⟨by dsimp only; decide, Or.inl (by dsimp only; decide)⟩
  · exact ⟨by dsimp only; decide, Or.inr rfl⟩

theorem getlines_configSave (happ : '\n' ∉ c.app) :
    getlines (configSave c) = (savedEntries c).map entryLine := by
  have htext : configSave c =
      ((savedEntries c).map fun e => e.1 ++ " = ".toList ++ e.2).flatMap (· ++ ['\n']) := by
    rw [List.flatMap_map]
    rfl
  have hnl : ∀ l ∈ (savedEntries c).map fun e => e.1 ++ " = ".toList ++ e.2, '\n' ∉ l := by
    intro l hl
    obtain ⟨e, he, rfl⟩ := List.mem_map.mp hl
    obtain ⟨hkey, hvalue⟩ := savedEntries_cases he
    have hv : '\n' ∉ e.2 := by
      rcases hvalue with hword | happ'
      · exact hword.not_newline
      · rwa [happ']
    simp [hkey.not_newline, hv]
  rw [htext, getlines_flatten hnl, List.map_map]
  rfl

/-- A saved file restores what it holds and changes nothing else. -/
theorem configFileParse_configSave (hc : Ints c) (happ : Line c.app)
    (hfile : files.contents name = some (configSave c)) :
    configFileParse env files (n + 1) name s =
      .ok (true, { s with config := restore s.config c }) := by
  have hreads : Reads env files (configFileParse env files n) (savedEntries c) s _ :=
    reads_savedEntries hc happ
  rw [Reads] at hreads
  rw [configFileParse, hfile]
  dsimp only
  rw [getlines_configSave happ.newline, List.foldlM_map, hreads]
  rfl

end Moonlight
