import Moonlight.Lib.Depth
import Moonlight.Config.Reload

/-! Files that name other files with `config = path`: what their expansion in place is, and when
reading them comes to an end. -/
namespace Moonlight

open Lib.Depth Lib.Fold Lib.Stdio Relation

/-- A line that includes a file. -/
def IncludeLine (line name : List Char) : Prop :=
  scanAssign scanLine line = some ("config".toList, name)

/-- The options of lines, with the files they include expanded in place. -/
inductive Unfolds (files : Files) : List (List Char) → List Setting → Prop where
  | nil : Unfolds files [] []
  | option {line : List Char} {lines : List (List Char)} {l : List Setting}
      (hline : ∀ name, ¬ IncludeLine line name) (hlines : Unfolds files lines l) :
      Unfolds files (line :: lines) (lineSettings (fun _ => []) line ++ l)
  | included {line name text : List Char} {lines : List (List Char)} {l l' : List Setting}
      (hline : IncludeLine line name) (hfile : files.contents name = some text)
      (htext : Unfolds files (getlines text) l) (hlines : Unfolds files lines l') :
      Unfolds files (line :: lines) (l ++ l')

/-- An option that a file can give and that never ends the program, however often it is read: no
input, a mapping that is found, a directory for keys that fits. -/
def Setting.Harmless (env : Env) (files : Files) : Setting → Prop
  | .option c value =>
    c ≠ 'j' ∧ c ≠ 'o' ∧ c ≠ '\x01' ∧
    (c = 'k' → ∃ path, getPath env files value env.xdgDataDirs = .ok (some path)) ∧
    (c = 'r' → value.length < 4096)
  | _ => True

/-- One file names another one, and the lines before that are harmless. -/
def LeadsTo (env : Env) (files : Files) (name next : List Char) : Prop :=
  ∃ text pre line post l, files.contents name = some text ∧ getlines text = pre ++ line :: post ∧
    IncludeLine line next ∧ Unfolds files pre l ∧ ∀ x ∈ l, x.Harmless env files

/-- One file names another one. -/
def Includes (files : Files) (name next : List Char) : Prop :=
  ∃ text, files.contents name = some text ∧ ∃ line ∈ getlines text, IncludeLine line next

variable {env : Env} {files : Files} {s t u : ConfigState} {x : Setting} {c : Char} {n m : Nat}
  {line name next value text : List Char} {lines : List (List Char)} {l : List Setting} {ok : Bool}
  {parse parse' : List Char → ConfigState → Except Halt (Bool × ConfigState)}

theorem includeLine_option :
    longOptions.filter (fun o => o.required && o.name = "config".toList) =
      [requiredArgument "config" 'o'] := by
  decide

theorem option_of_not_config (h : value ≠ "config".toList) :
    ∀ o ∈ longOptions.filter (fun o => o.required && o.name = value), o.val ≠ 'o' := by
  intro o ho hval
  have hname : ∀ o ∈ longOptions, o.val = 'o' → o.name = "config".toList := by decide
  obtain ⟨hmem, hreq⟩ := List.mem_filter.mp ho
  obtain ⟨_, heq⟩ := Bool.and_eq_true_iff.mp hreq
  exact h ((of_decide_eq_true heq).symm.trans (hname o hmem hval))

/-- A line that includes a file reads that file. -/
theorem configLine_include (h : IncludeLine line name) :
    configLine env files parse s line = (do
      match ← parse name s with
      | (true, s) => .ok s
      | (false, _) => .error .exited) := by
  rw [configLine, h]
  dsimp only
  rw [if_neg (by decide), if_neg (by decide), if_neg (by decide), includeLine_option,
    List.foldlM_cons]
  exact bind_pure _

theorem foldlM_options {os : List Lib.Getopt.LongOption} (h : ∀ o ∈ os, o.val ≠ 'o')
    (s : ConfigState) :
    os.foldlM (fun s o => parseArgument env files parse o.val value s) s =
      (os.flatMap fun o => optionSettings (fun _ => []) o.val value).foldlM
        (Setting.apply env files) s := by
  induction os generalizing s with
  | nil => rfl
  | cons o os ih =>
    have hval := h o List.mem_cons_self
    rw [List.foldlM_cons, List.flatMap_cons, optionSettings, if_neg hval, List.singleton_append,
      List.foldlM_cons, parseArgument_leaf hval]
    congr 1
    funext u
    exact ih (fun o' ho' => h o' (List.mem_cons_of_mem _ ho')) u

/-- Any other line applies its option, whatever files there are. -/
theorem configLine_option (h : ∀ name, ¬ IncludeLine line name) :
    configLine env files parse s line =
      (lineSettings (fun _ => []) line).foldlM (Setting.apply env files) s := by
  rw [configLine, lineSettings]
  cases hscan : scanAssign scanLine line with
  | none => rfl
  | some assign =>
    obtain ⟨key, value⟩ := assign
    dsimp only
    split_ifs with h1 h2 h3
    · rfl
    · rfl
    · rfl
    · have hkey : key ≠ "config".toList := by
        rintro rfl
        exact h value hscan
      exact foldlM_options (option_of_not_config hkey) s

/-- A file that is there is read line by line. -/
theorem configFileParse_file (h : files.contents name = some text) :
    configFileParse env files (n + 1) name s = (do
      let s ← (getlines text).foldlM (configLine env files (configFileParse env files n)) s
      .ok (true, s)) := by
  rw [configFileParse, h]

/-- Lines read files to the depth that is left for them. -/
theorem configLine_extends
    (h : ∀ name s, parse name s = .error .unfinished ∨ parse' name s = parse name s) :
    Extends .unfinished (configLine env files parse) (configLine env files parse') := by
  intro s line
  by_cases hline : ∃ name, IncludeLine line name
  · obtain ⟨name, hname⟩ := hline
    rw [configLine_include hname, configLine_include hname]
    rcases h name s with herr | heq
    · left
      rw [herr]
      rfl
    · right
      rw [heq]
  · rw [not_exists] at hline
    right
    rw [configLine_option hline, configLine_option hline]

/-- More depth changes no result. -/
theorem configFileParse_succ (n : Nat) : ∀ name s,
    configFileParse env files n name s = .error .unfinished ∨
      configFileParse env files (n + 1) name s = configFileParse env files n name s := by
  induction n with
  | zero => exact fun _ _ => Or.inl rfl
  | succ n ih =>
    intro name s
    cases hfile : files.contents name with
    | none =>
      right
      rw [configFileParse, configFileParse, hfile]
    | some text =>
      rw [configFileParse_file hfile, configFileParse_file hfile]
      rcases (configLine_extends ih).foldlM (getlines text) s with herr | heq
      · left
        rw [herr]
        rfl
      · right
        rw [heq]

theorem configLine_succ (n : Nat) :
    Extends .unfinished (configLine env files (configFileParse env files n))
      (configLine env files (configFileParse env files (n + 1))) :=
  configLine_extends (configFileParse_succ n)

/-- Only an input, a mapping, a file, a directory for keys and a word can fail. -/
theorem parseArgument_ok (h : c ∉ ['j', 'k', 'o', 'r', '\x01']) (s : ConfigState) :
    ∃ t, parseArgument env files parse c value s = .ok t := by
  simp only [List.mem_cons, List.not_mem_nil, or_false, not_or] at h
  obtain ⟨hj, hk, ho, hr, hword⟩ := h
  unfold parseArgument
  split <;> first | exact ⟨_, rfl⟩ | contradiction

/-- A harmless option can be applied to every state. -/
theorem Setting.Harmless.apply (h : x.Harmless env files) (s : ConfigState) :
    ∃ t, x.apply env files s = .ok t := by
  cases x with
  | option c value =>
    obtain ⟨hj, ho, hword, hk, hr⟩ := h
    by_cases hck : c = 'k'
    · subst hck
      obtain ⟨path, hpath⟩ := hk rfl
      exact ⟨_, bind_eq_ok.mpr ⟨some path, hpath, rfl⟩⟩
    by_cases hcr : c = 'r'
    · subst hcr
      have hdir : storeKeyDir value = .ok value := if_pos (hr rfl)
      exact ⟨_, bind_eq_ok.mpr ⟨value, hdir, rfl⟩⟩
    have hplain : c ∉ ['j', 'k', 'o', 'r', '\x01'] := by simp [hj, hck, ho, hcr, hword]
    rw [Setting.apply]
    exact parseArgument_ok hplain s
  | address value | sops on | localaudio on | action value => exact ⟨_, rfl⟩

/-- An option adds at most one input, while there is room for it. -/
theorem apply_inputs (h : x.apply env files s = .ok t) :
    s.config.inputsCount ≤ t.config.inputsCount ∧
      (t.config.inputsCount = s.config.inputsCount ∨ t.config.inputsCount ≤ maxInputs) := by
  have hx := (apply_applied h).inputs
  by_cases hj : x.letter = some 'j'
  · cases x with
    | option c value =>
      obtain rfl : c = 'j' := Option.some.inj hj
      have hroom : s.config.inputsCount < maxInputs := by
        by_contra hfull
        have herr : (Setting.option 'j' value).apply env files s = .error .exited := dif_neg hfull
        rw [herr] at h
        cases h
      rw [if_pos hj] at hx
      omega
    | address value | sops on | localaudio on | action value => cases hj
  · rw [if_neg hj] at hx
    omega

/-- An option of a file that was applied without adding an input is harmless. -/
theorem apply_harmless (h : x.apply env files s = .ok t)
    (hsame : t.config.inputsCount = s.config.inputsCount) (hword : x.letter ≠ some '\x01') :
    x.Harmless env files := by
  have hx := (apply_applied h).inputs
  cases x with
  | option c value =>
    refine ⟨?_, ?_, ?_, ?_, ?_⟩
    · rintro rfl
      have hj : (Setting.option 'j' value).letter = some 'j' := rfl
      rw [if_pos hj] at hx
      omega
    · rintro rfl
      cases h
    · rintro rfl
      exact hword rfl
    · rintro rfl
      obtain ⟨found, hfound, h⟩ := bind_eq_ok.mp h
      cases found with
      | none => cases h
      | some path => exact ⟨path, hfound⟩
    · rintro rfl
      obtain ⟨keyDir, hdir, _⟩ := bind_eq_ok.mp h
      by_contra hlong
      rw [storeKeyDir, if_neg hlong] at hdir
      cases hdir
  | address value | sops on | localaudio on | action value => trivial

theorem settings_inputs (h : l.foldlM (Setting.apply env files) s = .ok t) :
    s.config.inputsCount ≤ t.config.inputsCount ∧
      (t.config.inputsCount = s.config.inputsCount ∨ t.config.inputsCount ≤ maxInputs) := by
  refine foldlM_invariant (P := fun u => s.config.inputsCount ≤ u.config.inputsCount ∧
    (u.config.inputsCount = s.config.inputsCount ∨ u.config.inputsCount ≤ maxInputs))
    (fun u x v huv hu => ?_) h ⟨le_rfl, Or.inl rfl⟩
  have hstep := apply_inputs huv
  omega

theorem settings_harmless (h : l.foldlM (Setting.apply env files) s = .ok t)
    (hsame : t.config.inputsCount = s.config.inputsCount)
    (hword : ∀ x ∈ l, x.letter ≠ some '\x01') : ∀ x ∈ l, x.Harmless env files := by
  induction l generalizing s with
  | nil => simp
  | cons x l ih =>
    obtain ⟨u, hu, hrest⟩ := foldlM_cons_eq_ok.mp h
    have hfirst := apply_inputs hu
    have htail := settings_inputs hrest
    intro y hy
    rcases List.mem_cons.mp hy with rfl | hy
    · exact apply_harmless hu (by omega) (hword y List.mem_cons_self)
    · exact ih hrest (by omega) (fun z hz => hword z (List.mem_cons_of_mem _ hz)) y hy

/-- No line of a file gives a word, or a file to read. -/
theorem lineSettings_letter (hx : x ∈ lineSettings (fun _ => []) line) :
    x.letter ≠ some '\x01' ∧ x.letter ≠ some 'o' := by
  constructor
  · refine lineSettings_forall (Q := fun x => x.letter ≠ some '\x01') (by simp) (by simp) (by simp)
      ?_ (by simp) hx
    intro o ho _ v _ hval
    have hnone : ∀ o ∈ longOptions, o.val ≠ '\x01' := by decide
    exact hnone o ho (Option.some.inj hval)
  · rw [lineSettings] at hx
    cases hscan : scanAssign scanLine line with
    | none =>
      rw [hscan] at hx
      cases hx
    | some assign =>
      obtain ⟨key, value⟩ := assign
      rw [hscan] at hx
      dsimp only at hx
      split_ifs at hx
      · obtain rfl := List.mem_singleton.mp hx
        simp
      · obtain rfl := List.mem_singleton.mp hx
        simp
      · obtain rfl := List.mem_singleton.mp hx
        simp
      · obtain ⟨o, _, hx⟩ := List.mem_flatMap.mp hx
        rw [optionSettings] at hx
        split_ifs at hx with hval
        · cases hx
        · obtain rfl := List.mem_singleton.mp hx
          simpa using hval

theorem Unfolds.letter (h : Unfolds files lines l) :
    ∀ x ∈ l, x.letter ≠ some '\x01' ∧ x.letter ≠ some 'o' := by
  induction h with
  | nil => simp
  | option _ _ ih =>
    intro x hx
    rcases List.mem_append.mp hx with hx | hx
    · exact lineSettings_letter hx
    · exact ih x hx
  | included _ _ _ _ iht ihl =>
    intro x hx
    rcases List.mem_append.mp hx with hx | hx
    · exact iht x hx
    · exact ihl x hx

/-- The lines have an expansion in place, and applying it leads from one state to another. -/
def Unfolded (env : Env) (files : Files) (lines : List (List Char)) (s t : ConfigState) : Prop :=
  ∃ l, Unfolds files lines l ∧ l.foldlM (Setting.apply env files) s = .ok t

theorem unfolded_lines (hparse : ∀ name s t, parse name s = .ok (true, t) →
      ∃ text, files.contents name = some text ∧ Unfolded env files (getlines text) s t)
    (h : lines.foldlM (configLine env files parse) s = .ok t) : Unfolded env files lines s t := by
  induction lines generalizing s with
  | nil =>
    cases h
    exact ⟨[], .nil, rfl⟩
  | cons line lines ih =>
    obtain ⟨u, hu, hrest⟩ := foldlM_cons_eq_ok.mp h
    obtain ⟨l', hl', happly'⟩ := ih hrest
    by_cases hline : ∃ name, IncludeLine line name
    · obtain ⟨name, hname⟩ := hline
      rw [configLine_include hname] at hu
      obtain ⟨⟨ok, v⟩, hv, hok⟩ := bind_eq_ok.mp hu
      cases ok with
      | false => cases hok
      | true =>
        cases hok
        obtain ⟨text, hfile, l, hl, happly⟩ := hparse name s u hv
        exact ⟨l ++ l', .included hname hfile hl hl', foldlM_append_eq_ok.mpr ⟨u, happly, happly'⟩⟩
    · rw [not_exists] at hline
      rw [configLine_option hline] at hu
      exact ⟨_, .option hline hl', foldlM_append_eq_ok.mpr ⟨u, hu, happly'⟩⟩

/-- A file that was read has a finite expansion, which was applied. -/
theorem unfolded_file (n : Nat) : ∀ name s t, configFileParse env files n name s = .ok (true, t) →
    ∃ text, files.contents name = some text ∧ Unfolded env files (getlines text) s t := by
  induction n with
  | zero =>
    intro name s t h
    cases h
  | succ n ih =>
    intro name s t h
    cases hfile : files.contents name with
    | none =>
      rw [configFileParse, hfile] at h
      cases h
    | some text =>
      rw [configFileParse_file hfile] at h
      obtain ⟨u, hu, hok⟩ := bind_eq_ok.mp h
      cases hok
      exact ⟨text, rfl, unfolded_lines ih hu⟩

/-- Lines with a finite expansion that can be applied are read, given enough depth. -/
theorem ok_of_unfolds (h : Unfolds files lines l)
    (happly : l.foldlM (Setting.apply env files) s = .ok t) :
    ∃ n, lines.foldlM (configLine env files (configFileParse env files n)) s = .ok t := by
  induction h generalizing s t with
  | nil => exact ⟨0, happly⟩
  | option hline _ ih =>
    obtain ⟨u, hu, hrest⟩ := foldlM_append_eq_ok.mp happly
    obtain ⟨n, hn⟩ := ih hrest
    exact ⟨n, foldlM_cons_eq_ok.mpr ⟨u, (configLine_option hline).trans hu, hn⟩⟩
  | @included line name text lines l l' hline hfile _ _ iht ihl =>
    obtain ⟨u, hu, hrest⟩ := foldlM_append_eq_ok.mp happly
    obtain ⟨n, hn⟩ := iht hu
    obtain ⟨m, hm⟩ := ihl hrest
    have hn' := foldlM_of_le configLine_succ (le_max_left n m) hn
    have hread : configFileParse env files (max n m + 1) name s = .ok (true, u) := by
      rw [configFileParse_file hfile, hn']
      rfl
    refine ⟨max n m + 1, foldlM_cons_eq_ok.mpr ⟨u, ?_, ?_⟩⟩
    · rw [configLine_include hline, hread]
      rfl
    · exact foldlM_of_le configLine_succ (Nat.le_succ_of_le (le_max_right n m)) hm

theorem harmless_settings (hl : ∀ x ∈ l, x.Harmless env files) (s : ConfigState) :
    ∃ t, l.foldlM (Setting.apply env files) s = .ok t := by
  induction l generalizing s with
  | nil => exact ⟨s, rfl⟩
  | cons x l ih =>
    obtain ⟨u, hu⟩ := (hl x List.mem_cons_self).apply s
    obtain ⟨t, ht⟩ := ih (fun y hy => hl y (List.mem_cons_of_mem _ hy)) u
    exact ⟨t, foldlM_cons_eq_ok.mpr ⟨u, hu, ht⟩⟩

/-- Harmless lines are read to their end, or too deep. -/
theorem harmless_lines (h : Unfolds files lines l) (hl : ∀ x ∈ l, x.Harmless env files) (n : Nat)
    (s : ConfigState) :
    (∃ t, lines.foldlM (configLine env files (configFileParse env files n)) s = .ok t) ∨
      lines.foldlM (configLine env files (configFileParse env files n)) s = .error .unfinished := by
  induction h generalizing n s with
  | nil => exact Or.inl ⟨s, rfl⟩
  | @option line lines l hline _ ih =>
    obtain ⟨u, hu⟩ := harmless_settings (fun x hx => hl x (List.mem_append_left _ hx)) s
    rw [List.foldlM_cons, configLine_option hline, hu]
    exact ih (fun x hx => hl x (List.mem_append_right _ hx)) n u
  | @included line name text lines l l' hline hfile _ _ iht ihl =>
    rw [List.foldlM_cons, configLine_include hline]
    cases n with
    | zero => exact Or.inr rfl
    | succ n =>
      rw [configFileParse_file hfile]
      rcases iht (fun x hx => hl x (List.mem_append_left _ hx)) n s with ⟨u, hu⟩ | herr
      · rw [hu]
        exact ihl (fun x hx => hl x (List.mem_append_right _ hx)) (n + 1) u
      · right
        rw [herr]
        rfl

/-- A file that leads to one that is never read to its end is not read to its end either. -/
theorem leadsTo_stuck (h : LeadsTo env files name next)
    (hstuck : ∀ s, configFileParse env files n next s = .error .unfinished) (s : ConfigState) :
    configFileParse env files (n + 1) name s = .error .unfinished := by
  obtain ⟨text, pre, line, post, l, hfile, htext, hline, hunfolds, hl⟩ := h
  rw [configFileParse_file hfile, htext, List.foldlM_append]
  rcases harmless_lines hunfolds hl n s with ⟨u, hu⟩ | herr
  · rw [hu]
    change (do
      let s ← (line :: post).foldlM (configLine env files (configFileParse env files n)) u
      Except.ok (true, s)) = _
    rw [List.foldlM_cons, configLine_include hline, hstuck]
    rfl
  · rw [herr]
    rfl

/-- A file on a harmless cycle is never read to its end. -/
theorem cycle_stuck (h : TransGen (LeadsTo env files) name name) (n : Nat) :
    ∀ s, configFileParse env files n name s = .error .unfinished := by
  induction n generalizing name with
  | zero => exact fun _ => rfl
  | succ n ih =>
    obtain ⟨next, hstep, hback⟩ := TransGen.head'_iff.mp h
    exact leadsTo_stuck hstep (ih (TransGen.tail' hback hstep))

theorem getPath_finished (dirs : Option (List Char)) :
    getPath env files value dirs ≠ .error .unfinished := by
  rw [getPath]
  intro herr
  split_ifs at herr
  dsimp only at herr
  split at herr <;> cases herr

theorem storeKeyDir_finished : storeKeyDir value ≠ .error .unfinished := by
  intro herr
  rw [storeKeyDir] at herr
  split_ifs at herr
  cases herr

/-- Options of files never ask for more depth. -/
theorem apply_finished (h : x.letter ≠ some 'o') (s : ConfigState) :
    x.apply env files s ≠ .error .unfinished := by
  intro herr
  cases x with
  | option c value =>
    rw [Setting.apply] at herr
    by_cases hplain : c ∈ ['j', 'k', 'o', 'r', '\x01']
    · simp only [List.mem_cons, List.not_mem_nil, or_false] at hplain
      rcases hplain with rfl | rfl | rfl | rfl | rfl
      · rw [parseArgument] at herr
        split at herr <;> cases herr
      · rw [parseArgument] at herr
        rcases bind_eq_error.mp herr with hpath | ⟨path, _, hstore⟩
        · exact getPath_finished _ hpath
        · cases path <;> cases hstore
      · exact absurd rfl h
      · rw [parseArgument] at herr
        rcases bind_eq_error.mp herr with hdir | ⟨dir, _, hstore⟩
        · exact storeKeyDir_finished hdir
        · cases hstore
      · rw [parseArgument] at herr
        split at herr <;> cases herr
    · obtain ⟨t, ht⟩ := parseArgument_ok hplain s
      rw [ht] at herr
      cases herr
  | address value | sops on | localaudio on | action value => cases herr

theorem settings_finished (h : ∀ x ∈ l, x.letter ≠ some 'o') (s : ConfigState) :
    l.foldlM (Setting.apply env files) s ≠ .error .unfinished := by
  induction l generalizing s with
  | nil =>
    intro herr
    cases herr
  | cons x l ih =>
    rw [List.foldlM_cons]
    intro herr
    rcases bind_eq_error.mp herr with hx | ⟨u, _, hrest⟩
    · exact apply_finished (h x List.mem_cons_self) s hx
    · exact ih (fun y hy => h y (List.mem_cons_of_mem _ hy)) u hrest

/-- A line on which reading is stuck includes a file on which it is stuck. -/
theorem line_stuck (h : ∀ m, configLine env files (configFileParse env files m) s line =
    .error .unfinished) :
    ∃ name, IncludeLine line name ∧
      ∀ m, configFileParse env files m name s = .error .unfinished := by
  by_cases hline : ∃ name, IncludeLine line name
  · obtain ⟨name, hname⟩ := hline
    refine ⟨name, hname, fun m => ?_⟩
    have hm := h m
    rw [configLine_include hname] at hm
    rcases bind_eq_error.mp hm with hparse | ⟨⟨ok, u⟩, _, hok⟩
    · exact hparse
    · cases ok <;> cases hok
  · rw [not_exists] at hline
    have h0 := h 0
    rw [configLine_option hline] at h0
    exact absurd h0 (settings_finished (fun x hx => (lineSettings_letter hx).2) s)

/-- Reading that never ends passes from one file to another, with more inputs or along harmless
lines. -/
theorem file_stuck (h : ∀ n, configFileParse env files n name s = .error .unfinished) :
    files.contents name ≠ none ∧ ∃ next t,
      (∀ n, configFileParse env files n next t = .error .unfinished) ∧
      (t.config.inputsCount = s.config.inputsCount ∧ LeadsTo env files name next ∨
        s.config.inputsCount < t.config.inputsCount ∧ t.config.inputsCount ≤ maxInputs) := by
  cases hfile : files.contents name with
  | none =>
    have h1 := h 1
    rw [configFileParse, hfile] at h1
    cases h1
  | some text =>
    refine ⟨by simp, ?_⟩
    have hlines (n : Nat) : (getlines text).foldlM
        (configLine env files (configFileParse env files n)) s = .error .unfinished := by
      have hn := h (n + 1)
      rw [configFileParse_file hfile] at hn
      rcases bind_eq_error.mp hn with hfold | ⟨u, _, hu⟩
      · exact hfold
      · cases hu
    obtain ⟨pre, line, post, t, n, htext, hpre, hline⟩ := exists_stuck configLine_succ hlines
    obtain ⟨next, hnext, hstuck⟩ := line_stuck hline
    obtain ⟨l, hl, happly⟩ := unfolded_lines (unfolded_file n) hpre
    refine ⟨next, t, hstuck, ?_⟩
    have hcount := settings_inputs happly
    by_cases hsame : t.config.inputsCount = s.config.inputsCount
    · left
      exact ⟨hsame, text, pre, line, post, l, hfile, htext, hnext, hl,
        settings_harmless happly hsame fun x hx => (hl.letter x hx).1⟩
    · right
      omega

/-- Without a harmless cycle in a finite set of files, reading always ends. -/
theorem exists_finished (hfin : {name | files.contents name ≠ none}.Finite)
    (hacyclic : ∀ name, ¬ TransGen (LeadsTo env files) name name) (name : List Char)
    (s : ConfigState) : ∃ n, configFileParse env files n name s ≠ .error .unfinished := by
  have hwf := wellFoundedOn_of_acyclic hfin hacyclic
  -- the room for inputs goes down, or the file moves on along the order
  generalize hk : maxInputs - s.config.inputsCount = k
  induction k using Nat.strong_induction_on generalizing name s with
  | _ k ihk =>
    by_cases hfile : files.contents name = none
    · refine ⟨1, ?_⟩
      rw [configFileParse, hfile]
      intro herr
      cases herr
    · refine hwf.induction (P := fun name => ∀ s : ConfigState,
        maxInputs - s.config.inputsCount = k →
          ∃ n, configFileParse env files n name s ≠ .error .unfinished) hfile ?_ s hk
      intro name _ ihname s hk
      by_contra hstuck
      push Not at hstuck
      obtain ⟨_, next, t, hnext, ⟨hsame, hleads⟩ | hmore⟩ := file_stuck hstuck
      · obtain ⟨n, hn⟩ := ihname next (file_stuck hnext).1 (.single hleads) t (hsame ▸ hk)
        exact hn (hnext n)
      · obtain ⟨n, hn⟩ := ihk _ (by omega) next t rfl
        exact hn (hnext n)

/-- The files are loaded as they should be: reading any of them, with any configuration, ends; and
where no file includes itself, directly or not, it gives what applying the lines of its expansion in
place gives. -/
def LoadsInPlace (env : Env) (files : Files) : Prop :=
  (∀ name s, ∃ n, configFileParse env files n name s ≠ .error .unfinished) ∧
  ((∀ name, ¬ TransGen (Includes files) name name) →
    ∀ name text, files.contents name = some text → ∀ s t,
      (∃ n, configFileParse env files n name s = .ok (true, t)) ↔
        Unfolded env files (getlines text) s t)

theorem LeadsTo.includes (h : LeadsTo env files name next) : Includes files name next := by
  obtain ⟨text, pre, line, post, l, hfile, htext, hline, _, _⟩ := h
  exact ⟨text, hfile, line, by simp [htext], hline⟩

/-- An expansion in place is the only one. -/
theorem Unfolds.unique {l' : List Setting} (h : Unfolds files lines l)
    (h' : Unfolds files lines l') : l = l' := by
  induction h generalizing l' with
  | nil =>
    cases h'
    rfl
  | option hline _ ih =>
    cases h' with
    | option _ hlines => rw [ih hlines]
    | included hline' _ _ _ => exact absurd hline' (hline _)
  | included hline hfile _ _ iht ihl =>
    cases h' with
    | option hline' _ => exact absurd hline (hline' _)
    | included hline' hfile' htext hlines =>
      cases Option.some.inj (hline.symm.trans hline')
      cases Option.some.inj (hfile.symm.trans hfile')
      rw [iht htext, ihl hlines]

/-- Files that include each other without a cycle, all of them there, have expansions in place. -/
theorem exists_unfolds (hfin : {name | files.contents name ≠ none}.Finite)
    (hacyclic : ∀ name, ¬ TransGen (Includes files) name name)
    (hall : ∀ name next, Includes files name next → files.contents next ≠ none)
    (hfile : files.contents name = some text) : ∃ l, Unfolds files (getlines text) l := by
  have hwf := wellFoundedOn_of_acyclic hfin hacyclic
  refine hwf.induction (P := fun name => ∀ text, files.contents name = some text →
    ∃ l, Unfolds files (getlines text) l) (by simp [hfile]) ?_ text hfile
  intro name _ ih text hfile
  have hlines : ∀ lines : List (List Char), (∀ line ∈ lines, line ∈ getlines text) →
      ∃ l, Unfolds files lines l := by
    intro lines hmem
    induction lines with
    | nil => exact ⟨[], .nil⟩
    | cons line lines ihl =>
      obtain ⟨l', hl'⟩ := ihl fun line' h => hmem line' (List.mem_cons_of_mem _ h)
      by_cases hline : ∃ next, IncludeLine line next
      · obtain ⟨next, hnext⟩ := hline
        have hinc : Includes files name next :=
          ⟨text, hfile, line, hmem line List.mem_cons_self, hnext⟩
        obtain ⟨text', htext'⟩ := Option.ne_none_iff_exists'.mp (hall name next hinc)
        obtain ⟨l, hl⟩ := ih next (hall name next hinc) (.single hinc) text' htext'
        exact ⟨l ++ l', .included hnext htext' hl hl'⟩
      · exact ⟨_, .option (not_exists.mp hline) hl'⟩
  exact hlines (getlines text) fun _ h => h

/-- Without a harmless cycle a finite set of files is loaded in place. -/
theorem loadsInPlace_of_no_cycle (hfin : {name | files.contents name ≠ none}.Finite)
    (hno : ∀ name, ¬ TransGen (LeadsTo env files) name name) : LoadsInPlace env files := by
  refine ⟨exists_finished hfin hno, fun _ name text hfile s t => ⟨?_, ?_⟩⟩
  · rintro ⟨n, hn⟩
    obtain ⟨text', hfile', hunfolded⟩ := unfolded_file n name s t hn
    rw [hfile] at hfile'
    cases hfile'
    exact hunfolded
  · rintro ⟨l, hl, happly⟩
    obtain ⟨n, hn⟩ := ok_of_unfolds hl happly
    refine ⟨n + 1, ?_⟩
    rw [configFileParse_file hfile, hn]
    rfl

/-- In particular a finite set of files without any cycle is. -/
theorem loadsInPlace_of_acyclic (hfin : {name | files.contents name ≠ none}.Finite)
    (hacyclic : ∀ name, ¬ TransGen (Includes files) name name) : LoadsInPlace env files :=
  loadsInPlace_of_no_cycle hfin fun name hcycle =>
    hacyclic name
      (TransGen.mono (fun _ _ (hleads : LeadsTo env files _ _) => hleads.includes) _ _ hcycle)

/-- A finite set of files is loaded in place if and only if no file leads back to itself by harmless
lines. -/
theorem loads_in_place_iff (env : Env) (hfin : {name | files.contents name ≠ none}.Finite) :
    LoadsInPlace env files ↔ ¬ ∃ name, TransGen (LeadsTo env files) name name := by
  constructor
  · rintro ⟨hfinished, _⟩ ⟨name, hcycle⟩
    obtain ⟨n, hn⟩ := hfinished name (initialState env none zeroConfiguration)
    exact hn (cycle_stuck hcycle n _)
  · intro hno
    exact loadsInPlace_of_no_cycle hfin (not_exists.mp hno)

/-- One file that includes another one. -/
def includingFile : Files where
  contents := Function.update (oneFile "b".toList "width = 800\n".toList).contents "a".toList
    (some "config = b\n".toList)
  readable _ := true
  present _ := true

theorem includingFile_cases (h : includingFile.contents name = some text) :
    name = "a".toList ∧ text = "config = b\n".toList ∨
      name = "b".toList ∧ text = "width = 800\n".toList := by
  by_cases ha : name = "a".toList
  · left
    subst ha
    exact ⟨rfl, (Option.some.inj h).symm⟩
  · by_cases hb : name = "b".toList
    · right
      subst hb
      exact ⟨rfl, (Option.some.inj h).symm⟩
    · have hnone : includingFile.contents name = none := by
        simp only [includingFile, oneFile, Function.update_of_ne ha, Function.update_of_ne hb]
      rw [hnone] at h
      cases h

/-- A file that includes another one is loaded. -/
theorem loads_in_place_iff_including : LoadsInPlace homeEnv includingFile := by
  have hfin : {name | includingFile.contents name ≠ none}.Finite := by
    refine (Set.toFinite {"a".toList, "b".toList}).subset fun name hname => ?_
    obtain ⟨text, htext⟩ := Option.ne_none_iff_exists'.mp hname
    rcases includingFile_cases htext with ⟨rfl, _⟩ | ⟨rfl, _⟩ <;> simp
  have hleads : ∀ name next, LeadsTo homeEnv includingFile name next →
      name = "a".toList ∧ next = "b".toList := by
    rintro name next hleads
    obtain ⟨text, hfile, line, hmem, hline⟩ := hleads.includes
    rcases includingFile_cases hfile with ⟨rfl, rfl⟩ | ⟨rfl, rfl⟩
    · have hlines : getlines "config = b\n".toList = ["config = b\n".toList] := by decide
      have hscan : scanAssign scanLine "config = b\n".toList =
          some ("config".toList, "b".toList) := by decide
      rw [hlines, List.mem_singleton] at hmem
      rw [IncludeLine, hmem, hscan] at hline
      cases hline
      exact ⟨rfl, rfl⟩
    · have hlines : getlines "width = 800\n".toList = ["width = 800\n".toList] := by decide
      have hscan : scanAssign scanLine "width = 800\n".toList =
          some ("width".toList, "800".toList) := by decide
      rw [hlines, List.mem_singleton] at hmem
      rw [IncludeLine, hmem, hscan] at hline
      have hkey : "width".toList = "config".toList := congrArg Prod.fst (Option.some.inj hline)
      exact absurd hkey (by decide)
  refine (loads_in_place_iff homeEnv hfin).mpr ?_
  rintro ⟨name, hcycle⟩
  obtain ⟨_, hfirst, _⟩ := TransGen.head'_iff.mp hcycle
  obtain ⟨_, _, hlast⟩ := TransGen.tail'_iff.mp hcycle
  have hname := (hleads _ _ hfirst).1.symm.trans (hleads _ _ hlast).2
  exact absurd hname (by decide)

/-- A file with the line `config = a` that is itself called `a` is read for ever. -/
theorem self_include_never_ends :
    {name | (oneFile "a".toList "config = a\n".toList).contents name ≠ none}.Finite ∧
      ¬ LoadsInPlace homeEnv (oneFile "a".toList "config = a\n".toList) := by
  have hfin : {name | (oneFile "a".toList "config = a\n".toList).contents name ≠ none}.Finite := by
    refine (Set.finite_singleton "a".toList).subset fun name hname => ?_
    by_contra hne
    have hnone : (oneFile "a".toList "config = a\n".toList).contents name = none := by
      have hother : name ≠ "a".toList := hne
      simp only [oneFile, Function.update_of_ne hother]
    exact hname hnone
  have hline : IncludeLine "config = a\n".toList "a".toList := by
    unfold IncludeLine
    decide
  have hleads : LeadsTo homeEnv (oneFile "a".toList "config = a\n".toList) "a".toList "a".toList :=
    ⟨"config = a\n".toList, [], "config = a\n".toList, [], [], by decide, by decide, hline, .nil,
      by simp⟩
  refine ⟨hfin, fun hloads => ?_⟩
  obtain ⟨n, hn⟩ := hloads.1 "a".toList (initialState homeEnv none zeroConfiguration)
  exact hn (cycle_stuck (.single hleads) n _)

end Moonlight
