import Moonlight.Config.Sources

/-! What one option writes into each field, and so what a whole list of them leaves there. -/
namespace Moonlight

open Lib.Fold

namespace Setting

/-- The letter of an option. -/
@[simp] def letter : Setting → Option Char
  | option c _ => some c
  | _ => none

@[simp] def width : Setting → Option Int
  | option c value => match c with
    | 'a' => some 1280
    | 'b' => some 1920
    | 'c' => some (atoi value)
    | _ => none
  | _ => none

@[simp] def height : Setting → Option Int
  | option c value => match c with
    | 'a' => some 720
    | 'b' => some 1080
    | 'd' => some (atoi value)
    | _ => none
  | _ => none

@[simp] def fps : Setting → Option Int
  | option c value => match c with
    | 'e' => some 30
    | 'f' => some 60
    | 'v' => some (atoi value)
    | _ => none
  | _ => none

@[simp] def bitrate : Setting → Option Int
  | option c value => if c = 'g' then some (atoi value) else none
  | _ => none

@[simp] def packetSize : Setting → Option Int
  | option c value => if c = 'h' then some (atoi value) else none
  | _ => none

@[simp] def app : Setting → Option (List Char)
  | option c value => if c = 'i' then some value else none
  | _ => none

@[simp] def platform : Setting → Option (List Char)
  | option c value => if c = 'p' then some value else none
  | _ => none

/-- The mapping file that is found. -/
@[simp] def mapping (env : Env) (files : Files) : Setting → Option (Option (List Char))
  | option c value =>
    if c = 'k' then (getPath env files value env.xdgDataDirs).toOption else none
  | _ => none

/-- An option that only ever writes one value. -/
@[simp] def flag {α : Type} (c : Char) (written : α) (x : Setting) : Option α :=
  if x.letter = some c then some written else none

/-- A word of the command line that is no option. -/
@[simp] def isWord (x : Setting) : Bool := x.letter = some '\x01'

/-- The words, and the action that a configuration file stands for. -/
@[simp] def isAction : Setting → Bool
  | option c _ => c = '\x01'
  | action _ => true
  | _ => false

@[simp] def isAddress : Setting → Bool
  | address _ => true
  | _ => false

end Setting

variable {env : Env} {files : Files} {s t : ConfigState} {x : Setting} {l : List Setting}

/-- One option writes the fields it is for, and leaves the others alone. -/
structure Applied (env : Env) (files : Files) (x : Setting) (s t : ConfigState) : Prop where
  width : t.config.stream.width = x.width.getD s.config.stream.width
  height : t.config.stream.height = x.height.getD s.config.stream.height
  fps : t.config.stream.fps = x.fps.getD s.config.stream.fps
  bitrate : t.config.stream.bitrate = x.bitrate.getD s.config.stream.bitrate
  packetSize : t.config.stream.packetSize = x.packetSize.getD s.config.stream.packetSize
  app : t.config.app = x.app.getD s.config.app
  platform : t.config.platform = x.platform.getD s.config.platform
  mapping : t.config.mapping = (x.mapping env files).getD s.config.mapping
  remote : t.config.stream.streamingRemotely =
    (x.flag 's' 1).getD s.config.stream.streamingRemotely
  audio : t.config.stream.audioConfiguration =
    (x.flag 'u' .surround51).getD s.config.stream.audioConfiguration
  hevc : t.config.stream.supportsHevc = (x.flag 'x' true).getD s.config.stream.supportsHevc
  forcehw : t.config.forcehw = (x.flag 'w' true).getD s.config.forcehw
  inputs : t.config.inputsCount =
    if x.letter = some 'j' then s.config.inputsCount + 1 else s.config.inputsCount
  noAction : t.config.action = none ↔ s.config.action = none ∧ x.isAction = false
  noAddress : t.config.address = none ↔
    s.config.address = none ∧ x.isAddress = false ∧ ¬ (x.isWord = true ∧ s.config.action ≠ none)

theorem apply_applied (h : x.apply env files s = .ok t) : Applied env files x s t := by
  cases x with
  | option c value =>
    rw [Setting.apply] at h
    unfold parseArgument at h
    split at h
    case h_10 => -- input
      split at h
      · cases h
        constructor <;> simp
      · cases h
    case h_11 => -- mapping
      obtain ⟨found, hfound, h⟩ := bind_eq_ok.mp h
      cases found with
      | none => cases h
      | some path =>
        cases h
        constructor <;> simp [hfound, Except.toOption]
    case h_15 => cases h
    case h_18 => -- keydir
      obtain ⟨keyDir, _, h⟩ := bind_eq_ok.mp h
      cases h
      constructor <;> simp
    case h_26 => -- a word that is no option
      split at h
      · cases h
        constructor <;> simp [*]
      · cases h
        constructor <;> simp [*]
      · cases h
    case h_27 => -- no option
      cases h
      constructor <;> simp_all
    all_goals
      cases h
      constructor <;> simp
  | address value | sops on | localaudio on | action value =>
    cases h
    constructor <;> simp

/-- A field that some options overwrite holds what the last of them gives. -/
theorem field_lastValue {β : Type} (read : ConfigState → β) (value : Setting → Option β)
    (hstep : ∀ s x t, Applied env files x s t → read t = (value x).getD (read s))
    (h : l.foldlM (Setting.apply env files) s = .ok t) : read t = lastValue value (read s) l :=
  foldlM_lastValue (fun s x t ht => hstep s x t (apply_applied ht)) h

/-- A switch is as it was until it is given. -/
theorem lastValue_flag {α : Type} (c : Char) (written d : α) (l : List Setting) :
    lastValue (Setting.flag c written) d l =
      if ∃ x ∈ l, x.letter = some c then written else d := by
  have hvalue (x : Setting) : x.flag c written = none ↔ x.letter ≠ some c := by
    simp only [Setting.flag, ite_eq_right_iff, reduceCtorEq, imp_false, ne_eq]
  have hwritten : ∀ x ∈ l, ∀ v, x.flag c written = some v → v = written := by
    intro x _ v hv
    simp only [Setting.flag, Option.ite_none_right_eq_some, Option.some.injEq] at hv
    exact hv.2.symm
  rcases lastValue_const (d := d) hwritten with ⟨hw, x, hx, hne⟩ | ⟨hd, hnone⟩
  · rw [hw, if_pos ⟨x, hx, not_not.mp (mt (hvalue x).mpr hne)⟩]
  · rw [hd, if_neg]
    rintro ⟨x, hx, hletter⟩
    exact (hvalue x).mp (hnone x hx) hletter

theorem lastValue_flag_eq_default {α : Type} {c : Char} {written d : α} (hne : written ≠ d) :
    lastValue (Setting.flag c written) d l = d ↔ ∀ x ∈ l, x.letter ≠ some c := by
  rw [lastValue_flag]
  split
  · next hex =>
    obtain ⟨x, hx, hletter⟩ := hex
    exact ⟨fun h => absurd h hne, fun h => absurd hletter (h x hx)⟩
  · next hno => exact ⟨fun _ x hx hletter => hno ⟨x, hx, hletter⟩, fun _ => rfl⟩

/-- A field with a switch is at its default as long as the switch is not given. -/
theorem field_eq_default_iff {β : Type} {c : Char} {written d : β} (read : ConfigState → β)
    (hstep : ∀ s x t, Applied env files x s t → read t = (x.flag c written).getD (read s))
    (hne : written ≠ d) (hs : read s = d) (h : l.foldlM (Setting.apply env files) s = .ok t) :
    read t = d ↔ ∀ x ∈ l, x.letter ≠ some c := by
  rw [field_lastValue read _ hstep h, hs]
  exact lastValue_flag_eq_default hne

end Moonlight
