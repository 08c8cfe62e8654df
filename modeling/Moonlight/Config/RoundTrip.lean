import Moonlight.Config.Reload

/-! The eight values that `config_save` writes, read back over the defaults of `config_parse`. -/
namespace Moonlight

open Lib.Stdio

variable {env : Env} {files : Files} {c d before : Configuration} {name : List Char}
  {mapping : Option (List Char)} {n : Nat}

/-- The configuration `d` with the eight saved values of `c`. -/
def withSaved (d c : Configuration) : Configuration :=
  { d with
    stream :=
      { d.stream with
        width := c.stream.width
        height := c.stream.height
        fps := c.stream.fps
        bitrate := c.stream.bitrate
        packetSize := c.stream.packetSize }
    sops := c.sops
    localaudio := c.localaudio
    app := c.app }

/-- A value that is left out of the file is the default. -/
theorem restore_default (env : Env) (mapping : Option (List Char)) (before c : Configuration) :
    restore (defaultConfiguration env mapping before) c =
      withSaved (defaultConfiguration env mapping before) c := by
  have hint (v d : Int) : (if v = d then d else v) = v := by
    split
    · next h => exact h.symm
    · rfl
  have hsops : (if c.sops = true then true else false) = c.sops := by
    cases c.sops <;> rfl
  have hlocal : (if c.localaudio = true then true else false) = c.localaudio := by
    cases c.localaudio <;> rfl
  have happ : (if c.app = "Steam".toList then "Steam".toList else c.app) = c.app := by
    split
    · next h => exact h.symm
    · rfl
  simp only [restore, withSaved, defaultConfiguration, hint, hsops, hlocal, happ]

/-- Reading the file of any configuration over the defaults gives back its eight values, and every
other field of the state is as it was. -/
theorem config_save_roundtrip (hc : Ints c) (happ : Line c.app)
    (hfile : files.contents name = some (configSave c)) (env : Env) (n : Nat)
    (mapping : Option (List Char)) (before : Configuration) :
    configFileParse env files (n + 1) name (initialState env mapping before) =
      .ok (true,
        { initialState env mapping before with
          config := withSaved (initialState env mapping before).config c }) := by
  rw [configFileParse_configSave hc happ hfile]
  simp only [initialState, restore_default]

/-- A negative bitrate and a name with a space and an `=`. -/
theorem config_save_roundtrip_app : ∃ t,
    configFileParse homeEnv (oneFile "saved".toList "bitrate = -7\napp = a = b\n".toList) 1
      "saved".toList (initialState homeEnv none zeroConfiguration) = .ok (true, t) ∧
    t.config.stream.bitrate = -7 ∧ t.config.stream.width = 1280 ∧ t.config.app = "a = b".toList := by
  have hc : Ints { defaultConfiguration homeEnv none zeroConfiguration with
      app := "a = b".toList, stream.bitrate := -7 } := by
    constructor <;> exact ⟨by decide, by decide⟩
  have happ : Line "a = b".toList := ⟨⟨'a', " = b".toList, rfl, rfl⟩, by decide, by decide⟩
  have hfile : (oneFile "saved".toList "bitrate = -7\napp = a = b\n".toList).contents
      "saved".toList = some (configSave { defaultConfiguration homeEnv none zeroConfiguration with
        app := "a = b".toList, stream.bitrate := -7 }) := by
    decide +kernel
  exact ⟨_, config_save_roundtrip hc happ hfile homeEnv 0 none zeroConfiguration, rfl, rfl, rfl⟩

end Moonlight
