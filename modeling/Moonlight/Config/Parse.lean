import Moonlight.Lib.Getopt
import Moonlight.Lib.Machine
import Moonlight.Config.Environment

/-! The options of `config.c`: the command line, the files, and the file that `-save` writes. -/
namespace Moonlight

open Lib.Getopt Lib.Machine Lib.Stdio

structure InputConfig where
  path : List Char
  mapping : Option (List Char)
  deriving DecidableEq

def maxInputs : Nat := 6

/-- `CONFIGURATION`. -/
structure Configuration where
  stream : StreamSettings
  app : List Char
  action : Option (List Char)
  address : Option (List Char)
  mapping : Option (List Char)
  platform : List Char
  configFile : Option (List Char)
  keyDir : List Char
  sops : Bool
  localaudio : Bool
  fullscreen : Bool
  forcehw : Bool
  unsupportedVersion : Bool
  inputs : Fin maxInputs → InputConfig
  inputsCount : Nat

/-- The configuration and the globals `inputAdded`, `mapped` and `audio_device`. -/
structure ConfigState where
  config : Configuration
  inputAdded : Bool
  mapped : Bool
  audioDevice : Option (List Char)

def noArgument (name : String) (val : Char) : LongOption := ⟨name.toList, false, val⟩

def requiredArgument (name : String) (val : Char) : LongOption := ⟨name.toList, true, val⟩

def longOptions : List LongOption :=
  [noArgument "720" 'a', noArgument "1080" 'b', requiredArgument "width" 'c',
   requiredArgument "height" 'd', noArgument "30fps" 'e', noArgument "60fps" 'f',
   requiredArgument "bitrate" 'g', requiredArgument "packetsize" 'h', requiredArgument "app" 'i',
   requiredArgument "input" 'j', requiredArgument "mapping" 'k', noArgument "nosops" 'l',
   requiredArgument "audio" 'm', noArgument "localaudio" 'n', requiredArgument "config" 'o',
   requiredArgument "platform" 'p', requiredArgument "save" 'q', requiredArgument "keydir" 'r',
   noArgument "remote" 's', noArgument "windowed" 't', noArgument "surround" 'u',
   requiredArgument "fps" 'v', noArgument "forcehw" 'w', noArgument "forcehevc" 'x',
   noArgument "unsupported" 'y']

/-- The option string, behind its `-`. -/
def optstring : List Char := "abc:d:efg:h:i:j:k:lm:no:p:q:r:stuv:w:xy".toList

/-- `strcpy` and `sprintf` into `key_dir[4096]`. -/
def storeKeyDir (value : List Char) : Except Halt (List Char) :=
  if value.length < 4096 then .ok value else .error .undefined

variable (env : Env) (files : Files)

/-- `parse_argument`, where `fileParse` is `config_file_parse`. Only the options that take a value
look at it. -/
def parseArgument (fileParse : List Char → ConfigState → Except Halt (Bool × ConfigState))
    (c : Char) (value : List Char) (s : ConfigState) : Except Halt ConfigState :=
  match c with
  | 'a' => .ok { s with config.stream.width := 1280, config.stream.height := 720 }
  | 'b' => .ok { s with config.stream.width := 1920, config.stream.height := 1080 }
  | 'c' => .ok { s with config.stream.width := atoi value }
  | 'd' => .ok { s with config.stream.height := atoi value }
  | 'e' => .ok { s with config.stream.fps := 30 }
  | 'f' => .ok { s with config.stream.fps := 60 }
  | 'g' => .ok { s with config.stream.bitrate := atoi value }
  | 'h' => .ok { s with config.stream.packetSize := atoi value }
  | 'i' => .ok { s with config.app := value }
  | 'j' =>
    if h : s.config.inputsCount < maxInputs then
      .ok { s with
        config.inputs :=
          Function.update s.config.inputs ⟨s.config.inputsCount, h⟩ ⟨value, s.config.mapping⟩
        config.inputsCount := s.config.inputsCount + 1
        inputAdded := true
        mapped := true }
    else .error .exited
  | 'k' => do
    match ← getPath env files value env.xdgDataDirs with
    | none => .error .exited
    | some path => .ok { s with config.mapping := some path, mapped := false }
  | 'l' => .ok { s with config.sops := false }
  | 'm' => .ok { s with audioDevice := some value }
  | 'n' => .ok { s with config.localaudio := true }
  | 'o' => do
    match ← fileParse value s with
    | (true, s) => .ok s
    | (false, _) => .error .exited
  | 'p' => .ok { s with config.platform := value }
  | 'q' => .ok { s with config.configFile := some value }
  | 'r' => do
    let keyDir ← storeKeyDir value
    .ok { s with config.keyDir := keyDir }
  | 's' => .ok { s with config.stream.streamingRemotely := 1 }
  | 't' => .ok { s with config.fullscreen := false }
  | 'u' => .ok { s with config.stream.audioConfiguration := .surround51 }
  | 'v' => .ok { s with config.stream.fps := atoi value }
  | 'w' => .ok { s with config.forcehw := true }
  | 'x' => .ok { s with config.stream.supportsHevc := true }
  | 'y' => .ok { s with config.unsupportedVersion := true }
  | '\x01' =>
    match s.config.action, s.config.address with
    | none, _ => .ok { s with config.action := some value }
    | some _, none => .ok { s with config.address := some value }
    | some _, some _ => .error .exited
  | _ => .ok s

/-- One line of a configuration file. -/
def configLine (fileParse : List Char → ConfigState → Except Halt (Bool × ConfigState))
    (s : ConfigState) (line : List Char) : Except Halt ConfigState :=
  match scanAssign scanLine line with
  | none => .ok s
  | some (key, value) =>
    if key = "address".toList then .ok { s with config.address := some value }
    else if key = "sops".toList then .ok { s with config.sops := value = "true".toList }
    else if key = "localaudio".toList then .ok { s with config.localaudio := value = "true".toList }
    else (longOptions.filter (fun o => o.required && o.name = key)).foldlM
      (fun s o => parseArgument env files fileParse o.val value s) s

/-- `config_file_parse`, with files included in files to the depth of the first argument. -/
def configFileParse : Nat → List Char → ConfigState → Except Halt (Bool × ConfigState)
  | 0, _, _ => .error .unfinished
  | n + 1, filename, s =>
    match files.contents filename with
    | none => .ok (false, s)
    | some text => do
      let s ← (getlines text).foldlM (configLine env files (configFileParse n)) s
      .ok (true, s)

/-- The keys and values that `config_save` writes. -/
def savedEntries (c : Configuration) : List (List Char × List Char) :=
  (if c.stream.width = 1280 then [] else [("width".toList, printDec c.stream.width)]) ++
  (if c.stream.height = 720 then [] else [("height".toList, printDec c.stream.height)]) ++
  (if c.stream.fps = 60 then [] else [("fps".toList, printDec c.stream.fps)]) ++
  (if c.stream.bitrate = -1 then [] else [("bitrate".toList, printDec c.stream.bitrate)]) ++
  (if c.stream.packetSize = 1024 then []
    else [("packetsize".toList, printDec c.stream.packetSize)]) ++
  (if c.sops then [] else [("sops".toList, "false".toList)]) ++
  (if c.localaudio then [("localaudio".toList, "true".toList)] else []) ++
  (if c.app = "Steam".toList then [] else [("app".toList, c.app)])

/-- `config_save`: the text of the file. -/
def configSave (c : Configuration) : List Char :=
  (savedEntries c).flatMap fun e => e.1 ++ " = ".toList ++ e.2 ++ ['\n']

/-- What `config_parse` assigns first; `forcehw` and the inputs are left as they were. -/
def defaultConfiguration (mapping : Option (List Char)) (before : Configuration) :
    Configuration :=
  { before with
    stream :=
      { env.initialStream with
        width := 1280
        height := 720
        fps := 60
        bitrate := -1
        packetSize := 1024
        streamingRemotely := 0
        audioConfiguration := .stereo
        supportsHevc := false }
    platform := "default".toList
    app := "Steam".toList
    action := none
    address := none
    configFile := none
    sops := true
    localaudio := false
    fullscreen := true
    unsupportedVersion := false
    inputsCount := 0
    mapping := mapping
    keyDir := [] }

/-- The default bitrate of a resolution and a frame rate. -/
def defaultBitrate (height fps : Int) : Int :=
  if height ≥ 1080 ∧ fps ≥ 60 then 20000
  else if height ≥ 1080 ∨ fps ≥ 60 then 10000
  else 5000

/-- The directory for keys that no option names; the text of an unset `HOME` has no meaning. -/
def defaultKeyDir : Except Halt (List Char) :=
  match env.xdgCacheDir, env.home with
  | some dir, _ => storeKeyDir (dir ++ "/moonlight".toList)
  | none, some home => storeKeyDir (home ++ "/.cache/moonlight".toList)
  | none, none => .error .undefined

/-- `moonlight.conf`; whether it opened is not looked at. -/
def readSystemFile (n : Nat) (s : ConfigState) : Except Halt ConfigState := do
  match ← getPath env files "moonlight.conf".toList (some "/etc".toList) with
  | none => .ok s
  | some configFile => (·.2) <$> configFileParse env files n configFile s

/-- Whether the only argument is a configuration file. -/
def OnlyFile (argv : List (List Char)) : Prop :=
  argv.length = 2 ∧ files.present (argv.getD 1 [])

instance (argv : List (List Char)) : Decidable (OnlyFile files argv) :=
  inferInstanceAs (Decidable (_ ∧ _))

/-- The options of the command line one by one, or the one file that it names. -/
def readCommandLine (n : Nat) (argv : List (List Char)) (s : ConfigState) :
    Except Halt ConfigState :=
  if OnlyFile files argv then do
    match ← configFileParse env files n (argv.getD 1 [])
      { s with config.action := some "stream".toList } with
    | (true, s) => .ok s
    | (false, _) => .error .exited
  else
    (getoptLongOnly optstring longOptions argv.tail).foldlM
      (fun s o => parseArgument env files (configFileParse env files n) o.code o.optarg s) s

/-- The state before any option is read. -/
def initialState (mapping : Option (List Char)) (before : Configuration) : ConfigState :=
  ⟨defaultConfiguration env mapping before, false, true, none⟩

/-- The first half of `config_parse`: all options are read. -/
def readOptions (n : Nat) (argv : List (List Char)) (before : Configuration) :
    Except Halt ConfigState := do
  let mapping ← getPath env files "mappings/default.conf".toList env.xdgDataDirs
  let s ← readSystemFile env files n (initialState env mapping before)
  readCommandLine env files n argv s

/-- What `config_parse` leaves: its state, the files, and the file it saved. -/
structure Parsed where
  state : ConfigState
  files : Files
  saved : Option (List Char × List Char)

/-- The files after `config_save`, when there is something to save to. -/
def saveOptions (c : Configuration) : Except Halt Files :=
  match c.configFile with
  | none => .ok files
  | some filename =>
    match env.rewrite files filename (configSave c) with
    | none => .error .exited
    | some files => .ok files

/-- The directory for keys, when no option names one. -/
def completeKeyDir (c : Configuration) : Except Halt (List Char) :=
  if c.keyDir = [] then defaultKeyDir env else .ok c.keyDir

def completeBitrate (stream : StreamSettings) : Int :=
  if stream.bitrate = -1 then defaultBitrate stream.height stream.fps else stream.bitrate

/-- The configuration with the values that no option gave. -/
def completed (keyDir : List Char) (c : Configuration) : Configuration :=
  { c with keyDir := keyDir, stream.bitrate := completeBitrate c.stream }

/-- The second half of `config_parse`. -/
def completeOptions (s : ConfigState) : Except Halt Parsed := do
  let files ← saveOptions env files s.config
  let keyDir ← completeKeyDir env s.config
  if s.inputAdded ∧ (s.mapped = false ∨ s.config.mapping = none) then .error .exited
  else
    .ok
      { state := { s with config := completed keyDir s.config }
        files := files
        saved := s.config.configFile.map fun filename => (filename, configSave s.config) }

/-- `config_parse`; `argv` has the program's name in front. -/
def configParse (n : Nat) (argv : List (List Char)) (before : Configuration) :
    Except Halt Parsed := do
  let s ← readOptions env files n argv before
  completeOptions env files s

end Moonlight
