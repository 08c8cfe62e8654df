import Moonlight.Gamestream.Client

/-! What `config.c` sees of the system: environment variables, files, and the search for a file by
name. Allocation succeeds. -/
namespace Moonlight

/-- Why a function of the program does not return. -/
inductive Halt where
  | exited
  | undefined
  /-- Files were still being included at the depth that was allowed. -/
  | unfinished
  deriving DecidableEq

/-- The files, by the names the program uses for them. -/
structure Files where
  /-- What `fopen(name, "r")` opens. -/
  contents : List Char → Option (List Char)
  /-- `access(name, R_OK) != -1` -/
  readable : List Char → Bool
  /-- `access(name, F_OK) == 0` -/
  present : List Char → Bool

/-- `STREAM_CONFIGURATION`. -/
structure StreamSettings extends StreamConfiguration where
  bitrate : Int
  packetSize : Int
  streamingRemotely : Int
  supportsHevc : Bool
  deriving DecidableEq

structure Env where
  home : Option (List Char)
  xdgConfigDir : Option (List Char)
  xdgDataDirs : Option (List Char)
  xdgCacheDir : Option (List Char)
  /-- What `LiInitializeStreamConfiguration` leaves, whatever the settings were. -/
  initialStream : StreamSettings
  /-- The files after a text is written to `fopen(name, "w")`; `none` when it does not open. -/
  rewrite : Files → List Char → List Char → Option Files

variable (env : Env) (files : Files)

/-- The path tried in one directory. `first` is the character the path buffer begins with, which
an empty directory leaves there. -/
def candidate (name : List Char) (first : Char) (dir : List Char) : List Char :=
  if dir.headD first = '/' then dir ++ "/moonlight/".toList ++ name
  else dir ++ '/' :: name

/-- The loop of `get_path`. -/
def searchPath (name : List Char) : Char → List (List Char) → Option (List Char)
  | _, [] => none
  | first, dir :: dirs =>
    let path := candidate name first dir
    if files.readable path then some path else searchPath name (path.headD first) dirs

/-- `get_path`; the length of an unset `HOME` has no meaning. -/
def getPath (name : List Char) (extraDataDirs : Option (List Char)) :
    Except Halt (Option (List Char)) :=
  if files.readable name then .ok (some name)
  else
    let extra := extraDataDirs.getD "/usr/share:/usr/local/share".toList
    match env.home with
    | none => .error .undefined
    | some home =>
      let xdgConfigDir := env.xdgConfigDir.getD home
      let dataDirs :=
        ".:".toList ++ xdgConfigDir ++ ':' :: home ++ "//.config:".toList ++ extra ++ ['/']
      -- the first directory is ".", so the uninitialised buffer is not looked at
      .ok (searchPath files name '\x00' (dataDirs.splitOn ':'))

end Moonlight
