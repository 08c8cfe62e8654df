import Moonlight.Config.Parse

/-! `main.c` up to the call of `LiStartConnection`. Allocation succeeds. -/
namespace Moonlight

/-- `enum platform`, without the one for none. -/
inductive Platform where
  | sdl | pi | imx | aml | fake
  deriving DecidableEq

def platformSupportsHevc : Platform → Bool
  | .aml => true
  | _ => false

/-- What `main` meets besides the configuration. -/
structure Host where
  /-- `platform_check`, which asks the dynamic linker. -/
  platformCheck : List Char → Option Platform
  /-- What `gs_discover_server` writes. -/
  discovered : List Char
  /-- `gs_init` of an address and a directory: its return code and the server record. -/
  gsInit : List Char → List Char → GsCode × ServerData
  /-- Whether the input devices or the window open; the program exits otherwise. -/
  opens : Platform → Configuration → Bool
  /-- `get_app_id` -/
  appId : List Char → Int
  /-- What answers the request of `gs_start_app`. -/
  peer : Peer
  /-- What `RAND_bytes` gives. -/
  key : List UInt8

/-- The arguments of `LiStartConnection` that come from the configuration. -/
structure Connection where
  stream : StreamSettings
  drFlags : Nat

variable (env : Env) (host : Host)

def hostConfigFile (address : List Char) : List Char :=
  "hosts/".toList ++ address ++ ".conf".toList

def findAddress (c : Configuration) : Except Halt (List Char) :=
  match c.address with
  | some address => .ok address
  | none => if host.discovered = [] then .error .exited else .ok host.discovered

/-- The options for one host; the name of their file has to fit `host_config_file[128]`. -/
def readHostFile (files : Files) (n : Nat) (address : List Char) (s : ConfigState) :
    Except Halt ConfigState :=
  if (hostConfigFile address).length < 128 then
    if files.readable (hostConfigFile address) then
      (·.2) <$> configFileParse env files n (hostConfigFile address) s
    else .ok s
  else .error .undefined

def connectServer (c : Configuration) : Except Halt ServerData :=
  match host.gsInit (c.address.getD []) c.keyDir with
  | (.ok, server) => .ok server
  | (.unsupportedVersion, server) => if c.unsupportedVersion then .ok server else .error .exited
  | _ => .error .exited

def pairCheck (server : ServerData) : Except Halt Unit :=
  if server.paired then .ok () else .error .exited

/-- `stream`, up to `LiStartConnection`. -/
def startStream (server : ServerData) (c : Configuration) : Except Halt Connection :=
  let appId := host.appId c.app
  if appId < 0 then .error .exited
  else
    match gsStartApp host.peer host.key c.stream.toStreamConfiguration appId c.sops c.localaudio
        (World.enter server) with
    | (config, some (.ok, _)) =>
      .ok
        { stream := { c.stream with toStreamConfiguration := config }
          drFlags := (if c.fullscreen then 1 else 0) ||| (if c.forcehw then 2 else 0) }
    | (_, some _) => .error .exited
    | (_, none) => .error .undefined

/-- The actions of `main`; only one of them starts a connection. -/
def runAction (system : Platform) (action : List Char) (server : ServerData) (c : Configuration) :
    Except Halt (Option Connection) :=
  if action = "stream".toList then do
    pairCheck server
    if host.opens system c then some <$> startStream host server c else .error .exited
  else if action = "list".toList ∨ action = "quit".toList then do
    pairCheck server
    .ok none
  else .ok none

/-- What `main` does once `config_parse` is done. -/
def startSession (n : Nat) (parsed : Parsed) : Except Halt (Option Connection) :=
  match parsed.state.config.action with
  | none => .error .exited
  | some action =>
    if action = "help".toList then .error .exited
    else match host.platformCheck parsed.state.config.platform with
      | none => .error .exited
      | some system =>
        if action = "map".toList then .error .exited
        else do
          let address ← findAddress host parsed.state.config
          let s ← readHostFile env parsed.files n address
            { parsed.state with
              config.stream.supportsHevc :=
                parsed.state.config.stream.supportsHevc || platformSupportsHevc system
              config.address := some address }
          let server ← connectServer host s.config
          runAction host system action server s.config

/-- `main` up to the call of `LiStartConnection`, if it gets there. -/
def main (files : Files) (n : Nat) (argv : List (List Char)) (before : Configuration) :
    Except Halt (Option Connection) := do
  let parsed ← configParse env files n argv before
  startSession env host n parsed

end Moonlight
