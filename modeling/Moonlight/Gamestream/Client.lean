import Moonlight.Lib.Cleanup
import Moonlight.Lib.Machine
import Moonlight.Lib.Stdio
import Moonlight.Gamestream.Xml

/-! The requests of `libgamestream/client.c`: what they send, what a reply does to them, and the
three calls that only send one request. Allocation succeeds. -/
namespace Moonlight

open Lib.Cleanup Lib.Machine Lib.Stdio

def atoi (s : List Char) : Int := wrap 32 (strtol s)

/-- The codes of `errors.h`. -/
inductive GsCode where
  | ok | failed | outOfMemory | invalid | wrongState | ioError | notSupported4K
  | unsupportedVersion
  deriving DecidableEq

/-- The fields of `SERVER_DATA` that the calls read or write. -/
structure ServerData where
  paired : Bool
  supports4K : Bool
  currentGame : Int
  serverMajorVersion : Int
  deriving DecidableEq

/-- The five requests of `gs_pair`. -/
inductive PairStep where
  | getServerCert | clientChallenge | serverChallengeResp | clientPairingSecret | pairChallenge
  deriving DecidableEq

/-- The query of `/launch`. -/
structure LaunchQuery where
  appId : Int
  width : Int
  height : Int
  fps : Int
  sops : Bool
  rikey : List Char
  rikeyid : Nat
  localAudioPlayMode : Bool
  surroundAudioInfo : Int
  deriving DecidableEq

/-- The requests, with the arguments of their URL. -/
inductive Command where
  | pair (step : PairStep) (args : List (List Char))
  | unpair
  | launch (query : LaunchQuery)
  | resume (rikey : List Char) (rikeyid : Nat)
  | cancel
  deriving DecidableEq

/-- A request as it is sent, with a fresh identifier. -/
structure Request where
  uuid : List Char
  command : Command
  deriving DecidableEq

/-- What `curl_easy_perform` comes back with. -/
inductive Reply where
  | failure (error : String)
  | body (body : Body)
  deriving DecidableEq

/-- What one call gets from outside: a reply and an identifier for each request it sends. -/
structure Peer where
  replies : Nat → Reply
  uuid : Nat → List Char

/-- The state of one call: the server record, the requests sent so far, and `gs_error`. -/
structure World where
  server : ServerData
  sent : List Request
  gsError : Option String

def World.enter (server : ServerData) : World := ⟨server, [], none⟩

abbrev Gs (α : Type) : Type := Block World GsCode α

variable (P : Peer)

/-- The world once a request is on its way. -/
def World.send (w : World) (command : Command) : World :=
  { w with sent := w.sent ++ [⟨P.uuid w.sent.length, command⟩] }

def fail {α : Type} (ret : GsCode) (error : String) : Gs α :=
  fun w => (.cleanup ret, { w with gsError := some error })

/-- `http_request`, and the jump that follows when it fails. -/
def httpRequest (command : Command) : Gs Body := fun w =>
  match P.replies w.sent.length with
  | .failure error => fail .failed error (w.send P command)
  | .body body => (.next body, w.send P command)

/-- `xml_search`, and the jump that follows when it fails. -/
def xmlSearch (body : Body) (node : String) : Gs (List Char) :=
  match body with
  | .malformed error => fail .invalid error
  | .document events => pure (xmlText node events)

section
variable {P} {w : World} {command : Command} {error : String} {body : Body}

theorem httpRequest_failure (h : P.replies w.sent.length = .failure error) :
    httpRequest P command w =
      (.cleanup .failed, { w.send P command with gsError := some error }) := by
  simp [httpRequest, h, fail]

theorem httpRequest_body (h : P.replies w.sent.length = .body body) :
    httpRequest P command w = (.next body, w.send P command) := by
  simp [httpRequest, h]

theorem xmlSearch_document {α : Type} {events : List XmlEvent} {node : String}
    {f : List Char → Gs α} :
    (xmlSearch (.document events) node >>= f) = f (xmlText node events) := rfl

end

/-- The code after the label that returns `ret`; `none` is undefined behaviour. -/
def returnCode (x : Gs Unit) (w : World) : Option (GsCode × World) :=
  match x w with
  | (.next _, w) => some (.ok, w)
  | (.cleanup ret, w) => some (ret, w)
  | (.undefined, _) => none

def gsUnpair (w : World) : Option (GsCode × World) :=
  returnCode (do let _ ← httpRequest P .unpair) w

inductive AudioConfiguration where
  | stereo | surround51
  deriving DecidableEq

/-- The fields of `STREAM_CONFIGURATION` that `gs_start_app` reads or writes. -/
structure StreamConfiguration where
  width : Int
  height : Int
  fps : Int
  audioConfiguration : AudioConfiguration
  remoteInputAesKey : List UInt8
  remoteInputAesIv : List UInt8
  deriving DecidableEq

/-- `bytes_to_hex`: two digits of `%02x` for each byte. -/
def bytesToHex (bytes : List UInt8) : List Char :=
  bytes.flatMap fun b => [Nat.digitChar (b.toNat / 16), Nat.digitChar (b.toNat % 16)]

/-- `surroundAudioInfo`: the channel mask above the channel count. -/
def surroundAudioInfo : AudioConfiguration → Int
  | .stereo => 0x3 * 2 ^ 16 + 2
  | .surround51 => 0xFC * 2 ^ 16 + 6

def startCommand (config : StreamConfiguration) (appId : Int) (sops localaudio : Bool)
    (server : ServerData) : Command :=
  if server.currentGame = 0 then
    .launch
      { appId
        width := config.width
        height := config.height
        fps := config.fps
        sops
        rikey := bytesToHex config.remoteInputAesKey
        rikeyid := 0
        localAudioPlayMode := localaudio
        surroundAudioInfo := surroundAudioInfo config.audioConfiguration }
  else .resume (bytesToHex config.remoteInputAesKey) 0

/-- `gs_start_app`; `key` is what `RAND_bytes` puts into the configuration. -/
def gsStartApp (key : List UInt8) (config : StreamConfiguration) (appId : Int)
    (sops localaudio : Bool) (w : World) : StreamConfiguration × Option (GsCode × World) :=
  if config.height ≥ 2160 ∧ w.server.supports4K = false then
    (config, some (.notSupported4K, w))
  else
    let config := { config with
      remoteInputAesKey := key
      remoteInputAesIv := List.replicate 16 0 }
    (config, returnCode (w := w) do
      let body ← httpRequest P (startCommand config appId sops localaudio w.server)
      modify fun w => { w with server := { w.server with currentGame := appId } }
      let result ← xmlSearch body "gamesession"
      if cstring result = ['0'] then jump .failed)

/-- `gs_quit_app`. -/
def gsQuitApp (w : World) : Option (GsCode × World) :=
  returnCode (w := w) do
    let body ← httpRequest P .cancel
    let result ← xmlSearch body "cancel"
    if cstring result = ['0'] then jump .failed

end Moonlight
