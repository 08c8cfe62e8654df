import Mathlib.Data.List.Infix
import Moonlight.Gamestream.Client

/-! `load_server_status` of `libgamestream/client.c`: one request over HTTPS, a second one over HTTP
when the first gave nothing, and the facts that are taken from a reply. -/
namespace Moonlight

open Lib.Cleanup Lib.Stdio

/-- `SERVER_DATA` with its texts; `none` is NULL. -/
structure ServerRecord extends ServerData where
  address : List Char
  gpuType : Option (List Char)
  serverInfoAppVersion : Option (List Char)
  serverInfoGfeVersion : Option (List Char)

inductive Scheme where
  | https | http
  deriving DecidableEq

def Scheme.port : Scheme → Nat
  | .https => 47984
  | .http => 47989

/-- The arguments of the URL. -/
structure StatusRequest where
  scheme : Scheme
  address : List Char
  port : Nat
  uniqueId : List Char
  uuid : List Char
  deriving DecidableEq

/-- What the call gets from outside: a reply and an identifier for each of its two requests. -/
structure StatusPeer where
  reply : Scheme → Reply
  uniqueId : List Char
  uuid : Scheme → List Char

structure StatusWorld where
  server : ServerRecord
  sent : List StatusRequest
  gsError : Option String

abbrev Status (α : Type) : Type := Block StatusWorld GsCode α

variable (P : StatusPeer)

def StatusPeer.request (address : List Char) (scheme : Scheme) : StatusRequest :=
  ⟨scheme, address, scheme.port, P.uniqueId, P.uuid scheme⟩

/-- The world once a request is on its way. -/
def StatusWorld.send (w : StatusWorld) (scheme : Scheme) : StatusWorld :=
  { w with sent := w.sent ++ [P.request w.server.address scheme] }

def statusFail {α : Type} (ret : GsCode) (error : String) : Status α :=
  fun w => (.cleanup ret, { w with gsError := some error })

/-- `http_request`, and the jump that follows when it fails. -/
def statusRequest (scheme : Scheme) : Status Body := fun w =>
  match P.reply scheme with
  | .failure error => statusFail .ioError error (w.send P scheme)
  | .body body => (.next body, w.send P scheme)

/-- `xml_search`, and the jump that follows when it fails. -/
def statusSearch (body : Body) (node : String) : Status (List Char) :=
  match body with
  | .malformed error => statusFail .invalid error
  | .document events => pure (xmlText node events)

def modifyServer (f : ServerRecord → ServerRecord) : Status Unit :=
  modify fun w => { w with server := f w.server }

/-- `server->serverInfo.serverInfoAppVersion`, where it is used as a string. -/
def appVersion : Status (List Char) := fun w => defined w.server.serverInfoAppVersion w

/-- The assignments at the end of an attempt. The texts are not NULL there. -/
def statusStore (pairedText currentGameText stateText heightText appVersionText : List Char) :
    Status Unit := do
  modifyServer fun server => { server with
    paired := cstring pairedText = ['1']
    currentGame := atoi currentGameText
    supports4K := atoi heightText ≥ 2160
    serverMajorVersion := atoi appVersionText }
  if "_SERVER_AVAILABLE".toList <:+: cstring stateText then
    modifyServer fun server => { server with currentGame := 0 }

/-- One turn of the loop, up to its label. -/
def statusAttempt (scheme : Scheme) : Status Unit := do
  let body ← statusRequest P scheme
  let currentGameText ← statusSearch body "currentgame"
  let pairedText ← statusSearch body "PairStatus"
  let appVersionText ← statusSearch body "appversion"
  modifyServer fun server => { server with serverInfoAppVersion := some appVersionText }
  let stateText ← statusSearch body "state"
  let heightText ← statusSearch body "Height"
  let _serverCodecModeSupportText ← statusSearch body "ServerCodecModeSupport"
  let gpuType ← statusSearch body "gputype"
  modifyServer fun server => { server with gpuType := some gpuType }
  let gfeVersion ← statusSearch body "GfeVersion"
  modifyServer fun server => { server with serverInfoGfeVersion := some gfeVersion }
  let appVersionText ← appVersion
  if cstring currentGameText = [] ∨ cstring pairedText = [] ∨ cstring appVersionText = [] ∨
      cstring stateText = [] then
    jump .invalid
  else
    statusStore pairedText currentGameText stateText heightText appVersionText

/-- `ret` behind the label; `none` is undefined behaviour. -/
def attemptCode (scheme : Scheme) (w : StatusWorld) : Option (GsCode × StatusWorld) :=
  match statusAttempt P scheme w with
  | (.next _, w) => some (.ok, w)
  | (.cleanup ret, w) => some (ret, w)
  | (.undefined, _) => none

def versionTooHigh : String :=
  "Ensure you're running the latest version of Moonlight Embedded or downgrade " ++
  "GeForce Experience and try again"

def versionTooLow : String :=
  "Moonlight Embedded requires a newer version of GeForce Experience. " ++
  "Please upgrade GFE on your PC and try again."

/-- The check of the major version behind the loop. -/
def checkVersion (w : StatusWorld) : GsCode × StatusWorld :=
  if w.server.serverMajorVersion > 7 then
    (.unsupportedVersion, { w with gsError := some versionTooHigh })
  else if w.server.serverMajorVersion < 3 then
    (.unsupportedVersion, { w with gsError := some versionTooLow })
  else (.ok, w)

/-- `load_server_status`. -/
def loadServerStatus (w : StatusWorld) : Option (GsCode × StatusWorld) := do
  let (ret, w) ← attemptCode P .https w
  let (ret, w) ← if ret = .ok then some (ret, w) else attemptCode P .http w
  if ret = .ok then some (checkVersion w) else some (ret, w)

/-- The texts that every supported host sends are there. -/
def CompleteTexts (events : List XmlEvent) : Prop :=
  cstring (xmlText "currentgame" events) ≠ [] ∧ cstring (xmlText "PairStatus" events) ≠ [] ∧
  cstring (xmlText "appversion" events) ≠ [] ∧ cstring (xmlText "state" events) ≠ []

/-- A complete reply: well-formed, with these texts. -/
def CompleteReply (reply : Reply) (events : List XmlEvent) : Prop :=
  reply = .body (.document events) ∧ CompleteTexts events

/-- The record of a host at this address, as one reply describes it. -/
def recordOf (address : List Char) (events : List XmlEvent) : ServerRecord where
  address := address
  paired := cstring (xmlText "PairStatus" events) = ['1']
  currentGame :=
    if "_SERVER_AVAILABLE".toList <:+: cstring (xmlText "state" events) then 0
    else atoi (xmlText "currentgame" events)
  supports4K := 2160 ≤ atoi (xmlText "Height" events)
  serverMajorVersion := atoi (xmlText "appversion" events)
  gpuType := some (xmlText "gputype" events)
  serverInfoAppVersion := some (xmlText "appversion" events)
  serverInfoGfeVersion := some (xmlText "GfeVersion" events)

variable {P} {w v : StatusWorld} {scheme : Scheme} {events : List XmlEvent} {error : String}
  {ret : GsCode}

theorem attempt_failure (h : P.reply scheme = .failure error) :
    attemptCode P scheme w =
      some (.ioError, { w.send P scheme with gsError := some error }) := by
  have hrequest : statusRequest P scheme w =
      (.cleanup .ioError, { w.send P scheme with gsError := some error }) := by
    simp [statusRequest, h, statusFail]
  rw [attemptCode, statusAttempt, bind_cleanup hrequest]

theorem attempt_malformed (h : P.reply scheme = .body (.malformed error)) :
    attemptCode P scheme w =
      some (.invalid, { w.send P scheme with gsError := some error }) := by
  have hrequest : statusRequest P scheme w = (.next (.malformed error), w.send P scheme) := by
    simp [statusRequest, h]
  rw [attemptCode, statusAttempt, bind_next hrequest]
  rfl

/-- The three texts that are stored before the reply is known to be complete. -/
def ServerRecord.withTexts (server : ServerRecord) (events : List XmlEvent) : ServerRecord :=
  { server with
    gpuType := some (xmlText "gputype" events)
    serverInfoAppVersion := some (xmlText "appversion" events)
    serverInfoGfeVersion := some (xmlText "GfeVersion" events) }

/-- The searches of a well-formed reply all succeed. -/
theorem statusAttempt_document (h : P.reply scheme = .body (.document events)) :
    statusAttempt P scheme w =
      (if cstring (xmlText "currentgame" events) = [] ∨ cstring (xmlText "PairStatus" events) = [] ∨
          cstring (xmlText "appversion" events) = [] ∨ cstring (xmlText "state" events) = [] then
        jump .invalid
      else
        statusStore (xmlText "PairStatus" events) (xmlText "currentgame" events)
          (xmlText "state" events) (xmlText "Height" events) (xmlText "appversion" events))
        { w.send P scheme with server := w.server.withTexts events } := by
  have hrequest : statusRequest P scheme w = (.next (.document events), w.send P scheme) := by
    simp [statusRequest, h]
  rw [statusAttempt, bind_next hrequest]
  rfl

theorem attempt_incomplete (h : P.reply scheme = .body (.document events))
    (hc : ¬ CompleteTexts events) :
    attemptCode P scheme w =
      some (.invalid, { w.send P scheme with server := w.server.withTexts events }) := by
  rw [attemptCode, statusAttempt_document h, if_pos]
  · rfl
  · unfold CompleteTexts at hc
    tauto

/-- A complete reply decides every fact of the record. -/
theorem attempt_complete (h : CompleteReply (P.reply scheme) events) :
    attemptCode P scheme w =
      some (.ok, { w.send P scheme with server := recordOf w.server.address events }) := by
  obtain ⟨hreply, hgame, hpair, hversion, hstate⟩ := h
  rw [attemptCode, statusAttempt_document hreply, if_neg (by tauto), statusStore]
  by_cases havail : "_SERVER_AVAILABLE".toList <:+: cstring (xmlText "state" events)
  · rw [if_pos havail]
    simp only [recordOf, if_pos havail]
    rfl
  · rw [if_neg havail]
    simp only [recordOf, if_neg havail]
    rfl

/-- What an attempt without a complete reply leaves: an error, and the facts as they were. -/
theorem attempt_fails (h : ∀ events, ¬ CompleteReply (P.reply scheme) events) :
    ∃ ret v, attemptCode P scheme w = some (ret, v) ∧ ret ≠ .ok ∧
      v.sent = (w.send P scheme).sent ∧ v.server.address = w.server.address ∧
      v.server.toServerData = w.server.toServerData := by
  cases hreply : P.reply scheme with
  | failure error => exact ⟨_, _, attempt_failure hreply, by decide, rfl, rfl, rfl⟩
  | body body =>
    cases body with
    | malformed error => exact ⟨_, _, attempt_malformed hreply, by decide, rfl, rfl, rfl⟩
    | document events =>
      have hc : ¬ CompleteTexts events := fun hc => h events ⟨hreply, hc⟩
      exact ⟨_, _, attempt_incomplete hreply hc, by decide, rfl, rfl, rfl⟩

/-- The result for a major version. -/
def versionCode (version : Int) : GsCode :=
  if 3 ≤ version ∧ version ≤ 7 then .ok else .unsupportedVersion

theorem checkVersion_code (v : StatusWorld) :
    ∃ gsError, checkVersion v =
      (versionCode v.server.serverMajorVersion, { v with gsError }) := by
  unfold checkVersion versionCode
  split
  · next hhigh => exact ⟨_, by rw [if_neg (by omega)]⟩
  split
  · next hlow => exact ⟨_, by rw [if_neg (by omega)]⟩
  · next hhigh hlow => exact ⟨v.gsError, by rw [if_pos (by omega)]⟩

/-- The call that was answered completely: the record is what that reply says, and the version it
names decides the result. -/
structure Answered (ret : GsCode) (v : StatusWorld) (address : List Char)
    (events : List XmlEvent) : Prop where
  server : v.server = recordOf address events
  idle : "_SERVER_AVAILABLE".toList <:+: cstring (xmlText "state" events) →
    v.server.currentGame = 0
  code : ret = versionCode v.server.serverMajorVersion

theorem answered_checkVersion {address : List Char} (hserver : v.server = recordOf address events) :
    Answered (checkVersion v).1 (checkVersion v).2 address events ∧
      (checkVersion v).2.sent = v.sent := by
  obtain ⟨gsError, hcheck⟩ := checkVersion_code v
  rw [hcheck]
  refine ⟨⟨hserver, fun havail => ?_, rfl⟩, rfl⟩
  rw [hserver, recordOf, if_pos havail]

/-- A complete reply over HTTPS is used, and nothing is asked over HTTP. -/
theorem loadServerStatus_https (h : CompleteReply (P.reply .https) events) :
    ∃ ret v, loadServerStatus P w = some (ret, v) ∧ Answered ret v w.server.address events ∧
      v.sent = w.sent ++ [P.request w.server.address .https] := by
  have hcode : attemptCode P .https w = _ := attempt_complete h
  obtain ⟨hanswered, hsent⟩ := answered_checkVersion
    (show { w.send P .https with server := recordOf w.server.address events }.server = _ from rfl)
  refine ⟨_, _, ?_, hanswered, hsent⟩
  simp [loadServerStatus, hcode]

/-- Otherwise a complete reply over HTTP is used, and nothing of the first attempt is left. -/
theorem loadServerStatus_http (hfirst : ∀ events, ¬ CompleteReply (P.reply .https) events)
    (h : CompleteReply (P.reply .http) events) :
    ∃ ret v, loadServerStatus P w = some (ret, v) ∧ Answered ret v w.server.address events ∧
      v.sent = w.sent ++
        [P.request w.server.address .https, P.request w.server.address .http] := by
  obtain ⟨ret, v, hfail, hret, hsent, haddress, _⟩ := attempt_fails (w := w) hfirst
  have hcode : attemptCode P .http v = _ := attempt_complete h
  obtain ⟨hanswered, hlast⟩ := answered_checkVersion
    (show { v.send P .http with server := recordOf v.server.address events }.server = _ from rfl)
  rw [haddress] at hanswered hlast hcode
  refine ⟨_, _, ?_, hanswered, ?_⟩
  · simp [loadServerStatus, hfail, hret, hcode]
  · rw [hlast]
    simp [StatusWorld.send, hsent, haddress]

/-- Without a complete reply the call fails, and the facts stay as they were. -/
theorem loadServerStatus_none (hfirst : ∀ events, ¬ CompleteReply (P.reply .https) events)
    (hsecond : ∀ events, ¬ CompleteReply (P.reply .http) events) :
    ∃ ret v, loadServerStatus P w = some (ret, v) ∧ ret ≠ .ok ∧
      v.server.toServerData = w.server.toServerData := by
  obtain ⟨ret, v, hfail, hret, _, _, hdata⟩ := attempt_fails (w := w) hfirst
  obtain ⟨ret', v', hfail', hret', _, _, hdata'⟩ := attempt_fails (w := v) hsecond
  refine ⟨ret', v', ?_, hret', hdata'.trans hdata⟩
  simp [loadServerStatus, hfail, hret, hfail', hret']

/-- Every call returns. -/
theorem loadServerStatus_returns : loadServerStatus P w ≠ none := by
  by_cases hfirst : ∃ events, CompleteReply (P.reply .https) events
  · obtain ⟨events, hevents⟩ := hfirst
    obtain ⟨ret, v, hrun, _⟩ := loadServerStatus_https (w := w) hevents
    simp [hrun]
  rw [not_exists] at hfirst
  by_cases hsecond : ∃ events, CompleteReply (P.reply .http) events
  · obtain ⟨events, hevents⟩ := hsecond
    obtain ⟨ret, v, hrun, _⟩ := loadServerStatus_http (w := w) hfirst hevents
    simp [hrun]
  rw [not_exists] at hsecond
  obtain ⟨ret, v, hrun, _⟩ := loadServerStatus_none (w := w) hfirst hsecond
  simp [hrun]

/-- There is one request over HTTPS, and at most another one over HTTP. -/
theorem loadServerStatus_sent (h : loadServerStatus P w = some (ret, v)) :
    v.server.address = w.server.address ∧
      ∃ rest, v.sent = w.sent ++ P.request w.server.address .https :: rest ∧
        ∀ request ∈ rest, request = P.request w.server.address .http := by
  by_cases hfirst : ∃ events, CompleteReply (P.reply .https) events
  · obtain ⟨events, hevents⟩ := hfirst
    obtain ⟨_, _, hrun, hanswered, hsent⟩ := loadServerStatus_https (w := w) hevents
    cases h.symm.trans hrun
    exact ⟨by rw [hanswered.server]; rfl, [], hsent, fun _ hr => absurd hr List.not_mem_nil⟩
  · rw [not_exists] at hfirst
    obtain ⟨ret₁, u, hfail, hret, hsent, haddress, _⟩ := attempt_fails (w := w) hfirst
    by_cases hsecond : ∃ events, CompleteReply (P.reply .http) events
    · obtain ⟨events, hevents⟩ := hsecond
      obtain ⟨_, _, hrun, hanswered, hboth⟩ := loadServerStatus_http (w := w) hfirst hevents
      cases h.symm.trans hrun
      exact ⟨by rw [hanswered.server]; rfl, _, hboth, fun _ hr => List.mem_singleton.mp hr⟩
    · rw [not_exists] at hsecond
      obtain ⟨ret₂, v₂, hfail₂, hret₂, hsent₂, haddress₂, _⟩ := attempt_fails (w := u) hsecond
      have hrun : loadServerStatus P w = some (ret₂, v₂) := by
        simp [loadServerStatus, hfail, hret, hfail₂, hret₂]
      cases h.symm.trans hrun
      refine ⟨haddress₂.trans haddress, _, ?_, fun _ hr => List.mem_singleton.mp hr⟩
      rw [hsent₂]
      simp [StatusWorld.send, hsent, haddress]

/-- `load_server_status` takes all its facts from one reply, the one over HTTPS when that is
complete, and keeps the old ones when neither is. -/
theorem load_server_status_one_reply (P : StatusPeer) (w : StatusWorld) :
    (∀ events, CompleteReply (P.reply .https) events →
      ∃ ret v, loadServerStatus P w = some (ret, v) ∧ Answered ret v w.server.address events ∧
        v.sent = w.sent ++ [P.request w.server.address .https]) ∧
    ((∀ events, ¬ CompleteReply (P.reply .https) events) →
      ∀ events, CompleteReply (P.reply .http) events →
        ∃ ret v, loadServerStatus P w = some (ret, v) ∧ Answered ret v w.server.address events ∧
          v.sent = w.sent ++
            [P.request w.server.address .https, P.request w.server.address .http]) ∧
    ((∀ events, ¬ CompleteReply (P.reply .https) events) →
      (∀ events, ¬ CompleteReply (P.reply .http) events) →
        ∃ ret v, loadServerStatus P w = some (ret, v) ∧ ret ≠ .ok ∧
          v.server.toServerData = w.server.toServerData) :=
  ⟨fun _ h => loadServerStatus_https h, fun hfirst _ h => loadServerStatus_http hfirst h,
    fun hfirst hsecond => loadServerStatus_none hfirst hsecond⟩

/-- A reply in which every text is the same. -/
def statusFields (s : List Char) : List (String × List Char) :=
  [("currentgame", s), ("PairStatus", s), ("appversion", s), ("state", s)]

/-- A host that refuses HTTPS and answers over HTTP. -/
def unpairedHost : StatusPeer where
  reply
    | .https => .failure "SSL"
    | .http => .body (.document (flatDocument (statusFields ['7'])))
  uniqueId := []
  uuid _ := []

def newRecord : ServerRecord where
  address := []
  paired := false
  supports4K := false
  currentGame := 0
  serverMajorVersion := 0
  gpuType := none
  serverInfoAppVersion := none
  serverInfoGfeVersion := none

/-- A host that answers over HTTP alone is asked twice. -/
theorem load_server_status_one_reply_http :
    ∃ ret v, loadServerStatus unpairedHost ⟨newRecord, [], none⟩ = some (ret, v) ∧
      ret = .ok ∧ v.sent.length = 2 := by
  obtain ⟨_, hhttp, _⟩ := load_server_status_one_reply unpairedHost ⟨newRecord, [], none⟩
  obtain ⟨ret, v, hrun, ⟨hserver, _, hret⟩, hsent⟩ :=
    hhttp (by rintro events ⟨hreply, _⟩; cases hreply) _
      ⟨rfl, by decide +kernel, by decide +kernel, by decide +kernel, by decide +kernel⟩
  refine ⟨ret, v, hrun, ?_, by rw [hsent]; rfl⟩
  rw [hret, hserver]
  decide +kernel

end Moonlight
