import Moonlight.Lib.Trace
import Moonlight.Gamestream.Client

/-! Which application the client believes to be running, beside the one the host runs. Starting
and quitting both leave `currentGame` behind once a session is open. -/
namespace Moonlight

open Lib.Cleanup Lib.Trace

/-- The client's record, the application the host runs, and the commands the host was sent. -/
structure Session where
  server : ServerData
  running : Option Int
  received : List Command

/-- The host launches and cancels as it is told; resuming changes nothing. -/
def hostRuns (running : Option Int) : Command → Option Int
  | .launch query => some query.appId
  | .cancel => none
  | _ => running

/-- The host takes the requests of one call that returned. -/
def Session.after (s : Session) (w : World) : Session where
  server := w.server
  running := (w.sent.map (·.command)).foldl hostRuns s.running
  received := s.received ++ w.sent.map (·.command)

inductive AppCall where
  | start (config : StreamConfiguration) (appId : Int) (sops localaudio : Bool)
  | quit

variable {s t : Session} {a : AppCall} {run : List (AppCall × Session)} {w : World} {P : Peer}
  {config : StreamConfiguration} {appId : Int} {sops localaudio : Bool} {key : List UInt8}

/-- One call that returns `GS_OK`, whatever the host replied. -/
def CallStep (s : Session) (a : AppCall) (t : Session) : Prop :=
  match a with
  | .start config appId sops localaudio =>
    ∃ P key w, (gsStartApp P key config appId sops localaudio (.enter s.server)).2 = some (.ok, w) ∧
      t = s.after w
  | .quit => ∃ P w, gsQuitApp P (.enter s.server) = some (.ok, w) ∧ t = s.after w

/-- `currentGame` is the application the host runs, and 0 when it runs none. -/
def Agree (s : Session) : Prop := s.server.currentGame = s.running.getD 0

/-- A start launches when nothing runs, and a session it resumes keeps its id. -/
def IssuesRight (s : Session) (a : AppCall) (t : Session) : Prop :=
  ∀ config appId sops localaudio, a = .start config appId sops localaudio →
    (s.running = none → ∃ query, t.received = s.received ++ [.launch query]) ∧
    (∀ rikey rikeyid, t.received = s.received ++ [.resume rikey rikeyid] →
      t.running = some t.server.currentGame)

/-- A session is opened, or the application that is running is resumed; it is never quit. -/
def NoOpenSession (s : Session) (a : AppCall) (_ : Session) : Prop :=
  match a with
  | .start _ appId _ _ => s.server.currentGame = 0 ∨ appId = s.server.currentGame
  | .quit => s.server.currentGame = 0

/-- A call that returned `GS_OK` got a body for its request. -/
theorem returnCode_request {command : Command} {f : Body → Gs Unit} {v : World}
    (h : returnCode (httpRequest P command >>= f) w = some (.ok, v)) :
    ∃ body, returnCode (f body) (w.send P command) = some (.ok, v) := by
  cases hreply : P.replies w.sent.length with
  | failure error =>
    rw [returnCode, bind_cleanup (httpRequest_failure hreply)] at h
    cases h
  | body body =>
    rw [returnCode, bind_next (httpRequest_body hreply)] at h
    exact ⟨body, h⟩

/-- The check that both calls end with sends nothing and keeps the record. -/
theorem returnCode_check {body : Body} {node : String} {v : World}
    (h : returnCode (do
      let result ← xmlSearch body node
      if Lib.Stdio.cstring result = ['0'] then jump .failed) w = some (.ok, v)) :
    v.server = w.server ∧ v.sent = w.sent := by
  cases body with
  | malformed error =>
    have hrun : xmlSearch (.malformed error) node w =
        (.cleanup .invalid, { w with gsError := some error }) := rfl
    rw [returnCode, bind_cleanup hrun] at h
    cases h
  | document events =>
    rw [returnCode, xmlSearch_document] at h
    by_cases hzero : Lib.Stdio.cstring (xmlText node events) = ['0']
    · rw [if_pos hzero] at h
      cases h
    · rw [if_neg hzero] at h
      cases h
      exact ⟨rfl, rfl⟩

/-- A successful start sends one command and takes over the id it was asked for. -/
theorem gsStartApp_ok {server : ServerData}
    (h : (gsStartApp P key config appId sops localaudio (.enter server)).2 = some (.ok, w)) :
    w.server = { server with currentGame := appId } ∧
    ∃ config' uuid, w.sent = [⟨uuid, startCommand config' appId sops localaudio server⟩] := by
  unfold gsStartApp at h
  split at h
  · cases h
  · obtain ⟨body, h⟩ := returnCode_request h
    obtain ⟨hserver, hsent⟩ := returnCode_check h
    exact ⟨hserver, _, _, hsent⟩

/-- A successful quit sends one command and keeps the record. -/
theorem gsQuitApp_ok {server : ServerData} (h : gsQuitApp P (.enter server) = some (.ok, w)) :
    w.server = server ∧ ∃ uuid, w.sent = [⟨uuid, .cancel⟩] := by
  obtain ⟨body, h⟩ := returnCode_request h
  obtain ⟨hserver, hsent⟩ := returnCode_check h
  exact ⟨hserver, _, hsent⟩

/-- What a start does to a session. -/
theorem startStep_cases (h : CallStep s (.start config appId sops localaudio) t) :
    t.server = { s.server with currentGame := appId } ∧
    ((s.server.currentGame = 0 ∧ t.running = some appId ∧
        ∃ query, t.received = s.received ++ [.launch query]) ∨
      (s.server.currentGame ≠ 0 ∧ t.running = s.running ∧
        ∃ rikey rikeyid, t.received = s.received ++ [.resume rikey rikeyid])) := by
  obtain ⟨P, key, w, hcall, rfl⟩ := h
  obtain ⟨hserver, config', uuid, hsent⟩ := gsStartApp_ok hcall
  refine ⟨hserver, ?_⟩
  by_cases hzero : s.server.currentGame = 0
  · left
    simp [Session.after, hsent, startCommand, hzero, hostRuns]
  · right
    simp [Session.after, hsent, startCommand, hzero, hostRuns]

/-- One call keeps client and host in agreement if and only if it starts with no session open,
resumes the running application, or quits nothing. -/
theorem agree_step (h : CallStep s a t) (hs : Agree s) : Agree t ↔ NoOpenSession s a t := by
  unfold Agree at hs ⊢
  cases a with
  | start config appId sops localaudio =>
    obtain ⟨hserver, ⟨hzero, hrun, _⟩ | ⟨hopen, hrun, _⟩⟩ := startStep_cases h
    · simp [hserver, hrun, NoOpenSession, hzero]
    · rw [hserver, hrun, ← hs]
      simp [NoOpenSession, hopen]
  | quit =>
    obtain ⟨P, w, hcall, rfl⟩ := h
    obtain ⟨hserver, uuid, hsent⟩ := gsQuitApp_ok hcall
    simp [Session.after, hserver, hsent, hostRuns, NoOpenSession]

/-- In agreement, a start launches when nothing runs and a resumed session is the one recorded
afterwards, provided that the start asks for it. -/
theorem issuesRight_step (h : CallStep s a t) (hs : Agree s) (ht : Agree t) :
    IssuesRight s a t := by
  rintro config appId sops localaudio rfl
  obtain ⟨hserver, ⟨hzero, hrun, query, hsent⟩ | ⟨hopen, hrun, rikey, rikeyid, hsent⟩⟩ :=
    startStep_cases h
  · refine ⟨fun _ => ⟨query, hsent⟩, fun rikey rikeyid hresume => ?_⟩
    rw [hsent] at hresume
    simp at hresume
  · have hsome : s.running ≠ none := by
      intro hnone
      unfold Agree at hs
      rw [hnone] at hs
      exact hopen hs
    refine ⟨fun hnone => absurd hnone hsome, fun _ _ _ => ?_⟩
    obtain ⟨app, happ⟩ := Option.ne_none_iff_exists'.mp hsome
    unfold Agree at ht
    rw [hrun, happ] at ht ⊢
    rw [ht]
    rfl

/-- Client and host agree throughout a run of successful calls, and every start launches or
resumes as it should, exactly when no call quits an open session or starts another application
over it. -/
theorem agree_iff_noOpenSession (hs : Agree s) (hrun : Run CallStep s run) :
    (Always Agree s run ∧ EachStep IssuesRight s run) ↔ EachStep NoOpenSession s run := by
  have hiff := always_iff_eachStep (fun _ _ _ h hs => agree_step h hs) hrun hs
  rw [← hiff]
  exact and_iff_left_of_imp fun hall =>
    eachStep_of_always (fun _ _ _ h hs ht => issuesRight_step h hs ht) hrun hall

/-- A host whose reply to every request holds one field. -/
def answering (node : String) : Peer where
  replies _ := .body (.document (flatDocument [(node, ['1'])]))
  uuid _ := []

/-- A full HD stream. -/
def fullHd : StreamConfiguration := ⟨1920, 1080, 60, .stereo, [], []⟩

/-- A paired server on which nothing runs. -/
def idleServer : ServerData := ⟨true, false, 0, 7⟩

/-- Launching an application on an idle host. -/
theorem agree_iff_noOpenSession_launch :
    ∃ run : List (AppCall × Session), run.map Prod.fst = [.start fullHd 5 true false] ∧
      Always Agree ⟨idleServer, none, []⟩ run ∧ EachStep IssuesRight ⟨idleServer, none, []⟩ run := by
  have hrun : Run CallStep ⟨idleServer, none, []⟩ [(.start fullHd 5 true false, _)] :=
    ⟨⟨answering "gamesession", [], _, rfl, rfl⟩, trivial⟩
  have hagree : Agree ⟨idleServer, none, []⟩ := rfl
  exact ⟨_, rfl, (agree_iff_noOpenSession hagree hrun).mpr ⟨Or.inl rfl, trivial⟩⟩

/-- Application 1 is started and quit, then application 2 is started: the client resumes. -/
theorem quit_leaves_currentGame :
    ∃ run : List (AppCall × Session), Run CallStep ⟨idleServer, none, []⟩ run ∧
      run.map Prod.fst = [.start fullHd 1 true false, .quit, .start fullHd 2 true false] ∧
      ¬ Always Agree ⟨idleServer, none, []⟩ run ∧
      ¬ EachStep IssuesRight ⟨idleServer, none, []⟩ run := by
  refine ⟨[(.start fullHd 1 true false, _), (.quit, _), (.start fullHd 2 true false, _)],
    ⟨⟨answering "gamesession", [], _, rfl, rfl⟩, ⟨answering "cancel", _, rfl, rfl⟩,
      ⟨answering "gamesession", [], _, rfl, rfl⟩, trivial⟩, rfl, fun h => ?_, fun h => ?_⟩
  · have hquit : (1 : Int) = 0 := h.2.2.1
    simp at hquit
  · obtain ⟨query, hlaunch⟩ := (h.2.2.1 fullHd 2 true false rfl).1 rfl
    have hlast := congrArg List.getLast? hlaunch
    rw [List.getLast?_concat] at hlast
    cases hlast

end Moonlight
