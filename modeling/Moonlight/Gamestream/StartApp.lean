import Moonlight.Gamestream.Session

/-! What a failing `gs_start_app` leaves in `currentGame`. The id is stored as soon as a body has
arrived, before the body is read. -/
namespace Moonlight

open Lib.Cleanup Lib.Stdio

variable {P : Peer} {key : List UInt8} {config : StreamConfiguration} {appId : Int}
  {sops localaudio : Bool} {server : ServerData} {w : World} {error : String}
  {events : List XmlEvent}

/-- A call that returns an error leaves the recorded application as it was. -/
def AtomicOnError (P : Peer) (key : List UInt8) (config : StreamConfiguration) (appId : Int)
    (sops localaudio : Bool) (server : ServerData) : Prop :=
  ∀ ret w, (gsStartApp P key config appId sops localaudio (.enter server)).2 = some (ret, w) →
    ret ≠ .ok → w.server.currentGame = server.currentGame

/-- The stream is one that this host cannot send. -/
def Refused (config : StreamConfiguration) (server : ServerData) : Prop :=
  config.height ≥ 2160 ∧ server.supports4K = false

/-- A body that cannot be read, or says that no session was opened. -/
inductive RejectingBody : Body → Prop where
  | malformed (error : String) : RejectingBody (.malformed error)
  | zero (events : List XmlEvent) (h : cstring (xmlText "gamesession" events) = ['0']) :
      RejectingBody (.document events)

theorem gsStartApp_refused (h : Refused config server) :
    (gsStartApp P key config appId sops localaudio (.enter server)).2 =
      some (.notSupported4K, .enter server) := by
  have hheight : config.height ≥ 2160 ∧ (World.enter server).server.supports4K = false := h
  rw [gsStartApp, if_pos hheight]

theorem gsStartApp_failure (hsent : ¬ Refused config server)
    (h : P.replies 0 = .failure error) :
    ∃ w, (gsStartApp P key config appId sops localaudio (.enter server)).2 = some (.failed, w) ∧
      w.server = server := by
  have hheight : ¬ (config.height ≥ 2160 ∧ (World.enter server).server.supports4K = false) := hsent
  have hreply : P.replies (World.enter server).sent.length = .failure error := h
  rw [gsStartApp, if_neg hheight]
  dsimp only
  rw [returnCode, bind_cleanup (httpRequest_failure hreply)]
  exact ⟨_, rfl, rfl⟩

/-- A body is only read after the id is stored; whether it is accepted decides the result. -/
theorem gsStartApp_body (hsent : ¬ Refused config server) {body : Body}
    (h : P.replies 0 = .body body) :
    ∃ ret w, (gsStartApp P key config appId sops localaudio (.enter server)).2 = some (ret, w) ∧
      w.server.currentGame = appId ∧ (ret ≠ .ok ↔ RejectingBody body) := by
  have hheight : ¬ (config.height ≥ 2160 ∧ (World.enter server).server.supports4K = false) := hsent
  have hreply : P.replies (World.enter server).sent.length = .body body := h
  rw [gsStartApp, if_neg hheight]
  dsimp only
  rw [returnCode, bind_next (httpRequest_body hreply), modify_bind]
  cases body with
  | malformed error => exact ⟨.invalid, _, rfl, rfl, by simp [RejectingBody.malformed]⟩
  | document events =>
    rw [xmlSearch_document]
    by_cases hzero : cstring (xmlText "gamesession" events) = ['0']
    · rw [if_pos hzero]
      exact ⟨.failed, _, rfl, rfl, by simp [RejectingBody.zero, hzero]⟩
    · rw [if_neg hzero]
      refine ⟨.ok, _, rfl, rfl, fun h => absurd rfl h, ?_⟩
      rintro ⟨⟩
      contradiction

/-- There is one result to look at. -/
theorem atomicOnError_of_call {ret : GsCode}
    (hcall : (gsStartApp P key config appId sops localaudio (.enter server)).2 = some (ret, w)) :
    AtomicOnError P key config appId sops localaudio server ↔
      (ret ≠ .ok → w.server.currentGame = server.currentGame) := by
  constructor
  · intro hatomic
    exact hatomic ret w hcall
  · intro hkept ret' w' hrun hne
    rw [hcall] at hrun
    cases hrun
    exact hkept hne

/-- The call is atomic on error if and only if it is refused before it is sent, gets no body, gets a
body that accepts it, or asks for the application that is recorded already. -/
theorem atomicOnError_iff (P : Peer) (key : List UInt8) (config : StreamConfiguration)
    (appId : Int) (sops localaudio : Bool) (server : ServerData) :
    AtomicOnError P key config appId sops localaudio server ↔
      Refused config server ∨ appId = server.currentGame ∨
        ∀ body, P.replies 0 = .body body → ¬ RejectingBody body := by
  by_cases hrefused : Refused config server
  · rw [atomicOnError_of_call (gsStartApp_refused hrefused)]
    exact iff_of_true (fun _ => rfl) (Or.inl hrefused)
  cases hreply : P.replies 0 with
  | failure error =>
    obtain ⟨v, hcall, hserver⟩ : ∃ w, (gsStartApp P key config appId sops localaudio
      (.enter server)).2 = some (.failed, w) ∧ w.server = server :=
        gsStartApp_failure hrefused hreply
    rw [atomicOnError_of_call hcall, hserver]
    exact iff_of_true (fun _ => rfl) (Or.inr (Or.inr fun body hbody => by cases hbody))
  | body body =>
    obtain ⟨ret, v, hcall, hgame, hret⟩ : ∃ ret w, (gsStartApp P key config appId sops localaudio
      (.enter server)).2 = some (ret, w) ∧ w.server.currentGame = appId ∧
      (ret ≠ .ok ↔ RejectingBody body) := gsStartApp_body hrefused hreply
    rw [atomicOnError_of_call hcall, hgame, hret]
    constructor
    · intro hatomic
      by_cases hreject : RejectingBody body
      · right
        left
        exact hatomic hreject
      · right
        right
        intro body' hbody
        cases hbody
        exact hreject
    · rintro (h | happ | haccept) hreject
      · exact absurd h hrefused
      · exact happ
      · exact absurd hreject (haccept body rfl)

/-- An idle host that answers a launch with session 0: the call fails, and application 5 is taken
for running. -/
theorem rejected_start_recorded :
    ¬ AtomicOnError ⟨fun _ => .body (.document (flatDocument [("gamesession", ['0'])])), fun _ => []⟩
      [] fullHd 5 true false idleServer := by
  intro hatomic
  have hgame : (5 : Int) = 0 := hatomic .failed _ rfl (by decide)
  exact absurd hgame (by decide)

end Moonlight
