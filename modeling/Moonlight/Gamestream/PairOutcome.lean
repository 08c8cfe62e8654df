import Moonlight.Gamestream.Pair

/-! Every way through `gs_pair`: which replies it accepts, what it sends, and how it stops. -/
namespace Moonlight

open Lib.Cleanup Lib.Stdio

variable {P : Peer} {X : Type} {E : Pairer X} {server : ServerData} {w t : World} {k : Nat}
  {step : PairStep} {args : List (List Char)}

/-- The text `xml_search` finds in a well-formed reply. -/
def Reply.text (node : String) : Reply → List Char
  | .body (.document events) => xmlText node events
  | _ => []

/-- A well-formed reply whose `paired` text is exactly `1`. -/
def Reply.Answered (r : Reply) : Prop :=
  ∃ events, r = .body (.document events) ∧ cstring (xmlText "paired" events) = ['1']

/-- The two texts that are decoded without a check fit their arrays. -/
def Reply.Fits (r : Reply) : Prop :=
  (cstring (r.text "challengeresponse")).length ≤ 96 ∧
    (cstring (r.text "pairingsecret")).length ≤ 544

/-- The signature in a pairing secret verifies under a certificate. -/
def SecretVerifies (E : Pairer X) (certText secretText : List Char) : Prop :=
  ∃ cert secret, E.plaincert certText = some cert ∧ E.pairingSecret secretText = some secret ∧
    verifySignature E.crypto (secret.take 16) (secret.drop 16) cert = true

/-- The requests in their order. -/
def pairSteps : List PairStep :=
  [.getServerCert, .clientChallenge, .serverChallengeResp, .clientPairingSecret, .pairChallenge]

/-- What has to hold for the code after a request to go on to the next one. -/
def Passes (P : Peer) (E : Pairer X) : PairStep → Prop
  | .getServerCert =>
    (P.replies 0).Answered ∧ (cstring ((P.replies 0).text "plaincert")).length ≤ 16383
  | .clientChallenge => (P.replies 1).Answered
  | .serverChallengeResp =>
    (P.replies 2).Answered ∧
    SecretVerifies E ((P.replies 0).text "plaincert") ((P.replies 2).text "pairingsecret") ∧
    ∃ signature, E.crypto.digestSign E.clientSecret = some signature
  | .clientPairingSecret => (P.replies 3).Answered
  | .pairChallenge => (P.replies 4).Answered

/-- A request with the arguments of a pair request left out. -/
def Request.kind (r : Request) : Command :=
  match r.command with
  | .pair step _ => .pair step []
  | command => command

def pairKinds (steps : List PairStep) : List Command := steps.map (.pair · [])

/-- The first `k` requests have been sent, and nothing else has happened. -/
def Progress (server : ServerData) (k : Nat) (w : World) : Prop :=
  w.server = server ∧ w.sent.map Request.kind = pairKinds (pairSteps.take k)

/-- The code jumped with an error after `k` requests. -/
def Halted (server : ServerData) (k : Nat) (ret : GsCode) (w : World) : Prop :=
  ret ≠ .ok ∧ Progress server k w

theorem fail_halted {α : Type} {ret : GsCode} (error : String) (hret : ret ≠ .ok)
    (hw : Progress server k w) :
    ∃ e t, (fail ret error : Gs α) w = (.cleanup e, t) ∧ Halted server k e t :=
  ⟨ret, _, rfl, hret, hw⟩

theorem Progress.length (hw : Progress server k w) (hk : k ≤ 5) : w.sent.length = k := by
  have hlen := congrArg List.length hw.2
  simp only [pairKinds, List.length_map, List.length_take] at hlen
  rw [hlen]
  exact min_eq_left hk

theorem Progress.send (P : Peer) (args : List (List Char)) (hw : Progress server k w)
    (hk : pairSteps[k]? = some step) :
    Progress server (k + 1) (w.send P (.pair step args)) := by
  refine ⟨hw.1, ?_⟩
  simp [World.send, hw.2, pairKinds, List.take_add_one, hk, Request.kind]

/-- A request goes on exactly when its reply is a document with `paired` text `1`. -/
theorem pairRequest_decides (hw : Progress server k w) (hk : pairSteps[k]? = some step) :
    Decides (pairRequest P step args) w (P.replies k).Answered False
      (fun body t => Progress server (k + 1) t ∧
        ∃ events, body = .document events ∧ P.replies k = .body (.document events))
      (Halted server (k + 1)) := by
  have hk5 : k ≤ 5 := by
    have := (List.getElem?_eq_some_iff.mp hk).1
    simp [pairSteps] at this
    omega
  have hsend := hw.send P args hk
  have hlen := hw.length hk5
  refine ⟨?_, False.elim, fun hn _ => ?_⟩
  · rintro ⟨events, hreply, hpaired⟩
    rw [← hlen] at hreply
    refine ⟨.document events, w.send P (.pair step args), ?_, hsend, events, rfl, hlen ▸ hreply⟩
    rw [pairRequest, bind_next (httpRequest_body hreply), xmlSearch_document,
      if_neg (by simp [hpaired])]
    rfl
  · cases hreply : P.replies w.sent.length with
    | failure error =>
      exact ⟨_, _, bind_cleanup (httpRequest_failure hreply), by decide, hsend⟩
    | body body =>
      rw [pairRequest, bind_next (httpRequest_body hreply)]
      cases body with
      | malformed error => exact ⟨.invalid, _, rfl, by decide, hsend⟩
      | document events =>
        have hpaired : cstring (xmlText "paired" events) ≠ ['1'] := fun h =>
          hn ⟨events, hlen ▸ hreply, h⟩
        rw [xmlSearch_document, if_pos hpaired]
        exact fail_halted _ (by decide) hsend

theorem scanInto_some {buffer : List UInt8} {i : Nat} (h : i < buffer.length) (s : List Char) :
    ∃ out, scanInto buffer i s = some out ∧ out.length = buffer.length := by
  unfold scanInto
  cases scanHexByte s with
  | none => exact ⟨buffer, rfl, rfl⟩
  | some b => exact ⟨buffer.set i b, if_pos h, List.length_set⟩

/-- Decoding writes one byte for every two characters, so it stays inside an array of half the
length of the text. -/
theorem decodeHex_some (text : List Char) (i : Nat) (buffer : List UInt8)
    (h : i + (text.length + 1) / 2 ≤ buffer.length) :
    ∃ out, decodeHex text i buffer = some out ∧ out.length = buffer.length := by
  induction text, i, buffer using decodeHex.induct with
  | case1 i buffer => exact ⟨buffer, rfl, rfl⟩
  | case2 c i buffer =>
    have hi : i < buffer.length := by simp at h; omega
    exact scanInto_some hi [c]
  | case3 c d rest i buffer ih =>
    have hi : i < buffer.length := by simp at h; omega
    obtain ⟨out, hout, hlen⟩ := scanInto_some hi (c :: d :: rest)
    obtain ⟨final, hfinal, hflen⟩ := ih out (by simp at h; omega)
    refine ⟨final, ?_, hflen.trans hlen⟩
    rw [decodeHex, hout]
    exact hfinal

theorem array_length (n : Nat) (contents : Nat → UInt8) : (array n contents).length = n := by
  simp [array]

theorem plaincert_some (text : List Char) (h : (cstring text).length ≤ 16383) :
    ∃ cert, E.plaincert text = some cert := by
  obtain ⟨out, hout, hlen⟩ := decodeHex_some (cstring text) 0 (array 8192 E.stack.plaincert)
    (by rw [array_length]; omega)
  rw [array_length] at hlen
  have hstore : storeByte out ((cstring text).length / 2) 0 = some _ := if_pos (by omega)
  exact ⟨_, by rw [Pairer.plaincert, hout, Option.bind_eq_bind, Option.bind_some, hstore]; rfl⟩

theorem responseEnc_some (text : List Char) (h : (cstring text).length ≤ 96) :
    ∃ enc, E.responseEnc text = some enc := by
  obtain ⟨out, hout, _⟩ := decodeHex_some (cstring text) 0 (array 48 E.stack.challengeResponseEnc)
    (by rw [array_length]; omega)
  exact ⟨out, hout⟩

theorem pairingSecret_some (text : List Char) (h : (cstring text).length ≤ 544) :
    ∃ secret, E.pairingSecret text = some secret := by
  obtain ⟨out, hout, _⟩ := decodeHex_some (cstring text) 0 (array 272 E.stack.pairingSecret)
    (by rw [array_length]; omega)
  exact ⟨out, hout⟩

/-- A request, and a search of its reply for the text that the following code works on. -/
theorem pairRequest_search {α : Type} {node : String} {f : List Char → Gs α} {ok bad : Prop}
    {R : α → World → Prop} (hw : Progress server k w) (hk : pairSteps[k]? = some step)
    (hf : ∀ t, Progress server (k + 1) t →
      Decides (f ((P.replies k).text node)) t ok bad R (Halted server (k + 1))) :
    Decides (do
        let body ← pairRequest P step args
        let result ← xmlSearch body node
        f result) w
      ((P.replies k).Answered ∧ ok) ((P.replies k).Answered ∧ bad) R (Halted server (k + 1)) := by
  have hrest (body : Body) (t : World) (_ : (P.replies k).Answered)
      (hbody : Progress server (k + 1) t ∧
        ∃ events, body = .document events ∧ P.replies k = .body (.document events)) :
      Decides (xmlSearch body node >>= f) t ok bad R (Halted server (k + 1)) := by
    obtain ⟨ht, events, rfl, hreply⟩ := hbody
    have hf' := hf t ht
    rw [hreply] at hf'
    exact hf'
  exact ((pairRequest_decides hw hk).bind hrest).congr Iff.rfl (by rw [false_or])

/-- The first request goes on when it is answered and the certificate is not too big. -/
theorem getServerCert_decides (hw : Progress server 0 w) :
    Decides (getServerCert P E) w (Passes P E .getServerCert) False
      (fun cert t => Progress server 1 t ∧
        E.plaincert ((P.replies 0).text "plaincert") = some cert) (Halted server 1) := by
  unfold getServerCert
  refine Decides.congr (pairRequest_search hw rfl fun t ht =>
    Decides.unless (fun _ => fail_halted _ (by decide) ht) fun _ =>
      Decides.defined fun cert hcert => ⟨ht, hcert⟩) (and_congr_right fun _ => ?_) ?_
  · constructor
    · rintro ⟨hsmall, _⟩
      omega
    · intro hsmall
      exact ⟨by omega, plaincert_some _ hsmall⟩
  · refine iff_false_intro ?_
    rintro ⟨_, hsmall, hnone⟩
    obtain ⟨cert, hcert⟩ := plaincert_some (E := E) ((P.replies 0).text "plaincert") (by omega)
    rw [hnone] at hcert
    cases hcert

/-- The second request goes on when it is answered; its text must fit the array. -/
theorem sendClientChallenge_decides (hw : Progress server 1 w) :
    let enc := E.responseEnc ((P.replies 1).text "challengeresponse")
    Decides (sendClientChallenge P E server) w
      (Passes P E .clientChallenge ∧ ∃ bytes, enc = some bytes)
      (Passes P E .clientChallenge ∧ enc = none) (fun _ t => Progress server 2 t)
      (Halted server 2) := by
  intro enc
  unfold sendClientChallenge
  refine Decides.congr (pairRequest_search hw rfl fun t ht =>
    (Decides.defined fun bytes _ => ht).bind fun bytes t _ ht => Decides.pure ht)
    (and_congr_right fun _ => and_iff_left trivial) (and_congr_right fun _ => ?_)
  simp [enc]

/-- Signing goes on when it succeeds. -/
theorem sign_decides (hw : Progress server k w) :
    Decides (match E.crypto.digestSign E.clientSecret with
        | some signature => (pure signature : Gs (List UInt8))
        | none => fail .failed "Failed to sign data") w
      (∃ signature, E.crypto.digestSign E.clientSecret = some signature) False
      (fun _ t => Progress server k t) (Halted server k) := by
  cases hsign : E.crypto.digestSign E.clientSecret with
  | some signature =>
    have hsome : True ↔ ∃ other, some signature = some other := by simp
    have hpure : Decides (pure signature : Gs (List UInt8)) w True False
        (fun _ t => Progress server k t) (Halted server k) := Decides.pure hw
    exact hpure.congr hsome Iff.rfl
  | none =>
    exact ⟨fun h => by simp at h, False.elim, fun _ _ => fail_halted _ (by decide) hw⟩

/-- The third request goes on when it is answered, the secret verifies and signing succeeds; the
secret must fit the array. -/
theorem sendChallengeResponse_decides {cert decrypted : List UInt8} (hw : Progress server 2 w)
    (hcert : E.plaincert ((P.replies 0).text "plaincert") = some cert) :
    let secret := E.pairingSecret ((P.replies 2).text "pairingsecret")
    Decides (sendChallengeResponse P E server cert decrypted) w (Passes P E .serverChallengeResp)
      ((P.replies 2).Answered ∧ secret = none) (fun _ t => Progress server 3 t)
      (Halted server 3) := by
  intro secret
  let verified : Prop := ∃ bytes, secret = some bytes ∧
    verifySignature E.crypto (bytes.take 16) (bytes.drop 16) cert = true
  have htest (bytes : List UInt8) (t : World) (_ : ∃ bytes, secret = some bytes)
      (hbytes : secret = some bytes ∧ Progress server 3 t) :
      Decides (if verifySignature E.crypto (bytes.take 16) (bytes.drop 16) cert = false then
          (fail .failed "MITM attack detected" : Gs (List UInt8))
        else
          match E.crypto.digestSign E.clientSecret with
          | some signature => pure signature
          | none => fail .failed "Failed to sign data") t
        (verified ∧ ∃ signature, E.crypto.digestSign E.clientSecret = some signature) False
        (fun _ t => Progress server 3 t) (Halted server 3) := by
    obtain ⟨hsecret, ht⟩ := hbytes
    refine (Decides.unless (fun _ => fail_halted _ (by decide) ht) fun _ => sign_decides ht).congr
      (and_congr_left fun _ => ?_) (by simp)
    simp [verified, hsecret]
  unfold sendChallengeResponse
  refine Decides.congr (pairRequest_search hw rfl fun t ht =>
    (Decides.defined fun bytes hbytes => ⟨hbytes, ht⟩).bind htest)
    (and_congr_right fun _ => ?_) (and_congr_right fun _ => by simp [secret])
  constructor
  · rintro ⟨_, ⟨bytes, hbytes, hverify⟩, hsign⟩
    exact ⟨⟨cert, bytes, hcert, hbytes, hverify⟩, hsign⟩
  · rintro ⟨⟨other, bytes, hother, hbytes, hverify⟩, hsign⟩
    rw [hcert] at hother
    cases hother
    exact ⟨⟨bytes, hbytes⟩, ⟨bytes, hbytes, hverify⟩, hsign⟩

/-- The code stopped behind the request whose condition fails, with all earlier ones passed. -/
def Stopped (P : Peer) (E : Pairer X) (server : ServerData) (ret : GsCode) (w : World) : Prop :=
  ∃ k step, pairSteps[k]? = some step ∧ ¬ Passes P E step ∧
    (∀ earlier ∈ pairSteps.take k, Passes P E earlier) ∧ Halted server (k + 1) ret w

/-- All requests have been sent, and the server is recorded as paired. -/
def Paired (server : ServerData) (w : World) : Prop :=
  w.server = { server with paired := true } ∧ w.sent.map Request.kind = pairKinds pairSteps

theorem passes_take_succ (hk : pairSteps[k]? = some step)
    (hearlier : ∀ earlier ∈ pairSteps.take k, Passes P E earlier) (hpass : Passes P E step) :
    ∀ earlier ∈ pairSteps.take (k + 1), Passes P E earlier := by
  intro earlier hmem
  rw [List.take_add_one, hk, List.mem_append] at hmem
  rcases hmem with hmem | hmem
  · exact hearlier earlier hmem
  · obtain rfl := List.mem_singleton.mp hmem
    exact hpass

/-- A stage that goes on unless its own condition fails. -/
theorem stopped_of_halted {α : Type} {x : Gs α} {ok bad : Prop} {Q : α → World → Prop}
    (step : PairStep) (hk : pairSteps[k]? = some step)
    (hearlier : ∀ earlier ∈ pairSteps.take k, Passes P E earlier)
    (hx : Decides x w ok bad Q (Halted server (k + 1))) (hok : ¬ ok → ¬ bad → ¬ Passes P E step) :
    Decides x w ok bad Q (Stopped P E server) :=
  hx.mono (fun _ _ _ h => h) fun _ _ hn hnbad h => ⟨k, step, hk, hok hn hnbad, hearlier, h⟩

theorem forall_pairStep {p : PairStep → Prop} :
    (∀ step, p step) ↔ p .getServerCert ∧ p .clientChallenge ∧ p .serverChallengeResp ∧
      p .clientPairingSecret ∧ p .pairChallenge := by
  constructor
  · intro h
    exact ⟨h _, h _, h _, h _, h _⟩
  · rintro ⟨h0, h1, h2, h3, h4⟩ step
    cases step <;> assumption

/-- The last two requests, and the assignment behind them. -/
theorem finish_decides (signature : List UInt8) (hw : Progress server 3 w)
    (hearlier : ∀ earlier ∈ pairSteps.take 3, Passes P E earlier) :
    Decides (do
        let _ ← sendPairingSecret P E signature
        let _ ← pairRequest P .pairChallenge []
        modify fun w => { w with server := { w.server with paired := true } }) w
      (Passes P E .clientPairingSecret ∧ Passes P E .pairChallenge) False
      (fun _ t => Paired server t) (Stopped P E server) := by
  have hlast (body : Body) (t : World) (hpass : Passes P E .clientPairingSecret)
      (ht : Progress server 4 t ∧
        ∃ events, body = .document events ∧ P.replies 3 = .body (.document events)) :
      Decides (do
          let _ ← pairRequest P .pairChallenge []
          modify fun w => { w with server := { w.server with paired := true } }) t
        (Passes P E .pairChallenge ∧ True) (False ∨ Passes P E .pairChallenge ∧ False)
        (fun _ t => Paired server t) (Stopped P E server) := by
    have hfour := passes_take_succ (k := 3) rfl hearlier hpass
    refine (stopped_of_halted .pairChallenge rfl hfour (pairRequest_decides ht.1 rfl)
      fun hn _ => hn).bind ?_
    intro body u _ hu
    refine Decides.modify ⟨?_, hu.1.2⟩
    rw [hu.1.1]
  refine ((stopped_of_halted .clientPairingSecret rfl hearlier (pairRequest_decides hw rfl)
    fun hn _ => hn).bind hlast).congr ?_ ?_
  · exact and_congr_right fun _ => and_iff_left trivial
  · simp

/-- The last three requests. -/
theorem respond_decides {cert : List UInt8} (decrypted : List UInt8) (hw : Progress server 2 w)
    (hearlier : ∀ earlier ∈ pairSteps.take 2, Passes P E earlier)
    (hcert : E.plaincert ((P.replies 0).text "plaincert") = some cert) :
    Decides (do
        let signature ← sendChallengeResponse P E server cert decrypted
        let _ ← sendPairingSecret P E signature
        let _ ← pairRequest P .pairChallenge []
        modify fun w => { w with server := { w.server with paired := true } }) w
      (Passes P E .serverChallengeResp ∧ Passes P E .clientPairingSecret ∧
        Passes P E .pairChallenge)
      ((P.replies 2).Answered ∧ E.pairingSecret ((P.replies 2).text "pairingsecret") = none)
      (fun _ t => Paired server t) (Stopped P E server) := by
  have hrest (signature : List UInt8) (t : World) (hpass : Passes P E .serverChallengeResp)
      (ht : Progress server 3 t) :=
    finish_decides signature ht (passes_take_succ (k := 2) rfl hearlier hpass)
  refine ((stopped_of_halted .serverChallengeResp rfl hearlier
    (sendChallengeResponse_decides hw hcert) fun hn _ => hn).bind hrest).congr Iff.rfl ?_
  simp

/-- The last four requests. -/
theorem challenge_decides {cert : List UInt8} (hw : Progress server 1 w)
    (hpass : Passes P E .getServerCert)
    (hcert : E.plaincert ((P.replies 0).text "plaincert") = some cert) :
    let enc := E.responseEnc ((P.replies 1).text "challengeresponse")
    Decides (do
        let decrypted ← sendClientChallenge P E server
        let signature ← sendChallengeResponse P E server cert decrypted
        let _ ← sendPairingSecret P E signature
        let _ ← pairRequest P .pairChallenge []
        modify fun w => { w with server := { w.server with paired := true } }) w
      ((Passes P E .clientChallenge ∧ ∃ bytes, enc = some bytes) ∧
        Passes P E .serverChallengeResp ∧ Passes P E .clientPairingSecret ∧
        Passes P E .pairChallenge)
      (Passes P E .clientChallenge ∧ (enc = none ∨
        (P.replies 2).Answered ∧ E.pairingSecret ((P.replies 2).text "pairingsecret") = none))
      (fun _ t => Paired server t) (Stopped P E server) := by
  intro enc
  have hone := passes_take_succ (k := 0) rfl (by simp) hpass
  have hstage := stopped_of_halted (P := P) (E := E) .clientChallenge rfl hone
    (sendClientChallenge_decides (E := E) hw) fun hn hnbad hchallenge => hn ⟨hchallenge,
      Option.ne_none_iff_exists'.mp fun hnone => hnbad ⟨hchallenge, hnone⟩⟩
  have hrest (decrypted : List UInt8) (t : World)
      (hpass' : Passes P E .clientChallenge ∧ ∃ bytes, enc = some bytes)
      (ht : Progress server 2 t) :=
    respond_decides decrypted ht (passes_take_succ (k := 1) rfl hone hpass'.1) hcert
  refine (hstage.bind hrest).congr Iff.rfl ?_
  by_cases henc : enc = none
  · simp [henc, enc]
  · have hsome := Option.ne_none_iff_exists'.mp henc
    simp [enc, henc, hsome]

/-- A write past the end of an array: a text that is decoded does not fit. -/
def Overruns (P : Peer) (E : Pairer X) : Prop :=
  Passes P E .getServerCert ∧ Passes P E .clientChallenge ∧
    (E.responseEnc ((P.replies 1).text "challengeresponse") = none ∨
      (P.replies 2).Answered ∧ E.pairingSecret ((P.replies 2).text "pairingsecret") = none)

/-- The code up to the label: all five requests go on, or the first that does not is the last. -/
theorem pairing_decides (P : Peer) (E : Pairer X) (server : ServerData) :
    Decides (pairing P E server) (World.enter server)
      ((∀ step, Passes P E step) ∧
        ∃ bytes, E.responseEnc ((P.replies 1).text "challengeresponse") = some bytes)
      (Overruns P E)
      (fun _ t => Paired server t) (Stopped P E server) := by
  have hstart : Progress server 0 (World.enter server) := ⟨rfl, rfl⟩
  have hstage := stopped_of_halted (P := P) (E := E) .getServerCert rfl (by simp)
    (getServerCert_decides hstart) fun hn _ => hn
  refine (hstage.bind fun cert t hpass hcert => challenge_decides hcert.1 hpass hcert.2).congr ?_ ?_
  · rw [forall_pairStep]
    tauto
  · rw [Overruns, false_or]

/-- `gs_unpair` sends its request and changes nothing else, whatever comes back. -/
theorem gsUnpair_sends (P : Peer) (w : World) :
    ∃ ret t, gsUnpair P w = some (ret, t) ∧ t.server = w.server ∧
      t.sent.map Request.kind = w.sent.map Request.kind ++ [.unpair] := by
  cases hreply : P.replies w.sent.length with
  | failure error =>
    refine ⟨.failed, { w.send P .unpair with gsError := some error }, ?_, rfl, ?_⟩
    · rw [gsUnpair, returnCode, bind_cleanup (httpRequest_failure hreply)]
    · simp [World.send, Request.kind]
  | body body =>
    refine ⟨.ok, w.send P .unpair, ?_, rfl, ?_⟩
    · rw [gsUnpair, returnCode, bind_next (httpRequest_body hreply)]
      rfl
    · simp [World.send, Request.kind]

/-- The server was free to be paired and every request passed. -/
def Accepts (P : Peer) (E : Pairer X) (server : ServerData) : Prop :=
  server.paired = false ∧ server.currentGame = 0 ∧ ∀ step, Passes P E step

/-- A run that pairs. -/
theorem gsPair_of_accepts (haccept : Accepts P E server)
    (henc : ∃ bytes, E.responseEnc ((P.replies 1).text "challengeresponse") = some bytes) :
    ∃ w, gsPair P E server = some (.ok, w) ∧ Paired server w := by
  obtain ⟨hpaired, hgame, hpass⟩ := haccept
  obtain ⟨_, w, hrun, hw⟩ := (pairing_decides P E server).pass ⟨hpass, henc⟩
  exact ⟨w, by simp [gsPair, hpaired, hgame, returnCode, hrun], hw⟩

/-- A run that stops behind one of the requests unpairs and leaves the record alone. -/
theorem gsPair_of_stopped (hfree : server.paired = false ∧ server.currentGame = 0)
    (hn : ¬ ((∀ step, Passes P E step) ∧
      ∃ bytes, E.responseEnc ((P.replies 1).text "challengeresponse") = some bytes))
    (hover : ¬ Overruns P E) :
    ∃ ret w, gsPair P E server = some (ret, w) ∧ ret ≠ .ok ∧ w.server = server ∧
      ∃ k step, pairSteps[k]? = some step ∧ ¬ Passes P E step ∧
        (∀ earlier ∈ pairSteps.take k, Passes P E earlier) ∧
        w.sent.map Request.kind = pairKinds (pairSteps.take (k + 1)) ++ [.unpair] := by
  obtain ⟨ret, t, hrun, k, step, hk, hstep, hearlier, hret, hserver, hsent⟩ :=
    (pairing_decides P E server).fail hn hover
  obtain ⟨code, w, hunpair, hkeep, hlast⟩ := gsUnpair_sends P t
  refine ⟨ret, w, ?_, hret, hkeep.trans hserver, k, step, hk, hstep, hearlier, ?_⟩
  · simp [gsPair, hfree, returnCode, hrun, hret, hunpair]
  · rw [hlast, hsent]

/-- A server that is already paired, or in a game, is refused before anything is sent. -/
theorem gsPair_of_refused (h : ¬ (server.paired = false ∧ server.currentGame = 0)) :
    ∃ w, gsPair P E server = some (.wrongState, w) ∧ w.server = server ∧ w.sent = [] := by
  by_cases hpaired : server.paired = true
  · exact ⟨_, by simp [gsPair, hpaired, returnCode, fail]; rfl, rfl, rfl⟩
  · have hgame : server.currentGame ≠ 0 := fun hgame => h ⟨by simpa using hpaired, hgame⟩
    exact ⟨_, by simp [gsPair, hpaired, hgame, returnCode, fail]; rfl, rfl, rfl⟩

/-- `GS_OK` is returned exactly by the runs that pass every check and stay inside their arrays. -/
theorem gsPair_returns_ok_iff :
    (∃ w, gsPair P E server = some (.ok, w)) ↔ Accepts P E server ∧
      ∃ bytes, E.responseEnc ((P.replies 1).text "challengeresponse") = some bytes := by
  constructor
  · rintro ⟨w, h⟩
    by_cases hfree : server.paired = false ∧ server.currentGame = 0
    · by_cases hover : Overruns P E
      · obtain ⟨t, hrun⟩ := (pairing_decides P E server).crash hover
        simp [gsPair, hfree, returnCode, hrun] at h
      · by_contra hn
        obtain ⟨ret, t, hrun, hret, _⟩ := gsPair_of_stopped hfree
          (fun hok => hn ⟨⟨hfree.1, hfree.2, hok.1⟩, hok.2⟩) hover
        simp [hrun] at h
        exact hret h.1
    · obtain ⟨t, hrun, _⟩ := gsPair_of_refused (P := P) (E := E) hfree
      simp [hrun] at h
  · rintro ⟨haccept, henc⟩
    obtain ⟨w, hrun, _⟩ := gsPair_of_accepts haccept henc
    exact ⟨w, hrun⟩

/-- `gs_pair` returns `GS_OK` exactly when the server was neither paired nor in a game, the five
requests were sent in order and each of them passed; then the server counts as paired. In every
other run that sends anything, the request behind which the first condition failed is followed
by the unpair request alone, and the record keeps its values. -/
theorem gsPair_ok_iff (P : Peer) (E : Pairer X) (server : ServerData)
    (hfit : ∀ k, (P.replies k).Fits) :
    ∃ ret w, gsPair P E server = some (ret, w) ∧
      (ret = .ok ↔ Accepts P E server) ∧
      (Accepts P E server → Paired server w) ∧
      (¬ Accepts P E server → w.server = server) ∧
      (w.sent = [] ↔ ¬ (server.paired = false ∧ server.currentGame = 0)) ∧
      (¬ Accepts P E server → w.sent ≠ [] →
        ∃ k step, pairSteps[k]? = some step ∧ ¬ Passes P E step ∧
          (∀ earlier ∈ pairSteps.take k, Passes P E earlier) ∧
          w.sent.map Request.kind = pairKinds (pairSteps.take (k + 1)) ++ [.unpair]) := by
  obtain ⟨bytes, hbytes⟩ := responseEnc_some (E := E) _ (hfit 1).1
  obtain ⟨secret, hsecret⟩ := pairingSecret_some (E := E) _ (hfit 2).2
  by_cases hfree : server.paired = false ∧ server.currentGame = 0
  · by_cases hpass : ∀ step, Passes P E step
    · have haccept : Accepts P E server := ⟨hfree.1, hfree.2, hpass⟩
      obtain ⟨w, hrun, hw⟩ := gsPair_of_accepts haccept ⟨bytes, hbytes⟩
      have hsent : w.sent ≠ [] := by
        rintro hnil
        have hkinds := hw.2
        simp [hnil, pairKinds, pairSteps] at hkinds
      exact ⟨.ok, w, hrun, by simp [haccept], fun _ => hw, fun h => absurd haccept h,
        by simp [hsent, hfree], fun h => absurd haccept h⟩
    · have hover : ¬ Overruns P E := by
        rintro ⟨_, _, hnone | ⟨_, hnone⟩⟩
        · simp [hbytes] at hnone
        · simp [hsecret] at hnone
      obtain ⟨ret, w, hrun, hret, hserver, hstop⟩ :=
        gsPair_of_stopped hfree (fun h => hpass h.1) hover
      have hreject : ¬ Accepts P E server := fun h => hpass h.2.2
      have hsent : w.sent ≠ [] := by
        rintro hnil
        obtain ⟨k, step, _, _, _, hkinds⟩ := hstop
        simp [hnil] at hkinds
      exact ⟨ret, w, hrun, by simp [hret, hreject], fun h => absurd h hreject, fun _ => hserver,
        by simp [hsent, hfree], fun _ _ => hstop⟩
  · obtain ⟨w, hrun, hserver, hsent⟩ := gsPair_of_refused (P := P) (E := E) hfree
    have hreject : ¬ Accepts P E server := fun h => hfree ⟨h.1, h.2.1⟩
    exact ⟨.wrongState, w, hrun, by simp [hreject], fun h => absurd h hreject, fun _ => hserver,
      by simp [hsent, hfree], fun _ h => absurd hsent h⟩

/-- A library with truncation for hashes, xor for AES and copies for signatures. -/
def xorCrypto : Crypto (List UInt8) where
  sha256 bytes := bytes.take 32
  sha1 bytes := bytes.take 20
  aesEncrypt key block := block.mapIdx fun i b => b ^^^ key.getD i 0
  aesDecrypt key block := block.mapIdx fun i b => b ^^^ key.getD i 0
  readX509 := some
  digestVerify _ data signature := signature.take 16 = data
  digestSign := some

/-- A client over that library, on a stack of zeros. -/
def xorPairer : Pairer (List UInt8) where
  crypto := xorCrypto
  stack := ⟨fun _ => 0, fun _ => 0, fun _ => 0, fun _ => 0, fun _ => 0⟩
  certHex := []
  certSignature := List.replicate 256 0
  salt := List.replicate 16 1
  challenge := List.replicate 16 2
  clientSecret := List.replicate 16 3
  pin := [1, 2, 3, 4]

def freeServer : ServerData := ⟨false, true, 0, 7⟩

/-- A server that answers every request with the same text fields. -/
def constantPeer : Peer where
  replies _ := .body (.document (flatDocument [("paired", ['1']), ("plaincert", ['4', '1']),
    ("challengeresponse", ['0', '0']), ("pairingsecret", ['0', '0'])]))
  uuid _ := []

theorem accepts_constantPeer : Accepts constantPeer xorPairer freeServer := by
  have hanswered : (constantPeer.replies 0).Answered := ⟨_, rfl, by decide⟩
  have hverifies : SecretVerifies xorPairer ['4', '1'] ['0', '0'] := by
    obtain ⟨cert, hcert⟩ := plaincert_some (E := xorPairer) ['4', '1'] (by decide)
    exact ⟨cert, List.replicate 272 0, hcert, by decide +kernel, rfl⟩
  exact ⟨rfl, rfl, forall_pairStep.mpr ⟨⟨hanswered, by decide⟩, hanswered,
    ⟨hanswered, hverifies, _, rfl⟩, hanswered, hanswered⟩⟩

theorem gsPair_ok_iff_paired :
    ∃ w, gsPair constantPeer xorPairer freeServer = some (.ok, w) ∧ w.server.paired = true := by
  obtain ⟨ret, w, hrun, hok, hpaired, _⟩ :=
    gsPair_ok_iff constantPeer xorPairer freeServer fun k =>
      ⟨show (cstring ((constantPeer.replies 0).text "challengeresponse")).length ≤ 96 by decide,
        show (cstring ((constantPeer.replies 0).text "pairingsecret")).length ≤ 544 by decide⟩
  obtain rfl := hok.mpr accepts_constantPeer
  refine ⟨w, hrun, ?_⟩
  rw [(hpaired accepts_constantPeer).1]

end Moonlight
