import Moonlight.Gamestream.HexCoding
import Moonlight.Gamestream.PairOutcome

/-! What an accepted pairing says about the server's knowledge of the PIN: `gs_pair` decrypts the
server's hash with the key of the PIN and never compares it. -/
namespace Moonlight

open Lib.Cleanup Lib.Stdio

variable {P : Peer} {X : Type} {E : Pairer X} {server : ServerData} {w : World}
  {certText secretText : List Char} {bytes buffer block : List UInt8}

theorem cstring_bytesToHex : cstring (bytesToHex bytes) = bytesToHex bytes := by
  refine List.takeWhile_eq_self_iff.mpr fun c hc => decide_eq_true ?_
  rintro rfl
  exact (hexText_bytesToHex bytes).nul_not_mem hc

/-- A text that encodes a whole array is decoded to its bytes. -/
theorem responseEnc_bytesToHex (h : bytes.length = 48) :
    E.responseEnc (bytesToHex bytes) = some bytes := by
  have hdecode := decodeHex_bytesToHex bytes 0 [] (array 48 E.stack.challengeResponseEnc) rfl
    (by rw [array_length]; omega)
  rw [h, List.drop_eq_nil_of_le (by rw [array_length])] at hdecode
  rw [Pairer.responseEnc, cstring_bytesToHex]
  simpa using hdecode

theorem blocks_append (f : List UInt8 → List UInt8) (n : Nat) (h : block.length = 16) :
    blocks f (n + 1) (block ++ bytes) = f block ++ blocks f n bytes := by
  have hdrop (i : Nat) : (block ++ bytes).drop (16 * (i + 1)) = bytes.drop (16 * i) := by
    rw [Nat.mul_succ, Nat.add_comm, ← h, List.drop_length_add_append]
  simp only [blocks, List.range_succ_eq_map, List.flatMap_cons, List.flatMap_map, Nat.mul_zero,
    List.drop_zero, hdrop]
  rw [List.take_left' h]

/-- Decryption inverts encryption, block by block. -/
structure Crypto.Cipher (C : Crypto X) : Prop where
  length : ∀ key block, block.length = 16 → (C.aesEncrypt key block).length = 16
  decrypt : ∀ key block, block.length = 16 → C.aesDecrypt key (C.aesEncrypt key block) = block

/-- The same block encrypted three times. -/
def Pairer.tripled (E : Pairer X) (server : ServerData) (block : List UInt8) : List UInt8 :=
  let enc := E.crypto.aesEncrypt (E.key server) block
  enc ++ (enc ++ (enc ++ []))

theorem tripled_length (hcipher : E.crypto.Cipher) (h : block.length = 16) :
    (E.tripled server block).length = 48 := by
  simp [Pairer.tripled, hcipher.length _ _ h]

theorem decrypt_tripled (hcipher : E.crypto.Cipher) (h : block.length = 16) :
    E.decrypt server (E.tripled server block) = block ++ (block ++ block) := by
  have hlen := hcipher.length (E.key server) block h
  rw [Pairer.decrypt, Pairer.tripled]
  rw [blocks_append _ 2 hlen, blocks_append _ 1 hlen, blocks_append _ 0 hlen,
    hcipher.decrypt _ _ h]
  simp [blocks]

/-- What the server must have known the PIN for: its encrypted answer starts with the hash of the
client's challenge, the signature of its certificate and its secret. -/
def Authentic (signatureOf : X → List UInt8) (E : Pairer X) (server : ServerData) (P : Peer) :
    Prop :=
  ∃ cert x509 enc secret,
    E.plaincert ((P.replies 0).text "plaincert") = some cert ∧ E.crypto.readX509 cert = some x509 ∧
    E.responseEnc ((P.replies 1).text "challengeresponse") = some enc ∧
    E.pairingSecret ((P.replies 2).text "pairingsecret") = some secret ∧
    (E.decrypt server enc).take (hashLength server) =
      E.hash server (E.challenge ++ signatureOf x509 ++ secret.take 16)

/-- No replies can pass the checks of `gs_pair`: it refuses to start, it cannot sign, or no
certificate that fits verifies any pairing secret. -/
def NeverPairs (E : Pairer X) (server : ServerData) : Prop :=
  server.paired = true ∨ server.currentGame ≠ 0 ∨ E.crypto.digestSign E.clientSecret = none ∨
    ∀ certText secretText, (cstring certText).length ≤ 16383 →
      ¬ SecretVerifies E certText secretText

theorem not_accepts_of_neverPairs (h : NeverPairs E server) : ¬ Accepts P E server := by
  rintro ⟨hpaired, hgame, hpass⟩
  obtain ⟨_, hverifies, signature, hsign⟩ := hpass .serverChallengeResp
  rcases h with h | h | h | h
  · simp [hpaired] at h
  · exact h hgame
  · simp [hsign] at h
  · exact h _ _ (hpass .getServerCert).2 hverifies

/-- The replies of a server that chose its certificate, its secret and its answer to the challenge
by itself. -/
def impostor (certText secretText : List Char) (enc : List UInt8) : Peer where
  replies _ := .body (.document (flatDocument [("paired", ['1']), ("plaincert", certText),
    ("challengeresponse", bytesToHex enc), ("pairingsecret", secretText)]))
  uuid _ := []

theorem impostor_text (certText secretText : List Char) (enc : List UInt8) (k : Nat) :
    let reply := (impostor certText secretText enc).replies k
    reply.Answered ∧ reply.text "plaincert" = certText ∧
      reply.text "challengeresponse" = bytesToHex enc ∧
      reply.text "pairingsecret" = secretText := by
  refine ⟨⟨_, rfl, ?_⟩, ?_, ?_, ?_⟩ <;>
    simp [Reply.text, impostor, xmlText, flatDocument, xmlEvent, cstring]

theorem impostor_passes (hfit : (cstring certText).length ≤ 16383)
    (hverifies : SecretVerifies E certText secretText)
    (hsign : ∃ signature, E.crypto.digestSign E.clientSecret = some signature) (step : PairStep) :
    Passes (impostor certText secretText bytes) E step := by
  have htext := impostor_text certText secretText bytes
  cases step with
  | getServerCert =>
    refine ⟨(htext 0).1, ?_⟩
    rw [(htext 0).2.1]
    exact hfit
  | clientChallenge => exact (htext 1).1
  | serverChallengeResp =>
    refine ⟨(htext 2).1, ?_, hsign⟩
    rw [(htext 0).2.1, (htext 2).2.2.2]
    exact hverifies
  | clientPairingSecret => exact (htext 3).1
  | pairChallenge => exact (htext 4).1

theorem hashLength_le (server : ServerData) :
    0 < hashLength server ∧ hashLength server ≤ 48 := by
  unfold hashLength
  split <;> omega

/-- An impostor can avoid any hash with an answer that decrypts to one byte, repeated. -/
theorem exists_wrong_answer (server : ServerData) (hcipher : E.crypto.Cipher)
    (hash : List UInt8) :
    ∃ enc, enc.length = 48 ∧ (E.decrypt server enc).take (hashLength server) ≠ hash := by
  let b : UInt8 := hash.headD 0 + 1
  have hblock : (List.replicate 16 b).length = 16 := List.length_replicate
  refine ⟨E.tripled server (List.replicate 16 b), tripled_length hcipher hblock, ?_⟩
  obtain ⟨hpos, hle⟩ := hashLength_le server
  obtain ⟨n, hn⟩ := Nat.exists_eq_succ_of_ne_zero (Nat.ne_of_gt hpos)
  intro heq
  have hhead := congrArg (·.headD 0) heq
  rw [decrypt_tripled hcipher hblock, hn] at hhead
  simp [List.replicate_succ, b] at hhead

/-- An answer that decrypts to anything but the hash does not authenticate an impostor. -/
theorem impostor_not_authentic {signatureOf : X → List UInt8} {cert secret enc : List UInt8}
    {x509 : X} (hcert : E.plaincert certText = some cert)
    (hread : E.crypto.readX509 cert = some x509)
    (hsecret : E.pairingSecret secretText = some secret) (hlen : enc.length = 48)
    (hwrong : (E.decrypt server enc).take (hashLength server) ≠
      E.hash server (E.challenge ++ signatureOf x509 ++ secret.take 16)) :
    ¬ Authentic signatureOf E server (impostor certText secretText enc) := by
  have htext := impostor_text certText secretText enc
  rintro ⟨cert', x509', enc', secret', hcert', hread', henc', hsecret', hauth⟩
  rw [(htext 0).2.1, hcert] at hcert'
  cases hcert'
  rw [hread] at hread'
  cases hread'
  rw [(htext 1).2.2.1, responseEnc_bytesToHex hlen] at henc'
  cases henc'
  rw [(htext 2).2.2.2, hsecret] at hsecret'
  cases hsecret'
  exact hwrong hauth

/-- A client that some server could pair with is paired by an impostor. -/
theorem impostor_pairs (signatureOf : X → List UInt8) (hcipher : E.crypto.Cipher)
    (h : ¬ NeverPairs E server) :
    ∃ P w, gsPair P E server = some (.ok, w) ∧ ¬ Authentic signatureOf E server P := by
  simp only [NeverPairs, not_or, not_forall, not_not] at h
  obtain ⟨hpaired, hgame, hsign, certText, secretText, hfit, hverifies⟩ := h
  obtain ⟨cert, secret, hcert, hsecret, hverify⟩ := id hverifies
  cases hread : E.crypto.readX509 cert with
  | none => simp [verifySignature, hread] at hverify
  | some x509 =>
    obtain ⟨enc, hlen, hwrong⟩ := exists_wrong_answer server hcipher
      (E.hash server (E.challenge ++ signatureOf x509 ++ secret.take 16))
    have haccept : Accepts (impostor certText secretText enc) E server :=
      ⟨by simpa using hpaired, hgame,
        impostor_passes hfit hverifies (Option.ne_none_iff_exists'.mp hsign)⟩
    have henc : E.responseEnc (((impostor certText secretText enc).replies 1).text
        "challengeresponse") = some enc := by
      rw [(impostor_text certText secretText enc 1).2.2.1]
      exact responseEnc_bytesToHex hlen
    obtain ⟨w, hrun⟩ := gsPair_returns_ok_iff.mpr ⟨haccept, enc, henc⟩
    exact ⟨_, w, hrun, impostor_not_authentic hcert hread hsecret hlen hwrong⟩

/-- Every accepted pairing authenticates the server by the PIN exactly for the clients that accept
no pairing at all. -/
theorem gsPair_authentic_iff (signatureOf : X → List UInt8) (E : Pairer X) (server : ServerData)
    (hcipher : E.crypto.Cipher) :
    (∀ P w, gsPair P E server = some (.ok, w) → Authentic signatureOf E server P) ↔
      NeverPairs E server := by
  constructor
  · intro h
    by_contra hn
    obtain ⟨P, w, hrun, hfalse⟩ := impostor_pairs signatureOf hcipher hn
    exact hfalse (h P w hrun)
  · intro h P w hrun
    exact absurd (gsPair_returns_ok_iff.mp ⟨w, hrun⟩).1 (not_accepts_of_neverPairs h)

theorem xorCrypto_cipher : xorCrypto.Cipher where
  length key block h := by simpa [xorCrypto] using h
  decrypt key block h := by
    have hxor (b c : UInt8) : (b ^^^ c) ^^^ c = b := by
      rw [UInt8.xor_assoc, UInt8.xor_self, UInt8.xor_zero]
    refine List.ext_getElem (by simp [xorCrypto]) fun i hi hi' => ?_
    simp only [xorCrypto, List.getElem_mapIdx, hxor]

theorem gsPair_authentic_iff_free :
    ¬ ∀ P w, gsPair P xorPairer freeServer = some (.ok, w) →
      Authentic id xorPairer freeServer P := by
  intro h
  have hnever := (gsPair_authentic_iff id xorPairer freeServer xorCrypto_cipher).mp h
  exact not_accepts_of_neverPairs hnever accepts_constantPeer

/-- The answer of zeros decrypts to the key, which is no hash of the challenge. -/
theorem unauthentic_server_paired :
    ∃ w, gsPair constantPeer xorPairer freeServer = some (.ok, w) ∧
      ¬ Authentic id xorPairer freeServer constantPeer := by
  have henc : xorPairer.responseEnc ((constantPeer.replies 1).text "challengeresponse") =
      some (List.replicate 48 0) := by decide +kernel
  have hdecrypt : (xorPairer.decrypt freeServer (List.replicate 48 0)).take
      (hashLength freeServer) = List.replicate 32 1 := by decide +kernel
  obtain ⟨w, hrun⟩ := gsPair_returns_ok_iff.mpr ⟨accepts_constantPeer, _, henc⟩
  refine ⟨w, hrun, ?_⟩
  rintro ⟨cert, x509, enc, secret, _, _, henc', _, hauth⟩
  rw [henc] at henc'
  cases henc'
  rw [hdecrypt] at hauth
  have hhead : (1 : UInt8) = 2 := congrArg (·.headD 0) hauth
  exact absurd hhead (by decide)

/-- Whether a pairing is accepted does not depend on the PIN, nor on the salt and the challenge. -/
theorem gsPair_ok_any_pin (salt challenge pin : List UInt8) :
    (∃ w, gsPair P { E with salt, challenge, pin } server = some (.ok, w)) ↔
      ∃ w, gsPair P E server = some (.ok, w) := by
  have hpass (step : PairStep) :
      Passes P { E with salt, challenge, pin } step ↔ Passes P E step := by
    cases step <;> rfl
  rw [gsPair_returns_ok_iff, gsPair_returns_ok_iff]
  simp only [Accepts, hpass]
  rfl

end Moonlight
