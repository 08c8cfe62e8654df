import Moonlight.Gamestream.Client

/-! `gs_pair` of `libgamestream/client.c`. The cryptographic library, the random numbers and what
the local arrays hold before they are written come from outside. -/
namespace Moonlight

open Lib.Cleanup Lib.Stdio

/-- The functions of the cryptographic library; `X` is the type of parsed certificates. AES works
on one block, and signing and verifying stand for the whole sequence of calls. -/
structure Crypto (X : Type) where
  sha256 : List UInt8 → List UInt8
  sha1 : List UInt8 → List UInt8
  aesEncrypt : List UInt8 → List UInt8 → List UInt8
  aesDecrypt : List UInt8 → List UInt8 → List UInt8
  readX509 : List UInt8 → Option X
  digestVerify : X → List UInt8 → List UInt8 → Bool
  digestSign : List UInt8 → Option (List UInt8)

/-- What the local arrays hold before the code writes them. -/
structure Stack where
  plaincert : Nat → UInt8
  challengeResponseEnc : Nat → UInt8
  challengeResponseHash : Nat → UInt8
  pairingSecret : Nat → UInt8
  beyondSignature : Nat → UInt8

/-- Everything one run of `gs_pair` gets from outside, besides the server's replies. -/
structure Pairer (X : Type) where
  crypto : Crypto X
  stack : Stack
  certHex : List Char
  certSignature : List UInt8
  salt : List UInt8
  challenge : List UInt8
  clientSecret : List UInt8
  pin : List UInt8

/-- The first `n` entries of an array. -/
def array (n : Nat) (contents : Nat → UInt8) : List UInt8 := (List.range n).map contents

/-- The first `n` entries after `bytes` are written to the start of the array. -/
def overwrite (n : Nat) (bytes : List UInt8) (contents : Nat → UInt8) : List UInt8 :=
  (List.range n).map fun i => bytes.getD i (contents i)

/-- `buffer[i] = b`; a write past the end of the array has no meaning. -/
def storeByte (buffer : List UInt8) (i : Nat) (b : UInt8) : Option (List UInt8) :=
  if i < buffer.length then some (buffer.set i b) else none

/-- One `sscanf(s, "%2hhx", &buffer[i])`. -/
def scanInto (buffer : List UInt8) (i : Nat) (s : List Char) : Option (List UInt8) :=
  match scanHexByte s with
  | none => some buffer
  | some b => storeByte buffer i b

/-- The decoding loop from `buffer[i]` on, over the rest of the text: `count` goes up by 2. -/
def decodeHex : List Char → Nat → List UInt8 → Option (List UInt8)
  | [], _, buffer => some buffer
  | [c], i, buffer => scanInto buffer i [c]
  | c :: d :: rest, i, buffer => do
    let buffer ← scanInto buffer i (c :: d :: rest)
    decodeHex rest (i + 1) buffer

section
variable {X : Type} (E : Pairer X)

/-- The hash of the server's generation. -/
def Pairer.hash (server : ServerData) : List UInt8 → List UInt8 :=
  if server.serverMajorVersion ≥ 7 then E.crypto.sha256 else E.crypto.sha1

def hashLength (server : ServerData) : Nat := if server.serverMajorVersion ≥ 7 then 32 else 20

/-- The first 16 bytes of the hash of salt and PIN. -/
def Pairer.key (server : ServerData) : List UInt8 :=
  (E.hash server (E.salt.take 16 ++ E.pin.take 4)).take 16

/-- The C string in `plaincert`. -/
def Pairer.plaincert (result : List Char) : Option (List UInt8) := do
  let buffer ← decodeHex (cstring result) 0 (array 8192 E.stack.plaincert)
  let buffer ← storeByte buffer ((cstring result).length / 2) 0
  return buffer.takeWhile (· ≠ 0)

/-- `challenge_response_data_enc`. -/
def Pairer.responseEnc (result : List Char) : Option (List UInt8) :=
  decodeHex (cstring result) 0 (array 48 E.stack.challengeResponseEnc)

/-- `pairing_secret`. -/
def Pairer.pairingSecret (result : List Char) : Option (List UInt8) :=
  decodeHex (cstring result) 0 (array 272 E.stack.pairingSecret)

/-- A block function on `count` blocks of 16 bytes. -/
def blocks (f : List UInt8 → List UInt8) (count : Nat) (bytes : List UInt8) : List UInt8 :=
  (List.range count).flatMap fun i => f ((bytes.drop (16 * i)).take 16)

/-- `challenge_response_data`. -/
def Pairer.decrypt (server : ServerData) (responseEnc : List UInt8) : List UInt8 :=
  blocks (E.crypto.aesDecrypt (E.key server)) 3 responseEnc

/-- The argument of `serverchallengeresp`. -/
def Pairer.challengeReply (server : ServerData) (decrypted : List UInt8) : List Char :=
  let response := (decrypted.drop (hashLength server)).take 16 ++ E.certSignature.take 256
    ++ E.clientSecret.take 16
  let hash := overwrite 32 (E.hash server response) E.stack.challengeResponseHash
  bytesToHex (blocks (E.crypto.aesEncrypt (E.key server)) 2 hash)

/-- `verifySignature`. -/
def verifySignature (C : Crypto X) (data signature cert : List UInt8) : Bool :=
  match C.readX509 cert with
  | none => false
  | some x509 => C.digestVerify x509 data signature

end

section
variable (P : Peer)

/-- One request of `gs_pair` and the test of its `paired` text. -/
def pairRequest (step : PairStep) (args : List (List Char)) : Gs Body := do
  let body ← httpRequest P (.pair step args)
  let result ← xmlSearch body "paired"
  if cstring result ≠ ['1'] then fail .failed "Pairing failed"
  else pure body

variable {X : Type} (E : Pairer X) (server : ServerData)

/-- The first request, up to the decoded certificate of the server. -/
def getServerCert : Gs (List UInt8) := do
  let body ← pairRequest P .getServerCert [bytesToHex E.salt, E.certHex]
  let result ← xmlSearch body "plaincert"
  if (cstring result).length / 2 > 8191 then fail .failed "Server certificate too big"
  else defined (E.plaincert result)

/-- The second request, up to the decrypted response. -/
def sendClientChallenge : Gs (List UInt8) := do
  let challengeEnc := E.crypto.aesEncrypt (E.key server) E.challenge
  let body ← pairRequest P .clientChallenge [bytesToHex challengeEnc]
  let result ← xmlSearch body "challengeresponse"
  let responseEnc ← defined (E.responseEnc result)
  pure (E.decrypt server responseEnc)

/-- The third request, up to the client's signature over its secret. -/
def sendChallengeResponse (plaincert decrypted : List UInt8) : Gs (List UInt8) := do
  let body ← pairRequest P .serverChallengeResp [E.challengeReply server decrypted]
  let result ← xmlSearch body "pairingsecret"
  let secret ← defined (E.pairingSecret result)
  if verifySignature E.crypto (secret.take 16) (secret.drop 16) plaincert = false then
    fail .failed "MITM attack detected"
  else
    match E.crypto.digestSign E.clientSecret with
    | some signature => pure signature
    | none => fail .failed "Failed to sign data"

/-- The fourth request. -/
def sendPairingSecret (signature : List UInt8) : Gs Body :=
  let secret := E.clientSecret.take 16 ++ overwrite 256 signature E.stack.beyondSignature
  pairRequest P .clientPairingSecret [bytesToHex secret]

/-- The code between the creation of the buffer and the label. -/
def pairing : Gs Unit := do
  let plaincert ← getServerCert P E
  let decrypted ← sendClientChallenge P E server
  let signature ← sendChallengeResponse P E server plaincert decrypted
  let _ ← sendPairingSecret P E signature
  let _ ← pairRequest P .pairChallenge []
  modify fun w => { w with server := { w.server with paired := true } }

/-- `gs_pair`; `none` is a write past the end of a local array. -/
def gsPair : Option (GsCode × World) :=
  let w := World.enter server
  if server.paired then returnCode (fail .wrongState "Already paired") w
  else if server.currentGame ≠ 0 then
    returnCode (fail .wrongState
      "The computer is currently in a game. You must close the game before pairing") w
  else do
    let (ret, w) ← returnCode (pairing P E server) w
    if ret ≠ .ok then
      let (_, w) ← gsUnpair P w
      return (ret, w)
    else return (ret, w)

end

end Moonlight
