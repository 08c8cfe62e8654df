import Moonlight.Gamestream.HexCoding
import Moonlight.Gamestream.ServerStatus
import Moonlight.Lib.Log

/-! `gs_init` of `libgamestream/client.c`, `gs_pair` up to its first request, and the copies into
arrays of fixed size on the way. Allocation succeeds. -/
namespace Moonlight

open Lib.Cleanup Lib.Log Lib.Memory Lib.Stdio

/-- The arrays of `client.c` that texts from outside are copied into. -/
inductive Buffer where
  | mkdirtree | uniqueFilePath | certificateFilePath | keyFilePath | p12FilePath | certHex | url
  deriving DecidableEq

def Buffer.size : Buffer → Nat
  | .mkdirtree => 1024
  | .uniqueFilePath | .certificateFilePath | .keyFilePath | .p12FilePath | .certHex | .url => 4096

/-- A text that `strcpy` or `sprintf` writes to a place of an array. -/
structure Copy where
  buffer : Buffer
  offset : Nat
  text : List Char
  deriving DecidableEq

/-- The text and its NUL are written inside the array. -/
def Copy.Inside (c : Copy) : Prop :=
  ∀ array : Bytes, array.length = c.buffer.size →
    writeBytes array c.offset (terminated c.text) ≠ none

theorem Copy.inside_iff {c : Copy} : c.Inside ↔ c.offset + c.text.length < c.buffer.size := by
  have hlen : (terminated c.text).length = c.text.length + 1 := by simp [terminated]
  constructor
  · intro h
    have hfits := h (List.replicate c.buffer.size none) (List.length_replicate ..)
    rw [Ne, writeBytes_eq_none, List.length_replicate] at hfits
    omega
  · intro h array harray
    rw [Ne, writeBytes_eq_none]
    omega

instance : DecidablePred Copy.Inside := fun _ => decidable_of_iff _ Copy.inside_iff.symm

/-- The files at the directory for keys, and what comes from the cryptographic library. -/
structure KeyStore (X : Type) where
  /-- What `fopen(path, "r")` opens. -/
  contents : List Char → Option (List UInt8)
  /-- The same once `mkcert_save` wrote its three files. -/
  generated : List Char → Option (List UInt8)
  /-- Whether `fopen(path, "w")` opens. -/
  writable : List Char → Bool
  /-- What `RAND_bytes` gives for `unique_data`. -/
  uniqueData : Vector UInt8 8
  readX509 : List UInt8 → Option X

/-- The text of `uuid_unparse`. -/
abbrev Uuid := { s : List Char // s.length = 36 }

/-- What the requests up to the first one of `gs_pair` get from outside. -/
structure InitPeer where
  reply : Scheme → Reply
  uuid : Scheme → Uuid
  pairUuid : Uuid
  salt : Vector UInt8 16

/-- What `gs_init` leaves, `unique_id` and `cert_hex` included. -/
structure Initialized where
  ret : GsCode
  server : ServerRecord
  uniqueId : List Char
  certHex : List Char

/-- Functions that return a code, with the copies made so far; a code may come with an error. -/
abbrev Copying (α : Type) : Type := Block (List Copy) (GsCode × Option String) α

def filePath (keyDirectory : List Char) (name : String) : List Char :=
  keyDirectory ++ '/' :: name.toList

/-- `sprintf` of a path. -/
def copyPath (buffer : Buffer) (keyDirectory : List Char) (name : String) :
    Copying (List Char) := do
  emit ⟨buffer, 0, filePath keyDirectory name⟩
  pure (filePath keyDirectory name)

/-- `mkdirtree` up to its loop, which stays inside the text that was copied. -/
def mkdirtree (directory : List Char) : Copying Unit := emit ⟨.mkdirtree, 0, directory⟩

section
variable {X : Type} (K : KeyStore X) (P : InitPeer)

/-- `unique_id`, read from the file or made up for it. -/
def KeyStore.uniqueId (path : List Char) : List Char :=
  match K.contents path with
  | none => bytesToHex K.uniqueData.toList
  | some text => cstring ((text.take 16).map fun b => Char.ofNat b.toNat)

def loadUniqueId (keyDirectory : List Char) : Copying (List Char) := do
  let path ← copyPath .uniqueFilePath keyDirectory "uniqueid.dat"
  if K.contents path = none ∧ K.writable path = false then jump (.failed, none)
  else pure (K.uniqueId path)

/-- The loop that fills `cert_hex`, and the NUL behind it. -/
def writeCertHex : List UInt8 → Nat → Copying Unit
  | [], length => emit ⟨.certHex, length, []⟩
  | c :: rest, length => do
    emit ⟨.certHex, length, hexPair c⟩
    writeCertHex rest (length + 2)

/-- The files once `client.pem` is there, if it can be. -/
def KeyStore.certified (path : List Char) : List Char → Option (List UInt8) :=
  if K.contents path = none then K.generated else K.contents

/-- The part of `load_cert` that generates a certificate when there is none. -/
def generateCert (certificateFilePath keyDirectory : List Char) :
    Copying (List Char → Option (List UInt8)) :=
  if K.contents certificateFilePath = none then do
    let _ ← copyPath .p12FilePath keyDirectory "client.p12"
    pure K.generated
  else pure K.contents

/-- The part of `load_cert` that reads the two files. -/
def readCert (files : List Char → Option (List UInt8))
    (certificateFilePath keyFilePath : List Char) : Copying (List Char) :=
  match files certificateFilePath with
  | none => jump (.failed, some "Can't open certificate file")
  | some pem =>
    if (K.readX509 pem).isNone then jump (.failed, some "Error loading cert into memory")
    else do
      writeCertHex pem 0
      if files keyFilePath = none then jump (.failed, some "Error loading key into memory")
      else pure (bytesToHex pem)

def loadCert (keyDirectory : List Char) : Copying (List Char) := do
  let certificateFilePath ← copyPath .certificateFilePath keyDirectory "client.pem"
  let keyFilePath ← copyPath .keyFilePath keyDirectory "key.pem"
  let files ← generateCert K certificateFilePath keyDirectory
  readCert K files certificateFilePath keyFilePath

def httpInit (keyDirectory : List Char) : Copying Unit := do
  let _ ← copyPath .certificateFilePath keyDirectory "client.pem"
  let _ ← copyPath .keyFilePath keyDirectory "key.pem"

def Scheme.text : Scheme → String
  | .https => "https"
  | .http => "http"

/-- The URL of `load_server_status`. -/
def StatusRequest.url (r : StatusRequest) : List Char :=
  r.scheme.text.toList ++ "://".toList ++ r.address ++ ':' :: printDec r.port ++
    "/serverinfo?uniqueid=".toList ++ r.uniqueId ++ "&uuid=".toList ++ r.uuid

def InitPeer.statusPeer (uniqueId : List Char) : StatusPeer where
  reply := P.reply
  uniqueId := uniqueId
  uuid scheme := (P.uuid scheme).val

/-- `load_server_status`, which writes one URL for each of its requests. -/
def copyStatus (server : ServerRecord) (uniqueId : List Char) :
    Copying (GsCode × ServerRecord) := do
  let result ← defined (loadServerStatus (P.statusPeer uniqueId) ⟨server, [], none⟩)
  emits (result.2.sent.map fun request => ⟨.url, 0, request.url⟩)
  pure (result.1, result.2.server)

/-- `gs_init`. The results of `mkdirtree` and `http_init` are not looked at. -/
def gsInit (server : ServerRecord) (address keyDirectory : List Char) :
    Copying Initialized := do
  mkdirtree keyDirectory
  let uniqueId ← loadUniqueId K keyDirectory
  let certHex ← loadCert K keyDirectory
  httpInit keyDirectory
  let status ← copyStatus P { server with address := address } uniqueId
  pure ⟨status.1, status.2, uniqueId, certHex⟩

/-- The part of the URL of `gs_pair` that is always the same. -/
def pairQuery : String := "&devicename=roth&updateState=1&phrase=getservercert&salt="

/-- The URL of the first request of `gs_pair`. -/
def pairUrl (i : Initialized) : List Char :=
  "http://".toList ++ i.server.address ++ ":47989/pair?uniqueid=".toList ++ i.uniqueId ++
    "&uuid=".toList ++ P.pairUuid.val ++ pairQuery.toList ++ bytesToHex P.salt.toList ++
    "&clientcert=".toList ++ i.certHex

/-- `gs_pair` up to its first request. -/
def startPair (i : Initialized) : Copying Unit :=
  if i.server.paired then jump (.wrongState, some "Already paired")
  else if i.server.currentGame ≠ 0 then
    jump (.wrongState,
      some "The computer is currently in a game. You must close the game before pairing")
  else emit ⟨.url, 0, pairUrl P i⟩

/-- The text of `client.pem` that is turned into `cert_hex`. -/
def KeyStore.pem (keyDirectory : List Char) : List UInt8 :=
  let path := filePath keyDirectory "client.pem"
  (K.certified path path).getD []

variable {K P} {dir address uniqueId : List Char} {buffer : Buffer} {server : ServerRecord}

theorem copyPath_logs (buffer : Buffer) (dir : List Char) (name : String) :
    Logs Copy.Inside (copyPath buffer dir name)
      (dir.length + name.length + 1 < buffer.size) (· = filePath dir name) := by
  refine (Logs.bind (Logs.emit _) (q := True) fun _ _ => ?_).congr ?_
  · exact Logs.pure rfl
  · rw [Copy.inside_iff, filePath, and_true]
    simp only [List.length_append, List.length_cons, String.length_toList]
    omega

theorem loadUniqueId_logs : Logs Copy.Inside (loadUniqueId K dir) (dir.length < 4083)
    (· = K.uniqueId (filePath dir "uniqueid.dat")) := by
  have hname : "uniqueid.dat".length = 12 := by decide
  refine ((copyPath_logs _ dir _).bindEq (q := True) ?_).congr ?_
  · split
    · exact Logs.jump
    · exact Logs.pure rfl
  · simp only [hname, Buffer.size, and_true]
    omega

/-- The last byte that the loop writes is the NUL behind the whole text. -/
theorem writeCertHex_logs (pem : List UInt8) (length : Nat) :
    Logs Copy.Inside (writeCertHex pem length) (length + 2 * pem.length < 4096)
      (fun _ => True) := by
  induction pem generalizing length with
  | nil =>
    refine (Logs.emit _).congr ?_
    rw [Copy.inside_iff]
    simp [Buffer.size]
  | cons c rest ih =>
    refine (Logs.bind (Logs.emit _) fun _ _ => ih (length + 2)).congr ?_
    rw [Copy.inside_iff]
    simp [Buffer.size, hexPair]
    omega

theorem generateCert_logs (path : List Char) :
    Logs Copy.Inside (generateCert K path dir) (K.contents path = none → dir.length < 4085)
      (· = K.certified path) := by
  have hname : "client.p12".length = 10 := by decide
  unfold generateCert
  split
  · next hnone =>
    refine (Logs.bind (copyPath_logs _ dir _) fun _ _ => Logs.pure ?_).congr ?_
    · exact (if_pos hnone).symm
    · simp only [hname, hnone, Buffer.size, and_true, true_imp_iff]
      omega
  · next hsome =>
    refine (Logs.pure ?_).congr (iff_of_true trivial fun hnone => absurd hnone hsome)
    exact (if_neg hsome).symm

theorem readCert_logs (files : List Char → Option (List UInt8)) (path keyFilePath : List Char) :
    Logs Copy.Inside (readCert K files path keyFilePath) (((files path).getD []).length < 2048)
      (· = bytesToHex ((files path).getD [])) := by
  unfold readCert
  cases files path with
  | none => exact Logs.jump
  | some pem =>
    dsimp only [Option.getD_some]
    split
    · exact Logs.jump
    · refine (Logs.bind (writeCertHex_logs pem 0) (q := True) fun _ _ => ?_).congr ?_
      · split
        · exact Logs.jump
        · exact Logs.pure rfl
      · rw [and_true]
        omega

/-- The two paths that `load_cert` and `http_init` both begin with. -/
theorem certPaths_logs {α : Type} {f : List Char → List Char → Copying α} {p : Prop}
    {Q : α → Prop}
    (hf : Logs Copy.Inside (f (filePath dir "client.pem") (filePath dir "key.pem")) p Q) :
    Logs Copy.Inside
      (do
        let certificateFilePath ← copyPath .certificateFilePath dir "client.pem"
        let keyFilePath ← copyPath .keyFilePath dir "key.pem"
        f certificateFilePath keyFilePath)
      (dir.length < 4085 ∧ p) Q := by
  have hpem : "client.pem".length = 10 := by decide
  have hkey : "key.pem".length = 7 := by decide
  refine ((copyPath_logs _ dir _).bindEq ((copyPath_logs _ dir _).bindEq hf)).congr ?_
  rw [hpem, hkey, ← and_assoc]
  refine and_congr_left fun _ => ?_
  simp only [Buffer.size]
  omega

theorem loadCert_logs : Logs Copy.Inside (loadCert K dir)
    (dir.length < 4085 ∧ (K.pem dir).length < 2048) (· = bytesToHex (K.pem dir)) := by
  refine (certPaths_logs ((generateCert_logs _).bindEq (readCert_logs _ _ _))).congr ?_
  refine and_congr_right fun hdir => ?_
  exact and_iff_right fun _ => hdir

theorem httpInit_logs : Logs Copy.Inside (httpInit dir) (dir.length < 4085) (fun _ => True) :=
  (certPaths_logs (Logs.pure trivial)).congr (and_iff_left trivial)

theorem length_statusUrl (scheme : Scheme) :
    (StatusRequest.url ((P.statusPeer uniqueId).request address scheme)).length =
      scheme.text.length + address.length + uniqueId.length + 72 := by
  have huuid := (P.uuid scheme).property
  have hseparator : "://".length = 3 := by decide
  have hport : (printDec scheme.port).length = 5 := by cases scheme <;> decide
  have hserverinfo : "/serverinfo?uniqueid=".length = 21 := by decide
  have hand : "&uuid=".length = 6 := by decide
  simp only [StatusRequest.url, StatusPeer.request, InitPeer.statusPeer, List.length_append,
    List.length_cons, String.length_toList, huuid, hseparator, hport, hserverinfo, hand]
  omega

/-- The first URL is the longest. -/
theorem copyStatus_logs : Logs Copy.Inside (copyStatus P server uniqueId)
    (server.address.length + uniqueId.length < 4019)
    (fun result => result.2.address = server.address) := by
  have hhttps : Scheme.https.text.length = 5 := by decide
  have hhttp : Scheme.http.text.length = 4 := by decide
  refine (Logs.bind (Logs.defined loadServerStatus_returns fun _ h => h) ?_).congr
    (iff_of_eq (true_and _))
  rintro ⟨ret, w⟩ hrun
  obtain ⟨haddress, rest, hsent, hrest⟩ := loadServerStatus_sent hrun
  refine (Logs.bind (Logs.emits _) (q := True) fun _ _ => ?_).congr ?_
  · exact Logs.pure haddress
  · rw [hsent, and_true, List.nil_append, List.map_cons, List.forall_mem_cons, Copy.inside_iff]
    simp only [length_statusUrl, hhttps, Buffer.size]
    constructor
    · intro h
      omega
    · intro h
      refine ⟨by omega, fun c hc => ?_⟩
      obtain ⟨request, hrequest, rfl⟩ := List.mem_map.mp hc
      rw [hrest request hrequest, Copy.inside_iff]
      simp only [length_statusUrl, hhttp, Buffer.size]
      omega

theorem gsInit_logs : Logs Copy.Inside (gsInit K P server address dir)
    (dir.length < 1024 ∧ (K.pem dir).length < 2048 ∧
      address.length + (K.uniqueId (filePath dir "uniqueid.dat")).length < 4019)
    (fun i => i.server.address = address ∧ i.certHex = bytesToHex (K.pem dir) ∧
      i.uniqueId = K.uniqueId (filePath dir "uniqueid.dat")) := by
  refine (Logs.bind (Logs.emit _) fun _ _ => loadUniqueId_logs.bindEq (loadCert_logs.bindEq
    (Logs.bind httpInit_logs fun _ _ => Logs.bind copyStatus_logs
      (q := True) fun _ haddress => ?_))).congr ?_
  · exact Logs.pure ⟨haddress, rfl, rfl⟩
  · rw [Copy.inside_iff]
    simp only [Buffer.size, and_true]
    omega

theorem length_pairUrl (i : Initialized) :
    (pairUrl P i).length =
      i.server.address.length + i.uniqueId.length + i.certHex.length + 171 := by
  have huuid := P.pairUuid.property
  have hhttp : "http://".length = 7 := by decide
  have hpair : ":47989/pair?uniqueid=".length = 21 := by decide
  have hand : "&uuid=".length = 6 := by decide
  have hquery : pairQuery.length = 57 := by decide +kernel
  have hcert : "&clientcert=".length = 12 := by decide
  unfold pairUrl
  simp only [List.length_append, String.length_toList, huuid, hhttp, hpair, hand, hquery,
    hcert, length_bytesToHex, Vector.length_toList]
  omega

theorem startPair_logs (i : Initialized) : Logs Copy.Inside (startPair P i)
    (i.server.address.length + i.uniqueId.length + i.certHex.length < 3925)
    (fun _ => True) := by
  unfold startPair
  split
  · exact Logs.jump
  split
  · exact Logs.jump
  · refine (Logs.emit _).congr ?_
    rw [Copy.inside_iff, length_pairUrl]
    simp only [Buffer.size]
    omega

end

end Moonlight
