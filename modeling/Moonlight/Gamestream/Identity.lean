import Moonlight.Gamestream.KeyStore

/-! What one start of the program leaves for the next one: the files in the directory for keys,
and with them the identifier and the certificate that a host knows the client by. -/
namespace Moonlight

open Lib.Cleanup Lib.Log Lib.Stdio

/-- What `fopen(path, "r")` opens. -/
abbrev Disk : Type := List Char → Option (List UInt8)

/-- What one start gets from outside: what `RAND_bytes` gives, whether `fopen(path, "w")` opens for
the identifier, and the three files that `mkcert_generate` would be saved as. -/
structure KeyStart where
  uniqueData : Vector UInt8 8
  writable : Bool
  pem : List UInt8
  key : List UInt8
  p12 : List UInt8

namespace KeyStart

variable (start : KeyStart) (dir : List Char) (disk : Disk)

/-- `mkcert_save`, whose files all open. -/
def mkcertSave : Disk :=
  Function.update (Function.update (Function.update disk
    (filePath dir "client.pem") (some start.pem))
    (filePath dir "key.pem") (some start.key))
    (filePath dir "client.p12") (some start.p12)

/-- The files that `load_unique_id` leaves. -/
def saveUniqueId : Disk :=
  if disk (filePath dir "uniqueid.dat") = none ∧ start.writable = true then
    Function.update disk (filePath dir "uniqueid.dat")
      (some ((bytesToHex start.uniqueData.toList).map fun c => UInt8.ofNat c.toNat))
  else disk

/-- The files that `load_cert` leaves. -/
def saveCert : Disk :=
  if disk (filePath dir "client.pem") = none then start.mkcertSave dir disk else disk

/-- The files that `gs_init` leaves. A start that cannot write its identifier ends before the
certificate. -/
def leave : Disk :=
  if disk (filePath dir "uniqueid.dat") = none ∧ start.writable = false then disk
  else start.saveCert dir (start.saveUniqueId dir disk)

/-- The key store that `gs_init` finds. -/
def keyStore {X : Type} (readX509 : List UInt8 → Option X) : KeyStore X where
  contents := disk
  generated := start.mkcertSave dir (start.saveUniqueId dir disk)
  writable _ := start.writable
  uniqueData := start.uniqueData
  readX509

end KeyStart

/-- The identifier and the certificate are on disk. -/
structure HasIdentity (dir : List Char) (uniqueId : List Char) (pem : List UInt8) (disk : Disk) :
    Prop where
  uniqueId : ∃ text, disk (filePath dir "uniqueid.dat") = some text ∧
    cstring ((text.take 16).map fun b => Char.ofNat b.toNat) = uniqueId
  pem : disk (filePath dir "client.pem") = some pem

variable {X : Type} {readX509 : List UInt8 → Option X} {start : KeyStart} {dir : List Char}
  {disk : Disk} {P : InitPeer} {server : ServerRecord} {address : List Char} {i : Initialized}
  {log log' : List Copy} {uniqueId : List Char} {pem : List UInt8}
  {K : KeyStore X}

theorem copyPath_next {buffer : Buffer} {name : String} {path : List Char}
    (h : copyPath buffer dir name log = (.next path, log')) : path = filePath dir name := by
  obtain ⟨_, _, _, h⟩ := bind_eq_next.mp h
  cases h
  rfl

theorem loadUniqueId_next (h : loadUniqueId K dir log = (.next uniqueId, log')) :
    K.contents (filePath dir "uniqueid.dat") = none →
      K.writable (filePath dir "uniqueid.dat") = true := by
  obtain ⟨path, _, hpath, h⟩ := bind_eq_next.mp h
  obtain rfl := copyPath_next hpath
  intro hnone
  split at h
  · cases h
  · next hnot => simpa [hnone] using hnot

theorem loadCert_next {certHex : List Char} (h : loadCert K dir log = (.next certHex, log')) :
    K.certified (filePath dir "client.pem") (filePath dir "client.pem") = some (K.pem dir) := by
  obtain ⟨path, _, hpath, h⟩ := bind_eq_next.mp h
  obtain rfl := copyPath_next hpath
  obtain ⟨_, _, _, h⟩ := bind_eq_next.mp h
  obtain ⟨files, _, hfiles, h⟩ := bind_eq_next.mp h
  obtain ⟨rfl, _⟩ := (generateCert_logs _).next _ _ _ hfiles
  unfold readCert at h
  cases hpem : K.certified (filePath dir "client.pem") (filePath dir "client.pem") with
  | none =>
    rw [hpem] at h
    cases h
  | some pem => rw [KeyStore.pem, hpem, Option.getD_some]

/-- A start that comes through has an identifier and a certificate, or could write them. -/
theorem gsInit_next (h : gsInit K P server address dir log = (.next i, log')) :
    i.uniqueId = K.uniqueId (filePath dir "uniqueid.dat") ∧ i.certHex = bytesToHex (K.pem dir) ∧
      (K.contents (filePath dir "uniqueid.dat") = none →
        K.writable (filePath dir "uniqueid.dat") = true) ∧
      K.certified (filePath dir "client.pem") (filePath dir "client.pem") = some (K.pem dir) := by
  obtain ⟨⟨_, hcert, hid⟩, _⟩ := (gsInit_logs (K := K) (P := P)).next log i log' h
  obtain ⟨_, _, _, h⟩ := bind_eq_next.mp h
  obtain ⟨_, _, hload, h⟩ := bind_eq_next.mp h
  obtain ⟨_, _, hloadCert, _⟩ := bind_eq_next.mp h
  exact ⟨hid, hcert, loadUniqueId_next hload, loadCert_next hloadCert⟩

/-- An identity that is on disk is kept by every start. -/
theorem HasIdentity.leave (h : HasIdentity dir uniqueId pem disk) (start : KeyStart) :
    HasIdentity dir uniqueId pem (start.leave dir disk) := by
  obtain ⟨⟨text, htext, hid⟩, hpem⟩ := id h
  have hsaved : start.saveUniqueId dir disk = disk := by
    rw [KeyStart.saveUniqueId, if_neg (by simp [htext])]
  have hsame : start.leave dir disk = disk := by
    rw [KeyStart.leave, if_neg (by simp [htext]), hsaved, KeyStart.saveCert,
      if_neg (by simp [hpem])]
  rw [hsame]
  exact h

theorem HasIdentity.foldl (h : HasIdentity dir uniqueId pem disk) (starts : List KeyStart) :
    HasIdentity dir uniqueId pem (starts.foldl (fun disk start => start.leave dir disk) disk) := by
  induction starts generalizing disk with
  | nil => exact h
  | cons start starts ih => exact ih (h.leave start)

/-- A start that finds an identity on disk uses it. -/
theorem HasIdentity.gsInit (hdisk : HasIdentity dir uniqueId pem disk)
    (h : gsInit (start.keyStore dir disk readX509) P server address dir log = (.next i, log')) :
    i.uniqueId = uniqueId ∧ i.certHex = bytesToHex pem := by
  obtain ⟨hid, hcert, _, hcertified⟩ := gsInit_next h
  obtain ⟨⟨text, htext, htake⟩, hpem⟩ := hdisk
  have hfound : (start.keyStore dir disk readX509).contents (filePath dir "client.pem") =
      some pem := hpem
  have hread : (start.keyStore dir disk readX509).contents (filePath dir "uniqueid.dat") =
      some text := htext
  rw [KeyStore.certified, if_neg (by simp [hfound]), hfound, Option.some.injEq] at hcertified
  rw [hid, hcert, KeyStore.uniqueId, hread, ← hcertified]
  exact ⟨htake, rfl⟩

end Moonlight
