import Moonlight.Config.KeyDir
import Moonlight.Config.Reload
import Moonlight.Main
import Moonlight.Gamestream.KeyStore

/-! The way of `main` to the first request of `gs_pair`: when the texts from the command line, the
files and the network fit the arrays they are copied into. -/
namespace Moonlight

open Lib.Cleanup Lib.Fold Lib.Log

/-- The fields of `CONFIGURATION` that decide where `gs_init` looks and whom it asks. -/
structure Target where
  keyDir : List Char
  action : Option (List Char)
  address : Option (List Char)
  deriving DecidableEq

def Configuration.target (c : Configuration) : Target := ⟨c.keyDir, c.action, c.address⟩

/-- What `parse_argument` and `config_file_parse` make of them, as long as they return. -/
def Target.read (t : Target) : Setting → Target
  | .option 'r' value => { t with keyDir := value }
  | .option '\x01' value =>
    match t.action, t.address with
    | none, _ => { t with action := some value }
    | some _, none => { t with address := some value }
    | some _, some _ => t
  | .option _ _ => t
  | .address value => { t with address := some value }
  | .sops _ | .localaudio _ => t
  | .action value => { t with action := some value }

/-- `main` behind `config_parse` and up to `gs_init`: the platform, the action and the
configuration with the options of the host. -/
def reachServer (env : Env) (host : Host) (files : Files) (n : Nat) (parsed : Parsed) :
    Except Halt (Platform × List Char × ConfigState) :=
  match parsed.state.config.action with
  | none => .error .exited
  | some action =>
    if action = "help".toList then .error .exited
    else match host.platformCheck parsed.state.config.platform with
      | none => .error .exited
      | some system =>
        if action = "map".toList then .error .exited
        else do
          let address ← findAddress host parsed.state.config
          let s ← readHostFile env files n address
            { parsed.state with
              config.stream.supportsHevc :=
                parsed.state.config.stream.supportsHevc || platformSupportsHevc system
              config.address := some address }
          .ok (system, action, s)

/-- What a start of the program gets from outside before it asks to pair. -/
structure PairStart (X : Type) where
  env : Env
  files : Files
  depth : Nat
  argv : List (List Char)
  /-- What `CONFIGURATION` holds before `config_parse`. -/
  before : Configuration
  /-- What `main` meets; `gs_init` itself is followed here, in place of what it returns. -/
  host : Host
  /-- The files when the options of the host are read. -/
  hostFiles : Files
  keys : KeyStore X
  peer : InitPeer
  /-- What `SERVER_DATA` holds before `gs_init`. -/
  server : ServerRecord

namespace PairStart

variable {X : Type} (r : PairStart X)

/-- `main` up to `gs_init`. A copy into `key_dir` or `host_config_file` that does not fit has no
meaning. -/
def reach : Except Halt (Platform × List Char × ConfigState) := do
  let parsed ← configParse r.env r.files r.depth r.argv r.before
  reachServer r.env r.host r.hostFiles r.depth parsed

/-- `main` from `gs_init` to the first request of `gs_pair`, with the copies on the way. The copies
behind one that is not inside its array are those that would follow if nothing was overwritten. -/
def requestPair (action : List Char) (s : ConfigState) : Block (List Copy) Halt Unit := do
  let i ← mapCode (fun _ => .exited)
    (gsInit r.keys r.peer r.server (s.config.address.getD []) s.config.keyDir)
  require (i.ret = .ok ∨ i.ret = .unsupportedVersion ∧ s.config.unsupportedVersion = true) .exited
  -- the other actions do not call `gs_pair`
  require (action = "pair".toList) .exited
  mapCode (fun _ => .exited) (startPair r.peer i)

/-- `main` up to the first request of `gs_pair`. -/
def run : Block (List Copy) Halt Unit := do
  let reached ← fromExcept .undefined r.reach
  r.requestPair reached.2.1 reached.2.2

/-- Every copy on the way stays inside its array. -/
def CopiesInside : Prop := (r.run []).1 ≠ .undefined ∧ ∀ c ∈ (r.run []).2, c.Inside

/-- Everything `config_parse` is given. -/
def given : List Setting := sources r.env r.files r.depth r.argv

/-- Where the options of `config_parse` lead. -/
def settled : Target := r.given.foldl Target.read ⟨[], none, none⟩

/-- The end of `config_parse`: the directory for keys that no option named. -/
def parsed : Target :=
  if r.settled.keyDir = [] then
    { r.settled with keyDir := (keyDirDefault r.env).getD [] }
  else r.settled

/-- The address whose options `main` looks for. -/
def hostAddress : List Char := r.settled.address.getD r.host.discovered

/-- The options for one host. -/
def hostGiven : List Setting :=
  if r.hostFiles.readable (hostConfigFile r.hostAddress) then
    fileSettings r.hostFiles r.depth (hostConfigFile r.hostAddress)
  else []

/-- What `gs_init` is called with. -/
def target : Target :=
  r.hostGiven.foldl Target.read { r.parsed with address := some r.hostAddress }

def address : List Char := r.target.address.getD []

def uniqueId : List Char := r.keys.uniqueId (filePath r.target.keyDir "uniqueid.dat")

def pem : List UInt8 := r.keys.pem r.target.keyDir

/-- Every text is short enough for the arrays it gets into before `gs_init`. -/
structure SmallGiven : Prop where
  options : ∀ x ∈ r.given ++ r.hostGiven, x.KeyDirFits
  default : r.settled.keyDir = [] → ∀ dir, keyDirDefault r.env = some dir → dir.length < 4096
  hostAddress : r.hostAddress.length ≤ 116

/-- Every text is short enough for the arrays it gets into. -/
structure Small : Prop extends SmallGiven r where
  keyDir : r.target.keyDir.length ≤ 1023
  pem : r.pem.length ≤ 2047
  url : r.address.length + r.uniqueId.length + 2 * r.pem.length ≤ 3924

end PairStart

section
variable {X : Type} {r : PairStart X} {env : Env} {files : Files} {host : Host} {n : Nat}
  {s t : ConfigState} {x : Setting} {l : List Setting} {p : Parsed} {address action : List Char}
  {system : Platform} {halt : Halt}

/-- `main` goes this way to `gs_init` for every action. -/
theorem startSession_reachServer : startSession env host n p =
    reachServer env host p.files n p >>= fun reached =>
      connectServer host reached.2.2.config >>= fun server =>
        runAction host reached.1 reached.2.1 server reached.2.2.config := by
  unfold startSession reachServer
  cases p.state.config.action with
  | none => rfl
  | some action =>
    dsimp only
    split
    · rfl
    · cases host.platformCheck p.state.config.platform with
      | none => rfl
      | some system =>
        dsimp only
        split
        · rfl
        · cases findAddress host p.state.config with
          | error halt => rfl
          | ok address => simp only [bind_assoc]; rfl

theorem length_hostConfigFile (address : List Char) :
    (hostConfigFile address).length = address.length + 11 := by
  have hhosts : "hosts/".length = 6 := by decide
  have hconf : ".conf".length = 5 := by decide
  unfold hostConfigFile
  simp only [List.length_append, String.length_toList, hhosts, hconf]
  omega

theorem apply_target (h : x.apply env files s = .ok t) :
    t.config.target = s.config.target.read x := by
  cases x with
  | option c value =>
    rw [Setting.apply] at h
    unfold parseArgument at h
    split at h
    case h_10 => -- input
      split at h
      · cases h
        rfl
      · cases h
    case h_11 => -- mapping
      obtain ⟨found, _, h⟩ := bind_eq_ok.mp h
      cases found with
      | none => cases h
      | some path =>
        cases h
        rfl
    case h_15 => cases h
    case h_18 => -- keydir
      obtain ⟨keyDir, hstore, h⟩ := bind_eq_ok.mp h
      obtain ⟨rfl, _⟩ := storeKeyDir_eq_ok.mp hstore
      cases h
      rfl
    case h_26 => -- a word that is no option
      split at h
      · next haction =>
        cases h
        simp [Configuration.target, Target.read, haction]
      · next haction haddress =>
        cases h
        simp [Configuration.target, Target.read, haction, haddress]
      · cases h
    case h_27 => -- no option
      cases h
      unfold Target.read
      split <;> simp_all
    all_goals
      cases h
      rfl
  | address value | sops on | localaudio on | action value =>
    cases h
    rfl

theorem foldlM_target (h : l.foldlM (Setting.apply env files) s = .ok t) :
    t.config.target = l.foldl Target.read s.config.target := by
  induction l generalizing s with
  | nil =>
    cases h
    rfl
  | cons x l ih =>
    obtain ⟨u, hu, hrest⟩ := foldlM_cons_eq_ok.mp h
    rw [ih hrest, apply_target hu, List.foldl_cons]

theorem readOptions_settled (h : readOptions r.env r.files r.depth r.argv r.before = .ok s) :
    s.config.target = r.settled ∧ ∀ x ∈ r.given, x.KeyDirFits := by
  obtain ⟨mapping, _, happly⟩ := readOptions_sources h
  exact ⟨foldlM_target happly, foldlM_keyDirFits happly⟩

/-- What `config_parse` leaves, and which copies it makes on the way if it returns. -/
theorem configParse_target (h : configParse r.env r.files r.depth r.argv r.before = .ok p) :
    p.state.config.target = r.parsed ∧ (∀ x ∈ r.given, x.KeyDirFits) ∧
      (r.settled.keyDir = [] → ∀ dir, keyDirDefault r.env = some dir → dir.length < 4096) := by
  obtain ⟨s, hread, hcomplete⟩ := bind_eq_ok.mp h
  obtain ⟨hsettled, hgiven⟩ := readOptions_settled hread
  obtain ⟨dir, hdir, hstate, _⟩ := completeOptions_ok hcomplete
  have hkeyDir : s.config.keyDir = r.settled.keyDir := congrArg Target.keyDir hsettled
  have hcompleted : p.state.config.target = { r.settled with keyDir := dir } := by
    rw [hstate, ← hsettled]
    rfl
  rw [hcompleted, PairStart.parsed]
  unfold completeKeyDir at hdir
  rw [hkeyDir] at hdir
  split at hdir
  · next hnone =>
    obtain ⟨hdefault, hlen⟩ := defaultKeyDir_eq_ok.mp hdir
    rw [if_pos hnone, hdefault]
    refine ⟨rfl, hgiven, fun _ dir' hdir' => ?_⟩
    cases hdir'
    exact hlen
  · next hsome =>
    cases hdir
    rw [if_neg hsome]
    exact ⟨rfl, hgiven, fun h => absurd h hsome⟩

/-- The address that `main` looks for is the one that the options name, or the one discovered. -/
theorem findAddress_target (hparsed : p.state.config.target = r.parsed)
    (h : findAddress r.host p.state.config = .ok address) : address = r.hostAddress := by
  have hsettled : p.state.config.address = r.settled.address := by
    have hfield := congrArg Target.address hparsed
    unfold PairStart.parsed at hfield
    split at hfield <;> exact hfield
  unfold findAddress at h
  rw [PairStart.hostAddress, ← hsettled]
  cases hp : p.state.config.address with
  | some named =>
    rw [hp] at h
    cases h
    rfl
  | none =>
    rw [hp] at h
    dsimp only at h
    split at h
    · cases h
    · cases h
      rfl

/-- The same for the options of the host. -/
theorem readHostFile_target
    (hs : s.config.target = { r.parsed with address := some r.hostAddress })
    (h : readHostFile r.env r.hostFiles r.depth r.hostAddress s = .ok t) :
    t.config.target = r.target ∧ (hostConfigFile r.hostAddress).length < 128 ∧
      ∀ x ∈ r.hostGiven, x.KeyDirFits := by
  unfold readHostFile at h
  split at h
  · next hlen =>
    split at h
    · next hreadable =>
      obtain ⟨⟨ok, u⟩, hu, rfl⟩ := map_eq_ok.mp h
      have happly := configFileParse_settings r.depth _ s ok u hu
      rw [PairStart.target, PairStart.hostGiven, if_pos hreadable, ← hs]
      exact ⟨foldlM_target happly, hlen, foldlM_keyDirFits happly⟩
    · next hunreadable =>
      cases h
      rw [PairStart.target, PairStart.hostGiven, if_neg hunreadable, ← hs]
      exact ⟨rfl, hlen, fun _ hx => absurd hx List.not_mem_nil⟩
  · cases h

/-- A start that gets to `gs_init` calls it for the target, and all texts fitted so far. -/
theorem reach_target (h : r.reach = .ok (system, action, s)) :
    s.config.target = r.target ∧ r.SmallGiven := by
  obtain ⟨p, hparse, hserver⟩ := bind_eq_ok.mp h
  obtain ⟨hparsed, hgiven, hdefault⟩ := configParse_target hparse
  unfold reachServer at hserver
  split at hserver
  · cases hserver
  split at hserver
  · cases hserver
  split at hserver
  · cases hserver
  split at hserver
  · cases hserver
  obtain ⟨address, haddress, hserver⟩ := bind_eq_ok.mp hserver
  obtain ⟨t, hhost, hserver⟩ := bind_eq_ok.mp hserver
  cases hserver
  obtain rfl := findAddress_target hparsed haddress
  obtain ⟨htarget, hlen, hhostGiven⟩ := readHostFile_target (by rw [← hparsed]; rfl) hhost
  rw [length_hostConfigFile] at hlen
  exact ⟨htarget, List.forall_mem_append.mpr ⟨hgiven, hhostGiven⟩, hdefault, by omega⟩

theorem findAddress_avoids (c : Configuration) : Avoids .undefined (findAddress host c) := by
  unfold findAddress
  split
  · exact .ok
  · split
    · exact .error (by decide)
    · exact .ok

/-- Where they fit, the way to `gs_init` has a meaning. -/
theorem reach_avoids (hhome : r.env.home ≠ none) (h : r.SmallGiven) :
    Avoids .undefined r.reach := by
  obtain ⟨hgiven, hhostGiven⟩ := List.forall_mem_append.mp h.options
  have hparse : Avoids .undefined (configParse r.env r.files r.depth r.argv r.before) := by
    refine (readOptions_avoids hhome hgiven).bind fun s hs => completeOptions_avoids hhome ?_
    have hkeyDir : s.config.keyDir = r.settled.keyDir :=
      congrArg Target.keyDir (readOptions_settled hs).1
    rw [hkeyDir]
    exact h.default
  refine hparse.bind fun p hp => ?_
  obtain ⟨hparsed, _⟩ := configParse_target hp
  unfold reachServer
  split
  · exact .error (by decide)
  split
  · exact .error (by decide)
  split
  · exact .error (by decide)
  split
  · exact .error (by decide)
  refine (findAddress_avoids _).bind fun address haddress => ?_
  obtain rfl := findAddress_target hparsed haddress
  refine Avoids.bind ?_ fun s _ => .ok
  have hlen : (hostConfigFile r.hostAddress).length < 128 := by
    have hhost := h.hostAddress
    rw [length_hostConfigFile]
    omega
  rw [readHostFile, if_pos hlen]
  unfold PairStart.hostGiven at hhostGiven
  split
  · next hreadable =>
    rw [if_pos hreadable] at hhostGiven
    exact (configFileParse_fitting hhome _ _ _ hhostGiven).map
  · exact .ok

theorem requestPair_logs (action : List Char) (hs : s.config.target = r.target) :
    Logs Copy.Inside (r.requestPair action s)
      (r.target.keyDir.length ≤ 1023 ∧ r.pem.length ≤ 2047 ∧
        r.address.length + r.uniqueId.length + 2 * r.pem.length ≤ 3924) (fun _ => True) := by
  have hkeyDir : s.config.keyDir = r.target.keyDir := congrArg Target.keyDir hs
  have haddress : s.config.address = r.target.address := congrArg Target.address hs
  unfold PairStart.requestPair
  rw [hkeyDir, haddress]
  refine (Logs.bind gsInit_logs.mapCode fun i hi =>
    Logs.bind Logs.require fun _ _ => Logs.bind Logs.require fun _ _ =>
    ((startPair_logs i).congr
      (q := r.address.length + r.uniqueId.length + 2 * r.pem.length < 3925) ?_).mapCode).congr ?_
  · obtain ⟨haddress, hcert, hid⟩ := hi
    rw [haddress, hcert, hid, length_bytesToHex]
    exact Iff.rfl
  · constructor
    · rintro ⟨⟨hdir, hpem, _⟩, _, _, hurl⟩
      exact ⟨Nat.le_of_lt_succ hdir, Nat.le_of_lt_succ hpem, Nat.le_of_lt_succ hurl⟩
    · rintro ⟨hdir, hpem, hurl⟩
      have hstatus : r.address.length + r.uniqueId.length < 4019 := by omega
      exact ⟨⟨Nat.lt_succ_of_le hdir, Nat.lt_succ_of_le hpem, hstatus⟩, trivial, trivial,
        Nat.lt_succ_of_le hurl⟩

theorem run_of_reach (h : r.reach = .ok (system, action, s)) :
    r.run [] = r.requestPair action s [] := by
  rw [PairStart.run, h]
  rfl

theorem run_of_halt (h : r.reach = .error halt) (hhalt : halt ≠ .undefined) :
    r.run [] = (.cleanup halt, []) := by
  rw [PairStart.run, h, fromExcept, if_neg hhalt]
  rfl

theorem run_of_undefined (h : r.reach = .error .undefined) : r.run [] = (.undefined, []) := by
  rw [PairStart.run, h, fromExcept, if_pos rfl]
  rfl

/-- On the way to `gs_pair`, every copy stays inside its array if the directory for keys, the
address and the certificate are short enough, and, where the program does not exit on the way,
only then. -/
theorem copies_inside_iff (r : PairStart X) :
    (r.env.home ≠ none → r.Small → r.CopiesInside) ∧
      ((∀ halt, (r.run []).1 ≠ .cleanup halt) → r.CopiesInside → r.Small) := by
  constructor
  · intro hhome hsmall
    cases hreach : r.reach with
    | ok reached =>
      obtain ⟨system, action, s⟩ := reached
      have hlogs := requestPair_logs action (reach_target hreach).1
      unfold PairStart.CopiesInside
      rw [run_of_reach hreach]
      exact ⟨hlogs.meaning [], hlogs.all ⟨hsmall.keyDir, hsmall.pem, hsmall.url⟩⟩
    | error halt =>
      have hhalt : halt ≠ .undefined := by
        rintro rfl
        exact reach_avoids hhome hsmall.toSmallGiven hreach
      unfold PairStart.CopiesInside
      rw [run_of_halt hreach hhalt]
      exact ⟨by simp, fun c hc => absurd hc List.not_mem_nil⟩
  · intro hstays hinside
    cases hreach : r.reach with
    | ok reached =>
      obtain ⟨system, action, s⟩ := reached
      obtain ⟨htarget, hgiven⟩ := reach_target hreach
      have hlogs := requestPair_logs action htarget
      unfold PairStart.CopiesInside at hinside
      rw [run_of_reach hreach] at hinside hstays
      cases hrun : r.requestPair action s [] with
      | mk outcome log =>
        rw [hrun] at hinside hstays
        cases outcome with
        | next a =>
          obtain ⟨hdir, hpem, hurl⟩ := (hlogs.run hrun).mp hinside.2
          exact ⟨hgiven, hdir, hpem, hurl⟩
        | cleanup halt => exact absurd rfl (hstays halt)
        | undefined => exact absurd rfl hinside.1
    | error halt =>
      by_cases hhalt : halt = .undefined
      · subst hhalt
        exact absurd (congrArg Prod.fst (run_of_undefined hreach)) hinside.1
      · exact absurd (congrArg Prod.fst (run_of_halt hreach hhalt)) (hstays halt)

/-- A certificate as `PEM_read_X509` takes it. -/
def shortPem : List UInt8 :=
  let lines : List String :=
  ["-----BEGIN CERTIFICATE-----",
   "MIIBJjCB2aADAgECAhRYqmiWU8eCH5tOnPlWonPnlPOVZTAFBgMrZXAwDDEKMAgG",
   "A1UEAwwBbTAeFw0yNjExMjAwNDQ0MTdaFw00NjExMTUwNDQ0MTdaMAwxCjAIBgNV",
   "BAMMAW0wKjAFBgMrZXADIQDDlbBMFgPqwspvM32nzSBTBtYkIuSdWApC/LVUe+UB",
   "26NNMEswHQYDVR0OBBYEFFPaGVI7JDhynfWvqLa6JS4wijZPMB8GA1UdIwQYMBaA",
   "FFPaGVI7JDhynfWvqLa6JS4wijZPMAkGA1UdEwQCMAAwBQYDK2VwA0EAq3k8cFOW",
   "V3++vPEILjkjJnx5Ckb7TlKQjGbeCwRponrNsUAB5GjjMUdI2I16afFud5stS/Vh",
   "WSsLcokGJRiEBA==",
   "-----END CERTIFICATE-----"]
  (lines.flatMap fun line => line.toList ++ ['\n']).map fun c => UInt8.ofNat c.toNat

/-- A directory with a certificate and a key, where the file for `unique_id` is still to be made. -/
def homeKeys : KeyStore Unit where
  contents path :=
    if path = filePath "/home/user/.cache/moonlight".toList "client.pem" then some shortPem
    else if path = filePath "/home/user/.cache/moonlight".toList "key.pem" then some []
    else none
  generated _ := none
  writable _ := true
  uniqueData := #v[1, 35, 69, 103, 137, 171, 205, 239]
  readX509 pem := if pem = shortPem then some () else none

/-- A host that is not paired yet. -/
def idleHost : InitPeer where
  reply
    | .https => .failure "SSL"
    | .http => .body (.document (flatDocument
        [("currentgame", ['0']), ("PairStatus", ['0']), ("appversion", ['7']),
          ("state", "_SERVER_AVAILABLE".toList)]))
  uuid _ := ⟨List.replicate 36 '0', rfl⟩
  pairUuid := ⟨List.replicate 36 '0', rfl⟩
  salt := Vector.replicate 16 0

/-- What `main` meets where every platform is found. -/
def anyPlatform : Host where
  platformCheck _ := some .fake
  discovered := []
  gsInit _ _ := (.failed, newRecord.toServerData)
  opens _ _ := false
  appId _ := -1
  peer := ⟨fun _ => .failure "", fun _ => []⟩
  key := []

/-- `moonlight pair <address>` -/
def pairWith (address : List Char) : PairStart Unit where
  env := homeEnv
  files := oneFile [] []
  depth := 1
  argv := ["moonlight".toList, "pair".toList, address]
  before := zeroConfiguration
  host := anyPlatform
  hostFiles := oneFile [] []
  keys := homeKeys
  peer := idleHost
  server := newRecord

/-- A host name of 117 characters. -/
def longName : List Char := List.replicate 58 'a' ++ '.' :: List.replicate 58 'a'

/-- It does not fit `host_config_file`. -/
theorem long_address_overflows : ((pairWith longName).run []).1 = .undefined ∧
    ¬ (pairWith longName).CopiesInside := by
  have hrun : ((pairWith longName).run []).1 = .undefined := by decide +kernel
  exact ⟨hrun, fun h => h.1 hrun⟩

theorem copies_inside_iff_short : ((pairWith "192.168.0.2".toList).run []).1 = .next () ∧
    (pairWith "192.168.0.2".toList).CopiesInside := by
  have hpem : (pairWith "192.168.0.2".toList).pem.length = 461 := by decide +kernel
  have hurl : (pairWith "192.168.0.2".toList).address.length +
      (pairWith "192.168.0.2".toList).uniqueId.length = 27 := by decide +kernel
  have hnone : ∀ x ∈ (pairWith "192.168.0.2".toList).given ++
      (pairWith "192.168.0.2".toList).hostGiven, x.keyDir = none := by decide +kernel
  have hgiven : (pairWith "192.168.0.2".toList).SmallGiven := by
    refine ⟨fun x hx dir hdir => ?_, by decide +kernel, by decide +kernel⟩
    rw [hnone x hx] at hdir
    cases hdir
  have hsmall : (pairWith "192.168.0.2".toList).Small :=
    ⟨hgiven, by decide +kernel, by omega, by omega⟩
  exact ⟨by decide +kernel, (copies_inside_iff _).1 (by decide) hsmall⟩

end

end Moonlight
