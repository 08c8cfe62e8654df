import Moonlight.Config.Reload
import Moonlight.Gamestream.Session
import Moonlight.Main

/-! The default bitrate and the stream that is started. -/
namespace Moonlight

open Lib.Fold

/-- The bitrate is the default for the resolution and the frame rate. -/
structure FollowsStream (stream : StreamSettings) : Prop where
  both : stream.height ≥ 1080 → stream.fps ≥ 60 → stream.bitrate = 20000
  one : (stream.height ≥ 1080 ↔ ¬ stream.fps ≥ 60) → stream.bitrate = 10000
  neither : ¬ stream.height ≥ 1080 → ¬ stream.fps ≥ 60 → stream.bitrate = 5000

/-- The file for the host that a start connects to. -/
def hostFile (host : Host) (r : Parsed) : List Char :=
  hostConfigFile (r.state.config.address.getD host.discovered)

/-- The options of that file. -/
def hostSettings (host : Host) (n : Nat) (r : Parsed) : List Setting :=
  if r.files.readable (hostFile host r) then fileSettings r.files n (hostFile host r) else []

def heightGiven (given : List Setting) : Int := lastValue Setting.height 720 given

def fpsGiven (given : List Setting) : Int := lastValue Setting.fps 60 given

variable {env : Env} {host : Host} {files : Files} {n : Nat} {argv : List (List Char)}
  {before : Configuration} {r : Parsed} {s t : ConfigState} {connection : Connection}
  {stream : StreamSettings} {given extra : List Setting} {address : List Char}
  {server : ServerData} {c : Configuration} {system : Platform} {action : List Char}

theorem followsStream_iff :
    FollowsStream stream ↔ stream.bitrate = defaultBitrate stream.height stream.fps := by
  unfold defaultBitrate
  constructor
  · rintro ⟨hboth, hone, hneither⟩
    split_ifs with h2 h1
    · exact hboth h2.1 h2.2
    · exact hone (by tauto)
    · exact hneither (by tauto) (by tauto)
  · intro h
    split_ifs at h with h2 h1
    · exact ⟨fun _ _ => h, fun hiff => absurd h2 (by tauto), fun hh => absurd h2.1 hh⟩
    · exact ⟨fun hh hf => absurd ⟨hh, hf⟩ h2, fun _ => h, fun hh hf => absurd h1 (by tauto)⟩
    · exact ⟨fun hh hf => absurd ⟨hh, hf⟩ h2, fun hiff => absurd h1 (by tauto), fun _ _ => h⟩

theorem gsStartApp_numbers {P : Peer} {key : List UInt8} {config : StreamConfiguration}
    {appId : Int} {sops localaudio : Bool} {w : World} :
    (gsStartApp P key config appId sops localaudio w).1.height = config.height ∧
      (gsStartApp P key config appId sops localaudio w).1.fps = config.fps := by
  unfold gsStartApp
  split <;> exact ⟨rfl, rfl⟩

/-- The numbers that the default bitrate is about. -/
structure SameNumbers (a b : StreamSettings) : Prop where
  height : a.height = b.height
  fps : a.fps = b.fps
  bitrate : a.bitrate = b.bitrate

/-- Starting the application leaves the numbers of the stream alone. -/
theorem startStream_numbers (h : startStream host server c = .ok connection) :
    SameNumbers connection.stream c.stream := by
  have hnumbers :
      (gsStartApp host.peer host.key c.stream.toStreamConfiguration (host.appId c.app) c.sops
        c.localaudio (World.enter server)).1.height = c.stream.height ∧
      (gsStartApp host.peer host.key c.stream.toStreamConfiguration (host.appId c.app) c.sops
        c.localaudio (World.enter server)).1.fps = c.stream.fps := gsStartApp_numbers
  unfold startStream at h
  dsimp only at h
  split at h
  · cases h
  · split at h
    · next heq =>
      cases h
      rw [heq] at hnumbers
      exact ⟨hnumbers.1, hnumbers.2, rfl⟩
    · cases h
    · cases h

theorem runAction_numbers (h : runAction host system action server c = .ok (some connection)) :
    SameNumbers connection.stream c.stream := by
  unfold runAction at h
  split at h
  · obtain ⟨_, _, h⟩ := bind_eq_ok.mp h
    split at h
    · obtain ⟨connection', hstart, hsome⟩ := map_eq_ok.mp h
      cases hsome
      exact startStream_numbers hstart
    · cases h
  · split at h
    · obtain ⟨_, _, h⟩ := bind_eq_ok.mp h
      cases h
    · cases h

theorem readHostFile_settings (h : readHostFile env files n address s = .ok t) :
    (if files.readable (hostConfigFile address) then fileSettings files n (hostConfigFile address)
      else []).foldlM (Setting.apply env files) s = .ok t := by
  unfold readHostFile at h
  split at h
  · split at h
    · next hread =>
      obtain ⟨⟨ok, u⟩, hu, rfl⟩ := map_eq_ok.mp h
      rw [if_pos hread]
      exact configFileParse_settings n _ s ok u hu
    · next hread =>
      cases h
      rw [if_neg hread]
      rfl
  · cases h

/-- The stream is started with what the file of the host makes of the numbers. -/
theorem startSession_numbers (h : startSession env host n r = .ok (some connection)) :
    ∃ s t : ConfigState, SameNumbers s.config.stream r.state.config.stream ∧
      (hostSettings host n r).foldlM (Setting.apply env r.files) s = .ok t ∧
      SameNumbers connection.stream t.config.stream := by
  unfold startSession at h
  split at h
  · cases h
  · split at h
    · cases h
    · split at h
      · cases h
      · split at h
        · cases h
        · obtain ⟨address, haddress, hread⟩ := bind_eq_ok.mp h
          obtain ⟨t, ht, hconnect⟩ := bind_eq_ok.mp hread
          obtain ⟨server, _, haction⟩ := bind_eq_ok.mp hconnect
          have hfold := readHostFile_settings ht
          have hend := runAction_numbers haction
          have hname : address = r.state.config.address.getD host.discovered := by
            unfold findAddress at haddress
            split at haddress
            · next heq =>
              cases haddress
              rw [heq]
              rfl
            · next heq =>
              split at haddress
              · cases haddress
              · cases haddress
                rw [heq]
                rfl
          rw [hname] at hfold
          refine ⟨_, t, ?_, hfold, hend⟩
          exact ⟨rfl, rfl, rfl⟩

/-- What `config_parse` leaves when no option sets a bitrate. -/
theorem configParse_bitrate (h : configParse env files n argv before = .ok r)
    (hunset : ∀ x ∈ sources env files n argv, ∀ v, x.bitrate = some v → v = -1) :
    r.state.config.stream.height = heightGiven (sources env files n argv) ∧
    r.state.config.stream.fps = fpsGiven (sources env files n argv) ∧
    r.state.config.stream.bitrate = defaultBitrate (heightGiven (sources env files n argv))
      (fpsGiven (sources env files n argv)) := by
  obtain ⟨s, hread, hcomplete⟩ := bind_eq_ok.mp h
  obtain ⟨dir, _, hstate, _⟩ := completeOptions_ok hcomplete
  obtain ⟨mapping, _, happly⟩ := readOptions_sources hread
  have hheight : s.config.stream.height = heightGiven (sources env files n argv) :=
    field_lastValue (·.config.stream.height) _ (fun _ _ _ h => h.height) happly
  have hfps : s.config.stream.fps = fpsGiven (sources env files n argv) :=
    field_lastValue (·.config.stream.fps) _ (fun _ _ _ h => h.fps) happly
  have hbitrate : s.config.stream.bitrate =
      lastValue Setting.bitrate (-1) (sources env files n argv) :=
    field_lastValue (·.config.stream.bitrate) _ (fun _ _ _ h => h.bitrate) happly
  have hdefault : s.config.stream.bitrate = -1 := by
    rw [hbitrate]
    exact lastValue_invariant (P := (· = -1)) rfl hunset
  rw [hstate]
  refine ⟨hheight, hfps, ?_⟩
  rw [← hheight, ← hfps]
  exact if_pos hdefault

theorem defaultBitrate_ne (height fps : Int) : defaultBitrate height fps ≠ -1 := by
  unfold defaultBitrate
  split_ifs <;> decide

/-- The bitrate of the stream is the default for it exactly when the file of the host, which is
read after the default was taken, names no bitrate and stays within the same default. -/
theorem default_bitrate_iff (hparse : configParse env files n argv before = .ok r)
    (hrun : main env host files n argv before = .ok (some connection))
    (hunset : ∀ x ∈ sources env files n argv ++ hostSettings host n r,
      ∀ v, x.bitrate = some v → v = -1) :
    FollowsStream connection.stream ↔
      (∀ x ∈ hostSettings host n r, x.bitrate = none) ∧
      defaultBitrate (heightGiven (sources env files n argv))
          (fpsGiven (sources env files n argv)) =
        defaultBitrate (heightGiven (sources env files n argv ++ hostSettings host n r))
          (fpsGiven (sources env files n argv ++ hostSettings host n r)) := by
  obtain ⟨hsources, hhost⟩ := List.forall_mem_append.mp hunset
  obtain ⟨hheight, hfps, hbitrate⟩ := configParse_bitrate hparse hsources
  rw [main, hparse] at hrun
  obtain ⟨s, t, hstart, hfold, hend⟩ := startSession_numbers hrun
  have hheight' : t.config.stream.height = lastValue Setting.height s.config.stream.height _ :=
    field_lastValue (·.config.stream.height) _ (fun _ _ _ h => h.height) hfold
  have hfps' : t.config.stream.fps = lastValue Setting.fps s.config.stream.fps _ :=
    field_lastValue (·.config.stream.fps) _ (fun _ _ _ h => h.fps) hfold
  have hbitrate' : t.config.stream.bitrate = lastValue Setting.bitrate s.config.stream.bitrate _ :=
    field_lastValue (·.config.stream.bitrate) _ (fun _ _ _ h => h.bitrate) hfold
  rw [followsStream_iff, hend.height, hend.fps, hend.bitrate, hheight', hfps', hbitrate',
    hstart.height, hstart.fps, hstart.bitrate, hheight, hfps, hbitrate]
  rw [heightGiven, fpsGiven, heightGiven, fpsGiven, lastValue_append, lastValue_append]
  rcases lastValue_const hhost with ⟨hset, x, hx, hne⟩ | ⟨hkept, hnone⟩
  · rw [hset]
    constructor
    · intro h
      exact absurd h.symm (defaultBitrate_ne _ _)
    · rintro ⟨hnone, _⟩
      exact absurd (hnone x hx) hne
  · rw [hkept]
    exact (and_iff_right hnone).symm

/-- A host that can be streamed from. -/
def readyHost : Host :=
  ⟨fun _ => some .sdl, [], fun _ _ => (.ok, idleServer), fun _ _ => true, fun _ => 1,
    answering "gamesession", []⟩

def streamLine : List (List Char) := ["moonlight".toList, "stream".toList, "pc".toList]

/-- The numbers of the stream that is started when only the file of the host has options. -/
def startedWith (text : String) : Except Halt (Option (Int × Int × Int)) :=
  (main homeEnv readyHost (oneFile "hosts/pc.conf".toList text.toList) 1 streamLine
    zeroConfiguration).map
      (·.map fun c => (c.stream.height, c.stream.fps, c.stream.bitrate))

/-- A full HD stream of the file of the host gets the bitrate of a smaller one. -/
theorem late_height_ignored :
    startedWith "height = 1080\n" = .ok (some (1080, 60, 10000)) ∧
    sources homeEnv (oneFile "hosts/pc.conf".toList "height = 1080\n".toList) 1 streamLine =
      [.option '\x01' "stream".toList, .option '\x01' "pc".toList] ∧
    fileSettings (oneFile "hosts/pc.conf".toList "height = 1080\n".toList) 1
      "hosts/pc.conf".toList = [.option 'd' "1080".toList] := by
  refine ⟨?_, ?_, ?_⟩ <;> decide +kernel

/-- The file of a host that only names a width. -/
def widthFile : Files := oneFile "hosts/pc.conf".toList "width = 1024\n".toList

theorem default_bitrate_iff_width : ∃ r connection,
    configParse homeEnv widthFile 1 streamLine zeroConfiguration = .ok r ∧
    main homeEnv readyHost widthFile 1 streamLine zeroConfiguration = .ok (some connection) ∧
    hostSettings readyHost 1 r = [.option 'c' "1024".toList] ∧
    FollowsStream connection.stream := by
  have hparse : (configParse homeEnv widthFile 1 streamLine zeroConfiguration).map
      (hostSettings readyHost 1) = .ok [.option 'c' "1024".toList] := by decide +kernel
  have hmain : (main homeEnv readyHost widthFile 1 streamLine zeroConfiguration).map
      (·.isSome) = .ok true := by decide +kernel
  have hsources : sources homeEnv widthFile 1 streamLine =
      [.option '\x01' "stream".toList, .option '\x01' "pc".toList] := by decide +kernel
  obtain ⟨r, hr, hhost⟩ := map_eq_ok.mp hparse
  obtain ⟨started, hstarted, hsome⟩ := map_eq_ok.mp hmain
  obtain ⟨connection, rfl⟩ := Option.isSome_iff_exists.mp hsome
  have hunset : ∀ x ∈ sources homeEnv widthFile 1 streamLine ++ hostSettings readyHost 1 r,
      ∀ v, x.bitrate = some v → v = -1 := by
    rw [hsources, hhost]
    simp
  refine ⟨r, connection, hr, hstarted, hhost, ?_⟩
  refine (default_bitrate_iff hr hstarted hunset).mpr ?_
  rw [hsources, hhost]
  exact ⟨by simp, by decide⟩

end Moonlight
