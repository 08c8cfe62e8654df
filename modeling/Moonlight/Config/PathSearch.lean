import Moonlight.Lib.Memory
import Moonlight.Lib.PathName
import Moonlight.Lib.Machine
import Moonlight.Config.Environment

/-! `get_path` of `config.c` with the two blocks it allocates: the list of directories, and one
path that is written over again for every directory. -/
namespace Moonlight

open Lib.Machine Lib.Memory Lib.PathName

/-- `sprintf` of a text to place `i` of a block. It fails when it cannot return the length, and a
write past the end has no meaning. -/
def sprintfAt (block : Bytes) (i : Nat) (text : List Char) : Option Bytes := do
  let _ ← intExpr text.length
  writeBytes block i (terminated text)

variable (files : Files)

/-- The loop of `get_path` from `data_dir` on: the paths it probes, and the one it returns. -/
def searchLoop (name dataDir : List Char) (path : Bytes) :
    Option (List (List Char) × Option (List Char)) := do
  let dir := dataDir.takeWhile (· ≠ ':')
  let length ← intExpr dir.length
  let path ← writeBytes path 0 (dir.map some)
  let first ← path.head?.join
  let path ← sprintfAt path length.toNat
    (if first = '/' then "/moonlight/".toList ++ name else '/' :: name)
  let candidate ← readString path
  if files.readable candidate then return ([candidate], some candidate)
  else
    match _hnext : dataDir.dropWhile (· ≠ ':') with
    | [] => return ([candidate], none)
    | _ :: next => do
      let (probes, found) ← searchLoop name next path
      return (candidate :: probes, found)
termination_by dataDir.length
decreasing_by
  have hle := List.length_dropWhile_le (· ≠ ':') dataDir
  rw [_hnext, List.length_cons] at hle
  omega

/-- The text that `get_path` prints into `data_dirs`. -/
def dataDirsText (home : List Char) (xdgConfigDir : Option (List Char))
    (extraDataDirs : Option (List Char)) : List Char :=
  ".:".toList ++ xdgConfigDir.getD home ++ ':' :: home ++ "//.config:".toList ++
    extraDataDirs.getD "/usr/share:/usr/local/share".toList ++ ['/']

/-- The size that `get_path` allocates for it, operand by operand. -/
def dataDirsSize (home : List Char) (xdgConfigDir : Option (List Char))
    (extraDataDirs : Option (List Char)) : Nat :=
  1 + 1 + (xdgConfigDir.getD home).length + 1 + home.length + 1 + "/.config".length + 1 +
    (extraDataDirs.getD "/usr/share:/usr/local/share".toList).length + 2

/-- `get_path`: the paths it probes, and the one it returns. -/
def getPathBlocks (name : List Char) (home xdgConfigDir extraDataDirs : Option (List Char)) :
    Option (List (List Char) × Option (List Char)) :=
  if files.readable name then some ([name], some name)
  else do
    let home ← home
    let dataDirs := List.replicate (dataDirsSize home xdgConfigDir extraDataDirs) none
    let dataDirs ← sprintfAt dataDirs 0 (dataDirsText home xdgConfigDir extraDataDirs)
    let dirs ← readString dataDirs
    let path := List.replicate (dirs.length + "/moonlight".length + name.length + 2) none
    let (probes, found) ← searchLoop files name dirs path
    return (name :: probes, found)

/-- What the loop does directory by directory; `first` is the character the path begins with. -/
def searchDirs (name : List Char) :
    Char → List (List Char) → Option (List (List Char) × Option (List Char))
  | _, [] => some ([], none)
  | first, dir :: dirs => do
    let path := candidate name first dir
    let _ ← intExpr (path.length - dir.length)
    if files.readable path then return ([path], some path)
    else do
      let (probes, found) ← searchDirs name (path.headD first) dirs
      return (path :: probes, found)

variable {files} {name dataDir dir : List Char} {path : Bytes} {first : Char}
  {dirs : List (List Char)}

theorem candidate_eq_append :
    candidate name first dir = dir ++
      (if dir.headD first = '/' then "/moonlight/".toList ++ name else '/' :: name) := by
  unfold candidate
  split
  · rw [List.append_assoc]
  · rfl

theorem terminated_append (s t : List Char) :
    s.map some ++ terminated t = terminated (s ++ t) := by
  simp [terminated]

theorem candidate_headD : (candidate name first dir).headD first = dir.headD '/' := by
  rw [candidate_eq_append]
  cases dir with
  | nil => split <;> rfl
  | cons c dir => rfl

/-- `sprintf` completes the directory in the block to the candidate, or cannot return its
length. -/
theorem sprintfAt_candidate (name dir : List Char) (first : Char) (behind : Bytes)
    (hroom : name.length + 12 ≤ behind.length) :
    ∃ behind', sprintfAt (dir.map some ++ behind) dir.length
        (if dir.headD first = '/' then "/moonlight/".toList ++ name else '/' :: name) =
      (intExpr ((candidate name first dir).length - dir.length)).map fun _ =>
        terminated (candidate name first dir) ++ behind' := by
  rw [candidate_eq_append]
  have hshort : (if dir.headD first = '/' then "/moonlight/".toList ++ name
      else '/' :: name).length ≤ name.length + 11 := by
    split <;> simp
  generalize (if dir.headD first = '/' then "/moonlight/".toList ++ name
    else '/' :: name) = suffix at hshort ⊢
  have hlen : ((dir ++ suffix).length : Int) - dir.length = suffix.length := by
    simp
  have hwrite := writeBytes_behind (i := dir.length) (dir.map some) behind
    (terminated suffix) (by simp) (by simp [terminated]; omega)
  refine ⟨behind.drop (terminated suffix).length, ?_⟩
  rw [sprintfAt, hlen, hwrite, terminated_append]
  cases intExpr suffix.length <;> rfl

/-- The block after a turn: as long as before, and it begins with the candidate. -/
theorem searchLoop_turn (first : Char) (path : Bytes) (hname : '\x00' ∉ name) (hdir : '\x00' ∉ dir)
    (hroom : dir.length + name.length + 12 ≤ path.length)
    (hfirst : dir = [] → path.head? = some (some first)) :
    ∃ written, writeBytes path 0 (dir.map some) = some written ∧
      written.head?.join = some (dir.headD first) ∧
      (intExpr ((candidate name first dir).length - dir.length) = none →
        sprintfAt written dir.length (if dir.headD first = '/' then "/moonlight/".toList ++ name
          else '/' :: name) = none) ∧
      (∀ n, intExpr ((candidate name first dir).length - dir.length) = some n →
        ∃ path', sprintfAt written dir.length
            (if dir.headD first = '/' then "/moonlight/".toList ++ name
              else '/' :: name) = some path' ∧
          path'.length = path.length ∧ readString path' = some (candidate name first dir) ∧
          path'.head? = some (some (dir.headD '/'))) := by
  have hwritten := writeBytes_start path (dir.map some) (by simp; omega)
  obtain ⟨behind', hprint⟩ := sprintfAt_candidate name dir first
    (path.drop (dir.map some).length) (by simp; omega)
  refine ⟨_, hwritten, ?_, fun hnone => by rw [hprint, hnone]; rfl, fun n hn => ?_⟩
  · cases dir with
    | nil => simp [hfirst rfl]
    | cons c dir => rfl
  · rw [hn, Option.map_some] at hprint
    refine ⟨_, hprint, ?_, ?_, ?_⟩
    · have hsame : ∀ {i text b'}, sprintfAt (dir.map some ++ path.drop (dir.map some).length) i
          text = some b' → b'.length = path.length := by
        intro i text b' h
        unfold sprintfAt at h
        obtain ⟨_, _, h⟩ := Option.bind_eq_some_iff.mp h
        exact (length_writeBytes h).trans (length_writeBytes hwritten)
      exact hsame hprint
    · refine readString_behind _ ?_ behind'
      rw [candidate_eq_append, List.mem_append, not_or]
      refine ⟨hdir, ?_⟩
      split <;> simp [hname]
    · rw [candidate_eq_append]
      cases dir with
      | nil => split <;> rfl
      | cons c dir => rfl

/-- The loop over the text is the one over its directories. -/
theorem searchLoop_eq (hname : '\x00' ∉ name) (hdata : '\x00' ∉ dataDir)
    (hint : dataDir.length ≤ 2147483647)
    (hroom : dataDir.length + name.length + 12 ≤ path.length)
    (hfirst : dataDir.takeWhile (· ≠ ':') = [] → path.head? = some (some first)) :
    searchLoop files name dataDir path = searchDirs files name first (dataDir.splitOn ':') := by
  induction hn : dataDir.length using Nat.strong_induction_on generalizing dataDir path first with
  | _ n ih =>
    have hsplit := splitOn_cursor ':' dataDir
    have hlen := congrArg List.length (List.takeWhile_append_dropWhile (p := (· ≠ ':'))
      (l := dataDir))
    rw [List.length_append] at hlen
    have hdir : '\x00' ∉ dataDir.takeWhile (· ≠ ':') := fun h =>
      hdata (List.takeWhile_subset _ h)
    obtain ⟨written, hwrite, hhead, hnone, hsome⟩ := searchLoop_turn first path hname hdir
      (by omega) hfirst
    have hlength : intExpr ((dataDir.takeWhile (· ≠ ':')).length : Int) =
        some ((dataDir.takeWhile (· ≠ ':')).length : Int) := intExpr_eq (by omega) (by omega)
    rw [hsplit, searchLoop, searchDirs]
    simp only [hlength, hwrite, hhead, Option.bind_eq_bind, Option.bind_some, Int.toNat_natCast]
    cases hcount : intExpr ((candidate name first (dataDir.takeWhile (· ≠ ':'))).length -
        (dataDir.takeWhile (· ≠ ':')).length) with
    | none =>
      rw [hnone hcount]
      rfl
    | some count =>
      obtain ⟨path', hprint, hsize, hread, hnext⟩ := hsome count hcount
      rw [hprint, Option.bind_some, Option.bind_some, hread, Option.bind_some]
      split
      · rfl
      · split
        · next hend =>
          rw [hend]
          rfl
        · next next hrest =>
          have hbehind := congrArg List.length hrest
          rw [List.length_cons] at hbehind
          have hdata' : '\x00' ∉ next := fun h =>
            hdata (List.dropWhile_subset _ (hrest ▸ List.mem_cons_of_mem _ h))
          rw [hrest, candidate_headD, ih next.length (by omega) hdata' (by omega) (by omega)
            (fun _ => hnext) rfl]

/-- The candidates for some directories, when the path begins with `first`. -/
def candidates (name : List Char) : Char → List (List Char) → List (List Char)
  | _, [] => []
  | first, dir :: dirs => candidate name first dir :: candidates name (dir.headD '/') dirs

/-- Every `sprintf` of a candidate can return its length. -/
def Prints (name : List Char) : Char → List (List Char) → Prop
  | _, [] => True
  | first, dir :: dirs => (candidate name first dir).length ≤ dir.length + 2147483647 ∧
      Prints name (dir.headD '/') dirs

/-- The paths up to the first readable one. -/
def probed (readable : List Char → Bool) (paths : List (List Char)) : List (List Char) :=
  paths.takeWhile (!readable ·) ++ (paths.find? readable).toList

theorem probed_cons_readable {readable : List Char → Bool} {p : List Char}
    {paths : List (List Char)} (h : readable p = true) : probed readable (p :: paths) = [p] := by
  simp [probed, h]

theorem probed_cons_unreadable {readable : List Char → Bool} {p : List Char}
    {paths : List (List Char)} (h : readable p = false) :
    probed readable (p :: paths) = p :: probed readable paths := by
  simp [probed, h]

theorem probed_unreadable {readable : List Char → Bool} (h : ∀ p, readable p = false)
    (paths : List (List Char)) : probed readable paths = paths := by
  induction paths with
  | nil => rfl
  | cons p paths ih => rw [probed_cons_unreadable (h p), ih]

theorem intExpr_suffix :
    intExpr ((candidate name first dir).length - dir.length) = none ↔
      ¬ (candidate name first dir).length ≤ dir.length + 2147483647 := by
  have hle : dir.length ≤ (candidate name first dir).length := by
    rw [candidate_eq_append, List.length_append]
    omega
  unfold intExpr
  split
  · next hfits =>
    simp only [reduceCtorEq, false_iff, not_not]
    omega
  · next hfits =>
    simp only [true_iff]
    omega

/-- The loop probes the candidates up to the first readable one. -/
theorem searchDirs_of_prints (h : Prints name first dirs) :
    searchDirs files name first dirs = some
      (probed files.readable (candidates name first dirs),
        (candidates name first dirs).find? files.readable) := by
  induction dirs generalizing first with
  | nil => rfl
  | cons dir dirs ih =>
    obtain ⟨hfits, hrest⟩ := h
    obtain ⟨n, hn⟩ := Option.ne_none_iff_exists'.mp
      (fun hnone => intExpr_suffix.mp hnone hfits)
    rw [searchDirs, candidates]
    simp only [hn, Option.bind_eq_bind, Option.bind_some, candidate_headD, ih hrest]
    cases hread : files.readable (candidate name first dir) with
    | true => simp [probed_cons_readable hread, hread]
    | false => simp [probed_cons_unreadable hread, hread]

/-- Where no candidate is readable, the loop comes to the one it cannot print. -/
theorem searchDirs_eq_none (hunreadable : ∀ p, files.readable p = false)
    (h : ¬ Prints name first dirs) : searchDirs files name first dirs = none := by
  induction dirs generalizing first with
  | nil => exact absurd trivial h
  | cons dir dirs ih =>
    rw [searchDirs]
    simp only [candidate_headD, hunreadable]
    by_cases hfits : (candidate name first dir).length ≤ dir.length + 2147483647
    · rw [ih fun hrest => h ⟨hfits, hrest⟩]
      cases intExpr ((candidate name first dir).length - dir.length) <;> rfl
    · rw [intExpr_suffix.mpr hfits]
      rfl

theorem nul_not_mem_dataDirsText (home : CString) (xdgConfigDir extraDataDirs : Option CString) :
    '\x00' ∉ dataDirsText home (xdgConfigDir.map (·.val)) (extraDataDirs.map (·.val)) := by
  have hgetD : ∀ (o : Option CString) (d : List Char), '\x00' ∉ d →
      '\x00' ∉ (o.map (·.val)).getD d := by
    intro o d hd
    cases o with
    | none => exact hd
    | some s => exact s.property
  have hxdg := hgetD xdgConfigDir home home.property
  have hextra := hgetD extraDataDirs "/usr/share:/usr/local/share".toList (by decide)
  unfold dataDirsText
  simp only [List.mem_append, List.mem_cons, not_or]
  exact ⟨⟨⟨⟨⟨by decide, hxdg⟩, by decide, home.property⟩, by decide⟩, hextra⟩, by decide, by simp⟩

/-- The list fits its block to the byte. -/
theorem dataDirsSize_eq (home : List Char) (xdgConfigDir extraDataDirs : Option (List Char)) :
    dataDirsSize home xdgConfigDir extraDataDirs =
      (dataDirsText home xdgConfigDir extraDataDirs).length + 1 := by
  have hconfig : "/.config".length = 8 := by decide
  unfold dataDirsSize dataDirsText
  simp
  omega

/-- Printing the list into its block, and reading it there. -/
theorem sprintfAt_dataDirs {text : List Char} (hnul : '\x00' ∉ text) :
    (sprintfAt (List.replicate (text.length + 1) none) 0 text).bind readString =
      if text.length ≤ 2147483647 then some text else none := by
  have hwrite := writeBytes_start (List.replicate (text.length + 1) none)
    (terminated text) (by simp [terminated])
  rw [sprintfAt, hwrite]
  split
  · next hint =>
    have hlength : intExpr (text.length : Int) = some (text.length : Int) :=
      intExpr_eq (by omega) (by omega)
    rw [hlength, Option.bind_eq_bind, Option.bind_some, Option.bind_some,
      readString_behind text hnul]
  · next hint =>
    have hlength : intExpr (text.length : Int) = none := if_neg (by omega)
    rw [hlength, Option.bind_eq_bind, Option.bind_none, Option.bind_none]

theorem searchLoop_dataDirs (files : Files) (name : CString) {text : List Char}
    (hnul : '\x00' ∉ text) (hint : text.length ≤ 2147483647)
    (hhead : text.takeWhile (· ≠ ':') ≠ []) :
    searchLoop files name text
        (List.replicate (text.length + "/moonlight".length + name.val.length + 2) none) =
      searchDirs files name '\x00' (text.splitOn ':') := by
  have hmoonlight : "/moonlight".length = 10 := by decide
  refine searchLoop_eq name.property hnul hint ?_ fun h => absurd h hhead
  rw [List.length_replicate]
  omega

/-- `get_path` probes the name, then one candidate for each directory. -/
theorem getPathBlocks_eq (files : Files) (name home : CString)
    (xdgConfigDir extraDataDirs : Option CString) (text : List Char)
    (htext : text = dataDirsText home (xdgConfigDir.map (·.val)) (extraDataDirs.map (·.val))) :
    getPathBlocks files name (some home) (xdgConfigDir.map (·.val))
        (extraDataDirs.map (·.val)) =
      if files.readable name then some ([name.val], some name.val)
      else if text.length ≤ 2147483647 then
        (searchDirs files name '\x00' (text.splitOn ':')).map fun r => (name.val :: r.1, r.2)
      else none := by
  have hnul := nul_not_mem_dataDirsText home xdgConfigDir extraDataDirs
  have hsize := dataDirsSize_eq home (xdgConfigDir.map (·.val)) (extraDataDirs.map (·.val))
  have hhead : text.takeWhile (· ≠ ':') ≠ [] := by
    rw [htext]
    simp [dataDirsText]
  rw [← htext] at hnul hsize
  have hprint := sprintfAt_dataDirs hnul
  unfold getPathBlocks
  split
  · rfl
  · rw [Option.bind_eq_bind, Option.bind_some, ← htext, hsize]
    simp only [Option.bind_eq_bind]
    rw [← Option.bind_assoc, hprint]
    by_cases hint : text.length ≤ 2147483647
    · rw [if_pos hint, if_pos hint, Option.bind_some,
        searchLoop_dataDirs files name hnul hint hhead]
      cases searchDirs files name '\x00' (text.splitOn ':') with
      | none => rw [Option.bind_none, Option.map_none]
      | some r => rw [Option.bind_some, Option.map_some, Option.pure_def]
    · rw [if_neg hint, if_neg hint, Option.bind_none]

theorem searchPath_of_searchDirs {probes : List (List Char)} {found : Option (List Char)}
    (h : searchDirs files name first dirs = some (probes, found)) :
    searchPath files name first dirs = found := by
  induction dirs generalizing first probes with
  | nil =>
    cases h
    rfl
  | cons dir dirs ih =>
    obtain ⟨_, _, h⟩ := Option.bind_eq_some_iff.mp h
    rw [searchPath]
    split at h
    · next hread =>
      cases h
      rw [if_pos hread]
    · next hread =>
      obtain ⟨⟨later, result⟩, hlater, h⟩ := Option.bind_eq_some_iff.mp h
      cases h
      rw [if_neg hread]
      exact ih hlater

/-- What `get_path` returns with its blocks is what it returns without them. -/
theorem getPath_of_blocks {env : Env} {name home : CString}
    {xdgConfigDir extraDataDirs : Option CString} {probes : List (List Char)}
    {found : Option (List Char)} (hhome : env.home = some home.val)
    (hxdg : env.xdgConfigDir = xdgConfigDir.map (·.val))
    (h : getPathBlocks files name (some home) (xdgConfigDir.map (·.val))
      (extraDataDirs.map (·.val)) = some (probes, found)) :
    getPath env files name (extraDataDirs.map (·.val)) = .ok found := by
  rw [getPathBlocks_eq files name home xdgConfigDir extraDataDirs _ rfl] at h
  rw [getPath, hhome, hxdg]
  split at h
  · next hread =>
    cases h
    rw [if_pos hread]
  · next hread =>
    rw [if_neg hread]
    split at h
    · obtain ⟨⟨later, result⟩, hlater, h⟩ := Option.map_eq_some_iff.mp h
      cases h
      exact congrArg Except.ok (searchPath_of_searchDirs hlater)
    · cases h

end Moonlight
