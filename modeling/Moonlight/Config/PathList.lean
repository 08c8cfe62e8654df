import Mathlib.Data.List.Forall2
import Mathlib.Data.List.Induction
import Moonlight.Config.PathSearch

/-! Which list of directories `get_path` searches. An empty directory leaves the path as it is, so
that the directory before it decides where the code looks; the last one gets a slash. -/
namespace Moonlight

open Lib.Memory Lib.PathName

variable {files : Files} {name dir : List Char} {first : Char} {dirs docs : List (List Char)}

/-- The directories to search: the current one, `XDG_CONFIG_DIR` or `HOME`, the directory for
configurations in `HOME`, and the extra ones. -/
def documentedDirs (home : List Char) (xdgConfigDir extraDataDirs : Option (List Char)) :
    List (List Char) :=
  (".:".toList ++ xdgConfigDir.getD home ++ ':' :: home ++ "/.config:".toList ++
    extraDataDirs.getD "/usr/share:/usr/local/share".toList).splitOn ':'

/-- The path to probe in a directory, which that directory alone decides. -/
def documentedPath (name dir : List Char) : List Char :=
  if dir.head? = some '/' then dir ++ "/moonlight/".toList ++ name else dir ++ '/' :: name

/-- Every empty directory comes directly behind one that is neither empty nor absolute, and is not
the last one. -/
def EmptyAfterRelative (dirs : List (List Char)) : Prop :=
  ∀ pre post, dirs = pre ++ [] :: post → post ≠ [] ∧
    ∃ front dir, pre = front ++ [dir] ∧ dir ≠ [] ∧ dir.head? ≠ some '/'

/-- An empty directory finds no slash at the front of the path. -/
def Fresh : Char → List (List Char) → Prop
  | _, [] => True
  | first, dir :: dirs => (dir = [] → first ≠ '/') ∧ Fresh (dir.headD '/') dirs

/-- Two spellings of one directory. -/
structure Respelled (dir doc : List Char) : Prop where
  head : ∀ first, dir.headD first = doc.headD first
  squeezed : ∀ t, squeeze (dir ++ '/' :: t) = squeeze (doc ++ '/' :: t)

theorem Respelled.refl (dir : List Char) : Respelled dir dir := ⟨fun _ => rfl, fun _ => rfl⟩

theorem respelled_config (dir : List Char) :
    Respelled (dir ++ "//.config".toList) (dir ++ "/.config".toList) where
  head first := by cases dir <;> rfl
  squeezed t := by
    have h := squeeze_slashes dir (".config".toList ++ '/' :: t)
    simpa using h

theorem respelled_slash (h : dir ≠ []) : Respelled (dir ++ ['/']) dir where
  head first := by
    cases dir with
    | nil => exact absurd rfl h
    | cons c dir => rfl
  squeezed t := by
    have h := squeeze_slashes dir t
    simpa using h

theorem Respelled.candidate {doc : List Char} (h : Respelled dir doc) (name : List Char)
    (first : Char) :
    squeeze (candidate name first dir) = squeeze (candidate name first doc) ∧
      ∀ n, (candidate name first dir).length ≤ dir.length + n ↔
        (candidate name first doc).length ≤ doc.length + n := by
  rw [candidate_eq_append, candidate_eq_append, h.head first]
  split
  · exact ⟨h.squeezed _, fun n => by simp⟩
  · exact ⟨h.squeezed _, fun n => by simp⟩

/-- Other spellings change neither the names of the candidates nor whether they are printed. -/
theorem candidates_respelled (name : List Char) (first : Char)
    (h : List.Forall₂ Respelled dirs docs) :
    (candidates name first dirs).map squeeze = (candidates name first docs).map squeeze ∧
      (Prints name first dirs ↔ Prints name first docs) := by
  induction h generalizing first with
  | nil => exact ⟨rfl, Iff.rfl⟩
  | cons hdir _ ih =>
    obtain ⟨hnames, hprints⟩ := ih (List.headD _ '/')
    obtain ⟨hname, hlength⟩ := hdir.candidate name first
    constructor
    · rw [candidates, candidates, List.map_cons, List.map_cons, hname, hnames, hdir.head '/']
    · rw [Prints, Prints, hprints, hdir.head '/', hlength]

/-- What is found in fresh directories is what they alone decide. -/
theorem candidates_fresh (name : List Char) (h : Fresh first docs) :
    candidates name first docs = docs.map (documentedPath name) := by
  induction docs generalizing first with
  | nil => rfl
  | cons dir docs ih =>
    obtain ⟨hempty, hrest⟩ := h
    rw [candidates, List.map_cons, ih hrest]
    congr 1
    cases dir with
    | nil =>
      rw [candidate, documentedPath, List.headD_nil, if_neg (hempty rfl), if_neg (by simp)]
    | cons c dir =>
      rw [candidate, documentedPath, List.headD_cons, List.head?_cons]
      by_cases hslash : c = '/'
      · rw [if_pos hslash, if_pos (congrArg some hslash)]
      · rw [if_neg hslash, if_neg fun h => hslash (Option.some.inj h)]

/-- An empty directory that finds a slash is searched under another name. -/
theorem squeeze_stale (name : List Char) :
    squeeze ("/moonlight/".toList ++ name) ≠ squeeze ('/' :: name) := by
  intro h
  have hlen := congrArg List.length h
  have hlong : squeeze ("/moonlight/".toList ++ name) =
      '/' :: ("moonlight".toList ++ squeeze ('/' :: name)) := by
    rw [← squeeze_append_of_not_mem (by decide)]
    refine squeeze_slash_cons (s := "moonlight".toList ++ '/' :: name) ?_
    show some 'm' ≠ some '/'
    decide
  rw [hlong, List.length_cons, List.length_append] at hlen
  omega

theorem fresh_of_candidates
    (h : (candidates name first docs).map squeeze =
      (docs.map (documentedPath name)).map squeeze) : Fresh first docs := by
  induction docs generalizing first with
  | nil => trivial
  | cons dir docs ih =>
    rw [candidates, List.map_cons, List.map_cons, List.map_cons] at h
    obtain ⟨hname, hrest⟩ := List.cons.inj h
    refine ⟨?_, ih hrest⟩
    rintro rfl rfl
    exact squeeze_stale name hname

theorem fresh_iff : Fresh first docs ↔ ∀ pre post, docs = pre ++ [] :: post →
    (pre.getLast?.map (·.headD '/')).getD first ≠ '/' := by
  induction docs generalizing first with
  | nil => simp [Fresh]
  | cons dir docs ih =>
    rw [Fresh, ih]
    constructor
    · rintro ⟨hempty, hrest⟩ pre post hsplit
      cases pre with
      | nil => exact hempty (List.cons.inj hsplit).1
      | cons d pre =>
        obtain ⟨rfl, hdocs⟩ := List.cons.inj hsplit
        have h := hrest pre post hdocs
        cases pre with
        | nil => exact h
        | cons e pre =>
          rw [List.getLast?_cons] at h
          rw [List.getLast?_cons_cons, List.getLast?_cons]
          exact h
    · intro h
      refine ⟨fun hempty => h [] docs (by rw [hempty]; rfl), fun pre post hdocs => ?_⟩
      have hlast := h (dir :: pre) post (by rw [hdocs]; rfl)
      cases pre with
      | nil => exact hlast
      | cons e pre =>
        rw [List.getLast?_cons_cons, List.getLast?_cons] at hlast
        rw [List.getLast?_cons]
        exact hlast

/-- The directories of the code and the documented ones: the same but for two spellings, and the
last one has a slash behind it. -/
theorem dirs_respelled (home : List Char) (xdgConfigDir extraDataDirs : Option (List Char)) :
    ∃ dirs docs last,
      (dataDirsText home xdgConfigDir extraDataDirs).splitOn ':' = dirs ++ [last ++ ['/']] ∧
      documentedDirs home xdgConfigDir extraDataDirs = docs ++ [last] ∧
      List.Forall₂ Respelled dirs docs ∧ docs.head? = some ['.'] := by
  obtain ⟨hfront, hlast, _, hhome⟩ := splitOn_behind ':' home
  obtain ⟨efront, elast, hextra, hextra'⟩ := splitOn_behind ':'
    (extraDataDirs.getD "/usr/share:/usr/local/share".toList)
  have hcode := hhome "//.config".toList (by decide)
  have hdoc := hhome "/.config".toList (by decide)
  have hslash := hextra' ['/'] (by decide)
  have hdot : ['.'].splitOn ':' = [['.']] := List.splitOn_eq_singleton (by decide)
  set x := xdgConfigDir.getD home
  refine ⟨[['.']] ++ x.splitOn ':' ++ hfront ++ [hlast ++ "//.config".toList] ++ efront,
    [['.']] ++ x.splitOn ':' ++ hfront ++ [hlast ++ "/.config".toList] ++ efront, elast, ?_, ?_, ?_,
    rfl⟩
  · have htext : dataDirsText home xdgConfigDir extraDataDirs =
        ['.'] ++ ':' :: (x ++ ':' :: ((home ++ "//.config".toList) ++ ':' ::
          (extraDataDirs.getD "/usr/share:/usr/local/share".toList ++ ['/']))) := by
      simp [dataDirsText, x]
    rw [htext, List.splitOn_append_cons_self, List.splitOn_append_cons_self,
      List.splitOn_append_cons_self, hcode, hslash, hdot]
    simp
  · have htext : ".:".toList ++ x ++ ':' :: home ++ "/.config:".toList ++
        extraDataDirs.getD "/usr/share:/usr/local/share".toList =
        ['.'] ++ ':' :: (x ++ ':' :: ((home ++ "/.config".toList) ++ ':' ::
          extraDataDirs.getD "/usr/share:/usr/local/share".toList)) := by
      simp
    rw [documentedDirs, htext, List.splitOn_append_cons_self, List.splitOn_append_cons_self,
      List.splitOn_append_cons_self, hdoc, hextra, hdot]
    simp
  · have hrefl (l : List (List Char)) : List.Forall₂ Respelled l l :=
      List.forall₂_same.mpr fun d _ => Respelled.refl d
    refine List.rel_append (List.rel_append (hrefl _) ?_) (hrefl _)
    exact .cons (respelled_config hlast) .nil

theorem emptyAfterRelative_iff {last : List Char} (hhead : docs.head? = some ['.']) :
    EmptyAfterRelative (docs ++ [last]) ↔ Fresh '\x00' (docs ++ [last]) ∧ last ≠ [] := by
  rw [fresh_iff]
  constructor
  · intro h
    refine ⟨fun pre post hsplit => ?_, ?_⟩
    · obtain ⟨_, front, dir, rfl, hne, hrel⟩ := h pre post hsplit
      cases dir with
      | nil => exact absurd rfl hne
      | cons c dir => simpa using hrel
    · rintro rfl
      exact (h docs [] rfl).1 rfl
  · rintro ⟨hfresh, hlast⟩ pre post hsplit
    constructor
    · rintro rfl
      have hend := congrArg List.getLast? hsplit
      rw [List.getLast?_concat, List.getLast?_concat] at hend
      exact hlast (Option.some.inj hend)
    · cases pre using List.reverseRecOn with
      | nil =>
        have hstart := congrArg List.head? hsplit
        rw [List.head?_append, hhead] at hstart
        cases hstart
      | append_singleton front dir =>
        have hslash := hfresh (front ++ [dir]) post hsplit
        rw [List.getLast?_concat] at hslash
        cases dir with
        | nil => exact absurd rfl hslash
        | cons c dir =>
          exact ⟨front, c :: dir, rfl, List.cons_ne_nil c dir, by simpa using hslash⟩

theorem candidates_concat (name : List Char) (first : Char) (dirs : List (List Char))
    (dir : List Char) : ∃ first', candidates name first (dirs ++ [dir]) =
      candidates name first dirs ++ [candidate name first' dir] := by
  induction dirs generalizing first with
  | nil => exact ⟨first, rfl⟩
  | cons d dirs ih =>
    obtain ⟨first', h⟩ := ih (d.headD '/')
    exact ⟨first', by rw [List.cons_append, candidates, h, candidates, List.cons_append]⟩

/-- The slash behind the last directory makes an empty one absolute. -/
theorem candidates_last_empty (name : List Char) (first : Char) :
    (candidates name first (dirs ++ [['/']])).map squeeze ≠
      ((docs ++ [[]]).map (documentedPath name)).map squeeze := by
  intro h
  obtain ⟨first', hlast⟩ := candidates_concat name first dirs ['/']
  rw [hlast, List.map_append, List.map_append, List.map_append] at h
  have hend := congrArg List.getLast? h
  rw [List.map_singleton, List.map_singleton, List.map_singleton, List.getLast?_concat,
    List.getLast?_concat] at hend
  have hslashes : squeeze (candidate name first' ['/']) = squeeze ("/moonlight/".toList ++ name) :=
    squeeze_slashes [] ("moonlight/".toList ++ name)
  rw [Option.some.injEq, hslashes] at hend
  exact squeeze_stale name hend

/-- The candidates are the documented ones exactly if every empty directory is harmless, and then
the same lengths are printed. -/
theorem candidates_documented (name last : List Char) (hrel : List.Forall₂ Respelled dirs docs)
    (hhead : docs.head? = some ['.']) :
    ((candidates name '\x00' (dirs ++ [last ++ ['/']])).map squeeze =
      ((docs ++ [last]).map (documentedPath name)).map squeeze ↔
        EmptyAfterRelative (docs ++ [last])) ∧
    (EmptyAfterRelative (docs ++ [last]) →
      (Prints name '\x00' (dirs ++ [last ++ ['/']]) ↔
        Prints name '\x00' (docs ++ [last]))) := by
  rw [emptyAfterRelative_iff hhead]
  by_cases hlast : last = []
  · subst hlast
    refine ⟨iff_of_false (candidates_last_empty name '\x00') fun h => h.2 rfl, fun h => ?_⟩
    exact absurd rfl h.2
  · have hall : List.Forall₂ Respelled (dirs ++ [last ++ ['/']]) (docs ++ [last]) :=
      List.rel_append hrel (.cons (respelled_slash hlast) .nil)
    obtain ⟨hnames, hprints⟩ := candidates_respelled name '\x00' hall
    refine ⟨?_, fun _ => hprints⟩
    rw [hnames]
    exact ⟨fun h => ⟨fresh_of_candidates h, hlast⟩, fun h => by rw [candidates_fresh name h.1]⟩

theorem prints_fresh (h : Fresh first docs) :
    Prints name first docs ↔
      ∀ dir ∈ docs, (documentedPath name dir).length ≤ dir.length + 2147483647 := by
  have hpaths := candidates_fresh name h
  induction docs generalizing first with
  | nil => simp [Prints]
  | cons dir docs ih =>
    rw [candidates, List.map_cons] at hpaths
    obtain ⟨hpath, hrest⟩ := List.cons.inj hpaths
    rw [Prints, hpath, List.forall_mem_cons]
    exact and_congr_right fun _ => ih h.2 hrest

/-- `get_path` searches the documented list: the name, then one path for each directory, which
are the documented ones as path names; it probes them up to the first readable one and returns
that, and no write leaves a block. -/
def SearchesList (name home : CString) (xdgConfigDir extraDataDirs : Option CString) : Prop :=
  ∃ paths : List (List Char),
    paths.map squeeze = ((documentedDirs home (xdgConfigDir.map (·.val))
      (extraDataDirs.map (·.val))).map (documentedPath name)).map squeeze ∧
    ∀ files, getPathBlocks files name (some home) (xdgConfigDir.map (·.val))
        (extraDataDirs.map (·.val)) =
      some (probed files.readable (name.val :: paths), (name.val :: paths).find? files.readable)

/-- What the search needs: harmless empty directories, and texts whose length is an `int`. -/
structure Searchable (name home : CString) (xdgConfigDir extraDataDirs : Option CString) :
    Prop where
  empties : EmptyAfterRelative (documentedDirs home (xdgConfigDir.map (·.val))
    (extraDataDirs.map (·.val)))
  list_le : (dataDirsText home (xdgConfigDir.map (·.val))
    (extraDataDirs.map (·.val))).length ≤ 2147483647
  paths_le : ∀ dir ∈ documentedDirs home (xdgConfigDir.map (·.val)) (extraDataDirs.map (·.val)),
    (documentedPath name dir).length ≤ dir.length + 2147483647

/-- No file is there. -/
def noFiles : Files := ⟨fun _ => none, fun _ => false, fun _ => false⟩

/-- The search is the documented one exactly if its candidates are and all texts are printed. -/
theorem searchesList_candidates (name home : CString)
    (xdgConfigDir extraDataDirs : Option CString) (text : List Char)
    (htext : text = dataDirsText home (xdgConfigDir.map (·.val)) (extraDataDirs.map (·.val))) :
    SearchesList name home xdgConfigDir extraDataDirs ↔
      text.length ≤ 2147483647 ∧ Prints name '\x00' (text.splitOn ':') ∧
      (candidates name '\x00' (text.splitOn ':')).map squeeze =
        ((documentedDirs home (xdgConfigDir.map (·.val))
          (extraDataDirs.map (·.val))).map (documentedPath name)).map squeeze := by
  have hblocks (files : Files) :=
    getPathBlocks_eq files name home xdgConfigDir extraDataDirs text htext
  constructor
  · rintro ⟨paths, hpaths, hrun⟩
    have hrun := hrun noFiles
    have hno : ∀ p, noFiles.readable p = false := fun _ => rfl
    rw [hblocks noFiles, hno, if_neg Bool.false_ne_true] at hrun
    by_cases hint : text.length ≤ 2147483647
    · rw [if_pos hint] at hrun
      by_cases hprints : Prints name '\x00' (text.splitOn ':')
      · rw [searchDirs_of_prints hprints] at hrun
        have hprobed := congrArg Prod.fst (Option.some.inj hrun)
        dsimp only at hprobed
        rw [probed_unreadable hno, probed_unreadable hno] at hprobed
        rw [(List.cons.inj hprobed).2]
        exact ⟨hint, hprints, hpaths⟩
      · rw [searchDirs_eq_none hno hprints] at hrun
        cases hrun
    · rw [if_neg hint] at hrun
      cases hrun
  · rintro ⟨hint, hprints, hnames⟩
    refine ⟨_, hnames, fun files => ?_⟩
    rw [hblocks files, if_pos hint, searchDirs_of_prints hprints]
    cases hread : files.readable name with
    | true => simp [probed_cons_readable hread, hread]
    | false => simp [probed_cons_unreadable hread, hread]

/-- `get_path` searches the documented list exactly if that is searchable. -/
theorem get_path_searches_iff (name home : CString)
    (xdgConfigDir extraDataDirs : Option CString) :
    SearchesList name home xdgConfigDir extraDataDirs ↔
      Searchable name home xdgConfigDir extraDataDirs := by
  obtain ⟨dirs, docs, last, hcode, hdoc, hrel, hhead⟩ := dirs_respelled home
    (xdgConfigDir.map (·.val)) (extraDataDirs.map (·.val))
  obtain ⟨hnames, hprints⟩ := candidates_documented name last hrel hhead
  rw [searchesList_candidates name home xdgConfigDir extraDataDirs _ rfl, hcode, hdoc, hnames]
  constructor
  · rintro ⟨hint, hcount, hempties⟩
    have hfresh := ((emptyAfterRelative_iff hhead).mp hempties).1
    refine ⟨hdoc ▸ hempties, hint, ?_⟩
    rw [hdoc]
    exact (prints_fresh hfresh).mp ((hprints hempties).mp hcount)
  · rintro ⟨hempties, hint, hpaths⟩
    rw [hdoc] at hempties hpaths
    have hfresh := ((emptyAfterRelative_iff hhead).mp hempties).1
    exact ⟨hint, (hprints hempties).mpr ((prints_fresh hfresh).mpr hpaths), hempties⟩

/-- In `/usr/share::/usr/local/share`, the empty directory is searched as `/moonlight`. -/
theorem stale_slash_decides :
    ¬ SearchesList ⟨"mappings/default.conf".toList, by decide⟩ ⟨"/root".toList, by decide⟩ none
      (some ⟨"/usr/share::/usr/local/share".toList, by decide⟩) := by
  intro h
  obtain ⟨_, _, hnames⟩ := (searchesList_candidates _ _ _ _ _ rfl).mp h
  revert hnames
  decide +kernel

end Moonlight
