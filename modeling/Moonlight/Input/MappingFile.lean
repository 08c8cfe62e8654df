import Moonlight.Lib.Fold
import Moonlight.Input.Mapping

/-! A saved mapping file loads back into the struct it was saved from. -/
namespace Moonlight

open Lib.Fold Lib.Stdio

variable {map map' : Mapping} {l : Loading} {e : Entry} {es : List Entry}

theorem word_key (e : Entry) : Word e.key := by
  cases e with
  | short f => cases f <;> decide
  | flag f => cases f <;> decide

theorem word_print : Word (e.print map) := by
  cases e with
  | short f => exact word_printDec
  | flag f =>
    rw [Entry.print]
    split <;> decide

theorem find_key (e : Entry) : loadOrder.find? (·.key == e.key) = some e := by
  cases e with
  | short f => cases f <;> decide
  | flag f => cases f <;> decide

theorem mem_saveOrder (e : Entry) : e ∈ saveOrder := by
  cases e with
  | short f => cases f <;> decide
  | flag f => cases f <;> decide

/-- Reading a printed member back stores the value it was printed from. -/
theorem assign_print : e.assign (e.print map) map' =
    match e with
    | .short f => { map' with short := Function.update map'.short f (map.short f) }
    | .flag f => { map' with flag := Function.update map'.flag f (map.flag f) } := by
  cases e with
  | short f =>
    have hlo := (map.short f).le_toInt
    have hhi := (map.short f).toInt_lt
    have h : strtol (printDec (map.short f).toInt) = (map.short f).toInt :=
      strtol_printDec (by unfold LONG_MIN; omega) (by unfold LONG_MAX; omega)
    simp [Entry.assign, Entry.print, h]
  | flag f => cases h : map.flag f <;> simp [Entry.assign, Entry.print, h]

/-- Every line of a saved mapping is recognised. -/
theorem loadLine_writeConfig :
    loadLine l (writeConfig map e ++ ['\n']) = { l with map := e.assign (e.print map) l.map } := by
  have hline : writeConfig map e ++ ['\n'] =
      e.key ++ ' ' :: '=' :: ' ' :: (e.print map ++ ['\n']) := by
    simp [writeConfig]
  rw [loadLine, hline, scanAssign_word (word_key e) word_print]
  simp [find_key]

theorem writeConfig_not_newline : '\n' ∉ writeConfig map e := by
  have hk := (word_key e).not_newline
  have hp := (show Word (e.print map) from word_print).not_newline
  simp [writeConfig, hk, hp]

/-- The struct left by loading some saved lines: saved members where a line named them,
the old ones elsewhere. -/
theorem foldl_loadLine :
    es.foldl (fun l e => loadLine l (writeConfig map e ++ ['\n'])) l =
      ⟨⟨fun f => if .short f ∈ es then map.short f else l.map.short f,
        fun f => if .flag f ∈ es then map.flag f else l.map.flag f⟩, l.unknown⟩ := by
  induction es generalizing l with
  | nil => rfl
  | cons e es ih =>
    rw [List.foldl_cons, loadLine_writeConfig, assign_print, ih]
    cases e with
    | short g =>
      simp only [List.mem_cons, reduceCtorEq, false_or, Entry.short.injEq]
      congr 2
      funext f
      by_cases hf : f = g
      · subst hf; simp
      · simp [hf]
    | flag g =>
      simp only [List.mem_cons, reduceCtorEq, false_or, Entry.flag.injEq]
      congr 2
      funext f
      by_cases hf : f = g
      · subst hf; simp
      · simp [hf]

/-- The lines of a saved mapping overwrite the whole struct. -/
theorem foldl_loadLine_saved :
    (getlines (mappingSave map)).foldl loadLine l = ⟨map, l.unknown⟩ := by
  have hsave : mappingSave map = (saveOrder.map (writeConfig map)).flatMap (· ++ ['\n']) := by
    simp [mappingSave, List.flatMap_map]
  have hnl : ∀ line ∈ saveOrder.map (writeConfig map), '\n' ∉ line := by
    intro line hline
    obtain ⟨e, _, rfl⟩ := List.mem_map.mp hline
    exact writeConfig_not_newline
  rw [hsave, getlines_flatten hnl, List.map_map, List.foldl_map]
  exact foldl_loadLine.trans (by simp [mem_saveOrder])

/-- Two mappings with the same file are the same. -/
theorem mappingSave_injective (h : mappingSave map = mappingSave map') : map = map' := by
  have hload : (getlines (mappingSave map)).foldl loadLine ⟨map, []⟩ = ⟨map, []⟩ :=
    foldl_loadLine_saved
  rw [h, foldl_loadLine_saved] at hload
  exact (congrArg Loading.map hload).symm

/-- A saved mapping loads back whole, whatever the struct held before. -/
theorem mappingLoad_mappingSave (map map' : Mapping) :
    mappingLoad (mappingSave map) map' = ⟨map, []⟩ :=
  foldl_loadLine_saved

/-- The value that a line gives to a member. -/
def Entry.valueOf (e : Entry) (line : List Char) : Option (List Char) :=
  (scanAssign scanWord line).bind fun assign => if assign.1 = e.key then some assign.2 else none

/-- The key of a line that names no member. -/
def unknownKey (line : List Char) : Option (List Char) :=
  (scanAssign scanWord line).bind fun assign =>
    if ∃ e ∈ saveOrder, e.key = assign.1 then none else some assign.1

theorem key_injective {e e' : Entry} (h : e.key = e'.key) : e = e' := by
  have hfound := find_key e
  rw [h, find_key] at hfound
  exact (Option.some.inj hfound).symm

/-- A line is no assignment, sets the one member it names, or is reported. -/
theorem loadLine_cases (l : Loading) (line : List Char) :
    (scanAssign scanWord line = none ∧ loadLine l line = l) ∨
    (∃ e : Entry, ∃ value, scanAssign scanWord line = some (e.key, value) ∧
      loadLine l line = { l with map := e.assign value l.map }) ∨
    ∃ key value, scanAssign scanWord line = some (key, value) ∧ (∀ e : Entry, key ≠ e.key) ∧
      loadLine l line = { l with unknown := l.unknown ++ [key] } := by
  unfold loadLine
  cases hscan : scanAssign scanWord line with
  | none => exact Or.inl ⟨rfl, rfl⟩
  | some assign =>
    obtain ⟨key, value⟩ := assign
    right
    dsimp only
    cases hfind : loadOrder.find? (·.key == key) with
    | some e =>
      obtain rfl : e.key = key := by simpa using List.find?_some hfind
      exact Or.inl ⟨e, value, rfl, rfl⟩
    | none =>
      refine Or.inr ⟨key, value, rfl, fun e he => ?_, rfl⟩
      rw [he, find_key] at hfind
      cases hfind

theorem loadLine_short (f : ShortField) (l : Loading) (line : List Char) :
    (loadLine l line).map.short f =
      (((Entry.short f).valueOf line).map fun value => Int16.ofInt (strtol value)).getD
        (l.map.short f) := by
  rw [Entry.valueOf]
  rcases loadLine_cases l line with ⟨hscan, hline⟩ | ⟨e, value, hscan, hline⟩ |
    ⟨key, value, hscan, hkey, hline⟩ <;> rw [hline, hscan]
  · rfl
  · rw [Option.bind_some]
    by_cases hkey : e.key = (Entry.short f).key
    · obtain rfl := key_injective hkey
      simp [Entry.assign]
    · rw [if_neg hkey]
      cases e with
      | short g => simp [Entry.assign, show f ≠ g by rintro rfl; exact hkey rfl]
      | flag g => rfl
  · rw [Option.bind_some, if_neg (hkey _)]
    rfl

theorem loadLine_flag (f : FlagField) (l : Loading) (line : List Char) :
    (loadLine l line).map.flag f =
      (((Entry.flag f).valueOf line).map fun value => value == "true".toList).getD
        (l.map.flag f) := by
  rw [Entry.valueOf]
  rcases loadLine_cases l line with ⟨hscan, hline⟩ | ⟨e, value, hscan, hline⟩ |
    ⟨key, value, hscan, hkey, hline⟩ <;> rw [hline, hscan]
  · rfl
  · rw [Option.bind_some]
    by_cases hkey : e.key = (Entry.flag f).key
    · obtain rfl := key_injective hkey
      simp [Entry.assign]
    · rw [if_neg hkey]
      cases e with
      | short g => rfl
      | flag g => simp [Entry.assign, show f ≠ g by rintro rfl; exact hkey rfl]
  · rw [Option.bind_some, if_neg (hkey _)]
    rfl

theorem loadLine_unknown (l : Loading) (line : List Char) :
    (loadLine l line).unknown = l.unknown ++ (unknownKey line).toList := by
  rw [unknownKey]
  rcases loadLine_cases l line with ⟨hscan, hline⟩ | ⟨e, value, hscan, hline⟩ |
    ⟨key, value, hscan, hkey, hline⟩ <;> rw [hline, hscan]
  · simp
  · rw [Option.bind_some, if_pos ⟨e, mem_saveOrder e, rfl⟩]
    simp
  · rw [Option.bind_some, if_neg fun ⟨e, _, he⟩ => hkey e he.symm]
    rfl

theorem foldl_unknown (lines : List (List Char)) (l : Loading) :
    (lines.foldl loadLine l).unknown = l.unknown ++ lines.filterMap unknownKey := by
  induction lines generalizing l with
  | nil => simp
  | cons line lines ih =>
    rw [List.foldl_cons, ih, loadLine_unknown]
    cases hkey : unknownKey line <;> simp [hkey]

/-- Loading any file whatsoever: each member is what the last line that names it says, or what it
was before, and the keys of the other lines are reported one by one. -/
theorem mappingLoad_last (file : List Char) (map : Mapping) :
    (∀ f, (mappingLoad file map).map.short f =
      lastValue (fun line => ((Entry.short f).valueOf line).map (Int16.ofInt ∘ strtol))
        (map.short f) (getlines file)) ∧
    (∀ f, (mappingLoad file map).map.flag f =
      lastValue (fun line => ((Entry.flag f).valueOf line).map (· == "true".toList))
        (map.flag f) (getlines file)) ∧
    (mappingLoad file map).unknown = (getlines file).filterMap unknownKey := by
  refine ⟨fun f => ?_, fun f => ?_, ?_⟩
  · exact foldl_lastValue (fun l : Loading => l.map.short f) (loadLine_short f) ⟨map, []⟩
  · exact foldl_lastValue (fun l : Loading => l.map.flag f) (loadLine_flag f) ⟨map, []⟩
  · rw [mappingLoad, foldl_unknown, List.nil_append]

end Moonlight
