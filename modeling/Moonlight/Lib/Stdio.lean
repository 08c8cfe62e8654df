import Mathlib.Data.List.TakeWhile
import Mathlib.Order.Defs.LinearOrder
import Mathlib.Algebra.Order.Ring.Int

/-! The C text primitives on files and strings held as lists of bytes, one `Char` a byte:
`getline`, word scanning with `sscanf`, `strtol` and decimal `fprintf`. -/
namespace Lib.Stdio

variable {s t rest key value line : List Char} {c : Char} {n : Nat} {v : Int}

/-- The six space characters of the C locale. -/
def isspace (c : Char) : Bool :=
  c = ' ' || c = '\t' || c = '\n' || c = '\x0b' || c = '\x0c' || c = '\r'

/-- The string a C function sees: everything before the first NUL. -/
def cstring (s : List Char) : List Char := s.takeWhile (· ≠ '\x00')

/-- The lines `getline` returns one by one, each with its newline when it has one. -/
def getlines : List Char → List (List Char)
  | [] => []
  | c :: cs =>
    if c = '\n' then ['\n'] :: getlines cs
    else match getlines cs with
      | [] => [[c]]
      | l :: ls => (c :: l) :: ls

/-- `%ms`: skip space, then take a nonempty run of other characters. -/
def scanWord (s : List Char) : Option (List Char × List Char) :=
  let s := s.dropWhile isspace
  let word := s.takeWhile (!isspace ·)
  if word = [] then none else some (word, s.dropWhile (!isspace ·))

/-- `%m[^\n]`: a nonempty text up to the end of the line. -/
def scanLine (s : List Char) : Option (List Char × List Char) :=
  let value := s.takeWhile (· ≠ '\n')
  if value = [] then none else some (value, s.dropWhile (· ≠ '\n'))

/-- `sscanf(line, "%ms = ...", &key, &value) == 2`, with the last conversion as a parameter. -/
def scanAssign (conversion : List Char → Option (List Char × List Char)) (line : List Char) :
    Option (List Char × List Char) := do
  let (key, rest) ← scanWord (cstring line)
  match rest.dropWhile isspace with
  | '=' :: rest =>
    let (value, _) ← conversion (rest.dropWhile isspace)
    return (key, value)
  | _ => none

def LONG_MAX : Int := 9223372036854775807

def LONG_MIN : Int := -9223372036854775808

/-- The value of the longest run of digits at the front. -/
def digitPrefix (s : List Char) : Nat := Nat.ofDigitChars 10 (s.takeWhile Char.isDigit) 0

/-- `strtol(s, NULL, 10)`, saturating. -/
def strtol (s : List Char) : Int :=
  match s.dropWhile isspace with
  | '-' :: ds => max LONG_MIN (-(digitPrefix ds : Int))
  | '+' :: ds => min LONG_MAX (digitPrefix ds)
  | ds => min LONG_MAX (digitPrefix ds)

/-- The value of one hexadecimal digit. -/
def hexDigit (c : Char) : Option Nat :=
  if '0' ≤ c ∧ c ≤ '9' then some (c.toNat - 48)
  else if 'a' ≤ c ∧ c ≤ 'f' then some (c.toNat - 87)
  else if 'A' ≤ c ∧ c ≤ 'F' then some (c.toNat - 55)
  else none

/-- `sscanf(s, "%2hhx", &byte)`: after space, at most two characters of a hexadecimal number with
its sign; the prefix `0x` alone is the number 0. `none` leaves the byte alone. -/
def scanHexByte (s : List Char) : Option UInt8 :=
  match s.dropWhile isspace with
  | [] => none
  | c :: rest =>
    let second := rest.head?.bind hexDigit
    match hexDigit c, second with
    | some high, some low => some (UInt8.ofNat (16 * high + low))
    | some low, none => some (UInt8.ofNat low)
    | none, some low =>
      if c = '+' then some (UInt8.ofNat low)
      else if c = '-' then some (0 - UInt8.ofNat low)
      else none
    | none, none => none

/-- The text `%d` and `%hd` print. -/
def printDec : Int → List Char
  | .ofNat n => Nat.toDigits 10 n
  | .negSucc n => '-' :: Nat.toDigits 10 (n + 1)

/-- A text that `%ms` reads back whole. -/
def Word (s : List Char) : Prop := s ≠ [] ∧ ∀ c ∈ s, isspace c = false ∧ c ≠ '\x00'

instance : DecidablePred Word := fun s =>
  decidable_of_iff (s ≠ [] ∧ s.all (fun c => !isspace c && !decide (c = '\x00')) = true)
    (by simp [Word])

/-- A text that `%m[^\n]` reads back whole, after space is skipped. -/
structure Line (s : List Char) : Prop where
  head : ∃ c rest, s = c :: rest ∧ isspace c = false
  newline : '\n' ∉ s
  nul : '\x00' ∉ s

theorem getlines_line (h : '\n' ∉ s) :
    getlines (s ++ '\n' :: rest) = (s ++ ['\n']) :: getlines rest := by
  induction s with
  | nil => simp [getlines]
  | cons c s ih =>
    have hc : c ≠ '\n' := fun he => h (by simp [he])
    have hs : '\n' ∉ s := fun he => h (by simp [he])
    simp [getlines, hc, ih hs]

theorem getlines_flatten {ls : List (List Char)} (h : ∀ l ∈ ls, '\n' ∉ l) :
    getlines (ls.flatMap (· ++ ['\n'])) = ls.map (· ++ ['\n']) := by
  induction ls with
  | nil => rfl
  | cons l ls ih =>
    have hl := h l (by simp)
    have hls := ih fun x hx => h x (by simp [hx])
    simp only [List.flatMap_cons, List.append_assoc, List.singleton_append, List.map_cons]
    rw [getlines_line hl, hls]

theorem Word.not_newline (h : Word s) : '\n' ∉ s := fun hn => by
  have := (h.2 _ hn).1
  simp [isspace] at this

theorem dropWhile_space_word (h : Word s) : (s ++ rest).dropWhile isspace = s ++ rest := by
  obtain ⟨hne, hs⟩ := h
  cases s with
  | nil => exact absurd rfl hne
  | cons c s => simp [(hs c (by simp)).1]

theorem scanWord_word (h : Word s) (hc : isspace c = true) :
    scanWord (s ++ c :: rest) = some (s, c :: rest) := by
  have hs : ∀ x ∈ s, (!isspace x) = true := fun x hx => by simp [(h.2 x hx).1]
  have htake : (s ++ c :: rest).takeWhile (!isspace ·) = s := by
    simp [List.takeWhile_append_of_pos hs, hc]
  have hdrop : (s ++ c :: rest).dropWhile (!isspace ·) = c :: rest := by
    simp [List.dropWhile_append_of_pos hs, hc]
  simp [scanWord, dropWhile_space_word h, htake, hdrop, h.1]

theorem Word.toLine (h : Word s) : Line s := by
  refine ⟨?_, h.not_newline, fun hn => (h.2 _ hn).2 rfl⟩
  obtain ⟨c, rest, rfl⟩ := List.exists_cons_of_ne_nil h.1
  exact ⟨c, rest, rfl, (h.2 c List.mem_cons_self).1⟩

theorem dropWhile_space_line (h : Line s) : (s ++ rest).dropWhile isspace = s ++ rest := by
  obtain ⟨c, tail, rfl, hc⟩ := h.head
  simp [hc]

/-- A printed assignment to a word is read back as it was written. -/
theorem scanAssign_print {conversion : List Char → Option (List Char × List Char)}
    (hk : Word key) (hv : Line value)
    (hconv : conversion (value ++ ['\n']) = some (value, ['\n'])) :
    scanAssign conversion (key ++ ' ' :: '=' :: ' ' :: (value ++ ['\n'])) =
      some (key, value) := by
  have hcstr : cstring (key ++ ' ' :: '=' :: ' ' :: (value ++ ['\n'])) =
      key ++ ' ' :: '=' :: ' ' :: (value ++ ['\n']) := by
    apply List.takeWhile_eq_self_iff.mpr
    intro x hx
    have hkx := fun h => (hk.2 x h).2
    have hvx : x ∈ value → x ≠ '\x00' := fun h he => hv.nul (he ▸ h)
    simp only [List.mem_append, List.mem_cons, List.not_mem_nil, or_false] at hx
    rcases hx with hx | rfl | rfl | rfl | hx | rfl <;> simp_all
  have hkey : scanWord (key ++ ' ' :: '=' :: ' ' :: (value ++ ['\n'])) = _ :=
    scanWord_word hk rfl
  have heq : (' ' :: '=' :: ' ' :: (value ++ ['\n'])).dropWhile isspace =
      '=' :: ' ' :: (value ++ ['\n']) := rfl
  have hdrop : (' ' :: (value ++ ['\n'])).dropWhile isspace = value ++ ['\n'] :=
    dropWhile_space_line hv
  rw [scanAssign, hcstr]
  simp [hkey, heq, hdrop, hconv]

theorem scanAssign_word (hk : Word key) (hv : Word value) :
    scanAssign scanWord (key ++ ' ' :: '=' :: ' ' :: (value ++ ['\n'])) = some (key, value) :=
  scanAssign_print hk hv.toLine (scanWord_word hv rfl)

theorem scanLine_line (h : Line value) : scanLine (value ++ ['\n']) = some (value, ['\n']) := by
  have hv : ∀ c ∈ value, decide (c ≠ '\n') = true := by
    intro c hc
    rw [decide_eq_true_eq]
    rintro rfl
    exact h.newline hc
  obtain ⟨c, rest, hcons, _⟩ := h.head
  have hne : value ≠ [] := by simp [hcons]
  have htake : (value ++ ['\n']).takeWhile (· ≠ '\n') = value := by
    rw [List.takeWhile_append_of_pos hv]
    simp
  have hdrop : (value ++ ['\n']).dropWhile (· ≠ '\n') = ['\n'] := by
    rw [List.dropWhile_append_of_pos hv]
    simp
  rw [scanLine, htake, hdrop]
  simp [hne]

theorem scanAssign_line (hk : Word key) (hv : Line value) :
    scanAssign scanLine (key ++ ' ' :: '=' :: ' ' :: (value ++ ['\n'])) = some (key, value) :=
  scanAssign_print hk hv (scanLine_line hv)

theorem cstring_dropWhile_space : (cstring s).dropWhile isspace = cstring (s.dropWhile isspace) := by
  induction s with
  | nil => rfl
  | cons c s ih =>
    cases hc : isspace c with
    | true =>
      have hne : c ≠ '\x00' := by
        rintro rfl
        exact absurd hc (by decide)
      have hcons : cstring (c :: s) = c :: cstring s := by simp [cstring, hne]
      rw [hcons, List.dropWhile_cons_of_pos hc, List.dropWhile_cons_of_pos hc, ih]
    | false =>
      rw [List.dropWhile_cons_of_neg (by simp [hc])]
      by_cases hne : c = '\x00'
      · simp [cstring, hne]
      · simp [cstring, hne, hc]

theorem digitPrefix_cstring : digitPrefix (cstring s) = digitPrefix s := by
  have htake : (cstring s).takeWhile Char.isDigit = s.takeWhile Char.isDigit := by
    rw [cstring, List.takeWhile_takeWhile]
    congr 1
    funext c
    by_cases hc : c = '\x00'
    · subst hc
      rfl
    · simp [hc]
  rw [digitPrefix, digitPrefix, htake]

/-- A number ends before the NUL that ends the string it stands in. -/
theorem strtol_cstring : strtol (cstring s) = strtol s := by
  rw [strtol, strtol, cstring_dropWhile_space]
  generalize s.dropWhile isspace = t
  cases t with
  | nil => rfl
  | cons c t =>
    by_cases hc : c = '\x00'
    · subst hc
      rfl
    · have hcons : cstring (c :: t) = c :: cstring t := by simp [cstring, hc]
      have hdigits : digitPrefix (c :: cstring t) = digitPrefix (c :: t) := by
        rw [← hcons, digitPrefix_cstring]
      rw [hcons]
      by_cases hminus : c = '-'
      · subst hminus
        simp [digitPrefix_cstring]
      by_cases hplus : c = '+'
      · subst hplus
        simp [digitPrefix_cstring]
      simp [hminus, hplus, hdigits]

theorem not_mem_cstring : '\x00' ∉ cstring s := fun h => by
  simpa using List.mem_takeWhile_imp h

theorem scanLine_value (hs : ∀ c ∈ s.head?, isspace c = false) (hnul : '\x00' ∉ s)
    (h : scanLine s = some (value, rest)) : Line value := by
  simp only [scanLine, Option.ite_none_left_eq_some, Option.some.injEq, Prod.mk.injEq] at h
  obtain ⟨hne, rfl, _⟩ := h
  refine ⟨?_, fun hn => ?_, fun hn => hnul ((List.takeWhile_sublist _).subset hn)⟩
  · cases s with
    | nil => exact absurd rfl hne
    | cons c cs =>
      by_cases hc : c = '\n'
      · simp [hc] at hne
      · exact ⟨c, _, List.takeWhile_cons_of_pos (by simpa using hc), hs c rfl⟩
  · simpa using List.mem_takeWhile_imp hn

/-- Every value read is a line. -/
theorem line_of_scanAssign (h : scanAssign scanLine line = some (key, value)) : Line value := by
  have hnul : '\x00' ∉ cstring line := not_mem_cstring
  obtain ⟨⟨word, rest⟩, hword, h⟩ := Option.bind_eq_some_iff.mp h
  have hrest : ∀ c ∈ rest, c ∈ cstring line := by
    simp only [scanWord, Option.ite_none_left_eq_some, Option.some.injEq, Prod.mk.injEq] at hword
    obtain ⟨_, _, rfl⟩ := hword
    intro c hc
    exact (List.dropWhile_sublist _).subset ((List.dropWhile_sublist _).subset hc)
  dsimp only at h
  split at h
  · next tail htail =>
    obtain ⟨⟨value', rest'⟩, hconv, hpure⟩ := Option.bind_eq_some_iff.mp h
    cases hpure
    have hsub : ∀ c ∈ tail.dropWhile isspace, c ∈ cstring line := by
      intro c hc
      have hmem : c ∈ rest.dropWhile isspace := by
        rw [htail]
        exact List.mem_cons_of_mem _ ((List.dropWhile_sublist _).subset hc)
      exact hrest c ((List.dropWhile_sublist _).subset hmem)
    refine scanLine_value ?_ (fun hn => hnul (hsub _ hn)) hconv
    intro c hc
    have hhead := List.head?_dropWhile_not isspace tail
    rw [Option.mem_def.mp hc] at hhead
    exact hhead
  · cases h

theorem isspace_of_isDigit (h : c.isDigit = true) : isspace c = false := by
  cases hc : isspace c with
  | false => rfl
  | true =>
    simp only [isspace, Bool.or_eq_true, decide_eq_true_eq] at hc
    rcases hc with ((((rfl | rfl) | rfl) | rfl) | rfl) | rfl <;> exact absurd h (by decide)

theorem word_toDigits : Word (Nat.toDigits 10 n) := by
  refine ⟨Nat.toDigits_ne_nil, fun c hc => ?_⟩
  have hd := Nat.isDigit_of_mem_toDigits (by decide) (by decide) hc
  refine ⟨isspace_of_isDigit hd, ?_⟩
  rintro rfl
  simp at hd

theorem word_printDec : Word (printDec v) := by
  cases v with
  | ofNat n => exact word_toDigits
  | negSucc n =>
    refine ⟨by simp [printDec], fun c hc => ?_⟩
    rcases List.mem_cons.mp hc with rfl | hc
    · exact ⟨rfl, by decide⟩
    · exact word_toDigits.2 c hc

theorem digitPrefix_toDigits : digitPrefix (Nat.toDigits 10 n) = n := by
  have hd : ∀ c ∈ Nat.toDigits 10 n, c.isDigit = true := fun c hc =>
    Nat.isDigit_of_mem_toDigits (by decide) (by decide) hc
  rw [digitPrefix, List.takeWhile_eq_self_iff.mpr hd, Nat.ofDigitChars_ten_toDigits]

/-- Reading a printed number back gives the number, when it fits a `long`. -/
theorem strtol_printDec (hlo : LONG_MIN ≤ v) (hhi : v ≤ LONG_MAX) : strtol (printDec v) = v := by
  cases v with
  | ofNat n =>
    have hw : (Nat.toDigits 10 n ++ []).dropWhile isspace = Nat.toDigits 10 n ++ [] :=
      dropWhile_space_word word_toDigits
    rw [List.append_nil] at hw
    have hd : ∀ c ∈ Nat.toDigits 10 n, c.isDigit = true := fun c hc =>
      Nat.isDigit_of_mem_toDigits (by decide) (by decide) hc
    rw [strtol, printDec, hw]
    split
    · next ds h => exact absurd (hd '-' (by simp [h])) (by decide)
    · next ds h => exact absurd (hd '+' (by simp [h])) (by decide)
    · rw [digitPrefix_toDigits]
      exact min_eq_right hhi
  | negSucc n =>
    have hw : (printDec (.negSucc n)).dropWhile isspace = '-' :: Nat.toDigits 10 (n + 1) := rfl
    rw [strtol, hw]
    simp only [digitPrefix_toDigits]
    exact max_eq_right hlo

end Lib.Stdio
