import Moonlight.Gamestream.ServerStatus
import Moonlight.Gamestream.XmlTree

/-! Which display modes `load_server_status` sees: `xml_search` runs the texts of all `Height`
elements together, so the heights are read as one number. -/
namespace Moonlight

open Lib.Machine Lib.Stdio

/-- The contents of all elements of one name, at any depth; `none` has an element in it. -/
def namedTexts (node : String) : XmlContent → List (Option (List Char))
  | .empty => []
  | .text _ next => namedTexts node next
  | .element name content next =>
    (if name = node then [content.textOnly] else []) ++
      (namedTexts node content ++ namedTexts node next)

/-- The number at the start of a text, whatever its size. -/
def numberAt : List Char → Int
  | '-' :: digits => -(digitPrefix digits)
  | '+' :: digits => digitPrefix digits
  | digits => digitPrefix digits

/-- A decimal number: digits, perhaps behind a sign. -/
def Decimal (s : List Char) : Prop :=
  ∃ digits, digits ≠ [] ∧ (∀ c ∈ digits, c.isDigit = true) ∧
    (s = digits ∨ s = '-' :: digits ∨ s = '+' :: digits)

/-- A number that fits an `int`. -/
def FitsInt (s : List Char) : Prop := -2147483648 ≤ numberAt s ∧ numberAt s ≤ 2147483647

/-- Digits alone. -/
def Unsigned (s : List Char) : Prop := ∀ c ∈ s, c.isDigit = true

instance : DecidablePred Unsigned := List.decidableBAll fun c : Char => c.isDigit = true

/-- What is advertised: some mode has 2160 lines or more. -/
def Advertises4K (heights : List (List Char)) : Prop := ∃ h ∈ heights, 2160 ≤ numberAt h

/-- The modes that are read right: at most one, or heights without a sign whose digits in a row
are a number that fits an `int` and is on the right side of 2160, or one that no `long` holds while
no mode has 2160 lines. -/
def ModesReadRight (heights : List (List Char)) : Prop :=
  heights.length ≤ 1 ∨ (∀ h ∈ heights, Unsigned h) ∧
    (numberAt heights.flatten ≤ 2147483647 ∧
        (Advertises4K heights ∨ numberAt heights.flatten < 2160) ∨
      LONG_MAX < numberAt heights.flatten ∧ ¬ Advertises4K heights)

variable {node root : String} {content : XmlContent} {events : List XmlEvent} {s : List Char}
  {heights texts : List (List Char)} {P : StatusPeer} {w : StatusWorld} {scheme : Scheme}

/-- A content without elements lies below its ancestors as a whole. -/
theorem textBelow_textOnly {ancestors : List String} (h : content.textOnly = some s)
    (hmem : node ∈ ancestors) : textBelow node ancestors content = s := by
  refine XmlContent.textOnly_induction
    (motive := fun content s => textBelow node ancestors content = s) rfl ?_ h
  intro t next s ih
  rw [textBelow, if_pos hmem, ih]

theorem namedTexts_textOnly (h : content.textOnly = some s) : namedTexts node content = [] := by
  refine XmlContent.textOnly_induction
    (motive := fun content _ => namedTexts node content = []) rfl ?_ h
  intro t next s ih
  exact ih

/-- Elements that hold text alone are searched as their texts in a row. -/
theorem textBelow_namedTexts {ancestors : List String} (hmem : node ∉ ancestors)
    (h : namedTexts node content = texts.map some) :
    textBelow node ancestors content = texts.flatten := by
  induction content generalizing texts ancestors with
  | empty =>
    obtain rfl : texts = [] := List.map_eq_nil_iff.mp h.symm
    rfl
  | text t next ih =>
    rw [textBelow, if_neg hmem, List.nil_append]
    exact ih hmem h
  | element name content next ihc ihn =>
    rw [namedTexts] at h
    by_cases hname : name = node
    · subst hname
      rw [if_pos rfl, List.singleton_append] at h
      cases texts with
      | nil => cases h
      | cons t texts =>
        obtain ⟨hhead, htail⟩ := List.cons.inj h
        rw [namedTexts_textOnly hhead, List.nil_append] at htail
        rw [textBelow, textBelow_textOnly hhead List.mem_cons_self, ihn hmem htail,
          List.flatten_cons]
    · rw [if_neg hname, List.nil_append] at h
      obtain ⟨inner, outer, rfl, hinner, houter⟩ := List.map_eq_append_iff.mp h.symm
      have hbelow : node ∉ name :: ancestors := by simp [hmem, Ne.symm hname]
      rw [textBelow, ihc hbelow hinner.symm, ihn hmem houter.symm, List.flatten_append]

theorem Decimal.head (h : Decimal s) : ∃ c rest, s = c :: rest ∧ isspace c = false := by
  obtain ⟨digits, hne, hdigits, rfl | rfl | rfl⟩ := h
  · obtain ⟨c, rest, rfl⟩ := List.exists_cons_of_ne_nil hne
    exact ⟨c, rest, rfl, isspace_of_isDigit (hdigits c List.mem_cons_self)⟩
  · exact ⟨'-', digits, rfl, rfl⟩
  · exact ⟨'+', digits, rfl, rfl⟩

/-- `strtol` reads the number that a text starts with, as far as a `long` goes. -/
theorem strtol_numberAt (h : ∀ c ∈ s.head?, isspace c = false) :
    strtol s = min LONG_MAX (max LONG_MIN (numberAt s)) := by
  have hskip : s.dropWhile isspace = s := by
    cases s with
    | nil => rfl
    | cons c s => exact List.dropWhile_cons_of_neg (by simp [h c rfl])
  have hlo : LONG_MIN ≤ 0 := by decide
  have hhi : 0 ≤ LONG_MAX := by decide
  rw [strtol, hskip]
  split
  · next ds =>
    have hval : numberAt ('-' :: ds) = -(digitPrefix ds : Int) := rfl
    omega
  · next ds =>
    have hval : numberAt ('+' :: ds) = (digitPrefix ds : Int) := rfl
    omega
  · next hminus hplus =>
    unfold numberAt
    split
    · next ds => exact absurd rfl (hminus ds)
    · next ds => exact absurd rfl (hplus ds)
    · omega

theorem strtol_row (h : ∀ t ∈ heights, Decimal t) :
    strtol heights.flatten = min LONG_MAX (max LONG_MIN (numberAt heights.flatten)) := by
  refine strtol_numberAt fun c hc => ?_
  cases heights with
  | nil => cases hc
  | cons t heights =>
    obtain ⟨d, rest, rfl, hd⟩ := (h t List.mem_cons_self).head
    cases hc
    exact hd

/-- What `atoi` makes of the heights in a row. -/
theorem atoi_row (h : ∀ t ∈ heights, Decimal t) :
    2160 ≤ atoi heights.flatten ↔
      (LONG_MIN ≤ numberAt heights.flatten ∧ numberAt heights.flatten ≤ LONG_MAX) ∧
        2160 ≤ wrap 32 (numberAt heights.flatten) := by
  rw [atoi, strtol_row h]
  generalize numberAt heights.flatten = n
  by_cases hhi : LONG_MAX < n
  · have hmax : min LONG_MAX (max LONG_MIN n) = LONG_MAX := by omega
    have hval : wrap 32 LONG_MAX = -1 := by decide
    rw [hmax, hval]
    omega
  by_cases hlo : n < LONG_MIN
  · have hle : LONG_MIN ≤ LONG_MAX := by decide
    have hmin : min LONG_MAX (max LONG_MIN n) = LONG_MIN := by omega
    have hval : wrap 32 LONG_MIN = 0 := by decide
    rw [hmin, hval]
    omega
  · have hid : min LONG_MAX (max LONG_MIN n) = n := by omega
    rw [hid]
    omega

/-- One mode alone is read right. -/
theorem atoi_few (hdec : ∀ t ∈ heights, Decimal t) (hfit : ∀ t ∈ heights, FitsInt t)
    (hfew : heights.length ≤ 1) : 2160 ≤ atoi heights.flatten ↔ Advertises4K heights := by
  rw [atoi_row hdec]
  match heights, hfew with
  | [], _ => simp [Advertises4K, numberAt, digitPrefix, wrap]
  | [s], _ =>
    obtain ⟨hlo, hhi⟩ := hfit s List.mem_cons_self
    have hlong : LONG_MIN ≤ numberAt s ∧ numberAt s ≤ LONG_MAX := by
      unfold LONG_MIN LONG_MAX
      omega
    simp [Advertises4K, wrap_int hlo hhi, hlong]

theorem numberAt_unsigned (h : Unsigned s) : numberAt s = Nat.ofDigitChars 10 s 0 := by
  have htake : s.takeWhile Char.isDigit = s := List.takeWhile_eq_self_iff.mpr h
  unfold numberAt
  split
  · exact absurd (h '-' List.mem_cons_self) (by decide)
  · exact absurd (h '+' List.mem_cons_self) (by decide)
  · rw [digitPrefix, htake]

theorem unsigned_flatten (h : ∀ t ∈ heights, Unsigned t) : Unsigned heights.flatten := by
  intro c hc
  obtain ⟨t, ht, hct⟩ := List.mem_flatten.mp hc
  exact h t ht c hct

/-- More digits on either side make no number smaller. -/
theorem ofDigitChars_le (first s last : List Char) :
    Nat.ofDigitChars 10 s 0 ≤ Nat.ofDigitChars 10 (first ++ (s ++ last)) 0 := by
  rw [Nat.ofDigitChars_append, Nat.ofDigitChars_append,
    Nat.ofDigitChars_eq_ofDigitChars_zero (l := last)]
  calc Nat.ofDigitChars 10 s 0
    _ ≤ 10 ^ s.length * Nat.ofDigitChars 10 first 0 + Nat.ofDigitChars 10 s 0 :=
        Nat.le_add_left _ _
    _ = Nat.ofDigitChars 10 s (Nat.ofDigitChars 10 first 0) :=
        Nat.ofDigitChars_eq_ofDigitChars_zero.symm
    _ ≤ 10 ^ last.length * Nat.ofDigitChars 10 s (Nat.ofDigitChars 10 first 0) :=
        Nat.le_mul_of_pos_left _ (Nat.pow_pos (by decide))
    _ ≤ _ := Nat.le_add_right _ _

theorem numberAt_le_row (h : ∀ t ∈ heights, Unsigned t) (hs : s ∈ heights) :
    numberAt s ≤ numberAt heights.flatten := by
  obtain ⟨first, last, rfl⟩ := List.append_of_mem hs
  rw [numberAt_unsigned (h s hs), numberAt_unsigned (unsigned_flatten h), List.flatten_append,
    List.flatten_cons]
  exact_mod_cast ofDigitChars_le first.flatten s last.flatten

/-- A row that fits an `int` is at least as high as every mode. -/
theorem row_fits_iff (hdec : ∀ t ∈ heights, Decimal t) (h : ∀ t ∈ heights, Unsigned t)
    (hrow : numberAt heights.flatten ≤ 2147483647) :
    (2160 ≤ atoi heights.flatten ↔ Advertises4K heights) ↔
      Advertises4K heights ∨ numberAt heights.flatten < 2160 := by
  have hnonneg : 0 ≤ numberAt heights.flatten := by
    rw [numberAt_unsigned (unsigned_flatten h)]
    exact Int.natCast_nonneg _
  have hlong : LONG_MIN ≤ numberAt heights.flatten ∧ numberAt heights.flatten ≤ LONG_MAX := by
    unfold LONG_MIN LONG_MAX
    omega
  have hhigh : Advertises4K heights → 2160 ≤ numberAt heights.flatten := by
    rintro ⟨t, ht, hlines⟩
    have hle := numberAt_le_row h ht
    omega
  rw [atoi_row hdec, wrap_int (by omega) hrow]
  simp only [hlong, and_self, true_and]
  constructor
  · intro hiff
    by_cases hread : 2160 ≤ numberAt heights.flatten
    · exact Or.inl (hiff.mp hread)
    · exact Or.inr (by omega)
  · rintro (hmode | hlow)
    · exact ⟨fun _ => hmode, hhigh⟩
    · exact ⟨fun hread => absurd hlow (by omega), hhigh⟩

/-- A row that no `long` holds is read as -1. -/
theorem row_over_iff (hdec : ∀ t ∈ heights, Decimal t)
    (hrow : LONG_MAX < numberAt heights.flatten) :
    (2160 ≤ atoi heights.flatten ↔ Advertises4K heights) ↔ ¬ Advertises4K heights := by
  have hlow : ¬ 2160 ≤ atoi heights.flatten := by
    rw [atoi_row hdec]
    omega
  simp [hlow]

theorem modesReadRight_sound (hdec : ∀ t ∈ heights, Decimal t) (hfit : ∀ t ∈ heights, FitsInt t)
    (h : ModesReadRight heights) : 2160 ≤ atoi heights.flatten ↔ Advertises4K heights := by
  rcases h with hfew | ⟨hunsigned, ⟨hrow, hmodes⟩ | ⟨hrow, hnone⟩⟩
  · exact atoi_few hdec hfit hfew
  · exact (row_fits_iff hdec hunsigned hrow).mpr hmodes
  · exact (row_over_iff hdec hrow).mpr hnone

theorem modesReadRight_complete (hdec : ∀ t ∈ heights, Decimal t)
    (hunsigned : ∀ t ∈ heights, Unsigned t)
    (hrow : numberAt heights.flatten ≤ 2147483647 ∨ LONG_MAX < numberAt heights.flatten)
    (h : 2160 ≤ atoi heights.flatten ↔ Advertises4K heights) : ModesReadRight heights := by
  rcases hrow with hrow | hrow
  · exact Or.inr ⟨hunsigned, Or.inl ⟨hrow, (row_fits_iff hdec hunsigned hrow).mp h⟩⟩
  · exact Or.inr ⟨hunsigned, Or.inr ⟨hrow, (row_over_iff hdec hrow).mp h⟩⟩

/-- After a reply that was used, `supports4K` says whether some advertised height is at least 2160
if the modes are read right, and, where no sign and no conversion to `int` cuts the row of heights
off, only then. -/
theorem supports4K_iff (hreports : Reports (xmlDocument root content) events)
    (hheights : namedTexts "Height" (xmlDocument root content) = heights.map some)
    (hdec : ∀ t ∈ heights, Decimal t) (hfit : ∀ t ∈ heights, FitsInt t)
    (hreply : CompleteReply (P.reply scheme) events)
    (hfirst : scheme = .http → ∀ events, ¬ CompleteReply (P.reply .https) events)
    (w : StatusWorld) :
    ∃ ret v, loadServerStatus P w = some (ret, v) ∧
      (ModesReadRight heights → (v.server.supports4K = true ↔ Advertises4K heights)) ∧
      ((∀ t ∈ heights, Unsigned t) →
        (numberAt heights.flatten ≤ 2147483647 ∨ LONG_MAX < numberAt heights.flatten) →
        ((v.server.supports4K = true ↔ Advertises4K heights) ↔ ModesReadRight heights)) := by
  have htext : xmlText "Height" events = heights.flatten := by
    rw [xmlText_reports hreports, textBelow_namedTexts (by simp) hheights]
  have hanswer : ∃ ret v, loadServerStatus P w = some (ret, v) ∧
      Answered ret v w.server.address events := by
    cases scheme with
    | https =>
      obtain ⟨ret, v, hrun, hanswered, _⟩ := loadServerStatus_https (w := w) hreply
      exact ⟨ret, v, hrun, hanswered⟩
    | http =>
      obtain ⟨ret, v, hrun, hanswered, _⟩ := loadServerStatus_http (w := w) (hfirst rfl) hreply
      exact ⟨ret, v, hrun, hanswered⟩
  obtain ⟨ret, v, hrun, hanswered⟩ := hanswer
  refine ⟨ret, v, hrun, ?_⟩
  rw [hanswered.server]
  simp only [recordOf, htext, decide_eq_true_eq]
  exact ⟨modesReadRight_sound hdec hfit, fun hunsigned hrow =>
    ⟨modesReadRight_complete hdec hunsigned hrow, modesReadRight_sound hdec hfit⟩⟩

/-- The content of `flatDocument`. -/
def flatContent : List (String × List Char) → XmlContent
  | [] => .empty
  | (name, s) :: fields => .element name (.text s .empty) (flatContent fields)

theorem reports_flatDocument (fields : List (String × List Char)) :
    Reports (xmlDocument "root" (flatContent fields)) (flatDocument fields) := by
  have htext (s : List Char) : Reports (.text s .empty) [.text s] := by
    simpa using Reports.text [s] .empty
  have hfields : Reports (flatContent fields)
      (fields.flatMap fun field =>
        [.startElement field.1, .text field.2, .endElement field.1]) := by
    induction fields with
    | nil => exact .empty
    | cons field fields ih => exact .element field.1 (htext field.2) ih
  exact .element "root" hfields .empty

/-- A host that lists these heights. -/
def displayHost (heights : List (List Char)) : StatusPeer where
  reply _ := .body (.document
    (flatDocument (statusFields ['7'] ++ heights.map fun s => ("Height", s))))
  uniqueId := []
  uuid _ := []

theorem Unsigned.decimal (hne : s ≠ []) (h : Unsigned s) : Decimal s := ⟨s, hne, h, Or.inl rfl⟩

/-- A host with modes of 1080 and 2160 lines: read as 10802160 lines, which is right. -/
theorem supports4K_iff_uhd :
    ∃ ret v, loadServerStatus (displayHost ["1080".toList, "2160".toList])
        ⟨newRecord, [], none⟩ = some (ret, v) ∧ v.server.supports4K = true := by
  have hcomplete : CompleteReply
      ((displayHost ["1080".toList, "2160".toList]).reply .https) _ :=
    ⟨rfl, by decide +kernel, by decide +kernel, by decide +kernel, by decide +kernel⟩
  have hunsigned : ∀ t ∈ ["1080".toList, "2160".toList], Unsigned t := by decide
  have hmode : Advertises4K ["1080".toList, "2160".toList] :=
    ⟨"2160".toList, by simp, by decide⟩
  have hdec : ∀ t ∈ ["1080".toList, "2160".toList], Decimal t := fun t ht =>
    (hunsigned t ht).decimal (by rintro rfl; revert ht; decide)
  have hfit : ∀ t ∈ ["1080".toList, "2160".toList], FitsInt t := by
    unfold FitsInt
    decide
  obtain ⟨ret, v, hrun, hright, _⟩ := supports4K_iff (reports_flatDocument _) rfl hdec hfit
    hcomplete (fun h => by cases h) ⟨newRecord, [], none⟩
  have hmodes : ModesReadRight ["1080".toList, "2160".toList] :=
    Or.inr ⟨hunsigned, Or.inl ⟨by decide, Or.inl hmode⟩⟩
  exact ⟨ret, v, hrun, (hright hmodes).mpr hmode⟩

/-- Modes of 720 and 1080 lines are read as 7201080 lines. -/
theorem two_modes_read_as_one :
    ∃ ret v, loadServerStatus (displayHost ["720".toList, "1080".toList]) ⟨newRecord, [], none⟩ =
        some (ret, v) ∧ v.server.supports4K = true ∧
      ¬ Advertises4K ["720".toList, "1080".toList] := by
  refine ⟨_, _, rfl, by decide +kernel, ?_⟩
  unfold Advertises4K
  decide +kernel

end Moonlight
