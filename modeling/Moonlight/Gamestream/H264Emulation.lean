import Moonlight.Gamestream.H264Nal
import Mathlib.Data.List.Infix
import Mathlib.Tactic.IntervalCases

/-! Which units `rbsp_to_nal` writes, how much room it takes, and which units `nal_to_rbsp` reads. -/
namespace Moonlight

section
variable {room count : Nat} {x : UInt8} {rest rbsp nal bytes : List UInt8} {ok : Bool}

theorem rbspToNal_escaped (hlow : ¬ 3 < x)
    (hrest : rbspToNal room (if x = 0 then 1 else 0) rest = some (bytes, ok)) :
    rbspToNal (room + 2) 2 (x :: rest) = some (3 :: x :: bytes, ok) := by
  rw [rbspToNal.eq_def]
  dsimp only
  rw [if_pos ⟨rfl, (and_fc_eq_zero x).mpr hlow⟩, hrest]
  rfl

theorem rbspToNal_kept (hhigh : count = 2 → 3 < x)
    (hrest : rbspToNal room (if x = 0 then count + 1 else 0) rest = some (bytes, ok)) :
    rbspToNal (room + 1) count (x :: rest) = some (x :: bytes, ok) := by
  have hesc : ¬ (count = 2 ∧ x &&& 0xFC = 0) := by
    rintro ⟨h2, hlow⟩
    exact (and_fc_eq_zero x).mp hlow (hhigh h2)
  rw [rbspToNal.eq_def]
  dsimp only
  rw [if_neg hesc, hrest]
  rfl

/-- A byte that is kept leaves two zeros at most. -/
theorem zeros_le_two (hcount : count ≤ 2) (hhigh : count = 2 → 3 < x) :
    (if x = 0 then count + 1 else 0) ≤ 2 := by
  split_ifs with hzero
  · have hne : count ≠ 2 := by
      intro h2
      have h3 := hhigh h2
      rw [hzero] at h3
      exact absurd h3 (by decide)
    omega
  · omega

/-- The last byte is stored last. -/
theorem getLast_rbspToNal (h : rbspToNal room count rbsp = some (nal, true)) :
    nal.getLast? = rbsp.getLast? := by
  induction rbsp generalizing room count nal with
  | nil =>
    rw [rbspToNal] at h
    cases h
    rfl
  | cons x rest ih =>
    obtain ⟨-, -, room', bytes, -, rfl, hrest⟩ | ⟨-, room', bytes, -, rfl, hrest⟩ | ⟨-, hok⟩ :=
      rbspToNal_cons h
    · rw [List.getLast?_cons_cons, List.getLast?_cons, List.getLast?_cons, ih hrest]
    · rw [List.getLast?_cons, List.getLast?_cons, ih hrest]
    · cases hok

/-- One byte is inserted for every two of the others at most. -/
theorem rbspToNal_fits (hcount : count ≤ 2)
    (hroom : rbsp.length + (rbsp.length + count - 1) / 2 ≤ room) :
    ∃ nal, rbspToNal room count rbsp = some (nal, true) := by
  induction rbsp generalizing room count with
  | nil => exact ⟨[], by rw [rbspToNal]⟩
  | cons x rest ih =>
    rw [List.length_cons] at hroom
    by_cases hesc : count = 2 ∧ ¬ 3 < x
    · obtain ⟨rfl, hlow⟩ := hesc
      obtain ⟨room, rfl⟩ : ∃ room', room = room' + 2 := ⟨room - 2, by omega⟩
      obtain ⟨bytes, hrest⟩ := @ih room (if x = 0 then 1 else 0)
        (by split <;> omega) (by split <;> omega)
      exact ⟨_, rbspToNal_escaped hlow hrest⟩
    · have hhigh (h2 : count = 2) : 3 < x := by
        by_contra hlow
        exact hesc ⟨h2, hlow⟩
      obtain ⟨room, rfl⟩ : ∃ room', room = room' + 1 := ⟨room - 1, by omega⟩
      obtain ⟨bytes, hrest⟩ := @ih room _ (zeros_le_two hcount hhigh)
        (by split <;> omega)
      exact ⟨_, rbspToNal_kept hhigh hrest⟩

/-- Zeros take all of that. -/
theorem length_stored_zeros {n : Nat} (hcount : count ≤ 2)
    (h : rbspToNal room count (List.replicate n 0) = some (nal, true)) :
    nal.length = n + (n + count - 1) / 2 := by
  induction n generalizing room count nal with
  | zero =>
    rw [List.replicate_zero, rbspToNal] at h
    cases h
    rw [List.length_nil]
    omega
  | succ n ih =>
    rw [List.replicate_succ] at h
    obtain ⟨rfl, -, room', bytes, -, rfl, hrest⟩ | ⟨hhigh, room', bytes, -, rfl, hrest⟩ |
      ⟨-, hok⟩ := rbspToNal_cons h
    · have hbytes := ih (by decide) hrest
      rw [if_pos rfl] at hbytes
      rw [List.length_cons, List.length_cons, hbytes]
      omega
    · have hbytes := ih (zeros_le_two hcount hhigh) hrest
      have hne : count ≠ 2 := fun h2 => absurd (hhigh h2) (by decide)
      rw [if_pos rfl] at hbytes
      rw [List.length_cons, hbytes]
      omega
    · cases hok

/-- Every sequence of `n` bytes is stored whole if and only if there is room for half as many more.
The documented size, 4/3 of `n` rounded up, is that much for short sequences only. -/
theorem rbspToNal_room_iff (n : Nat) :
    (∀ room, (∀ rbsp : List UInt8, rbsp.length = n →
      ∃ nal, rbspToNal room 0 rbsp = some (nal, true)) ↔ n + (n - 1) / 2 ≤ room) ∧
    ((∀ rbsp : List UInt8, rbsp.length = n →
      ∃ nal, rbspToNal ((4 * n + 2) / 3) 0 rbsp = some (nal, true)) ↔ n ≤ 8 ∨ n = 10) := by
  have hroom (room : Nat) : (∀ rbsp : List UInt8, rbsp.length = n →
      ∃ nal, rbspToNal room 0 rbsp = some (nal, true)) ↔ n + (n - 1) / 2 ≤ room := by
    constructor
    · intro hall
      obtain ⟨nal, hzeros⟩ := hall (List.replicate n 0) List.length_replicate
      have hlength := length_stored_zeros (Nat.zero_le 2) hzeros
      have hle := length_rbspToNal hzeros
      omega
    · rintro hle rbsp rfl
      exact rbspToNal_fits (Nat.zero_le 2) (by omega)
  refine ⟨hroom, (hroom _).trans ?_⟩
  omega

theorem high_of_rest (hbelow : ¬ (count = 2 ∧ x < 3)) (hequal : ¬ (count = 2 ∧ x = 3)) :
    count = 2 → 3 < x := by
  intro h2
  rcases UInt8.lt_or_le 3 x with hlt | hle
  · exact hlt
  · rcases UInt8.lt_or_eq_of_le hle with hlt | heq
    · exact absurd ⟨h2, hlt⟩ hbelow
    · exact absurd ⟨h2, heq⟩ hequal

/-- A byte is read as it is, after an inserted one, or an inserted one is the last. -/
theorem nalToRbsp_cons {i : Nat} (h : nalToRbsp count (x :: rest) = some (rbsp, i)) :
    (count = 2 ∧ x = 3 ∧ rest = [] ∧ rbsp = [] ∧ i = 0) ∨
    (count = 2 ∧ x = 3 ∧ ∃ y unread bytes n, rest = y :: unread ∧ ¬ 3 < y ∧ rbsp = y :: bytes ∧
      i = n + 2 ∧ nalToRbsp (if y = 0 then 1 else 0) unread = some (bytes, n)) ∨
    ((count = 2 → 3 < x) ∧ ∃ bytes n, rbsp = x :: bytes ∧ i = n + 1 ∧
      nalToRbsp (if x = 0 then count + 1 else 0) rest = some (bytes, n)) := by
  rw [nalToRbsp.eq_def] at h
  dsimp only at h
  by_cases hbelow : count = 2 ∧ x < 3
  · rw [if_pos hbelow] at h
    cases h
  rw [if_neg hbelow] at h
  by_cases hequal : count = 2 ∧ x = 3
  · rw [if_pos hequal] at h
    obtain ⟨h2, h3⟩ := hequal
    cases rest with
    | nil =>
      cases h
      exact Or.inl ⟨h2, h3, rfl, rfl, rfl⟩
    | cons y unread =>
      dsimp only at h
      by_cases hhigh : 3 < y
      · rw [if_pos hhigh] at h
        cases h
      · rw [if_neg hhigh] at h
        obtain ⟨⟨bytes, n⟩, hrest, heq⟩ := Option.bind_eq_some_iff.mp h
        cases heq
        exact Or.inr (Or.inl ⟨h2, h3, y, unread, bytes, n, rfl, hhigh, rfl, rfl, hrest⟩)
  · rw [if_neg hequal] at h
    obtain ⟨⟨bytes, n⟩, hrest, heq⟩ := Option.bind_eq_some_iff.mp h
    cases heq
    exact Or.inr (Or.inr ⟨high_of_rest hbelow hequal, bytes, n, rfl, rfl, hrest⟩)

theorem nalToRbsp_high (hhigh : count = 2 → 3 < x) :
    nalToRbsp count (x :: rest) = (nalToRbsp (if x = 0 then count + 1 else 0) rest).bind
      fun (bytes, i) => some (x :: bytes, i + 1) := by
  have hbelow : ¬ (count = 2 ∧ x < 3) := fun hlt => Nat.lt_asymm (hhigh hlt.1) hlt.2
  have hequal : ¬ (count = 2 ∧ x = 3) := by
    rintro ⟨h2, rfl⟩
    exact absurd (hhigh h2) (by decide)
  rw [nalToRbsp.eq_def]
  dsimp only
  rw [if_neg hbelow, if_neg hequal]
  rfl

/-- The zeros before the next byte are the last ones of what was read. -/
theorem zeros_suffix (count : Nat) (y : UInt8) (unit : List UInt8) :
    List.replicate (if y = 0 then count + 1 else 0) 0 ++ unit <:+
      List.replicate count 0 ++ y :: unit := by
  split
  next hzero =>
    rw [hzero, List.replicate_succ', List.append_assoc]
    exact List.suffix_refl _
  next =>
    rw [List.replicate_zero, List.nil_append, List.append_cons]
    exact List.suffix_append _ _

/-- What is read is written back as the unit it was read from, less an inserted byte at its end. -/
theorem rbspToNal_nalToRbsp {n : Nat} (hcount : count ≤ 2)
    (h : nalToRbsp count nal = some (rbsp, n)) :
    ∃ unit, n = unit.length ∧ rbspToNal unit.length count rbsp = some (unit, true) ∧
      (nal = unit ∨ nal = unit ++ [3] ∧ [0, 0] <:+ List.replicate count 0 ++ unit) := by
  induction hlength : nal.length using Nat.strong_induction_on generalizing nal count rbsp n with
  | _ length ih =>
    cases nal with
    | nil =>
      cases h
      exact ⟨[], rfl, by rw [rbspToNal], Or.inl rfl⟩
    | cons x rest =>
      rw [List.length_cons] at hlength
      obtain ⟨rfl, rfl, rfl, rfl, rfl⟩ | ⟨rfl, rfl, y, unread, bytes, i, rfl, hlow, rfl, rfl, hrest⟩ |
        ⟨hhigh, bytes, i, rfl, rfl, hrest⟩ := nalToRbsp_cons h
      · exact ⟨[], rfl, by rw [rbspToNal], Or.inr ⟨rfl, List.suffix_refl _⟩⟩
      · rw [List.length_cons] at hlength
        obtain ⟨unit, rfl, hwrite, hunit⟩ := ih _ (by omega) (by split <;> omega) hrest rfl
        refine ⟨3 :: y :: unit, rfl, rbspToNal_escaped hlow hwrite, ?_⟩
        rcases hunit with rfl | ⟨rfl, hzeros⟩
        · exact Or.inl rfl
        · exact Or.inr ⟨rfl, (hzeros.trans (zeros_suffix 0 y unit)).trans
            (List.suffix_append [0, 0, 3] _)⟩
      · obtain ⟨unit, rfl, hwrite, hunit⟩ := ih _ (by omega) (zeros_le_two hcount hhigh) hrest rfl
        refine ⟨x :: unit, rfl, rbspToNal_kept hhigh hwrite, ?_⟩
        rcases hunit with rfl | ⟨rfl, hzeros⟩
        · exact Or.inl rfl
        · exact Or.inr ⟨rfl, hzeros.trans (zeros_suffix count x unit)⟩

theorem zeros_of_cons_suffix {l unit : List UInt8} {y : UInt8} (hy : y ≠ 0)
    (h : [0, 0] <:+ l ++ y :: unit) : [0, 0] <:+ unit := by
  rcases List.suffix_or_suffix_of_suffix h (List.suffix_append l (y :: unit)) with hin | hout
  · rcases List.suffix_cons_iff.mp hin with heq | hin
    · cases heq
      exact absurd rfl hy
    · exact hin
  · have hmem : y ∈ [(0 : UInt8), 0] := hout.subset List.mem_cons_self
    simp [hy] at hmem

theorem zeros_of_suffix {y : UInt8} {unit : List UInt8}
    (h : [0, 0] <:+ List.replicate count 0 ++ y :: unit) :
    [0, 0] <:+ List.replicate (if y = 0 then count + 1 else 0) 0 ++ unit := by
  split
  next hzero =>
    rw [hzero] at h
    rwa [List.replicate_succ', List.append_assoc]
  next hne => exact zeros_of_cons_suffix hne h

/-- An inserted byte at the end of a unit is not read. -/
theorem nalToRbsp_trailing (hcount : count ≤ 2)
    (h : rbspToNal room count rbsp = some (nal, true))
    (hzeros : [0, 0] <:+ List.replicate count 0 ++ nal) :
    nalToRbsp count (nal ++ [3]) = some (rbsp, nal.length) := by
  induction rbsp generalizing room count nal with
  | nil =>
    rw [rbspToNal] at h
    cases h
    have htwo : count = 2 := by
      have hle := hzeros.length_le
      simp at hle
      omega
    subst htwo
    rfl
  | cons x rest ih =>
    obtain ⟨rfl, hlow, room', bytes, -, rfl, hrest⟩ | ⟨hhigh, room', bytes, -, rfl, hrest⟩ |
      ⟨-, hok⟩ := rbspToNal_cons h
    · have hafter := zeros_of_cons_suffix (by decide) hzeros
      have hback := ih (by split <;> omega) hrest (@zeros_of_suffix 0 _ _ hafter)
      rw [List.cons_append, List.cons_append, nalToRbsp, if_neg (by decide), if_pos ⟨rfl, rfl⟩]
      dsimp only
      rw [if_neg hlow, hback]
      rfl
    · have hback := ih (zeros_le_two hcount hhigh) hrest (zeros_of_suffix hzeros)
      rw [List.cons_append, nalToRbsp_high hhigh, hback]
      rfl
    · cases hok


/-- A unit is read if and only if it is one that the writer stores for the bytes read from it, or
such a unit that ends in two zeros with one more byte 3, which is not counted as read. -/
theorem nalToRbsp_iff_stored (rbsp nal : List UInt8) (n : Nat) :
    nalToRbsp 0 nal = some (rbsp, n) ↔
      ∃ unit, rbspToNal unit.length 0 rbsp = some (unit, true) ∧ n = unit.length ∧
        (nal = unit ∨ nal = unit ++ [3] ∧ [0, 0] <:+ unit) := by
  constructor
  · intro h
    obtain ⟨unit, hn, hstore, hunit⟩ := rbspToNal_nalToRbsp (Nat.zero_le 2) h
    exact ⟨unit, hstore, hn, hunit⟩
  · rintro ⟨unit, hstore, rfl, rfl | ⟨rfl, hzeros⟩⟩
    · exact nalToRbsp_rbspToNal (Nat.zero_le 2) hstore
    · exact nalToRbsp_trailing (Nat.zero_le 2) hstore hzeros

/-- No two zeros of a unit are followed by a byte below 3, and a byte 3 after them stands before a
byte up to 3 or at the end. -/
def EmulationFree (nal : List UInt8) : Prop :=
  (∀ x < 3, ¬ [0, 0, x] <:+: nal) ∧ ∀ y, 3 < y → ¬ [0, 0, 3, y] <:+: nal

theorem emulationFree_cons : EmulationFree (x :: rest) ↔
    (∀ y < 3, ¬ [0, 0, y] <+: x :: rest) ∧ (∀ y, 3 < y → ¬ [0, 0, 3, y] <+: x :: rest) ∧
      EmulationFree rest := by
  simp only [EmulationFree, List.infix_cons_iff, not_or, forall_and]
  tauto

theorem emulationFree_nonzero (hx : x ≠ 0) : EmulationFree (x :: rest) ↔ EmulationFree rest := by
  simp [emulationFree_cons, hx.symm]

theorem emulationFree_high (hcount : count ≤ 2) (hx : x ≠ 0) (hhigh : count = 2 → 3 < x) :
    EmulationFree (List.replicate count 0 ++ x :: rest) ↔ EmulationFree rest := by
  refine Iff.trans ?_ (emulationFree_nonzero hx)
  interval_cases count
  · rfl
  · simp [List.replicate_succ, emulationFree_cons, hx.symm]
  · have hnot (y : UInt8) (hy : y < 3) : y ≠ x := by
      rintro rfl
      exact UInt8.lt_asymm hy (hhigh rfl)
    have hne : (3 : UInt8) ≠ x := UInt8.ne_of_lt (hhigh rfl)
    rw [List.replicate_succ, List.replicate_succ, List.cons_append, List.cons_append,
      emulationFree_cons, emulationFree_cons]
    simpa [hx.symm, hne] using fun _ => hnot

theorem emulationFree_escaped {y : UInt8} :
    EmulationFree (0 :: 0 :: 3 :: y :: rest) ↔ ¬ 3 < y ∧ EmulationFree (y :: rest) := by
  have hnot (z : UInt8) (hz : z < 3) : z ≠ 3 := UInt8.ne_of_lt hz
  have hhigh : (∀ z, 3 < z → z ≠ y) ↔ ¬ 3 < y :=
    ⟨fun h hy => h y hy rfl, fun h z hz heq => h (heq ▸ hz)⟩
  rw [emulationFree_cons, emulationFree_cons, emulationFree_nonzero (by decide : (3 : UInt8) ≠ 0),
    ← hhigh]
  simp only [List.cons_prefix_cons, List.nil_prefix, and_true, true_and]
  simpa using fun _ _ => hnot

theorem emulationFree_next (hcount : count ≤ 2) (hhigh : count = 2 → 3 < x) :
    EmulationFree (List.replicate count 0 ++ x :: rest) ↔
      EmulationFree (List.replicate (if x = 0 then count + 1 else 0) 0 ++ rest) := by
  split
  next hzero => rw [hzero, List.replicate_succ', List.append_assoc, List.singleton_append]
  next hne => exact emulationFree_high hcount hne hhigh

theorem emulationFree_zeros (hcount : count ≤ 2) :
    EmulationFree (List.replicate count 0 ++ []) := by
  interval_cases count <;> simp [EmulationFree, List.replicate_succ, List.infix_cons_iff]

theorem isSome_bind_some {α β : Type} (o : Option α) (f : α → β) :
    (o.bind fun a => some (f a)).isSome = o.isSome := by
  cases o <;> rfl

/-- `nal_to_rbsp` rejects the units with a forbidden sequence of bytes, and no others. -/
theorem isSome_nalToRbsp_iff (hcount : count ≤ 2) :
    (nalToRbsp count nal).isSome ↔ EmulationFree (List.replicate count 0 ++ nal) := by
  induction hlength : nal.length using Nat.strong_induction_on generalizing nal count with
  | _ length ih =>
    cases nal with
    | nil =>
      rw [nalToRbsp]
      exact iff_of_true rfl (emulationFree_zeros hcount)
    | cons x rest =>
      rw [List.length_cons] at hlength
      by_cases hbelow : count = 2 ∧ x < 3
      · obtain ⟨rfl, hlow⟩ := hbelow
        rw [nalToRbsp.eq_def]
        dsimp only
        rw [if_pos ⟨rfl, hlow⟩]
        refine iff_of_false Bool.false_ne_true fun hfree => ?_
        exact hfree.1 x hlow (List.prefix_append [0, 0, x] rest).isInfix
      by_cases hequal : count = 2 ∧ x = 3
      · obtain ⟨rfl, rfl⟩ := hequal
        rw [nalToRbsp.eq_def]
        dsimp only
        rw [if_neg hbelow, if_pos ⟨rfl, rfl⟩]
        cases rest with
        | nil =>
          have hfree : EmulationFree [0, 0, 3] := by
            simpa [EmulationFree, List.infix_cons_iff] using fun _ => UInt8.ne_of_lt
          exact iff_of_true rfl hfree
        | cons y unread =>
          rw [List.length_cons] at hlength
          have hunread := @ih _ (by omega) (if y = 0 then 1 else 0) unread
            (by split <;> omega) rfl
          have hnext : EmulationFree (y :: unread) ↔ _ :=
            (@emulationFree_next 0 y unread (by omega) (by omega)).trans hunread.symm
          refine Iff.trans ?_ (@emulationFree_escaped unread y).symm
          dsimp only
          split
          next hhigh => exact iff_of_false Bool.false_ne_true fun h => h.1 hhigh
          next hlow =>
            rw [and_iff_right hlow, hnext]
            exact Bool.coe_iff_coe.mpr (isSome_bind_some _ _)
      · have hhigh := high_of_rest hbelow hequal
        rw [nalToRbsp_high hhigh, emulationFree_next hcount hhigh,
          ← ih _ (by omega) (zeros_le_two hcount hhigh) rfl]
        exact Bool.coe_iff_coe.mpr (isSome_bind_some _ _)

/-- The bytes that are read are those of a unit without forbidden sequences. -/
theorem nalToRbsp_reads_iff (nal : List UInt8) : (nalToRbsp 0 nal).isSome ↔ EmulationFree nal :=
  isSome_nalToRbsp_iff (Nat.zero_le 2)

/-- Nothing that is stored looks like a start code. -/
theorem emulationFree_stored (h : rbspToNal room 0 rbsp = some (nal, true)) :
    EmulationFree nal := by
  have hread := nalToRbsp_rbspToNal (Nat.zero_le 2) h
  exact (isSome_nalToRbsp_iff (Nat.zero_le 2)).mp (by rw [hread]; rfl)

end

end Moonlight
