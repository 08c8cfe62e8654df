import Moonlight.Gamestream.SpsFixup

/-! A call of `gs_sps_fix` with `GS_SPS_BITSTREAM_FIXUP`, up to the bytes it emits: which of its
changes are read from them again. -/
namespace Moonlight

section
variable {R : Type} {K : H264Codec R} {flags : BitVec 32} {s : SpsFix R} {head : Lentry}
  {rest : List Lentry} {unit : List UInt8} {address : Nat} {room : List UInt8}

/-- A call on a parameter set puts what the codec writes for it in the place of the head. -/
theorem gsSpsFix_rewrites (hreplay : s.replaySps ≠ 1)
    (htype : nalType (head :: rest) = some nalUnitTypeSps)
    (hunit : unitBytes (head :: rest) = some unit) (hroom : room.length = 128) :
    gsSpsFix K flags (some (address, room)) s head rest = some
      { vars := fixSps flags { s with stream := K.readNalUnit s.stream unit }
        list := rewrittenEntry address room (K.writeNalUnit
          (fixSps flags { s with stream := K.readNalUnit s.stream unit }).stream 124) :: rest
        null := false } :=
  (gsSpsFix_sps hreplay htype).trans (rewriteSps_entry hunit hroom)

theorem gsSpsFix_null (hreplay : s.replaySps ≠ 1)
    (htype : nalType (head :: rest) = some nalUnitTypeSps)
    (hunit : unitBytes (head :: rest) = some unit) :
    gsSpsFix K flags none s head rest = some
      { vars := fixSps flags { s with stream := K.readNalUnit s.stream unit }
        list := head :: rest
        null := true } :=
  (gsSpsFix_sps hreplay htype).trans (rewriteSps_null hunit)

end

section
variable {nalRefIdc : BitVec 2} {set : SeqParameterSet} {nal : List UInt8} {address : Nat}
  {room : List UInt8} {rest : List Lentry}

/-- The bytes of the entry at the head of a list. -/
def entryBytes (list : List Lentry) : Option (List UInt8) := do
  let head ← list.head?
  bytesAt list head.data 0 head.length.toNat

/-- What the reader takes from the head of a list. -/
def carriedUnit (list : List Lentry) : Option (BitVec 2 × SeqParameterSet) := do
  let unit ← unitBytes list
  match ← parseUnit unit with
  | .sps nalRefIdc set result => if 0 ≤ result then some (nalRefIdc, set) else none
  | _ => none

theorem carriedUnit_some {list : List Lentry} (h : carriedUnit list = some (nalRefIdc, set)) :
    ∃ unit result, unitBytes list = some unit ∧
      parseUnit unit = some (.sps nalRefIdc set result) := by
  obtain ⟨unit, hunit, hparsed⟩ := Option.bind_eq_some_iff.mp h
  obtain ⟨parsed, hparse, hset⟩ := Option.bind_eq_some_iff.mp hparsed
  cases parsed with
  | malformed => cases hset
  | untyped _ => cases hset
  | sps ref x result =>
    dsimp only at hset
    split_ifs at hset
    cases hset
    exact ⟨unit, result, hunit, hparse⟩

/-- The bytes of an entry that was written for a unit. -/
theorem bytesAt_rewrittenEntry {i n : Nat} (h : i + n ≤ 4 + nal.length) :
    bytesAt (rewrittenEntry address room (nal, nal.length) :: rest) ⟨address, 0⟩ i n =
      some (((naluHeader ++ nal).drop i).take n) := by
  have hlen : (naluHeader ++ nal).length = 4 + nal.length := by
    rw [List.length_append]
    rfl
  have hwhole : i + n ≤ (naluHeader ++ nal ++ room.drop (4 + nal.length)).length := by
    rw [List.length_append, hlen]
    omega
  have hleft : ((naluHeader ++ nal ++ room.drop (4 + nal.length)).drop i).take n =
      ((naluHeader ++ nal).drop i).take n := by
    rw [List.drop_append, List.take_append_of_le_length]
    rw [List.length_drop, hlen]
    omega
  simp only [bytesAt, rewrittenEntry, List.find?_cons_of_pos, decide_true, Option.bind_eq_bind,
    Option.bind_some, Nat.zero_add]
  rw [if_pos hwhole, hleft]

theorem unitBytes_rewrittenEntry :
    unitBytes (rewrittenEntry address room (nal, nal.length) :: rest) = some nal := by
  have hsize : ((nal.length : Int) + 4 - 4).toNat = nal.length := by omega
  have h : bytesAt (rewrittenEntry address room (nal, nal.length) :: rest) ⟨address, 0⟩ 4
      nal.length = some (((naluHeader ++ nal).drop 4).take nal.length) :=
    bytesAt_rewrittenEntry (Nat.le_refl (4 + nal.length))
  have hdrop : (naluHeader ++ nal).drop 4 = nal := rfl
  rw [unitBytes, List.head?_cons, Option.bind_eq_bind, Option.bind_some]
  dsimp only [rewrittenEntry] at h ⊢
  rw [hsize, h, hdrop, List.take_length]

theorem entryBytes_rewrittenEntry :
    entryBytes (rewrittenEntry address room (nal, nal.length) :: rest) =
      some (naluHeader ++ nal) := by
  have hsize : ((nal.length : Int) + 4).toNat = 4 + nal.length := by omega
  have h : bytesAt (rewrittenEntry address room (nal, nal.length) :: rest) ⟨address, 0⟩ 0
      (4 + nal.length) = some (((naluHeader ++ nal).drop 0).take (4 + nal.length)) :=
    bytesAt_rewrittenEntry (Nat.le_of_eq (Nat.zero_add (4 + nal.length)))
  have hlen : (naluHeader ++ nal).length ≤ 4 + nal.length := by
    rw [List.length_append]
    exact Nat.le_refl _
  rw [entryBytes, List.head?_cons, Option.bind_eq_bind, Option.bind_some]
  dsimp only [rewrittenEntry] at h ⊢
  rw [hsize, h, List.drop_zero, List.take_of_length_le hlen]

/-- Behind a failed call of the writer there is no unit. -/
theorem carriedUnit_failed {written : List UInt8 × Int} (hneg : written.2 < 0) :
    carriedUnit (rewrittenEntry address room written :: rest) = none := by
  have hsize : (written.2 + 4 - 4).toNat = 0 := by omega
  have hroom : 4 ≤ (naluHeader ++ written.1 ++ room.drop (4 + written.1.length)).length := by
    rw [List.append_assoc, List.length_append]
    exact Nat.le_add_right 4 _
  have hunit : unitBytes (rewrittenEntry address room written :: rest) = some [] := by
    rw [unitBytes, List.head?_cons, Option.bind_eq_bind, Option.bind_some]
    dsimp only [rewrittenEntry]
    rw [hsize]
    simp only [bytesAt, List.find?_cons_of_pos, decide_true, Option.bind_eq_bind,
      Option.bind_some, Nat.zero_add, Nat.add_zero]
    rw [if_pos hroom, List.take_zero]
  have hparse : parseUnit [] = some (.untyped 0) := rfl
  rw [carriedUnit, hunit, Option.bind_eq_bind, Option.bind_some, hparse]
  rfl

theorem nalType_rewrittenEntry {x : UInt8} {tail : List UInt8} (hnal : nal = x :: tail)
    (hx : x &&& 0x1F = nalUnitTypeSps) :
    nalType (rewrittenEntry address room (nal, nal.length) :: rest) = some nalUnitTypeSps := by
  have hone : 4 + 1 ≤ 4 + nal.length := by
    rw [hnal, List.length_cons]
    omega
  have h : bytesAt (rewrittenEntry address room (nal, nal.length) :: rest) ⟨address, 0⟩ 4 1 =
      some (((naluHeader ++ nal).drop 4).take 1) := bytesAt_rewrittenEntry hone
  rw [nalType, List.head?_cons, Option.bind_eq_bind, Option.bind_some]
  dsimp only [rewrittenEntry] at h ⊢
  rw [h, hnal, ← hx]
  rfl

end

theorem fixedVars_rest (flags : BitVec 32) (s : SpsFix H264Rest) (nalRefIdc : BitVec 2)
    (set : SeqParameterSet) :
    (fixedVars flags s nalRefIdc set).stream.rest =
      { nalRefIdc, isSps := true, set := set.shared } := by
  simp only [fixedVars, fixSps, fixLevel]
  split_ifs <;> rfl

/-- A call with `GS_SPS_BITSTREAM_FIXUP` on a parameter set that the reader takes, whose rewritten
form `nal` fits the 124 bytes. -/
structure FixupCall where
  flags : BitVec 32
  vars : SpsFix H264Rest
  head : Lentry
  rest : List Lentry
  address : Nat
  room : List UInt8
  nalRefIdc : BitVec 2
  set : SeqParameterSet
  nal : List UInt8
  fixup : flags &&& gsSpsBitstreamFixup = gsSpsBitstreamFixup
  replay : vars.replaySps ≠ 1
  isSps : nalType (head :: rest) = some nalUnitTypeSps
  carries : carriedUnit (head :: rest) = some (nalRefIdc, set)
  room_length : room.length = 128
  fits : rbspToNal 124 0 (spsRbsp nalRefIdc (rewritten flags vars set)) = some (nal, true)

namespace FixupCall

variable {c : FixupCall}

/-- The variables when the set is written. -/
def fixed (c : FixupCall) : SpsFix H264Rest := fixedVars c.flags c.vars c.nalRefIdc c.set

def rewritten (c : FixupCall) : SeqParameterSet := Moonlight.rewritten c.flags c.vars c.set

/-- What the writer asks for beside the 124 bytes: numbers that it can write, and a quarter of the
bytes for emulation prevention. -/
def Writable (c : FixupCall) : Prop :=
  fitUe c.rewritten.codes = true ∧ (spsRbsp c.nalRefIdc c.rewritten).length ≤ 124 * 3 / 4

theorem writes (h : c.Writable) :
    writeNalUnit c.fixed.stream 124 = some (c.nal, (c.nal.length : Int)) := by
  have hrest := fixedVars_rest c.flags c.vars c.nalRefIdc c.set
  apply writeNalUnit_fits
  · rw [fixed, hrest]
  · rw [fixed, hrest, storeSps_fixedVars c.fixup]
    exact ⟨h.1, h.2, c.fits⟩

theorem writable_of_writes {bytes : List UInt8} {result : Int}
    (h : writeNalUnit c.fixed.stream 124 = some (bytes, result)) (hok : 0 ≤ result) :
    c.Writable := by
  obtain ⟨-, hdef, hsmall, -⟩ := fits_of_writeNalUnit h hok
  rw [fixed, fixedVars_rest, storeSps_fixedVars c.fixup] at hdef hsmall
  exact ⟨hdef, hsmall⟩

theorem reads (c : FixupCall) : ∃ unit, unitBytes (c.head :: c.rest) = some unit ∧
    h264Codec.readNalUnit c.vars.stream unit = loaded c.nalRefIdc c.set := by
  obtain ⟨unit, result, hunit, hparse⟩ := carriedUnit_some c.carries
  exact ⟨unit, hunit, h264Codec_readNalUnit (readNalUnit_sps hparse c.vars.stream)⟩

/-- The entry in the place of the head. -/
def emitted (c : FixupCall) : Lentry :=
  rewrittenEntry c.address c.room (c.nal, (c.nal.length : Int))

theorem run (c : FixupCall) :
    gsSpsFix h264Codec c.flags (some (c.address, c.room)) c.vars c.head c.rest = some
      { vars := c.fixed
        list := rewrittenEntry c.address c.room (h264Codec.writeNalUnit c.fixed.stream 124) :: c.rest
        null := false } := by
  obtain ⟨unit, hunit, hread⟩ := c.reads
  rw [gsSpsFix_rewrites c.replay c.isSps hunit c.room_length, hread]
  rfl

theorem run_emitted (h : c.Writable) :
    gsSpsFix h264Codec c.flags (some (c.address, c.room)) c.vars c.head c.rest =
      some { vars := c.fixed, list := c.emitted :: c.rest, null := false } := by
  rw [run, h264Codec_writeNalUnit (writes h)]
  rfl

theorem run_null (c : FixupCall) :
    gsSpsFix h264Codec c.flags none c.vars c.head c.rest =
      some { vars := c.fixed, list := c.head :: c.rest, null := true } := by
  obtain ⟨unit, hunit, hread⟩ := c.reads
  rw [gsSpsFix_null c.replay c.isSps hunit, hread]
  rfl

theorem carries_emitted (h : c.Writable) :
    carriedUnit (c.emitted :: c.rest) = some (c.nalRefIdc, c.rewritten) := by
  have hparse := parseUnit_stored h.1 c.fits
  rw [carriedUnit, emitted, unitBytes_rewrittenEntry, Option.bind_eq_bind, Option.bind_some,
    hparse, Option.bind_eq_bind, Option.bind_some]
  exact if_pos (Int.natCast_nonneg _)

/-- The call after it, on the list it left. -/
def again (c : FixupCall) (h : c.Writable) (address : Nat) (room : List UInt8)
    (hroom : room.length = 128) : FixupCall where
  flags := c.flags
  vars := c.fixed
  head := c.emitted
  rest := c.rest
  address := address
  room := room
  nalRefIdc := c.nalRefIdc
  set := c.rewritten
  nal := c.nal
  fixup := c.fixup
  replay := by
    rw [fixed, fixedVars_replaySps]
    exact c.replay
  isSps := by
    obtain ⟨x, tail, hnal, hx⟩ := stored_header c.fits
    exact nalType_rewrittenEntry hnal hx
  carries := carries_emitted h
  room_length := hroom
  fits := by
    rw [fixed, rewritten, rewritten_again]
    exact c.fits

theorem again_rewritten (h : c.Writable) (address : Nat) (room : List UInt8)
    (hroom : room.length = 128) : (c.again h address room hroom).rewritten = c.rewritten :=
  rewritten_again c.nalRefIdc c.set

theorem again_writable (h : c.Writable) (address : Nat) (room : List UInt8)
    (hroom : room.length = 128) : (c.again h address room hroom).Writable := by
  rw [Writable, again_rewritten]
  exact h

end FixupCall

/-- A call on the list that a call left changes no byte of it, whatever `malloc` returns. -/
def FixSettled (flags : BitVec 32) (s : SpsFix H264Rest) (e : Lentry) (rest : List Lentry) : Prop :=
  ∀ malloc : Option (Nat × List UInt8), (∀ m ∈ malloc, m.2.length = 128) →
    ∃ t e' null, gsSpsFix h264Codec flags malloc s e rest =
      some { vars := t, list := e' :: rest, null } ∧
      (writeNalUnit t.stream 124).isSome ∧
      ∃ bytes, entryBytes (e :: rest) = some bytes ∧ entryBytes (e' :: rest) = some bytes

/-- The fix reaches the bytes: the entry in the place of the head is read again as the set that the
fix is for, and a second call changes nothing. C defines what the writer does. -/
def FixupCall.Right (c : FixupCall) : Prop :=
  ∃ t e, gsSpsFix h264Codec c.flags (some (c.address, c.room)) c.vars c.head c.rest =
      some { vars := t, list := e :: c.rest, null := false } ∧
    (writeNalUnit t.stream 124).isSome ∧
    (∃ after, carriedUnit (e :: c.rest) = some (c.nalRefIdc, after) ∧
      FixReached c.flags c.vars c.set after) ∧
    FixSettled c.flags t e c.rest

/-- The set has elements for a restriction, it can be written, and what the fix does not mention has
a place in the rewritten unit. -/
structure FixupCall.Fixable (c : FixupCall) : Prop where
  vui : c.set.vui.isSome
  codes : ∀ v ∈ c.set.keptCodes, v < ueLimit
  oneHrd : ∀ v ∈ c.set.vui, v.OneHrd
  chroma : TakesBaseline c.flags c.vars → c.set.chroma = noChromaFormat
  size : (spsRbsp c.nalRefIdc c.rewritten).length ≤ 93

theorem fitUe_iff (codes : List Nat) : fitUe codes = true ↔ ∀ v ∈ codes, v < ueLimit := by
  simp [fitUe]

theorem FixupCall.settled {c : FixupCall} (h : c.Writable) :
    FixSettled c.flags c.fixed c.emitted c.rest := by
  have hbytes : entryBytes (c.emitted :: c.rest) = some (naluHeader ++ c.nal) :=
    entryBytes_rewrittenEntry
  have hwritten {address : Nat} {room : List UInt8} (hroom : room.length = 128) :
      (writeNalUnit (c.again h address room hroom).fixed.stream 124).isSome := by
    rw [writes (again_writable h address room hroom)]
    rfl
  intro malloc hmalloc
  cases malloc with
  | none =>
    have hrun := (c.again h 0 c.room c.room_length).run_null
    exact ⟨_, _, _, hrun, hwritten c.room_length, _, hbytes, hbytes⟩
  | some m =>
    obtain ⟨address, room⟩ := m
    have hroom : room.length = 128 := hmalloc _ rfl
    have hrun := run_emitted (again_writable h address room hroom)
    exact ⟨_, _, _, hrun, hwritten hroom, _, hbytes, entryBytes_rewrittenEntry⟩

/-- A fix that reaches the bytes was written. -/
theorem FixupCall.Right.writable {c : FixupCall} (h : c.Right) : c.Writable := by
  obtain ⟨t, e, hrun, hwritten, ⟨after, hafter, -⟩, -⟩ := h
  rw [FixupCall.run] at hrun
  cases hrun
  obtain ⟨⟨bytes, result⟩, hwrite⟩ := Option.isSome_iff_exists.mp hwritten
  apply FixupCall.writable_of_writes hwrite
  by_contra hneg
  rw [h264Codec_writeNalUnit hwrite, carriedUnit_failed (Int.not_le.mp hneg)] at hafter
  cases hafter

/-- A fix that reaches the bytes had a place in them. -/
theorem FixupCall.Right.fixable {c : FixupCall} (h : c.Right) : c.Fixable := by
  have hwritable := h.writable
  obtain ⟨t, e, hrun, -, ⟨after, hafter, hreached⟩, -⟩ := h
  rw [FixupCall.run_emitted hwritable] at hrun
  cases hrun
  rw [FixupCall.carries_emitted hwritable] at hafter
  cases hafter
  obtain ⟨hvui, hkept⟩ := fixReached_rewritten_iff.mp hreached
  obtain ⟨hone, hchroma⟩ := setKept_rewritten_iff.mp hkept
  have hcodes := (fitUe_rewritten hkept).symm.trans hwritable.1
  exact ⟨hvui, (fitUe_iff _).mp hcodes, hone, hchroma, hwritable.2⟩

theorem FixupCall.Fixable.right {c : FixupCall} (h : c.Fixable) : c.Right := by
  have hkept := setKept_rewritten_iff.mpr ⟨h.oneHrd, h.chroma⟩
  have hcodes : fitUe c.rewritten.codes = true :=
    (fitUe_rewritten hkept).trans ((fitUe_iff _).mpr h.codes)
  have hwritable : c.Writable := ⟨hcodes, h.size⟩
  refine ⟨c.fixed, c.emitted, FixupCall.run_emitted hwritable, ?_, ?_,
    FixupCall.settled hwritable⟩
  · rw [FixupCall.writes hwritable]
    rfl
  · exact ⟨c.rewritten, FixupCall.carries_emitted hwritable,
      fixReached_rewritten_iff.mpr ⟨h.vui, hkept⟩⟩

/-- The fix reaches the bytes exactly for the sets that have a place for it. -/
theorem sps_fixup_iff (c : FixupCall) : c.Right ↔ c.Fixable :=
  ⟨FixupCall.Right.fixable, FixupCall.Fixable.right⟩

/-- An entry with a start code and a unit. -/
def unitEntry (unit : List UInt8) : Lentry where
  address := 1
  length := unit.length + 4
  data := ⟨1, 0⟩
  room := naluHeader ++ unit

def plainCall : FixupCall where
  flags := gsSpsBitstreamFixup
  vars := ⟨loaded 3 (plainSet none), 1280, 720, 0⟩
  head := unitEntry [0x67, 0x42, 0, 0x1E, 0xF4, 0x16, 0x27, 0x20]
  rest := []
  address := 2
  room := List.replicate 128 0
  nalRefIdc := 3
  set := plainSet none
  nal := [0x67, 0x42, 0, 0x20, 0xF4, 0x16, 0x27, 0x20]
  fixup := rfl
  replay := by decide
  isSps := by decide
  carries := by decide
  room_length := rfl
  fits := by decide

/-- The same set with usability information, all of it absent. -/
def vuiCall : FixupCall :=
  { plainCall with
    head := unitEntry [0x67, 0x42, 0, 0x1E, 0xF4, 0x16, 0x27, 0x40, 0x10]
    set := plainSet (some ⟨none, none, none, none, none, ⟨none, none, .absent⟩, false, none⟩)
    nal := [0x67, 0x42, 0, 0x20, 0xF4, 0x16, 0x27, 0x40, 0x36, 0x82, 0x21, 0x1A, 0x80]
    isSps := by decide
    carries := by decide +kernel
    fits := by decide +kernel }

example : vuiCall.Right := by
  refine FixupCall.Fixable.right ⟨rfl, by decide, ?_, fun _ => rfl, by decide +kernel⟩
  intro v hv nal vcl hnal
  cases hv
  cases hnal

/-- Without `vui_parameters_present_flag` the writer leaves out what the fix sets. -/
theorem restriction_not_written : ¬ plainCall.Right := by
  intro h
  exact absurd h.fixable.vui (by decide)

end Moonlight
