import Moonlight.Gamestream.H264RoundTrip
import Moonlight.Gamestream.H264Nal
import Moonlight.Gamestream.Sps

/-! `read_nal_unit` and `write_nal_unit` of `third_party/h264bitstream/h264_stream.c`, for the units
`gs_sps_fix` passes to them. -/
namespace Moonlight

open Lib.Bits

/-- The loop of `read_rbsp_trailing_bits`, which ends within the turns that a byte has bits. -/
def readAlignment : Nat → BsReader Unit
  | 0 => return ()
  | left + 1 => do
    let aligned ← bsByteAligned
    if aligned then return ()
    else
      let _ ← bsReadU 1
      readAlignment left

def readRbspTrailingBits : BsReader Unit := do
  let _ ← bsReadU 1
  readAlignment 8

/-- The stop bit after `n` bits, and zeros up to the end of its byte. -/
def writeRbspTrailingBits (n : Nat) : List Bool := true :: List.replicate (7 - n % 8) false

/-- The header of a unit and the parameter set in it. A unit without bytes has type 0; the other
types never reach the reader. -/
def readUnit : BsReader (BitVec 2 × Option SeqParameterSet) := do
  let _ ← bsReadU 1
  let nalRefIdc ← readBits 2
  let nalUnitType ← bsReadU 5
  if nalUnitType = nalUnitTypeSps.toNat then
    let set ← readSeqParameterSet
    readRbspTrailingBits
    return (nalRefIdc, some set)
  else if nalUnitType = 0 then return (nalRefIdc, none)
  else failure

/-- What `read_nal_unit` finds in a unit. The result for a parameter set is the size of the unit,
or -1 when bits were read after its last byte. -/
inductive ParsedUnit where
  | malformed
  | untyped (nalRefIdc : BitVec 2)
  | sps (nalRefIdc : BitVec 2) (set : SeqParameterSet) (result : Int)
  deriving DecidableEq

def parseUnit (unit : List UInt8) : Option ParsedUnit :=
  match nalToRbsp 0 unit with
  | none => some .malformed
  | some (rbsp, size) => do
    let ((nalRefIdc, set), b) ← readUnit.run ⟨bytesToBits rbsp, 0⟩
    match set with
    | none => return .untyped nalRefIdc
    | some set => return .sps nalRefIdc set (if 8 ≤ b.past then -1 else size)

/-- What the stream holds beside the members that `gs_sps_fix` assigns: the header of the last
unit, whose type is SPS or 0, and the parameter set. -/
structure H264Rest where
  nalRefIdc : BitVec 2
  isSps : Bool
  set : SeqParameterSet

/-- Both decoders' parameters are read into `hrd`, so the second replace the first. -/
def HrdParameters.shared (x : HrdParameters) : HrdParameters where
  nal := x.nal.map fun nal => x.vcl.getD nal
  vcl := x.vcl
  lowDelayHrdFlag := ⟨x.lowDelayHrdFlag.part, by simpa using x.lowDelayHrdFlag.there⟩

def VuiParameters.shared (x : VuiParameters) : VuiParameters := { x with hrd := x.hrd.shared }

/-- The parameter set as `h->sps` holds it. -/
def SeqParameterSet.shared (x : SeqParameterSet) : SeqParameterSet :=
  { x with vui := x.vui.map VuiParameters.shared }

/-- A restriction that is not read is zeroed with the rest of the set. -/
def noRestriction : BitstreamRestriction := ⟨false, 0, 0, 0, 0, 0, 0⟩

/-- The members of `vui` that `gs_sps_fix` assigns or tests. -/
def loadVui (x : Option VuiParameters) : Vui :=
  let restriction := x.bind VuiParameters.bitstreamRestriction
  let r := restriction.getD noRestriction
  { videoSignalTypePresentFlag := (x.bind VuiParameters.videoSignalType).isSome.toNat
    chromaLocInfoPresentFlag := (x.bind VuiParameters.chromaLocInfo).isSome.toNat
    bitstreamRestrictionFlag := restriction.isSome.toNat
    motionVectorsOverPicBoundariesFlag := r.motionVectorsOverPicBoundariesFlag.toNat
    maxBytesPerPicDenom := r.maxBytesPerPicDenom
    maxBitsPerMbDenom := r.maxBitsPerMbDenom
    log2MaxMvLengthHorizontal := r.log2MaxMvLengthHorizontal
    log2MaxMvLengthVertical := r.log2MaxMvLengthVertical
    numReorderFrames := r.numReorderFrames
    maxDecFrameBuffering := r.maxDecFrameBuffering }

def loadSps (x : SeqParameterSet) : Sps where
  profileIdc := x.profileIdc.toNat
  levelIdc := x.levelIdc.toNat
  numRefFrames := x.numRefFrames
  vui := loadVui x.vui

/-- The stream after a parameter set was read. -/
def loaded (nalRefIdc : BitVec 2) (set : SeqParameterSet) : H264Stream H264Rest where
  sps := loadSps set
  rest := { nalRefIdc, isSps := true, set := set.shared }

/-- The members of `h264_new` are 0. -/
def zeroSet : SeqParameterSet where
  profileIdc := 0
  constraintSetFlags := 0
  levelIdc := 0
  seqParameterSetId := 0
  chromaFormat := .absent
  log2MaxFrameNumMinus4 := 0
  picOrderCnt := ⟨0, .here 0, .absent⟩
  numRefFrames := 0
  gapsInFrameNumValueAllowedFlag := false
  picWidthInMbsMinus1 := 0
  picHeightInMapUnitsMinus1 := 0
  frameCoding := ⟨false, .here false⟩
  direct8x8InferenceFlag := false
  frameCropping := none
  vui := none

/-- 176x144 pixels in profile 66. -/
def plainSet (vui : Option VuiParameters) : SeqParameterSet :=
  { zeroSet with
    profileIdc := 66
    levelIdc := 30
    chromaFormat := .absent
    numRefFrames := 1
    picWidthInMbsMinus1 := 10
    picHeightInMapUnitsMinus1 := 8
    frameCoding := ⟨true, .absent⟩
    direct8x8InferenceFlag := true
    vui := vui }

def h264New : H264Stream H264Rest where
  sps := loadSps zeroSet
  rest := ⟨0, false, zeroSet⟩

/-- `read_nal_unit`: the stream it leaves and its result. -/
def readNalUnit (stream : H264Stream H264Rest) (unit : List UInt8) :
    Option (H264Stream H264Rest × Int) := do
  match ← parseUnit unit with
  | .malformed => return (stream, -1)
  | .untyped nalRefIdc =>
    return ({ stream with rest := { stream.rest with nalRefIdc, isSps := false } }, -1)
  | .sps nalRefIdc set result => return (loaded nalRefIdc set, result)

/-- An `int` as an argument of type `uint32_t`. -/
def uint32 (v : Int) : Nat := if 0 ≤ v then v.toNat else (v + 2 ^ 32).toNat

/-- A flag is written as its lowest bit. -/
def flagBit (v : Int) : Bool := decide (v % 2 = 1)

/-- A part that the condition asks for although it was not read is written as it was set up. -/
def Present.ofPart {α : Type} (c : Bool) (part : Option α) (start : α) : Present c α :=
  match c with
  | true => .here (part.getD start)
  | false => .absent

/-- `chroma_format_idc` is 1 and the other members are 0 where no chroma format is read. -/
def noChromaFormat : ChromaFormat := ⟨1, .absent, 0, 0, false, none⟩

def noVideoSignalType : VideoSignalType := ⟨0, false, none⟩

def noChromaLocInfo : ChromaLocInfo := ⟨0, 0⟩

def storeVui (s : Vui) (x : VuiParameters) : VuiParameters :=
  { x with
    videoSignalType := if s.videoSignalTypePresentFlag = 0 then none
      else some (x.videoSignalType.getD noVideoSignalType)
    chromaLocInfo := if s.chromaLocInfoPresentFlag = 0 then none
      else some (x.chromaLocInfo.getD noChromaLocInfo)
    bitstreamRestriction := if s.bitstreamRestrictionFlag = 0 then none
      else some {
        motionVectorsOverPicBoundariesFlag := flagBit s.motionVectorsOverPicBoundariesFlag
        maxBytesPerPicDenom := uint32 s.maxBytesPerPicDenom
        maxBitsPerMbDenom := uint32 s.maxBitsPerMbDenom
        log2MaxMvLengthHorizontal := uint32 s.log2MaxMvLengthHorizontal
        log2MaxMvLengthVertical := uint32 s.log2MaxMvLengthVertical
        numReorderFrames := uint32 s.numReorderFrames
        maxDecFrameBuffering := uint32 s.maxDecFrameBuffering } }

/-- A profile decides whether the chroma format is written. -/
def SeqParameterSet.withProfile (x : SeqParameterSet) (profileIdc : BitVec 8) : SeqParameterSet :=
  { x with
    profileIdc
    chromaFormat := Present.ofPart (choosesChroma profileIdc) x.chromaFormat.part noChromaFormat }

/-- The parameter set as the writer finds it. -/
def storeSps (s : Sps) (x : SeqParameterSet) : SeqParameterSet :=
  { x.withProfile (BitVec.ofInt 8 s.profileIdc) with
    levelIdc := BitVec.ofInt 8 s.levelIdc
    numRefFrames := uint32 s.numRefFrames
    vui := x.vui.map (storeVui s.vui) }

/-- What is written for a unit before the trailing bits. -/
def writeUnitBits (nalRefIdc : BitVec 2) (set : SeqParameterSet) : Written :=
  writes [bsWriteU 1 0, writeBits nalRefIdc, bsWriteU 5 nalUnitTypeSps.toNat,
    writeSeqParameterSet set]

/-- The bytes of a unit before emulation prevention. -/
def spsRbsp (nalRefIdc : BitVec 2) (set : SeqParameterSet) : List UInt8 :=
  let bits := (writeUnitBits nalRefIdc set).bits
  let bits := bits ++ writeRbspTrailingBits bits.length
  bitsToBytes (bits.length / 8) bits

/-- `write_nal_unit`: the bytes it stores and its result. The bytes before emulation prevention
may take three quarters of the size. -/
def writeNalUnit (stream : H264Stream H264Rest) (size : Nat) : Option (List UInt8 × Int) :=
  if stream.rest.isSps then
    let set := storeSps stream.sps stream.rest.set
    if (writeUnitBits stream.rest.nalRefIdc set).defined then
      let rbsp := spsRbsp stream.rest.nalRefIdc set
      if size * 3 / 4 < rbsp.length then some ([], -1)
      else do
        let (nal, ok) ← rbspToNal size 0 rbsp
        return (nal, if ok then nal.length else -1)
    else none
  else some ([], -1)

theorem length_writeNalUnit {stream : H264Stream H264Rest} {size : Nat} {nal : List UInt8}
    {result : Int} (h : writeNalUnit stream size = some (nal, result)) : nal.length ≤ size := by
  unfold writeNalUnit at h
  dsimp only at h
  split_ifs at h
  · cases h
    exact Nat.zero_le _
  · obtain ⟨⟨bytes, ok⟩, hstore, hnal⟩ := Option.bind_eq_some_iff.mp h
    cases hnal
    exact length_rbspToNal hstore
  · cases h
    exact Nat.zero_le _

/-- The codec, where C defines what it does. -/
def h264Codec : H264Codec H264Rest where
  readNalUnit stream unit := ((readNalUnit stream unit).map Prod.fst).getD stream
  writeNalUnit stream size := (writeNalUnit stream size).getD ([], -1)
  stored_le stream size := by
    cases h : writeNalUnit stream size with
    | none => exact Nat.zero_le _
    | some written => exact length_writeNalUnit h

theorem h264Codec_readNalUnit {stream after : H264Stream H264Rest} {unit : List UInt8}
    {result : Int} (h : readNalUnit stream unit = some (after, result)) :
    h264Codec.readNalUnit stream unit = after :=
  congrArg (fun read => (read.map Prod.fst).getD stream) h

theorem h264Codec_writeNalUnit {stream : H264Stream H264Rest} {size : Nat}
    {written : List UInt8 × Int} (h : writeNalUnit stream size = some written) :
    h264Codec.writeNalUnit stream size = written :=
  congrArg (fun written => written.getD ([], -1)) h

section
variable {nalRefIdc : BitVec 2} {set : SeqParameterSet} {nal : List UInt8} {size : Nat}

/-- A parameter set is read into the stream whatever the stream held. -/
theorem readNalUnit_sps {unit : List UInt8} {result : Int}
    (h : parseUnit unit = some (.sps nalRefIdc set result)) (stream : H264Stream H264Rest) :
    readNalUnit stream unit = some (loaded nalRefIdc set, result) := by
  rw [readNalUnit, h]
  rfl

/-- Zeros up to the end of a byte are skipped. -/
theorem run_alignment {k left : Nat} (hk : k < 8) (hleft : k ≤ left) :
    (readAlignment left).run ⟨List.replicate k false, 0⟩ = some ((), ⟨[], 0⟩) := by
  induction k generalizing left with
  | zero => cases left <;> rfl
  | succ k ih =>
    cases left with
    | zero => omega
    | succ left =>
      have hnot : bsByteAligned.run ⟨List.replicate (k + 1) false, 0⟩ =
          some (false, ⟨List.replicate (k + 1) false, 0⟩) := by
        have hmod : ¬ (k + 1) % 8 = 0 := by omega
        simp [bsByteAligned, StateT.run, hmod]
      have hskip : (bsReadU 1).run ⟨List.replicate (k + 1) false, 0⟩ =
        some (0, ⟨List.replicate k false, 0⟩) := rfl
      rw [readAlignment, StateT.run_bind, hnot, Option.bind_eq_bind, Option.bind_some,
        if_neg Bool.false_ne_true, StateT.run_bind, hskip, Option.bind_eq_bind, Option.bind_some]
      exact ih (by omega) (by omega)

theorem run_trailingBits (n : Nat) :
    readRbspTrailingBits.run ⟨writeRbspTrailingBits n, 0⟩ = some ((), ⟨[], 0⟩) := by
  have hstop : (bsReadU 1).run ⟨writeRbspTrailingBits n, 0⟩ =
    some (1, ⟨List.replicate (7 - n % 8) false, 0⟩) := rfl
  rw [readRbspTrailingBits, StateT.run_bind, hstop, Option.bind_eq_bind, Option.bind_some]
  exact run_alignment (by omega) (by omega)

theorem defined_unitBits (nalRefIdc : BitVec 2) (set : SeqParameterSet) :
    (writeUnitBits nalRefIdc set).defined = fitUe set.codes := by
  simp [writeUnitBits, defined_seqParameterSet]

theorem run_unit (hdef : fitUe set.codes = true) (n : Nat) :
    readUnit.run ⟨(writeUnitBits nalRefIdc set).bits ++ writeRbspTrailingBits n, 0⟩ =
      some ((nalRefIdc, some set), ⟨[], 0⟩) := by
  have hset : (writeSeqParameterSet set).defined = true :=
    (defined_seqParameterSet set).trans hdef
  have hzero : TakesBack (bsReadU 1) (bsWriteU 1 0) 0 := takesBack_u (by decide)
  have htype : TakesBack (bsReadU 5) (bsWriteU 5 nalUnitTypeSps.toNat) nalUnitTypeSps.toNat :=
    takesBack_u (by decide)
  simp only [writeUnitBits, writes, List.append_assoc, List.append_nil]
  rw [readUnit, hzero.run_bind rfl, (takesBack_bits nalRefIdc).run_bind rfl, htype.run_bind rfl,
    if_pos rfl, (takesBack_seqParameterSet set).run_bind hset, StateT.run_bind,
    run_trailingBits n]
  rfl

theorem bytesToBits_spsRbsp (nalRefIdc : BitVec 2) (set : SeqParameterSet) :
    bytesToBits (spsRbsp nalRefIdc set) = (writeUnitBits nalRefIdc set).bits ++
      writeRbspTrailingBits (writeUnitBits nalRefIdc set).bits.length := by
  apply bytesToBits_bitsToBytes
  rw [List.length_append, writeRbspTrailingBits, List.length_cons, List.length_replicate]
  omega

/-- A unit as it is stored is read as the parameter set it was written for. -/
theorem parseUnit_stored (hdef : fitUe set.codes = true)
    (hnal : rbspToNal size 0 (spsRbsp nalRefIdc set) = some (nal, true)) :
    parseUnit nal = some (.sps nalRefIdc set nal.length) := by
  rw [parseUnit, nalToRbsp_rbspToNal (by omega) hnal]
  dsimp only
  rw [bytesToBits_spsRbsp, run_unit hdef]
  rfl

theorem head_spsRbsp (nalRefIdc : BitVec 2) (set : SeqParameterSet) :
    ∃ x rest, spsRbsp nalRefIdc set = x :: rest ∧ x &&& 0x1F = nalUnitTypeSps := by
  obtain ⟨b₁, b₀, bits, hbits⟩ : ∃ b₁ b₀ bits, (writeUnitBits nalRefIdc set).bits =
      false :: b₁ :: b₀ :: false :: false :: true :: true :: true :: bits :=
    ⟨_, _, _, rfl⟩
  have htype : UInt8.ofNat (ofBits [false, b₁, b₀, false, false, true, true, true]) &&& 0x1F =
      nalUnitTypeSps := by
    cases b₁ <;> cases b₀ <;> rfl
  unfold spsRbsp
  dsimp only
  rw [hbits]
  obtain ⟨n, hn⟩ : ∃ n, (false :: b₁ :: b₀ :: false :: false :: true :: true :: true :: bits ++
      writeRbspTrailingBits (false :: b₁ :: b₀ :: false :: false :: true :: true :: true ::
        bits).length).length / 8 = n + 1 := by
    refine ⟨_, (Nat.sub_add_cancel ?_).symm⟩
    simp only [List.cons_append, List.length_cons]
    omega
  rw [hn]
  exact ⟨_, _, rfl, htype⟩

/-- A unit as it is stored is one of type SPS. -/
theorem stored_header (hnal : rbspToNal size 0 (spsRbsp nalRefIdc set) = some (nal, true)) :
    ∃ x rest, nal = x :: rest ∧ x &&& 0x1F = nalUnitTypeSps := by
  obtain ⟨x, rest, hrbsp, htype⟩ := head_spsRbsp nalRefIdc set
  rw [hrbsp] at hnal
  obtain ⟨hcount, -⟩ | ⟨-, -, bytes, -, rfl, -⟩ | ⟨-, hok⟩ := rbspToNal_cons hnal
  · cases hcount
  · exact ⟨x, bytes, rfl, htype⟩
  · cases hok

/-- A unit that can be written and fits a buffer of some size. -/
def UnitFits (size : Nat) (nalRefIdc : BitVec 2) (set : SeqParameterSet) (nal : List UInt8) :
    Prop :=
  fitUe set.codes = true ∧ (spsRbsp nalRefIdc set).length ≤ size * 3 / 4 ∧
    rbspToNal size 0 (spsRbsp nalRefIdc set) = some (nal, true)

theorem writeNalUnit_fits {stream : H264Stream H264Rest} (hsps : stream.rest.isSps = true)
    (h : UnitFits size stream.rest.nalRefIdc (storeSps stream.sps stream.rest.set) nal) :
    writeNalUnit stream size = some (nal, (nal.length : Int)) := by
  obtain ⟨hdef, hsmall, hstored⟩ := h
  unfold writeNalUnit
  simp only [hsps, defined_unitBits, hdef, if_true]
  rw [if_neg (Nat.not_lt.mpr hsmall), hstored]
  rfl

/-- The writer reports success only for a unit that fits. -/
theorem fits_of_writeNalUnit {stream : H264Stream H264Rest} {result : Int}
    (h : writeNalUnit stream size = some (nal, result)) (hok : 0 ≤ result) :
    stream.rest.isSps = true ∧
      UnitFits size stream.rest.nalRefIdc (storeSps stream.sps stream.rest.set) nal := by
  unfold writeNalUnit at h
  dsimp only at h
  split_ifs at h with hsps hdef hsmall
  · cases h
    exact absurd hok (by decide)
  · obtain ⟨⟨bytes, ok⟩, hstored, hnal⟩ := Option.bind_eq_some_iff.mp h
    cases hnal
    rw [defined_unitBits] at hdef
    cases ok with
    | true => exact ⟨hsps, hdef, Nat.not_lt.mp hsmall, hstored⟩
    | false => exact absurd hok (by simp)
  · cases h
    exact absurd hok (by decide)

end

end Moonlight
