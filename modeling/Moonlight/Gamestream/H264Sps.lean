import Moonlight.Gamestream.H264Bits

/-! The sequence parameter set of `third_party/h264bitstream/h264_stream.c`, read and written. An
element that is read under a condition is there exactly when the condition holds. -/
namespace Moonlight

/-- The elements that the profiles with a choice of chroma format add. -/
structure ChromaFormat where
  chromaFormatIdc : Nat
  residualColourTransformFlag : Present (chromaFormatIdc == 3) Bool
  bitDepthLumaMinus8 : Nat
  bitDepthChromaMinus8 : Nat
  qpprimeYZeroTransformBypassFlag : Bool
  seqScalingMatrix : Option Unit
  deriving DecidableEq

structure PicOrderCntCycle where
  deltaPicOrderAlwaysZeroFlag : Bool
  offsetForNonRefPic : Int
  offsetForTopToBottomField : Int
  offsetForRefFrame : Bounded 256 Int
  deriving DecidableEq

structure PicOrderCnt where
  picOrderCntType : Nat
  log2MaxPicOrderCntLsbMinus4 : Present (picOrderCntType == 0) Nat
  cycle : Present (picOrderCntType == 1) PicOrderCntCycle
  deriving DecidableEq

structure FrameCoding where
  frameMbsOnlyFlag : Bool
  mbAdaptiveFrameFieldFlag : Present (!frameMbsOnlyFlag) Bool
  deriving DecidableEq

structure FrameCropping where
  frameCropLeftOffset : Nat
  frameCropRightOffset : Nat
  frameCropTopOffset : Nat
  frameCropBottomOffset : Nat
  deriving DecidableEq

/-- `SAR_Extended`. -/
def sarExtended : BitVec 8 := 255

structure Sar where
  sarWidth : BitVec 16
  sarHeight : BitVec 16
  deriving DecidableEq

structure AspectRatio where
  aspectRatioIdc : BitVec 8
  sar : Present (aspectRatioIdc == sarExtended) Sar
  deriving DecidableEq

structure ColourDescription where
  colourPrimaries : BitVec 8
  transferCharacteristics : BitVec 8
  matrixCoefficients : BitVec 8
  deriving DecidableEq

structure VideoSignalType where
  videoFormat : BitVec 3
  videoFullRangeFlag : Bool
  colourDescription : Option ColourDescription
  deriving DecidableEq

structure ChromaLocInfo where
  chromaSampleLocTypeTopField : Nat
  chromaSampleLocTypeBottomField : Nat
  deriving DecidableEq

structure TimingInfo where
  numUnitsInTick : BitVec 32
  timeScale : BitVec 32
  fixedFrameRateFlag : Bool
  deriving DecidableEq

/-- One entry of the three arrays of `hrd`. -/
structure Cpb where
  bitRateValueMinus1 : Nat
  cpbSizeValueMinus1 : Nat
  cbrFlag : Bool
  deriving DecidableEq

/-- `hrd`: its arrays have 32 entries, and one is always used. -/
structure Hrd where
  bitRateScale : BitVec 4
  cpbSizeScale : BitVec 4
  cpb : Cpb
  cpbs : Bounded 31 Cpb
  initialCpbRemovalDelayLengthMinus1 : BitVec 5
  cpbRemovalDelayLengthMinus1 : BitVec 5
  dpbOutputDelayLengthMinus1 : BitVec 5
  timeOffsetLength : BitVec 5
  deriving DecidableEq

/-- The parameters of the two hypothetical decoders, as a unit holds them. -/
structure HrdParameters where
  nal : Option Hrd
  vcl : Option Hrd
  lowDelayHrdFlag : Present (nal.isSome || vcl.isSome) Bool
  deriving DecidableEq

structure BitstreamRestriction where
  motionVectorsOverPicBoundariesFlag : Bool
  maxBytesPerPicDenom : Nat
  maxBitsPerMbDenom : Nat
  log2MaxMvLengthHorizontal : Nat
  log2MaxMvLengthVertical : Nat
  numReorderFrames : Nat
  maxDecFrameBuffering : Nat
  deriving DecidableEq

structure VuiParameters where
  aspectRatio : Option AspectRatio
  overscanAppropriateFlag : Option Bool
  videoSignalType : Option VideoSignalType
  chromaLocInfo : Option ChromaLocInfo
  timingInfo : Option TimingInfo
  hrd : HrdParameters
  picStructPresentFlag : Bool
  bitstreamRestriction : Option BitstreamRestriction
  deriving DecidableEq

/-- The profiles that choose a chroma format. -/
def choosesChroma (profileIdc : BitVec 8) : Bool :=
  profileIdc == 100 || profileIdc == 110 || profileIdc == 122 || profileIdc == 144

/-- `constraintSetFlags` are `constraint_set0_flag` to `constraint_set5_flag`, and the identifier
is an index of `sps_table`. -/
structure SeqParameterSet where
  profileIdc : BitVec 8
  constraintSetFlags : BitVec 6
  levelIdc : BitVec 8
  seqParameterSetId : Fin 32
  chromaFormat : Present (choosesChroma profileIdc) ChromaFormat
  log2MaxFrameNumMinus4 : Nat
  picOrderCnt : PicOrderCnt
  numRefFrames : Nat
  gapsInFrameNumValueAllowedFlag : Bool
  picWidthInMbsMinus1 : Nat
  picHeightInMapUnitsMinus1 : Nat
  frameCoding : FrameCoding
  direct8x8InferenceFlag : Bool
  frameCropping : Option FrameCropping
  vui : Option VuiParameters
  deriving DecidableEq

/-- The loop over the scaling lists. The table for a list that is present is a null pointer. -/
def readScalingLists : Nat → BsReader Unit
  | 0 => return ()
  | left + 1 => do
    let present ← bsReadU1
    if present then failure else readScalingLists left

def readChromaFormat : BsReader ChromaFormat := do
  let chromaFormatIdc ← bsReadUe
  let residualColourTransformFlag ← readPresent (chromaFormatIdc == 3) bsReadU1
  let bitDepthLumaMinus8 ← bsReadUe
  let bitDepthChromaMinus8 ← bsReadUe
  let qpprimeYZeroTransformBypassFlag ← bsReadU1
  let seqScalingMatrix ← readFlagged (readScalingLists 8)
  return { chromaFormatIdc, residualColourTransformFlag, bitDepthLumaMinus8, bitDepthChromaMinus8,
           qpprimeYZeroTransformBypassFlag, seqScalingMatrix }

def readPicOrderCntCycle : BsReader PicOrderCntCycle := do
  let deltaPicOrderAlwaysZeroFlag ← bsReadU1
  let offsetForNonRefPic ← bsReadSe
  let offsetForTopToBottomField ← bsReadSe
  let numRefFramesInPicOrderCntCycle ← bsReadUe
  let offsetForRefFrame ← readBounded 256 bsReadSe numRefFramesInPicOrderCntCycle
  return { deltaPicOrderAlwaysZeroFlag, offsetForNonRefPic, offsetForTopToBottomField,
           offsetForRefFrame }

def readPicOrderCnt : BsReader PicOrderCnt := do
  let picOrderCntType ← bsReadUe
  let log2MaxPicOrderCntLsbMinus4 ← readPresent (picOrderCntType == 0) bsReadUe
  let cycle ← readPresent (picOrderCntType == 1) readPicOrderCntCycle
  return { picOrderCntType, log2MaxPicOrderCntLsbMinus4, cycle }

def readFrameCoding : BsReader FrameCoding := do
  let frameMbsOnlyFlag ← bsReadU1
  let mbAdaptiveFrameFieldFlag ← readPresent (!frameMbsOnlyFlag) bsReadU1
  return { frameMbsOnlyFlag, mbAdaptiveFrameFieldFlag }

def readFrameCropping : BsReader FrameCropping := do
  let frameCropLeftOffset ← bsReadUe
  let frameCropRightOffset ← bsReadUe
  let frameCropTopOffset ← bsReadUe
  let frameCropBottomOffset ← bsReadUe
  return { frameCropLeftOffset, frameCropRightOffset, frameCropTopOffset, frameCropBottomOffset }

def readSar : BsReader Sar := do
  let sarWidth ← readBits 16
  let sarHeight ← readBits 16
  return { sarWidth, sarHeight }

def readAspectRatio : BsReader AspectRatio := do
  let aspectRatioIdc ← readBits 8
  let sar ← readPresent (aspectRatioIdc == sarExtended) readSar
  return { aspectRatioIdc, sar }

def readColourDescription : BsReader ColourDescription := do
  let colourPrimaries ← readBits 8
  let transferCharacteristics ← readBits 8
  let matrixCoefficients ← readBits 8
  return { colourPrimaries, transferCharacteristics, matrixCoefficients }

def readVideoSignalType : BsReader VideoSignalType := do
  let videoFormat ← readBits 3
  let videoFullRangeFlag ← bsReadU1
  let colourDescription ← readFlagged readColourDescription
  return { videoFormat, videoFullRangeFlag, colourDescription }

def readChromaLocInfo : BsReader ChromaLocInfo := do
  let chromaSampleLocTypeTopField ← bsReadUe
  let chromaSampleLocTypeBottomField ← bsReadUe
  return { chromaSampleLocTypeTopField, chromaSampleLocTypeBottomField }

def readTimingInfo : BsReader TimingInfo := do
  let numUnitsInTick ← readBits 32
  let timeScale ← readBits 32
  let fixedFrameRateFlag ← bsReadU1
  return { numUnitsInTick, timeScale, fixedFrameRateFlag }

def readCpb : BsReader Cpb := do
  let bitRateValueMinus1 ← bsReadUe
  let cpbSizeValueMinus1 ← bsReadUe
  let cbrFlag ← bsReadU1
  return { bitRateValueMinus1, cpbSizeValueMinus1, cbrFlag }

def readHrdParameters : BsReader Hrd := do
  let cpbCntMinus1 ← bsReadUe
  let bitRateScale ← readBits 4
  let cpbSizeScale ← readBits 4
  let cpb ← readCpb
  let cpbs ← readBounded 31 readCpb cpbCntMinus1
  let initialCpbRemovalDelayLengthMinus1 ← readBits 5
  let cpbRemovalDelayLengthMinus1 ← readBits 5
  let dpbOutputDelayLengthMinus1 ← readBits 5
  let timeOffsetLength ← readBits 5
  return { bitRateScale, cpbSizeScale, cpb, cpbs, initialCpbRemovalDelayLengthMinus1,
           cpbRemovalDelayLengthMinus1, dpbOutputDelayLengthMinus1, timeOffsetLength }

/-- The part of `read_vui_parameters` about the hypothetical decoders. -/
def readHrds : BsReader HrdParameters := do
  let nal ← readFlagged readHrdParameters
  let vcl ← readFlagged readHrdParameters
  let lowDelayHrdFlag ← readPresent (nal.isSome || vcl.isSome) bsReadU1
  return { nal, vcl, lowDelayHrdFlag }

def readBitstreamRestriction : BsReader BitstreamRestriction := do
  let motionVectorsOverPicBoundariesFlag ← bsReadU1
  let maxBytesPerPicDenom ← bsReadUe
  let maxBitsPerMbDenom ← bsReadUe
  let log2MaxMvLengthHorizontal ← bsReadUe
  let log2MaxMvLengthVertical ← bsReadUe
  let numReorderFrames ← bsReadUe
  let maxDecFrameBuffering ← bsReadUe
  return { motionVectorsOverPicBoundariesFlag, maxBytesPerPicDenom, maxBitsPerMbDenom,
           log2MaxMvLengthHorizontal, log2MaxMvLengthVertical, numReorderFrames,
           maxDecFrameBuffering }

def readVuiParameters : BsReader VuiParameters := do
  let aspectRatio ← readFlagged readAspectRatio
  let overscanAppropriateFlag ← readFlagged bsReadU1
  let videoSignalType ← readFlagged readVideoSignalType
  let chromaLocInfo ← readFlagged readChromaLocInfo
  let timingInfo ← readFlagged readTimingInfo
  let hrd ← readHrds
  let picStructPresentFlag ← bsReadU1
  let bitstreamRestriction ← readFlagged readBitstreamRestriction
  return { aspectRatio, overscanAppropriateFlag, videoSignalType, chromaLocInfo, timingInfo, hrd,
           picStructPresentFlag, bitstreamRestriction }

/-- The parameter set is copied to this index of `sps_table`, for 0 onto itself. -/
def readSeqParameterSetId : BsReader (Fin 32) := do
  let id ← bsReadUe
  if h : id < 32 then return ⟨id, h⟩ else failure

/-- `read_seq_parameter_set_rbsp` up to the trailing bits. -/
def readSeqParameterSet : BsReader SeqParameterSet := do
  let profileIdc ← readBits 8
  let constraintSetFlags ← readBits 6
  let _ ← bsReadU 2
  let levelIdc ← readBits 8
  let seqParameterSetId ← readSeqParameterSetId
  let chromaFormat ← readPresent (choosesChroma profileIdc) readChromaFormat
  let log2MaxFrameNumMinus4 ← bsReadUe
  let picOrderCnt ← readPicOrderCnt
  let numRefFrames ← bsReadUe
  let gapsInFrameNumValueAllowedFlag ← bsReadU1
  let picWidthInMbsMinus1 ← bsReadUe
  let picHeightInMapUnitsMinus1 ← bsReadUe
  let frameCoding ← readFrameCoding
  let direct8x8InferenceFlag ← bsReadU1
  let frameCropping ← readFlagged readFrameCropping
  let vui ← readFlagged readVuiParameters
  return { profileIdc, constraintSetFlags, levelIdc, seqParameterSetId, chromaFormat,
           log2MaxFrameNumMinus4, picOrderCnt, numRefFrames, gapsInFrameNumValueAllowedFlag,
           picWidthInMbsMinus1, picHeightInMapUnitsMinus1, frameCoding, direct8x8InferenceFlag,
           frameCropping, vui }

def writeScalingLists (_ : Unit) : Written := writes (List.replicate 8 (bsWriteU1 false))

def writeChromaFormat (x : ChromaFormat) : Written :=
  writes [bsWriteUe x.chromaFormatIdc,
    writePresent bsWriteU1 x.residualColourTransformFlag.part,
    bsWriteUe x.bitDepthLumaMinus8,
    bsWriteUe x.bitDepthChromaMinus8,
    bsWriteU1 x.qpprimeYZeroTransformBypassFlag,
    writeFlagged writeScalingLists x.seqScalingMatrix]

def writePicOrderCntCycle (x : PicOrderCntCycle) : Written :=
  writes [bsWriteU1 x.deltaPicOrderAlwaysZeroFlag,
    bsWriteSe x.offsetForNonRefPic,
    bsWriteSe x.offsetForTopToBottomField,
    bsWriteUe x.offsetForRefFrame.entries.length,
    writeMany bsWriteSe x.offsetForRefFrame.entries]

def writePicOrderCnt (x : PicOrderCnt) : Written :=
  writes [bsWriteUe x.picOrderCntType,
    writePresent bsWriteUe x.log2MaxPicOrderCntLsbMinus4.part,
    writePresent writePicOrderCntCycle x.cycle.part]

def writeFrameCoding (x : FrameCoding) : Written :=
  writes [bsWriteU1 x.frameMbsOnlyFlag, writePresent bsWriteU1 x.mbAdaptiveFrameFieldFlag.part]

def writeFrameCropping (x : FrameCropping) : Written :=
  writes [bsWriteUe x.frameCropLeftOffset,
    bsWriteUe x.frameCropRightOffset,
    bsWriteUe x.frameCropTopOffset,
    bsWriteUe x.frameCropBottomOffset]

def writeSar (x : Sar) : Written := writes [writeBits x.sarWidth, writeBits x.sarHeight]

def writeAspectRatio (x : AspectRatio) : Written :=
  writes [writeBits x.aspectRatioIdc, writePresent writeSar x.sar.part]

def writeColourDescription (x : ColourDescription) : Written :=
  writes [writeBits x.colourPrimaries,
    writeBits x.transferCharacteristics,
    writeBits x.matrixCoefficients]

def writeVideoSignalType (x : VideoSignalType) : Written :=
  writes [writeBits x.videoFormat,
    bsWriteU1 x.videoFullRangeFlag,
    writeFlagged writeColourDescription x.colourDescription]

def writeChromaLocInfo (x : ChromaLocInfo) : Written :=
  writes [bsWriteUe x.chromaSampleLocTypeTopField, bsWriteUe x.chromaSampleLocTypeBottomField]

def writeTimingInfo (x : TimingInfo) : Written :=
  writes [writeBits x.numUnitsInTick, writeBits x.timeScale, bsWriteU1 x.fixedFrameRateFlag]

def writeCpb (x : Cpb) : Written :=
  writes [bsWriteUe x.bitRateValueMinus1, bsWriteUe x.cpbSizeValueMinus1, bsWriteU1 x.cbrFlag]

def writeHrdParameters (x : Hrd) : Written :=
  writes [bsWriteUe x.cpbs.entries.length,
    writeBits x.bitRateScale,
    writeBits x.cpbSizeScale,
    writeCpb x.cpb,
    writeMany writeCpb x.cpbs.entries,
    writeBits x.initialCpbRemovalDelayLengthMinus1,
    writeBits x.cpbRemovalDelayLengthMinus1,
    writeBits x.dpbOutputDelayLengthMinus1,
    writeBits x.timeOffsetLength]

def writeHrds (x : HrdParameters) : Written :=
  writes [writeFlagged writeHrdParameters x.nal,
    writeFlagged writeHrdParameters x.vcl,
    writePresent bsWriteU1 x.lowDelayHrdFlag.part]

def writeBitstreamRestriction (x : BitstreamRestriction) : Written :=
  writes [bsWriteU1 x.motionVectorsOverPicBoundariesFlag,
    bsWriteUe x.maxBytesPerPicDenom,
    bsWriteUe x.maxBitsPerMbDenom,
    bsWriteUe x.log2MaxMvLengthHorizontal,
    bsWriteUe x.log2MaxMvLengthVertical,
    bsWriteUe x.numReorderFrames,
    bsWriteUe x.maxDecFrameBuffering]

def writeVuiParameters (x : VuiParameters) : Written :=
  writes [writeFlagged writeAspectRatio x.aspectRatio,
    writeFlagged bsWriteU1 x.overscanAppropriateFlag,
    writeFlagged writeVideoSignalType x.videoSignalType,
    writeFlagged writeChromaLocInfo x.chromaLocInfo,
    writeFlagged writeTimingInfo x.timingInfo,
    writeHrds x.hrd,
    bsWriteU1 x.picStructPresentFlag,
    writeFlagged writeBitstreamRestriction x.bitstreamRestriction]

/-- `write_seq_parameter_set_rbsp` up to the trailing bits. -/
def writeSeqParameterSet (x : SeqParameterSet) : Written :=
  writes [writeBits x.profileIdc,
    writeBits x.constraintSetFlags,
    bsWriteU 2 0,
    writeBits x.levelIdc,
    bsWriteUe x.seqParameterSetId,
    writePresent writeChromaFormat x.chromaFormat.part,
    bsWriteUe x.log2MaxFrameNumMinus4,
    writePicOrderCnt x.picOrderCnt,
    bsWriteUe x.numRefFrames,
    bsWriteU1 x.gapsInFrameNumValueAllowedFlag,
    bsWriteUe x.picWidthInMbsMinus1,
    bsWriteUe x.picHeightInMapUnitsMinus1,
    writeFrameCoding x.frameCoding,
    bsWriteU1 x.direct8x8InferenceFlag,
    writeFlagged writeFrameCropping x.frameCropping,
    writeFlagged writeVuiParameters x.vui]

end Moonlight
