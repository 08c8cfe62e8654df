import Moonlight.Gamestream.H264Sps

/-! A sequence parameter set is read back from what is written for it, and C defines the writing
while its Exp-Golomb numbers fit 32 bits. -/
namespace Moonlight

theorem takesBack_scalingLists (u : Unit) :
    TakesBack (readScalingLists 8) (writeScalingLists u) u := by
  intro _ rest
  rfl

theorem takesBack_chromaFormat (x : ChromaFormat) :
    TakesBack readChromaFormat (writeChromaFormat x) x := by
  apply TakesBack.bind (takesBack_ue _)
  apply TakesBack.bind (takesBack_present takesBack_u1 _)
  apply TakesBack.bind (takesBack_ue _)
  apply TakesBack.bind (takesBack_ue _)
  apply TakesBack.bind (takesBack_u1 _)
  apply TakesBack.bind (takesBack_flagged takesBack_scalingLists _)
  exact takesBack_pure

theorem takesBack_picOrderCntCycle (x : PicOrderCntCycle) :
    TakesBack readPicOrderCntCycle (writePicOrderCntCycle x) x := by
  apply TakesBack.bind (takesBack_u1 _)
  apply TakesBack.bind (takesBack_se _)
  apply TakesBack.bind (takesBack_se _)
  apply TakesBack.bind (takesBack_ue _)
  apply TakesBack.bind (takesBack_bounded takesBack_se _)
  exact takesBack_pure

theorem takesBack_picOrderCnt (x : PicOrderCnt) :
    TakesBack readPicOrderCnt (writePicOrderCnt x) x := by
  apply TakesBack.bind (takesBack_ue _)
  apply TakesBack.bind (takesBack_present takesBack_ue _)
  apply TakesBack.bind (takesBack_present takesBack_picOrderCntCycle _)
  exact takesBack_pure

theorem takesBack_frameCoding (x : FrameCoding) :
    TakesBack readFrameCoding (writeFrameCoding x) x := by
  apply TakesBack.bind (takesBack_u1 _)
  apply TakesBack.bind (takesBack_present takesBack_u1 _)
  exact takesBack_pure

theorem takesBack_frameCropping (x : FrameCropping) :
    TakesBack readFrameCropping (writeFrameCropping x) x := by
  apply TakesBack.bind (takesBack_ue _)
  apply TakesBack.bind (takesBack_ue _)
  apply TakesBack.bind (takesBack_ue _)
  apply TakesBack.bind (takesBack_ue _)
  exact takesBack_pure

theorem takesBack_sar (x : Sar) : TakesBack readSar (writeSar x) x := by
  apply TakesBack.bind (takesBack_bits _)
  apply TakesBack.bind (takesBack_bits _)
  exact takesBack_pure

theorem takesBack_aspectRatio (x : AspectRatio) :
    TakesBack readAspectRatio (writeAspectRatio x) x := by
  apply TakesBack.bind (takesBack_bits _)
  apply TakesBack.bind (takesBack_present takesBack_sar _)
  exact takesBack_pure

theorem takesBack_colourDescription (x : ColourDescription) :
    TakesBack readColourDescription (writeColourDescription x) x := by
  apply TakesBack.bind (takesBack_bits _)
  apply TakesBack.bind (takesBack_bits _)
  apply TakesBack.bind (takesBack_bits _)
  exact takesBack_pure

theorem takesBack_videoSignalType (x : VideoSignalType) :
    TakesBack readVideoSignalType (writeVideoSignalType x) x := by
  apply TakesBack.bind (takesBack_bits _)
  apply TakesBack.bind (takesBack_u1 _)
  apply TakesBack.bind (takesBack_flagged takesBack_colourDescription _)
  exact takesBack_pure

theorem takesBack_chromaLocInfo (x : ChromaLocInfo) :
    TakesBack readChromaLocInfo (writeChromaLocInfo x) x := by
  apply TakesBack.bind (takesBack_ue _)
  apply TakesBack.bind (takesBack_ue _)
  exact takesBack_pure

theorem takesBack_timingInfo (x : TimingInfo) : TakesBack readTimingInfo (writeTimingInfo x) x := by
  apply TakesBack.bind (takesBack_bits _)
  apply TakesBack.bind (takesBack_bits _)
  apply TakesBack.bind (takesBack_u1 _)
  exact takesBack_pure

theorem takesBack_cpb (x : Cpb) : TakesBack readCpb (writeCpb x) x := by
  apply TakesBack.bind (takesBack_ue _)
  apply TakesBack.bind (takesBack_ue _)
  apply TakesBack.bind (takesBack_u1 _)
  exact takesBack_pure

theorem takesBack_hrdParameters (x : Hrd) :
    TakesBack readHrdParameters (writeHrdParameters x) x := by
  apply TakesBack.bind (takesBack_ue _)
  apply TakesBack.bind (takesBack_bits _)
  apply TakesBack.bind (takesBack_bits _)
  apply TakesBack.bind (takesBack_cpb _)
  apply TakesBack.bind (takesBack_bounded takesBack_cpb _)
  apply TakesBack.bind (takesBack_bits _)
  apply TakesBack.bind (takesBack_bits _)
  apply TakesBack.bind (takesBack_bits _)
  apply TakesBack.bind (takesBack_bits _)
  exact takesBack_pure

theorem takesBack_hrds (x : HrdParameters) : TakesBack readHrds (writeHrds x) x := by
  apply TakesBack.bind (takesBack_flagged takesBack_hrdParameters _)
  apply TakesBack.bind (takesBack_flagged takesBack_hrdParameters _)
  apply TakesBack.bind (takesBack_present takesBack_u1 _)
  exact takesBack_pure

theorem takesBack_bitstreamRestriction (x : BitstreamRestriction) :
    TakesBack readBitstreamRestriction (writeBitstreamRestriction x) x := by
  apply TakesBack.bind (takesBack_u1 _)
  apply TakesBack.bind (takesBack_ue _)
  apply TakesBack.bind (takesBack_ue _)
  apply TakesBack.bind (takesBack_ue _)
  apply TakesBack.bind (takesBack_ue _)
  apply TakesBack.bind (takesBack_ue _)
  apply TakesBack.bind (takesBack_ue _)
  exact takesBack_pure

theorem takesBack_vuiParameters (x : VuiParameters) :
    TakesBack readVuiParameters (writeVuiParameters x) x := by
  apply TakesBack.bind (takesBack_flagged takesBack_aspectRatio _)
  apply TakesBack.bind (takesBack_flagged takesBack_u1 _)
  apply TakesBack.bind (takesBack_flagged takesBack_videoSignalType _)
  apply TakesBack.bind (takesBack_flagged takesBack_chromaLocInfo _)
  apply TakesBack.bind (takesBack_flagged takesBack_timingInfo _)
  apply TakesBack.bind (takesBack_hrds _)
  apply TakesBack.bind (takesBack_u1 _)
  apply TakesBack.bind (takesBack_flagged takesBack_bitstreamRestriction _)
  exact takesBack_pure

theorem takesBack_seqParameterSetId (id : Fin 32) :
    TakesBack readSeqParameterSetId (bsWriteUe id) id := by
  intro hdef rest
  rw [readSeqParameterSetId, (takesBack_ue id).run_bind hdef, dif_pos id.isLt]
  rfl

/-- What is written for a parameter set is read as that parameter set. -/
theorem takesBack_seqParameterSet (x : SeqParameterSet) :
    TakesBack readSeqParameterSet (writeSeqParameterSet x) x := by
  apply TakesBack.bind (takesBack_bits _)
  apply TakesBack.bind (takesBack_bits _)
  apply TakesBack.bind (takesBack_u (Nat.two_pow_pos 2))
  apply TakesBack.bind (takesBack_bits _)
  apply TakesBack.bind (takesBack_seqParameterSetId _)
  apply TakesBack.bind (takesBack_present takesBack_chromaFormat _)
  apply TakesBack.bind (takesBack_ue _)
  apply TakesBack.bind (takesBack_picOrderCnt _)
  apply TakesBack.bind (takesBack_ue _)
  apply TakesBack.bind (takesBack_u1 _)
  apply TakesBack.bind (takesBack_ue _)
  apply TakesBack.bind (takesBack_ue _)
  apply TakesBack.bind (takesBack_frameCoding _)
  apply TakesBack.bind (takesBack_u1 _)
  apply TakesBack.bind (takesBack_flagged takesBack_frameCropping _)
  apply TakesBack.bind (takesBack_flagged takesBack_vuiParameters _)
  exact takesBack_pure

/-! The numbers that are written in Exp-Golomb code. -/

def ChromaFormat.codes (x : ChromaFormat) : List Nat :=
  [x.chromaFormatIdc, x.bitDepthLumaMinus8, x.bitDepthChromaMinus8]

def PicOrderCntCycle.codes (x : PicOrderCntCycle) : List Nat :=
  seCode x.offsetForNonRefPic :: seCode x.offsetForTopToBottomField ::
    x.offsetForRefFrame.entries.length :: x.offsetForRefFrame.entries.map seCode

def PicOrderCnt.codes (x : PicOrderCnt) : List Nat :=
  x.picOrderCntType :: (x.log2MaxPicOrderCntLsbMinus4.part.toList ++
    x.cycle.part.toList.flatMap PicOrderCntCycle.codes)

def FrameCropping.codes (x : FrameCropping) : List Nat :=
  [x.frameCropLeftOffset, x.frameCropRightOffset, x.frameCropTopOffset, x.frameCropBottomOffset]

def ChromaLocInfo.codes (x : ChromaLocInfo) : List Nat :=
  [x.chromaSampleLocTypeTopField, x.chromaSampleLocTypeBottomField]

def Cpb.codes (x : Cpb) : List Nat := [x.bitRateValueMinus1, x.cpbSizeValueMinus1]

def Hrd.codes (x : Hrd) : List Nat :=
  x.cpbs.entries.length :: (x.cpb :: x.cpbs.entries).flatMap Cpb.codes

def HrdParameters.codes (x : HrdParameters) : List Nat :=
  x.nal.toList.flatMap Hrd.codes ++ x.vcl.toList.flatMap Hrd.codes

def BitstreamRestriction.codes (x : BitstreamRestriction) : List Nat :=
  [x.maxBytesPerPicDenom, x.maxBitsPerMbDenom, x.log2MaxMvLengthHorizontal,
    x.log2MaxMvLengthVertical, x.numReorderFrames, x.maxDecFrameBuffering]

def VuiParameters.codes (x : VuiParameters) : List Nat :=
  x.chromaLocInfo.toList.flatMap ChromaLocInfo.codes ++ x.hrd.codes ++
    x.bitstreamRestriction.toList.flatMap BitstreamRestriction.codes

def SeqParameterSet.codes (x : SeqParameterSet) : List Nat :=
  x.seqParameterSetId.val :: (x.chromaFormat.part.toList.flatMap ChromaFormat.codes ++
    x.log2MaxFrameNumMinus4 :: x.picOrderCnt.codes ++
    [x.numRefFrames, x.picWidthInMbsMinus1, x.picHeightInMapUnitsMinus1] ++
    x.frameCropping.toList.flatMap FrameCropping.codes ++
    x.vui.toList.flatMap VuiParameters.codes)

/-- Every number is one that `bs_write_ue` writes. -/
def fitUe (codes : List Nat) : Bool := codes.all fun v => decide (v < ueLimit)

section
variable {α : Type} {wr : α → Written} {codes : α → List Nat} {v : Nat} {vs ws : List Nat}

@[simp] theorem fitUe_nil : fitUe [] = true := rfl

@[simp] theorem fitUe_cons : fitUe (v :: vs) = (decide (v < ueLimit) && fitUe vs) := rfl

@[simp] theorem fitUe_append : fitUe (vs ++ ws) = (fitUe vs && fitUe ws) :=
  List.all_append

@[simp] theorem defined_nil : (writes []).defined = true := rfl

@[simp] theorem defined_cons {w : Written} {us : List Written} :
    (writes (w :: us)).defined = (w.defined && (writes us).defined) := rfl

@[simp] theorem defined_u1 (b : Bool) : (bsWriteU1 b).defined = true := rfl

@[simp] theorem defined_u (n v : Nat) : (bsWriteU n v).defined = true := rfl

@[simp] theorem defined_bits {n : Nat} (v : BitVec n) : (writeBits v).defined = true := rfl

attribute [simp] defined_ue

@[simp] theorem defined_se (v : Int) : (bsWriteSe v).defined = decide (seCode v < ueLimit) :=
  defined_ue _

theorem defined_present (h : ∀ a, (wr a).defined = fitUe (codes a)) (o : Option α) :
    (writePresent wr o).defined = fitUe (o.toList.flatMap codes) := by
  cases o with
  | none => rfl
  | some a => simp [writePresent, h]

theorem defined_flagged (h : ∀ a, (wr a).defined = fitUe (codes a)) (o : Option α) :
    (writeFlagged wr o).defined = fitUe (o.toList.flatMap codes) := by
  simp [writeFlagged, defined_present h]

theorem defined_many (h : ∀ a, (wr a).defined = fitUe (codes a)) (as : List α) :
    (writeMany wr as).defined = fitUe (as.flatMap codes) := by
  induction as with
  | nil => rfl
  | cons a as ih =>
    rw [writeMany] at ih
    simp [writeMany, h, ih]

/-- A part without such numbers. -/
theorem defined_present_plain (h : ∀ a, (wr a).defined = true) (o : Option α) :
    (writePresent wr o).defined = true := by
  cases o with
  | none => rfl
  | some a => exact h a

theorem defined_flagged_plain (h : ∀ a, (wr a).defined = true) (o : Option α) :
    (writeFlagged wr o).defined = true := by
  simp [writeFlagged, defined_present_plain h]

end

@[simp] theorem defined_present_u1 (o : Option Bool) :
    (writePresent bsWriteU1 o).defined = true :=
  defined_present_plain defined_u1 o

@[simp] theorem defined_flagged_u1 (o : Option Bool) :
    (writeFlagged bsWriteU1 o).defined = true :=
  defined_flagged_plain defined_u1 o

@[simp] theorem defined_present_ue (o : Option Nat) :
    (writePresent bsWriteUe o).defined = fitUe o.toList := by
  cases o with
  | none => rfl
  | some v => simp [writePresent]

theorem defined_scalingLists (u : Unit) : (writeScalingLists u).defined = true := rfl

theorem defined_chromaFormat (x : ChromaFormat) :
    (writeChromaFormat x).defined = fitUe x.codes := by
  simp [writeChromaFormat, ChromaFormat.codes, defined_flagged_plain defined_scalingLists]

theorem defined_picOrderCntCycle (x : PicOrderCntCycle) :
    (writePicOrderCntCycle x).defined = fitUe x.codes := by
  have hse (v : Int) : (bsWriteSe v).defined = fitUe [seCode v] := by simp
  simp [writePicOrderCntCycle, PicOrderCntCycle.codes, defined_many hse, List.map_eq_flatMap]

theorem defined_picOrderCnt (x : PicOrderCnt) : (writePicOrderCnt x).defined = fitUe x.codes := by
  simp [writePicOrderCnt, PicOrderCnt.codes, defined_present defined_picOrderCntCycle]

theorem defined_frameCoding (x : FrameCoding) : (writeFrameCoding x).defined = true := by
  simp [writeFrameCoding]

theorem defined_frameCropping (x : FrameCropping) :
    (writeFrameCropping x).defined = fitUe x.codes := by
  simp [writeFrameCropping, FrameCropping.codes]

theorem defined_sar (x : Sar) : (writeSar x).defined = true := rfl

theorem defined_aspectRatio (x : AspectRatio) : (writeAspectRatio x).defined = true := by
  simp [writeAspectRatio, defined_present_plain defined_sar]

theorem defined_colourDescription (x : ColourDescription) :
    (writeColourDescription x).defined = true := rfl

theorem defined_videoSignalType (x : VideoSignalType) :
    (writeVideoSignalType x).defined = true := by
  simp [writeVideoSignalType, defined_flagged_plain defined_colourDescription]

theorem defined_chromaLocInfo (x : ChromaLocInfo) :
    (writeChromaLocInfo x).defined = fitUe x.codes := by
  simp [writeChromaLocInfo, ChromaLocInfo.codes]

theorem defined_timingInfo (x : TimingInfo) : (writeTimingInfo x).defined = true := rfl

theorem defined_cpb (x : Cpb) : (writeCpb x).defined = fitUe x.codes := by
  simp [writeCpb, Cpb.codes]

theorem defined_hrdParameters (x : Hrd) : (writeHrdParameters x).defined = fitUe x.codes := by
  simp [writeHrdParameters, Hrd.codes, defined_cpb, defined_many defined_cpb]

theorem defined_hrds (x : HrdParameters) : (writeHrds x).defined = fitUe x.codes := by
  simp [writeHrds, HrdParameters.codes, defined_flagged defined_hrdParameters]

theorem defined_bitstreamRestriction (x : BitstreamRestriction) :
    (writeBitstreamRestriction x).defined = fitUe x.codes := by
  simp [writeBitstreamRestriction, BitstreamRestriction.codes]

theorem defined_vuiParameters (x : VuiParameters) :
    (writeVuiParameters x).defined = fitUe x.codes := by
  simp [writeVuiParameters, VuiParameters.codes, defined_flagged_plain defined_aspectRatio,
    defined_flagged_plain defined_videoSignalType, defined_flagged defined_chromaLocInfo,
    defined_flagged_plain defined_timingInfo, defined_hrds,
    defined_flagged defined_bitstreamRestriction]

/-- C defines the writing of a parameter set exactly when its numbers are ones that
`bs_write_ue` writes. -/
theorem defined_seqParameterSet (x : SeqParameterSet) :
    (writeSeqParameterSet x).defined = fitUe x.codes := by
  simp [writeSeqParameterSet, SeqParameterSet.codes, defined_present defined_chromaFormat,
    defined_picOrderCnt, defined_frameCoding, defined_flagged defined_frameCropping,
    defined_flagged defined_vuiParameters]

end Moonlight
