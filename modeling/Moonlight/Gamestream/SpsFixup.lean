import Moonlight.Gamestream.H264Unit
import Moonlight.Gamestream.SpsReplay
import Mathlib.Data.Option.Basic

/-! `GS_SPS_BITSTREAM_FIXUP`, on parameter sets as a unit holds them: which of the changes to the
parsed members the rewritten unit carries. -/
namespace Moonlight

variable {flags : BitVec 32} {s : SpsFix H264Rest} {nalRefIdc : BitVec 2} {set : SeqParameterSet}

/-- The profile is replaced before the parameter set was replayed. -/
abbrev TakesBaseline (flags : BitVec 32) (s : SpsFix H264Rest) : Prop :=
  flags &&& gsSpsBaselineHack = gsSpsBaselineHack ∧ s.replaySps = 0

def fixedProfile (flags : BitVec 32) (s : SpsFix H264Rest) (profileIdc : BitVec 8) : BitVec 8 :=
  if TakesBaseline flags s then 66 else profileIdc

def fixedLevel (s : SpsFix H264Rest) (levelIdc : BitVec 8) : BitVec 8 :=
  if s.initialWidth = 1280 ∧ s.initialHeight = 720 then 32
  else if s.initialHeight = 1080 then 42
  else levelIdc

/-- Values that are there stand, up to the ones every set is given. -/
def fixedRestriction : Option BitstreamRestriction → BitstreamRestriction
  | none => ⟨true, 2, 1, 16, 16, 0, 1⟩
  | some r => { r with maxBytesPerPicDenom := 2, maxBitsPerMbDenom := 1, maxDecFrameBuffering := 1 }

def fixedVui (v : VuiParameters) : VuiParameters :=
  { v.shared with
    videoSignalType := none
    chromaLocInfo := none
    bitstreamRestriction := some (fixedRestriction v.bitstreamRestriction) }

/-- The parameter set that is written in the place of one that was read. -/
def rewritten (flags : BitVec 32) (s : SpsFix H264Rest) (set : SeqParameterSet) :
    SeqParameterSet :=
  { set.withProfile (fixedProfile flags s set.profileIdc) with
    levelIdc := fixedLevel s set.levelIdc
    numRefFrames := 1
    vui := set.vui.map fixedVui }

/-- The variables before the rewritten set is written. -/
def fixedVars (flags : BitVec 32) (s : SpsFix H264Rest) (nalRefIdc : BitVec 2)
    (set : SeqParameterSet) : SpsFix H264Rest :=
  fixSps flags { s with stream := loaded nalRefIdc set }

@[simp] theorem uint32_natCast (n : Nat) : uint32 n = n := by
  simp [uint32]

@[simp] theorem flagBit_toNat (b : Bool) : flagBit b.toNat = b := by
  cases b <;> rfl

theorem ofInt_toNat (x : BitVec 8) : BitVec.ofInt 8 x.toNat = x := by
  rw [BitVec.ofInt_natCast, BitVec.ofNat_toNat, BitVec.setWidth_eq]

theorem storeVui_fixed (h : flags &&& gsSpsBitstreamFixup = gsSpsBitstreamFixup)
    (v : VuiParameters) :
    storeVui (fixRestriction flags (fixVui (loadVui (some v)))) v.shared = fixedVui v := by
  unfold fixRestriction
  rw [if_pos h]
  cases hr : v.bitstreamRestriction with
  | none =>
    simp [storeVui, fixVui, loadVui, fixedVui, fixedRestriction, hr]
    decide
  | some r =>
    simp [storeVui, fixVui, loadVui, fixedVui, fixedRestriction, hr]
    decide

theorem fixVars_level (nalRefIdc : BitVec 2) (set : SeqParameterSet) :
    BitVec.ofInt 8 (fixedVars flags s nalRefIdc set).stream.sps.levelIdc =
      fixedLevel s set.levelIdc := by
  simp only [fixedVars, fixSps, fixLevel, fixedLevel]
  split_ifs
  · rfl
  · rfl
  · exact ofInt_toNat set.levelIdc

theorem fixVars_profile (nalRefIdc : BitVec 2) (set : SeqParameterSet) :
    BitVec.ofInt 8 (fixedVars flags s nalRefIdc set).stream.sps.profileIdc =
      fixedProfile flags s set.profileIdc := by
  have hlevel (t : SpsFix H264Rest) : (fixLevel t).replaySps = t.replaySps ∧
      (fixLevel t).stream.sps.profileIdc = t.stream.sps.profileIdc := by
    unfold fixLevel
    split_ifs <;> exact ⟨rfl, rfl⟩
  obtain ⟨hreplay, hprofile⟩ := hlevel { s with stream := loaded nalRefIdc set }
  simp only [fixedVars, fixSps, hreplay, hprofile]
  by_cases hbase : TakesBaseline flags s
  · rw [fixedProfile, if_pos hbase, if_pos hbase]
    rfl
  · rw [fixedProfile, if_neg hbase, if_neg hbase]
    exact ofInt_toNat set.profileIdc

theorem fixVars_vui (nalRefIdc : BitVec 2) (set : SeqParameterSet) :
    (fixedVars flags s nalRefIdc set).stream.sps.vui =
      fixRestriction flags (fixVui (loadVui set.vui)) := by
  have hlevel (t : SpsFix H264Rest) : (fixLevel t).stream.sps.vui = t.stream.sps.vui := by
    unfold fixLevel
    split_ifs <;> rfl
  exact congrArg (fun vui => fixRestriction flags (fixVui vui)) (hlevel _)

/-- The assignments of `gs_sps_fix`, as the writer finds them. -/
theorem storeSps_fixedVars (h : flags &&& gsSpsBitstreamFixup = gsSpsBitstreamFixup)
    (nalRefIdc : BitVec 2) (set : SeqParameterSet) :
    storeSps (fixedVars flags s nalRefIdc set).stream.sps set.shared = rewritten flags s set := by
  have hvui : set.shared.vui.map (storeVui (fixedVars flags s nalRefIdc set).stream.sps.vui) =
      set.vui.map fixedVui := by
    rw [fixVars_vui]
    cases hv : set.vui with
    | none => simp [SeqParameterSet.shared, hv]
    | some v => simp [SeqParameterSet.shared, hv, storeVui_fixed h]
  unfold storeSps
  rw [hvui, fixVars_level, fixVars_profile]
  rfl

theorem ofPart_part {α : Type} {c : Bool} (x : Present c α) (start : α) :
    Present.ofPart c x.part start = x := by
  obtain ⟨part, there⟩ := x
  subst there
  cases part <;> rfl

theorem withProfile_self (x : SeqParameterSet) : x.withProfile x.profileIdc = x := by
  rw [SeqParameterSet.withProfile, ofPart_part]

theorem HrdParameters.eq_of_parts {x y : HrdParameters} (hnal : x.nal = y.nal)
    (hvcl : x.vcl = y.vcl) (hlow : x.lowDelayHrdFlag.part = y.lowDelayHrdFlag.part) : x = y := by
  obtain ⟨nal, vcl, low⟩ := x
  obtain ⟨nal', vcl', low'⟩ := y
  cases hnal
  cases hvcl
  have hsame : low = low' := Present.ext hlow
  rw [hsame]

/-- Both decoders' parameters are kept when they are the same. -/
theorem hrd_shared_iff (x : HrdParameters) :
    x.shared = x ↔ ∀ nal vcl, x.nal = some nal → x.vcl = some vcl → nal = vcl := by
  constructor
  · intro h nal vcl hnal hvcl
    have hsame : x.nal.map (fun nal => x.vcl.getD nal) = x.nal :=
      congrArg HrdParameters.nal h
    rw [hnal, hvcl] at hsame
    exact (Option.some.inj hsame).symm
  · intro h
    refine HrdParameters.eq_of_parts ?_ rfl rfl
    cases hnal : x.nal with
    | none => simp [HrdParameters.shared, hnal]
    | some nal =>
      cases hvcl : x.vcl with
      | none => simp [HrdParameters.shared, hnal, hvcl]
      | some vcl => simp [HrdParameters.shared, hnal, hvcl, h nal vcl hnal hvcl]

theorem hrd_shared_shared (x : HrdParameters) : x.shared.shared = x.shared := by
  rw [hrd_shared_iff]
  intro nal vcl hnal hvcl
  have hvcl' : x.vcl = some vcl := hvcl
  rw [HrdParameters.shared, Option.map_eq_some_iff] at hnal
  obtain ⟨first, -, hfirst⟩ := hnal
  rw [← hfirst, hvcl', Option.getD_some]

theorem fixedVui_fixedVui (v : VuiParameters) : fixedVui (fixedVui v) = fixedVui v := by
  have hrestriction : fixedRestriction (some (fixedRestriction v.bitstreamRestriction)) =
      fixedRestriction v.bitstreamRestriction := by
    cases v.bitstreamRestriction <;> rfl
  simp [fixedVui, VuiParameters.shared, hrd_shared_shared, hrestriction]

theorem fixedVars_replaySps (nalRefIdc : BitVec 2) (set : SeqParameterSet) :
    (fixedVars flags s nalRefIdc set).replaySps = s.replaySps :=
  fixSps_replaySps flags _

theorem fixedProfile_again (nalRefIdc : BitVec 2) (set : SeqParameterSet) (p : BitVec 8) :
    fixedProfile flags (fixedVars flags s nalRefIdc set) (fixedProfile flags s p) =
      fixedProfile flags s p := by
  unfold fixedProfile TakesBaseline
  rw [fixedVars_replaySps]
  split_ifs <;> rfl

theorem fixedLevel_again (nalRefIdc : BitVec 2) (set : SeqParameterSet) (l : BitVec 8) :
    fixedLevel (fixedVars flags s nalRefIdc set) (fixedLevel s l) = fixedLevel s l := by
  simp only [fixedLevel, fixedVars, fixSps, fixLevel]
  split_ifs <;> simp_all

theorem rewritten_eq_self {x : SeqParameterSet}
    (hprofile : fixedProfile flags s x.profileIdc = x.profileIdc)
    (hlevel : fixedLevel s x.levelIdc = x.levelIdc) (hframes : x.numRefFrames = 1)
    (hvui : x.vui.map fixedVui = x.vui) : rewritten flags s x = x := by
  rw [rewritten, hprofile, hlevel, hvui, withProfile_self, ← hframes]

/-- Rewriting what was rewritten changes nothing. -/
theorem rewritten_again (nalRefIdc : BitVec 2) (set : SeqParameterSet) :
    rewritten flags (fixedVars flags s nalRefIdc set) (rewritten flags s set) =
      rewritten flags s set := by
  apply rewritten_eq_self
  · exact fixedProfile_again nalRefIdc set set.profileIdc
  · exact fixedLevel_again nalRefIdc set set.levelIdc
  · rfl
  · have htwice : fixedVui ∘ fixedVui = fixedVui := funext fixedVui_fixedVui
    rw [rewritten, Option.map_map, htwice]

/-- The chroma format as the members of `h->sps` hold it. -/
def SeqParameterSet.chroma (x : SeqParameterSet) : ChromaFormat :=
  x.chromaFormat.part.getD noChromaFormat

/-- The elements that the fix does not mention; a restriction that was there keeps its values. -/
structure VuiKept (before after : VuiParameters) : Prop where
  aspectRatio : after.aspectRatio = before.aspectRatio
  overscan : after.overscanAppropriateFlag = before.overscanAppropriateFlag
  timing : after.timingInfo = before.timingInfo
  hrd : after.hrd = before.hrd
  picStruct : after.picStructPresentFlag = before.picStructPresentFlag
  restriction : ∀ r ∈ before.bitstreamRestriction, ∃ r' ∈ after.bitstreamRestriction,
    r'.motionVectorsOverPicBoundariesFlag = r.motionVectorsOverPicBoundariesFlag ∧
    r'.log2MaxMvLengthHorizontal = r.log2MaxMvLengthHorizontal ∧
    r'.log2MaxMvLengthVertical = r.log2MaxMvLengthVertical ∧
    r'.numReorderFrames = r.numReorderFrames

structure SetKept (before after : SeqParameterSet) : Prop where
  constraintSetFlags : after.constraintSetFlags = before.constraintSetFlags
  seqParameterSetId : after.seqParameterSetId = before.seqParameterSetId
  chroma : after.chroma = before.chroma
  log2MaxFrameNum : after.log2MaxFrameNumMinus4 = before.log2MaxFrameNumMinus4
  picOrderCnt : after.picOrderCnt = before.picOrderCnt
  gaps : after.gapsInFrameNumValueAllowedFlag = before.gapsInFrameNumValueAllowedFlag
  width : after.picWidthInMbsMinus1 = before.picWidthInMbsMinus1
  height : after.picHeightInMapUnitsMinus1 = before.picHeightInMapUnitsMinus1
  frameCoding : after.frameCoding = before.frameCoding
  direct8x8 : after.direct8x8InferenceFlag = before.direct8x8InferenceFlag
  cropping : after.frameCropping = before.frameCropping
  vui : Option.Rel VuiKept before.vui after.vui

/-- What the fix is for: one reference frame, a restriction to one buffered frame, and no elements
that some decoders do not take. -/
structure FixReached (flags : BitVec 32) (s : SpsFix H264Rest) (before after : SeqParameterSet) :
    Prop where
  numRefFrames : after.numRefFrames = 1
  restricted : ∃ v ∈ after.vui, v.videoSignalType = none ∧ v.chromaLocInfo = none ∧
    ∃ r ∈ v.bitstreamRestriction, r.maxDecFrameBuffering = 1
  profile : after.profileIdc = fixedProfile flags s before.profileIdc
  level : after.levelIdc = fixedLevel s before.levelIdc
  kept : SetKept before after

/-- Only one of the two decoders' parameters is there, or both are the same. -/
def VuiParameters.OneHrd (v : VuiParameters) : Prop :=
  ∀ nal vcl, v.hrd.nal = some nal → v.hrd.vcl = some vcl → nal = vcl

theorem vuiKept_fixedVui_iff (v : VuiParameters) : VuiKept v (fixedVui v) ↔ v.OneHrd := by
  rw [VuiParameters.OneHrd, ← hrd_shared_iff]
  constructor
  · intro h
    exact h.hrd
  · intro h
    refine ⟨rfl, rfl, rfl, h, rfl, ?_⟩
    intro r hr
    refine ⟨_, rfl, ?_⟩
    rw [Option.mem_def.mp hr]
    exact ⟨rfl, rfl, rfl, rfl⟩

theorem vuiKept_map_iff (o : Option VuiParameters) :
    Option.Rel VuiKept o (o.map fixedVui) ↔ ∀ v ∈ o, v.OneHrd := by
  cases o with
  | none => simp
  | some v => simp [vuiKept_fixedVui_iff]

theorem chroma_withProfile_iff (x : SeqParameterSet) :
    (x.withProfile (fixedProfile flags s x.profileIdc)).chroma = x.chroma ↔
      (TakesBaseline flags s → x.chroma = noChromaFormat) := by
  by_cases hbase : TakesBaseline flags s
  · have hnone : (x.withProfile (fixedProfile flags s x.profileIdc)).chroma = noChromaFormat := by
      rw [fixedProfile, if_pos hbase]
      rfl
    rw [hnone, eq_comm]
    exact ⟨fun h _ => h, fun h => h hbase⟩
  · have hsame : x.withProfile (fixedProfile flags s x.profileIdc) = x := by
      rw [fixedProfile, if_neg hbase, withProfile_self]
    rw [hsame]
    exact ⟨fun _ h => absurd h hbase, fun _ => rfl⟩

/-- The rewritten set differs from the one read only as intended, but for the two cases in which
a part of the unit has no place of its own. -/
theorem setKept_rewritten_iff :
    SetKept set (rewritten flags s set) ↔
      (∀ v ∈ set.vui, v.OneHrd) ∧ (TakesBaseline flags s → set.chroma = noChromaFormat) := by
  rw [← vuiKept_map_iff, ← chroma_withProfile_iff]
  constructor
  · intro h
    exact ⟨h.vui, h.chroma⟩
  · rintro ⟨hvui, hchroma⟩
    exact ⟨rfl, rfl, hchroma, rfl, rfl, rfl, rfl, rfl, rfl, rfl, rfl, hvui⟩

theorem fixReached_rewritten_iff :
    FixReached flags s set (rewritten flags s set) ↔
      set.vui.isSome ∧ SetKept set (rewritten flags s set) := by
  constructor
  · intro h
    obtain ⟨v, hv, -⟩ := h.restricted
    obtain ⟨before, hbefore, -⟩ := Option.map_eq_some_iff.mp (Option.mem_def.mp hv)
    exact ⟨Option.isSome_iff_exists.mpr ⟨before, hbefore⟩, h.kept⟩
  · rintro ⟨hvui, hkept⟩
    obtain ⟨v, hv⟩ := Option.isSome_iff_exists.mp hvui
    refine ⟨rfl, ⟨fixedVui v, ?_, rfl, rfl, _, rfl, ?_⟩, rfl, rfl, hkept⟩
    · rw [rewritten, hv]
      rfl
    · cases v.bitstreamRestriction <;> rfl

/-- The numbers in Exp-Golomb code that stay in the rewritten set. -/
def VuiParameters.keptCodes (v : VuiParameters) : List Nat :=
  v.hrd.codes ++ v.bitstreamRestriction.toList.flatMap fun r =>
    [r.log2MaxMvLengthHorizontal, r.log2MaxMvLengthVertical, r.numReorderFrames]

def SeqParameterSet.keptCodes (x : SeqParameterSet) : List Nat :=
  x.chroma.codes ++ x.log2MaxFrameNumMinus4 :: x.picOrderCnt.codes ++
    [x.picWidthInMbsMinus1, x.picHeightInMapUnitsMinus1] ++
    x.frameCropping.toList.flatMap FrameCropping.codes ++
    x.vui.toList.flatMap VuiParameters.keptCodes

theorem fitUe_chroma (x : SeqParameterSet) :
    fitUe (x.chromaFormat.part.toList.flatMap ChromaFormat.codes) = fitUe x.chroma.codes := by
  unfold SeqParameterSet.chroma
  cases x.chromaFormat.part with
  | none => rfl
  | some c => simp

theorem fitUe_fixedVui {v : VuiParameters} (h : v.OneHrd) :
    fitUe (fixedVui v).codes = fitUe v.keptCodes := by
  have hhrd : v.hrd.shared = v.hrd := (hrd_shared_iff v.hrd).mpr h
  cases hr : v.bitstreamRestriction with
  | none =>
    simp [VuiParameters.codes, VuiParameters.keptCodes, fixedVui, VuiParameters.shared, hhrd, hr,
      fixedRestriction, BitstreamRestriction.codes, ueLimit]
  | some r =>
    simp [VuiParameters.codes, VuiParameters.keptCodes, fixedVui, VuiParameters.shared, hhrd, hr,
      fixedRestriction, BitstreamRestriction.codes, ueLimit]

/-- A set that is rewritten only as intended is written where its kept numbers are. -/
theorem fitUe_rewritten (h : SetKept set (rewritten flags s set)) :
    fitUe (rewritten flags s set).codes = fitUe set.keptCodes := by
  have hid : decide (set.seqParameterSetId.val < ueLimit) = true :=
    decide_eq_true (Nat.lt_of_lt_of_le set.seqParameterSetId.isLt (by decide))
  have hchroma : fitUe ((rewritten flags s set).chromaFormat.part.toList.flatMap
      ChromaFormat.codes) = fitUe set.chroma.codes := by
    rw [fitUe_chroma, h.chroma]
  have hvui : fitUe ((set.vui.map fixedVui).toList.flatMap VuiParameters.codes) =
      fitUe (set.vui.toList.flatMap VuiParameters.keptCodes) := by
    have hone := (vuiKept_map_iff set.vui).mp h.vui
    cases hv : set.vui with
    | none => rfl
    | some v => simp [fitUe_fixedVui (hone v hv)]
  have hframes : decide (1 < ueLimit) = true := rfl
  have hcodes : (rewritten flags s set).codes = set.seqParameterSetId.val ::
      ((rewritten flags s set).chromaFormat.part.toList.flatMap ChromaFormat.codes ++
        set.log2MaxFrameNumMinus4 :: set.picOrderCnt.codes ++
        [1, set.picWidthInMbsMinus1, set.picHeightInMapUnitsMinus1] ++
        set.frameCropping.toList.flatMap FrameCropping.codes ++
        (set.vui.map fixedVui).toList.flatMap VuiParameters.codes) := rfl
  rw [hcodes, SeqParameterSet.keptCodes]
  simp only [fitUe_cons, fitUe_append, fitUe_nil, hchroma, hvui]
  rw [hid, hframes, Bool.true_and, Bool.true_and]

end Moonlight
