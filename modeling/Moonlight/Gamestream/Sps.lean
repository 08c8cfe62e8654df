import Mathlib.Data.List.Basic

/-! `gs_sps_fix` of `libgamestream/sps.c`. The bitstream codec it calls is a parameter; the list
of buffers is a list of allocations, each a header and the bytes behind it. -/
namespace Moonlight

/-- The members of `vui` that `gs_sps_fix` assigns or tests. -/
structure Vui where
  videoSignalTypePresentFlag : Int
  chromaLocInfoPresentFlag : Int
  bitstreamRestrictionFlag : Int
  motionVectorsOverPicBoundariesFlag : Int
  maxBytesPerPicDenom : Int
  maxBitsPerMbDenom : Int
  log2MaxMvLengthHorizontal : Int
  log2MaxMvLengthVertical : Int
  numReorderFrames : Int
  maxDecFrameBuffering : Int

structure Sps where
  profileIdc : Int
  levelIdc : Int
  numRefFrames : Int
  vui : Vui

/-- `h264_stream_t`: the parsed parameter set, and everything else the codec keeps. -/
structure H264Stream (R : Type) where
  sps : Sps
  rest : R

/-- `read_nal_unit` on a unit, and `write_nal_unit` into a buffer of some size: the bytes it
stores from the start of the buffer, and its result. -/
structure H264Codec (R : Type) where
  readNalUnit : H264Stream R → List UInt8 → H264Stream R
  writeNalUnit : H264Stream R → Nat → List UInt8 × Int
  stored_le : ∀ stream size, (writeNalUnit stream size).1.length ≤ size

/-- An address within the bytes behind some `LENTRY` header. -/
structure Pointer where
  block : Nat
  offset : Nat
  deriving DecidableEq

/-- A `LENTRY` allocation; `next` is the order of the list, `room` the bytes behind the header. -/
structure Lentry where
  address : Nat
  length : Int
  data : Pointer
  room : List UInt8
  deriving DecidableEq

def nalUnitTypeSps : UInt8 := 7

def nalUnitTypePps : UInt8 := 8

def h264ProfileBaseline : Int := 66

def h264ProfileHigh : Int := 100

/-- `GS_SPS_BITSTREAM_FIXUP`. -/
def gsSpsBitstreamFixup : BitVec 32 := 1

/-- `GS_SPS_BASELINE_HACK`. -/
def gsSpsBaselineHack : BitVec 32 := 2

def naluHeader : List UInt8 := [0, 0, 0, 1]

/-- The static variables of `sps.c`. -/
structure SpsFix (R : Type) where
  stream : H264Stream R
  initialWidth : Int
  initialHeight : Int
  replaySps : Nat

/-- The bytes from `i` on are replaced; a write past the end has no meaning. -/
def storeAt (room : List UInt8) (i : Nat) (bytes : List UInt8) : Option (List UInt8) :=
  if i + bytes.length ≤ room.length then
    some (room.take i ++ bytes ++ room.drop (i + bytes.length))
  else none

/-- Some bytes behind a pointer, read through the list that holds its allocation. -/
def bytesAt (list : List Lentry) (p : Pointer) (i n : Nat) : Option (List UInt8) := do
  let e ← list.find? (·.address = p.block)
  if p.offset + i + n ≤ e.room.length then some ((e.room.drop (p.offset + i)).take n) else none

/-- `entry->data[4] & 0x1F` of the head. -/
def nalType (list : List Lentry) : Option UInt8 := do
  let head ← list.head?
  let bytes ← bytesAt list head.data 4 1
  let byte ← bytes.head?
  return byte &&& 0x1F

section
variable {R : Type} (K : H264Codec R)

/-- The header and the unit at the start of the bytes behind a header, with `length`. -/
def writeUnit (stream : H264Stream R) (room : List UInt8) : Option (List UInt8 × Int) := do
  let room ← storeAt room 0 naluHeader
  let (bytes, result) := K.writeNalUnit stream 124
  let room ← storeAt room 4 bytes
  return (room, result + 4)

/-- The level. The second comparison of the source is an assignment: it stores whether the
height is 1080. -/
def fixLevel (s : SpsFix R) : SpsFix R :=
  if s.initialWidth = 1280 ∧ s.initialHeight = 720 then
    { s with stream.sps.levelIdc := 32 }
  else if s.initialHeight = 1080 then
    { s with initialWidth := 1, stream.sps.levelIdc := 42 }
  else { s with initialWidth := 0 }

/-- The other members that do not depend on the flags. -/
def fixVui (vui : Vui) : Vui :=
  { vui with videoSignalTypePresentFlag := 0, chromaLocInfoPresentFlag := 0 }

/-- The bitstream restrictions. -/
def fixRestriction (flags : BitVec 32) (vui : Vui) : Vui :=
  if flags &&& gsSpsBitstreamFixup = gsSpsBitstreamFixup then
    let vui := if vui.bitstreamRestrictionFlag = 0 then
      { vui with
        bitstreamRestrictionFlag := 1
        motionVectorsOverPicBoundariesFlag := 1
        maxBitsPerMbDenom := 1
        log2MaxMvLengthHorizontal := 16
        log2MaxMvLengthVertical := 16
        numReorderFrames := 0 }
      else vui
    { vui with maxDecFrameBuffering := 1, maxBytesPerPicDenom := 2, maxBitsPerMbDenom := 1 }
  else { vui with bitstreamRestrictionFlag := 0 }

/-- The assignments between reading the parameter set and writing it. -/
def fixSps (flags : BitVec 32) (s : SpsFix R) : SpsFix R :=
  let s := fixLevel s
  let vui := fixRestriction flags (fixVui s.stream.sps.vui)
  let profile := if flags &&& gsSpsBaselineHack = gsSpsBaselineHack ∧ s.replaySps = 0 then
    h264ProfileBaseline else s.stream.sps.profileIdc
  { s with stream.sps := { s.stream.sps with numRefFrames := 1, vui, profileIdc := profile } }

/-- What `gs_sps_fix` leaves: its variables, the list behind the head pointer, and whether it
returned `NULL`. -/
structure Fixed (R : Type) where
  vars : SpsFix R
  list : List Lentry
  null : Bool

/-- The branch `replay_sps == 1`. The entry is one allocation and its data pointer goes into
another one, behind the header of the old head. -/
def insertSps (malloc : Option (Nat × List UInt8)) (s : SpsFix R) (head : Lentry)
    (rest : List Lentry) : Option (Fixed R) :=
  match malloc with
  | none => some { vars := s, list := head :: rest, null := true }
  | some (address, room) => do
    let s := { s with stream.sps.profileIdc := h264ProfileHigh }
    let (headRoom, length) ← writeUnit K s.stream head.room
    let entry : Lentry := { address, length, data := ⟨head.address, 0⟩, room }
    return { vars := { s with replaySps := 2 }
             list := entry :: { head with room := headRoom } :: rest
             null := false }

/-- The branch for a parameter set: the head is freed and a rewritten entry takes its place. -/
def rewriteSps (flags : BitVec 32) (malloc : Option (Nat × List UInt8)) (s : SpsFix R)
    (head : Lentry) (rest : List Lentry) : Option (Fixed R) := do
  let unit ← bytesAt (head :: rest) head.data 4 (head.length - 4).toNat
  let s := fixSps flags { s with stream := K.readNalUnit s.stream unit }
  match malloc with
  | none => return { vars := s, list := head :: rest, null := true }
  | some (address, room) =>
    let (room, length) ← writeUnit K s.stream room
    let entry : Lentry := { address, length, data := ⟨address, 0⟩, room }
    return { vars := s, list := entry :: rest, null := false }

/-- `gs_sps_fix` on a list with a head, for what `malloc` returns in it: an address and the 128
bytes found behind the header. `none` is an access outside an allocation. -/
def gsSpsFix (flags : BitVec 32) (malloc : Option (Nat × List UInt8)) (s : SpsFix R)
    (head : Lentry) (rest : List Lentry) : Option (Fixed R) :=
  if s.replaySps = 1 then insertSps K malloc s head rest
  else do
    let type ← nalType (head :: rest)
    if type = nalUnitTypeSps then rewriteSps K flags malloc s head rest
    else
      let hack := flags &&& gsSpsBaselineHack = gsSpsBaselineHack ∧ s.replaySps = 0
      let s := if type = nalUnitTypePps ∧ hack then { s with replaySps := 1 } else s
      return { vars := s, list := head :: rest, null := false }

end

end Moonlight
