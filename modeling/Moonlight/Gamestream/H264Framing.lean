import Moonlight.Gamestream.H264Emulation
import Moonlight.Gamestream.H264Unit

/-! `find_nal_unit` of `third_party/h264bitstream/h264_nal.c`, on a stream of units that stand behind
start codes. -/
namespace Moonlight

open Lib.Bits

/-- The bytes from some place on against `code`, up to the first difference. `none` is a read
behind the end of the buffer. -/
def differs : List UInt8 → List UInt8 → Option Bool
  | _, [] => some false
  | [], _ :: _ => none
  | x :: bytes, c :: code => if x ≠ c then some true else differs bytes code

/-- The condition of the first loop. -/
def beforeStart (bytes : List UInt8) : Option Bool := do
  if ← differs bytes [0, 0, 1] then differs bytes [0, 0, 0, 1] else return false

/-- The condition of the second loop. -/
def beforeEnd (bytes : List UInt8) : Option Bool := do
  if ← differs bytes [0, 0, 0] then differs bytes [0, 0, 1] else return false

/-- The first loop from the place `i` of a buffer on. The inner `none` is a return from it. -/
def seekStart (size : Nat) : Nat → List UInt8 → Option (Option (Nat × List UInt8))
  | _, [] => none
  | i, x :: bytes => do
    if ← beforeStart (x :: bytes) then
      if i + 1 + 4 ≥ size then return none
      else seekStart size (i + 1) bytes
    else return some (i, x :: bytes)

def seekEnd (size : Nat) : Nat → List UInt8 → Option (Option Nat)
  | _, [] => none
  | i, x :: bytes => do
    if ← beforeEnd (x :: bytes) then
      if i + 1 + 3 ≥ size then return none
      else seekEnd size (i + 1) bytes
    else return some i

/-- What `find_nal_unit` stores and returns. -/
structure FoundUnit where
  nalStart : Nat
  nalEnd : Nat
  result : Int
  deriving DecidableEq

def findNalUnit (buf : List UInt8) : Option FoundUnit := do
  match ← seekStart buf.length 0 buf with
  | none => return ⟨0, 0, 0⟩
  | some (i, bytes) =>
    let (i, bytes) := if ← differs bytes [0, 0, 1] then (i + 1, bytes.drop 1) else (i, bytes)
    if ← differs bytes [0, 0, 1] then return ⟨0, 0, 0⟩
    else
      let nalStart := i + 3
      match ← seekEnd buf.length nalStart (bytes.drop 3) with
      | none => return ⟨nalStart, buf.length, -1⟩
      | some nalEnd => return ⟨nalStart, nalEnd, nalEnd - nalStart⟩

def startCode : Bool → List UInt8
  | true => [0, 0, 0, 1]
  | false => [0, 0, 1]

/-- A unit behind a start code, with nothing in it that could be taken for one. -/
structure FramedUnit where
  long : Bool
  bytes : List UInt8
  free : EmulationFree bytes
  last : ∃ x ≠ 0, bytes.getLast? = some x

def FramedUnit.framed (u : FramedUnit) : List UInt8 := startCode u.long ++ u.bytes

def annexB (units : List FramedUnit) : List UInt8 := units.flatMap FramedUnit.framed

section
variable {x : UInt8} {us unit tail : List UInt8} {i size : Nat}

/-- The loop goes on inside of a unit, and reads no further than the unit. -/
theorem beforeEnd_unit (hfree : EmulationFree (x :: us))
    (hlast : ∃ y ≠ 0, (x :: us).getLast? = some y) : beforeEnd (x :: us ++ tail) = some true := by
  obtain ⟨y, hy, hlast⟩ := hlast
  by_cases hx : x = 0
  · subst hx
    match us with
    | [] =>
      cases hlast
      exact absurd rfl hy
    | [z] =>
      cases hlast
      have hz : z ≠ 0 := hy
      simp [beforeEnd, differs, hz]
    | z :: w :: us =>
      by_cases hz : z = 0
      · subst hz
        have hw (v : UInt8) (hv : v < 3) : w ≠ v := by
          rintro rfl
          exact hfree.1 w hv (List.prefix_append [0, 0, w] us).isInfix
        simp [beforeEnd, differs, hw 0 (by decide), hw 1 (by decide)]
      · simp [beforeEnd, differs, hz]
  · simp [beforeEnd, differs, hx]

theorem beforeEnd_code (long : Bool) (tail : List UInt8) :
    beforeEnd (startCode long ++ tail) = some false := by
  cases long <;> simp [startCode, beforeEnd, differs]

theorem beforeStart_code (long : Bool) (tail : List UInt8) :
    beforeStart (startCode long ++ tail) = some false := by
  cases long <;> simp [startCode, beforeStart, differs]

theorem last_of_cons {y : UInt8} (hlast : ∃ z ≠ 0, (x :: y :: us).getLast? = some z) :
    ∃ z ≠ 0, (y :: us).getLast? = some z := by
  rwa [List.getLast?_cons_cons] at hlast

/-- The loop stops at the start code behind a unit. -/
theorem seekEnd_framed (long : Bool) (hfree : EmulationFree unit)
    (hlast : unit ≠ [] → ∃ z ≠ 0, unit.getLast? = some z) (hsize : i + unit.length + 4 ≤ size) :
    seekEnd size i (unit ++ (startCode long ++ tail)) = some (some (i + unit.length)) := by
  induction unit generalizing i with
  | nil =>
    obtain ⟨y, ys, hcode⟩ : ∃ y ys, startCode long ++ tail = y :: ys := by
      cases long <;> exact ⟨_, _, rfl⟩
    have hstop := beforeEnd_code long tail
    rw [List.nil_append]
    rw [hcode] at hstop ⊢
    rw [seekEnd, hstop]
    rfl
  | cons x us ih =>
    rw [List.length_cons] at hsize
    have hgo : beforeEnd (x :: us ++ (startCode long ++ tail)) = some true :=
      beforeEnd_unit hfree (hlast (List.cons_ne_nil x us))
    have hrest : us ≠ [] → ∃ z ≠ 0, us.getLast? = some z := by
      intro hne
      obtain ⟨y, ys, rfl⟩ := List.exists_cons_of_ne_nil hne
      exact last_of_cons (hlast (List.cons_ne_nil x _))
    rw [List.cons_append] at hgo ⊢
    rw [seekEnd, hgo, Option.bind_eq_bind, Option.bind_some, if_pos rfl, if_neg (by omega),
      ih (emulationFree_cons.mp hfree).2.2 hrest (by omega), List.length_cons]
    congr 2
    omega

/-- Behind the last unit the loop returns. -/
theorem seekEnd_last (hfree : EmulationFree (x :: us))
    (hlast : ∃ z ≠ 0, (x :: us).getLast? = some z) (hsize : i + (x :: us).length = size) :
    seekEnd size i (x :: us) = some none := by
  induction us generalizing i x with
  | nil =>
    have hgo : beforeEnd ([x] ++ []) = some true := beforeEnd_unit hfree hlast
    rw [List.append_nil] at hgo
    rw [List.length_singleton] at hsize
    rw [seekEnd, hgo, Option.bind_eq_bind, Option.bind_some, if_pos rfl, if_pos (by omega)]
    rfl
  | cons y us ih =>
    have hgo : beforeEnd (x :: y :: us ++ []) = some true := beforeEnd_unit hfree hlast
    rw [List.append_nil] at hgo
    rw [List.length_cons] at hsize
    rw [seekEnd, hgo, Option.bind_eq_bind, Option.bind_some, if_pos rfl]
    split
    next => rfl
    next => exact ih (emulationFree_cons.mp hfree).2.2 (last_of_cons hlast) (by omega)

end

/-- A start code at the front is found there. -/
theorem findNalUnit_code (long : Bool) (tail : List UInt8) :
    findNalUnit (startCode long ++ tail) =
      (seekEnd (startCode long ++ tail).length (startCode long).length tail).map fun
        | none => ⟨(startCode long).length, (startCode long ++ tail).length, -1⟩
        | some nalEnd => ⟨(startCode long).length, nalEnd, nalEnd - (startCode long).length⟩ := by
  have hstart : seekStart (startCode long ++ tail).length 0 (startCode long ++ tail) =
      some (some (0, startCode long ++ tail)) := by
    have hstop := beforeStart_code long tail
    obtain ⟨x, bytes, hcode⟩ : ∃ x bytes, startCode long ++ tail = x :: bytes := by
      cases long <;> exact ⟨_, _, rfl⟩
    rw [hcode] at hstop ⊢
    rw [seekStart, hstop]
    rfl
  have hshort : differs (0 :: 0 :: 1 :: tail) [0, 0, 1] = some false := by simp [differs]
  have hlong : differs (0 :: 0 :: 0 :: 1 :: tail) [0, 0, 1] = some true := by simp [differs]
  rw [findNalUnit, hstart, Option.map_eq_bind]
  cases long
  all_goals
    simp only [startCode, List.cons_append, List.nil_append, hshort, hlong, Option.bind_eq_bind,
      Option.bind_some, if_true, Bool.false_eq_true, if_false, List.drop_succ_cons, List.drop_zero]
    congr 1
    funext found
    cases found <;> rfl

theorem FramedUnit.bytes_cons (u : FramedUnit) : ∃ x us, u.bytes = x :: us := by
  obtain ⟨x, -, hlast⟩ := u.last
  cases hbytes : u.bytes with
  | nil =>
    rw [hbytes] at hlast
    cases hlast
  | cons x us => exact ⟨x, us, rfl⟩

/-- A stream that begins with a unit: the unit is found, and behind it the other units. -/
theorem findNalUnit_annexB (u : FramedUnit) (units : List FramedUnit) :
    findNalUnit (annexB (u :: units)) = some
      { nalStart := (startCode u.long).length
        nalEnd := (startCode u.long).length + u.bytes.length
        result := if units = [] then -1 else u.bytes.length } := by
  have hstream : annexB (u :: units) = startCode u.long ++ (u.bytes ++ annexB units) := by
    rw [annexB, List.flatMap_cons, FramedUnit.framed, List.append_assoc]
    rfl
  rw [hstream, findNalUnit_code]
  cases units with
  | nil =>
    obtain ⟨x, us, hbytes⟩ := u.bytes_cons
    have hnil : u.bytes ++ annexB [] = u.bytes := List.append_nil u.bytes
    have hend := seekEnd_last (hbytes ▸ u.free) (hbytes ▸ u.last)
      (i := (startCode u.long).length) rfl
    rw [hnil, List.length_append, hbytes, hend]
    rfl
  | cons v vs =>
    have hnext : annexB (v :: vs) = startCode v.long ++ (v.bytes ++ annexB vs) := by
      rw [annexB, List.flatMap_cons, FramedUnit.framed, List.append_assoc]
      rfl
    have hsize : (startCode u.long).length + u.bytes.length + 4 ≤
        (startCode u.long ++ (u.bytes ++ annexB (v :: vs))).length := by
      obtain ⟨x, us, hbytes⟩ := v.bytes_cons
      have hcode : 3 ≤ (startCode v.long).length := by cases v.long <;> decide
      rw [hnext, hbytes]
      simp only [List.length_append, List.length_cons]
      omega
    have hend : seekEnd _ _ (u.bytes ++ (startCode v.long ++ (v.bytes ++ annexB vs))) = _ :=
      seekEnd_framed v.long u.free (fun _ => u.last) hsize
    rw [← hnext] at hend
    rw [hend, Option.map_some, if_neg (List.cons_ne_nil v vs)]
    simp

/-- The bits of a parameter set end in a stop bit, in the last byte. -/
theorem last_spsRbsp (nalRefIdc : BitVec 2) (set : SeqParameterSet) :
    ∃ x ≠ 0, (spsRbsp nalRefIdc set).getLast? = some x := by
  have hbits := bytesToBits_spsRbsp nalRefIdc set
  generalize (writeUnitBits nalRefIdc set).bits = bits at hbits
  rw [writeRbspTrailingBits] at hbits
  rcases List.eq_nil_or_concat (spsRbsp nalRefIdc set) with hnil | ⟨init, x, hconcat⟩
  · rw [hnil] at hbits
    have hlength := congrArg List.length hbits
    simp [bytesToBits] at hlength
  · rw [List.concat_eq_append] at hconcat
    refine ⟨x, ?_, by rw [hconcat, List.getLast?_concat]⟩
    rintro rfl
    -- The stop bit would be one of the last 8 bits, which are those of the byte.
    have hstop := congrArg (fun all => all.reverse[7 - bits.length % 8]?) hbits
    have hbyte : bytesToBits (init ++ [0]) = bytesToBits init ++ List.replicate 8 false := by
      simp [bytesToBits, toBits]
    have hzero : (bytesToBits init ++ List.replicate 8 false).reverse[7 - bits.length % 8]? =
        some false := by
      rw [List.reverse_append, List.reverse_replicate, List.getElem?_append_left,
        List.getElem?_replicate, if_pos (by omega)]
      rw [List.length_replicate]
      omega
    rw [hconcat, hbyte, hzero] at hstop
    simp at hstop

/-- A unit that `write_nal_unit` stored, behind a start code. -/
structure StoredUnit where
  long : Bool
  stream : H264Stream H264Rest
  size : Nat
  nal : List UInt8
  stored : writeNalUnit stream size = some (nal, (nal.length : Int))

namespace StoredUnit

def set (u : StoredUnit) : SeqParameterSet := storeSps u.stream.sps u.stream.rest.set

theorem fits (u : StoredUnit) : UnitFits u.size u.stream.rest.nalRefIdc u.set u.nal :=
  (fits_of_writeNalUnit u.stored (Int.natCast_nonneg _)).2

def framed (u : StoredUnit) : FramedUnit where
  long := u.long
  bytes := u.nal
  free := emulationFree_stored u.fits.2.2
  last := by
    rw [getLast_rbspToNal u.fits.2.2]
    exact last_spsRbsp _ _

end StoredUnit

/-- A parameter set that was written into a stream is found in it and read again, whatever units
stand behind it, and these are what is left of the stream. -/
theorem findNalUnit_stored (u : StoredUnit) (units : List FramedUnit)
    (before : H264Stream H264Rest) :
    ∃ found, findNalUnit (annexB (u.framed :: units)) = some found ∧
      readNalUnit before
          (((annexB (u.framed :: units)).take found.nalEnd).drop found.nalStart) =
        some (loaded u.stream.rest.nalRefIdc u.set, (u.nal.length : Int)) ∧
      (annexB (u.framed :: units)).drop found.nalEnd = annexB units ∧
      found.result = if units = [] then -1 else (u.nal.length : Int) := by
  have hstream : annexB (u.framed :: units) = startCode u.long ++ (u.nal ++ annexB units) := by
    rw [annexB, List.flatMap_cons, FramedUnit.framed, List.append_assoc]
    rfl
  have hlength : (startCode u.long).length + u.nal.length = (startCode u.long ++ u.nal).length :=
    List.length_append.symm
  have hread : readNalUnit before u.nal =
      some (loaded u.stream.rest.nalRefIdc u.set, (u.nal.length : Int)) :=
    readNalUnit_sps (parseUnit_stored u.fits.1 u.fits.2.2) before
  refine ⟨_, findNalUnit_annexB u.framed units, ?_, ?_, rfl⟩
  · rw [← hread, hstream, ← List.append_assoc]
    dsimp only [StoredUnit.framed]
    rw [hlength, List.take_left, List.drop_left]
  · rw [hstream, ← List.append_assoc]
    dsimp only [StoredUnit.framed]
    rw [hlength, List.drop_left]

/-- A small set as it is written, behind a start code of four bytes. -/
def plainUnit : StoredUnit where
  long := true
  stream := loaded 3 (plainSet none)
  size := 124
  nal := [0x67, 0x42, 0, 0x1E, 0xF4, 0x16, 0x27, 0x20]
  stored := by decide +kernel

/-- The set is found in front of another one and read, whatever was read before. -/
theorem findNalUnit_stored_plain :
    let found : FoundUnit := ⟨4, 12, 8⟩
    let stream := annexB [plainUnit.framed, plainUnit.framed]
    findNalUnit stream = some found ∧
      readNalUnit h264New ((stream.take found.nalEnd).drop found.nalStart) =
        some (loaded 3 (plainSet none), 8) := by
  intro found stream
  obtain ⟨stored, hfound, hread, -⟩ := findNalUnit_stored plainUnit [plainUnit.framed] h264New
  have hplaces : findNalUnit stream = some found := findNalUnit_annexB _ _
  rw [hplaces] at hfound
  obtain rfl := Option.some.inj hfound
  exact ⟨hplaces, hread⟩

end Moonlight
