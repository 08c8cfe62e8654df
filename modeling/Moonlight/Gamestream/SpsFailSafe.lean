import Moonlight.Gamestream.SpsFixupCall

/-! The results of the codec in `gs_sps_fix`, which it does not look at: when a call on a parameter
set is safe, whatever the parser holds from earlier units. -/
namespace Moonlight

/-- A call on a head of type SPS, and what `malloc` returns in it. The state of the parser is left
open. -/
structure SpsHeadCall where
  flags : BitVec 32
  initialWidth : Int
  initialHeight : Int
  replaySps : Nat
  head : Lentry
  rest : List Lentry
  unit : List UInt8
  malloc : Option (Nat × List UInt8)
  isSps : nalType (head :: rest) = some nalUnitTypeSps
  stored : unitBytes (head :: rest) = some unit
  fresh : ∀ m ∈ malloc, m.2.length = 128 ∧ m.1 ≠ head.address

namespace SpsHeadCall

variable {c : SpsHeadCall} {nalRefIdc : BitVec 2} {set : SeqParameterSet} {result : Int}
  {nal : List UInt8} {address : Nat} {room : List UInt8}

def list (c : SpsHeadCall) : List Lentry := c.head :: c.rest

def vars (c : SpsHeadCall) (stream : H264Stream H264Rest) : SpsFix H264Rest where
  stream
  initialWidth := c.initialWidth
  initialHeight := c.initialHeight
  replaySps := c.replaySps

def run (c : SpsHeadCall) (stream : H264Stream H264Rest) : Option (Fixed H264Rest) :=
  gsSpsFix h264Codec c.flags c.malloc (c.vars stream) c.head c.rest

/-- The results of `read_nal_unit` and `write_nal_unit` in a call, in the order of the source;
`none` where C does not define what one of them does. -/
def results (c : SpsHeadCall) (stream : H264Stream H264Rest) : Option (List Int) :=
  if c.replaySps = 1 then
    match c.malloc with
    | none => some []
    | some _ => do
      let (_, written) ← writeNalUnit { stream with sps.profileIdc := h264ProfileHigh } 124
      return [written]
  else do
    let (stream, read) ← readNalUnit stream c.unit
    match c.malloc with
    | none => return [read]
    | some _ =>
      let (_, written) ← writeNalUnit (fixSps c.flags (c.vars stream)).stream 124
      return [read, written]

/-- The list is the same for every state the parser was in, is left alone when a codec call
reports a failure, and otherwise starts with an entry that holds a unit. -/
def FailsSafe (c : SpsHeadCall) : Prop :=
  ∃ list, ∀ stream, ∃ results r, c.results stream = some results ∧ c.run stream = some r ∧
    r.list = list ∧ ((∃ result ∈ results, result < 0) → list = c.list) ∧
    (list = c.list ∨ ∃ e ∈ list.head?, 5 ≤ e.length)

/-- The variables when a set is written. -/
def fixed (c : SpsHeadCall) (nalRefIdc : BitVec 2) (set : SeqParameterSet) : SpsFix H264Rest :=
  fixSps c.flags (c.vars (loaded nalRefIdc set))

/-- The unit is read as a set, and the set as it is fixed can be written into the 124 bytes. -/
def Rewrites (c : SpsHeadCall) : Prop :=
  ∃ nalRefIdc set result nal, parseUnit c.unit = some (.sps nalRefIdc set result) ∧ 0 ≤ result ∧
    UnitFits 124 nalRefIdc (storeSps (c.fixed nalRefIdc set).stream.sps set.shared) nal

/-- Without memory nothing is written, and with it everything has to succeed. -/
def Succeeds (c : SpsHeadCall) : Prop :=
  match c.malloc with
  | none => c.replaySps = 1 ∨ (parseUnit c.unit).isSome
  | some _ => c.replaySps ≠ 1 ∧ c.Rewrites

theorem fixed_rest (c : SpsHeadCall) (nalRefIdc : BitVec 2) (set : SeqParameterSet) :
    (c.fixed nalRefIdc set).stream.rest = { nalRefIdc, isSps := true, set := set.shared } :=
  fixedVars_rest c.flags (c.vars h264New) nalRefIdc set

/-- With memory the head is replaced, whatever the codec reports. -/
theorem run_rewrites (hreplay : c.replaySps ≠ 1) (hmalloc : c.malloc = some (address, room))
    (stream : H264Stream H264Rest) : c.run stream = some
      { vars := fixSps c.flags (c.vars (h264Codec.readNalUnit stream c.unit))
        list := rewrittenEntry address room (h264Codec.writeNalUnit
          (fixSps c.flags (c.vars (h264Codec.readNalUnit stream c.unit))).stream 124) :: c.rest
        null := false } := by
  have hroom : room.length = 128 := (c.fresh (address, room) hmalloc).1
  rw [run, hmalloc]
  exact gsSpsFix_rewrites hreplay c.isSps c.stored hroom

theorem replaced (hmalloc : c.malloc = some (address, room)) (written : List UInt8 × Int) :
    rewrittenEntry address room written :: c.rest ≠ c.list := by
  intro h
  have haddress : address = c.head.address := congrArg Lentry.address (List.cons.inj h).1
  exact (c.fresh (address, room) hmalloc).2 haddress

/-- A replay is put in front of the head even when nothing was written for it. -/
theorem not_failsSafe_of_replay (hreplay : c.replaySps = 1)
    (hmalloc : c.malloc = some (address, room)) : ¬ c.FailsSafe := by
  rintro ⟨list, h⟩
  obtain ⟨results, r, hresults, hrun, hlist, hfail, -⟩ := h h264New
  have hwrite : c.results h264New = some [-1] := by
    rw [SpsHeadCall.results, if_pos hreplay, hmalloc]
    rfl
  have hunchanged : r.list = c.list := by
    rw [hlist]
    apply hfail
    rw [hwrite] at hresults
    cases hresults
    exact ⟨-1, List.mem_singleton_self _, by decide⟩
  rw [run, gsSpsFix, if_pos (show (c.vars h264New).replaySps = 1 from hreplay), hmalloc] at hrun
  obtain ⟨⟨headRoom, length⟩, -, hr⟩ := Option.bind_eq_some_iff.mp hrun
  cases hr
  have hlength := congrArg List.length hunchanged
  simp [SpsHeadCall.list] at hlength

/-- A safe call that has memory read a set and wrote it. -/
theorem FailsSafe.rewrites (h : c.FailsSafe) (hreplay : c.replaySps ≠ 1)
    (hmalloc : c.malloc = some (address, room)) : c.Rewrites := by
  obtain ⟨list, h⟩ := h
  obtain ⟨results, r, hresults, hrun, hlist, hfail, -⟩ := h h264New
  -- the head was replaced, so no codec call reported a failure
  have hok : ∀ result ∈ results, 0 ≤ result := by
    intro result hmem
    by_contra hneg
    have hunchanged : r.list = c.list := by
      rw [hlist]
      exact hfail ⟨result, hmem, Int.not_le.mp hneg⟩
    rw [run_rewrites hreplay hmalloc] at hrun
    cases hrun
    exact replaced hmalloc _ hunchanged
  rw [SpsHeadCall.results, if_neg hreplay] at hresults
  obtain ⟨⟨stream, read⟩, hread, hresults⟩ := Option.bind_eq_some_iff.mp hresults
  rw [hmalloc] at hresults
  obtain ⟨⟨nal, written⟩, hwrite, hresults⟩ := Option.bind_eq_some_iff.mp hresults
  cases hresults
  have hreadok : 0 ≤ read := hok read (by simp)
  have hwriteok : 0 ≤ written := hok written (by simp)
  obtain ⟨parsed, hparse, hparsed⟩ := Option.bind_eq_some_iff.mp hread
  cases parsed with
  | malformed =>
    cases hparsed
    exact absurd hreadok (by decide)
  | untyped nalRefIdc =>
    cases hparsed
    exact absurd hreadok (by decide)
  | sps nalRefIdc set result =>
    cases hparsed
    obtain ⟨-, hfits⟩ := fits_of_writeNalUnit hwrite hwriteok
    have hrest := c.fixed_rest nalRefIdc set
    unfold fixed at hrest
    rw [hrest] at hfits
    exact ⟨nalRefIdc, set, read, nal, hparse, hreadok, hfits⟩

theorem FailsSafe.succeeds (h : c.FailsSafe) : c.Succeeds := by
  unfold Succeeds
  cases hmalloc : c.malloc with
  | none =>
    by_cases hreplay : c.replaySps = 1
    · exact Or.inl hreplay
    · obtain ⟨list, h⟩ := h
      obtain ⟨results, r, hresults, -⟩ := h h264New
      rw [SpsHeadCall.results, if_neg hreplay] at hresults
      obtain ⟨read, hread, -⟩ := Option.bind_eq_some_iff.mp hresults
      obtain ⟨parsed, hparse, -⟩ := Option.bind_eq_some_iff.mp hread
      exact Or.inr (Option.isSome_iff_exists.mpr ⟨parsed, hparse⟩)
  | some m =>
    obtain ⟨address, room⟩ := m
    by_cases hreplay : c.replaySps = 1
    · exact absurd h (not_failsSafe_of_replay hreplay hmalloc)
    · exact ⟨hreplay, h.rewrites hreplay hmalloc⟩

theorem failsSafe_of_null (hmalloc : c.malloc = none)
    (h : c.replaySps = 1 ∨ (parseUnit c.unit).isSome) : c.FailsSafe := by
  refine ⟨c.list, fun stream => ?_⟩
  by_cases hreplay : c.replaySps = 1
  · have hresults : c.results stream = some [] := by
      rw [SpsHeadCall.results, if_pos hreplay, hmalloc]
    have hrun : c.run stream = some { vars := c.vars stream, list := c.list, null := true } := by
      rw [run, hmalloc, gsSpsFix, if_pos (show (c.vars stream).replaySps = 1 from hreplay)]
      rfl
    exact ⟨_, _, hresults, hrun, rfl, fun _ => rfl, Or.inl rfl⟩
  · obtain ⟨parsed, hparse⟩ := Option.isSome_iff_exists.mp (h.resolve_left hreplay)
    obtain ⟨⟨after, read⟩, hread⟩ : ∃ read, readNalUnit stream c.unit = some read := by
      rw [readNalUnit, hparse]
      cases parsed <;> exact ⟨_, rfl⟩
    have hresults : c.results stream = some [read] := by
      rw [SpsHeadCall.results, if_neg hreplay, hread, hmalloc]
      rfl
    have hrun : c.run stream = some
        { vars := fixSps c.flags (c.vars (h264Codec.readNalUnit stream c.unit))
          list := c.list
          null := true } := by
      rw [run, hmalloc]
      exact gsSpsFix_null hreplay c.isSps c.stored
    exact ⟨_, _, hresults, hrun, rfl, fun _ => rfl, Or.inl rfl⟩

/-- With memory, a unit that is read as a set is written from that set. -/
theorem results_sps (hreplay : c.replaySps ≠ 1) (hmalloc : c.malloc = some (address, room))
    (hparse : parseUnit c.unit = some (.sps nalRefIdc set result))
    (stream : H264Stream H264Rest) : c.results stream =
      (writeNalUnit (c.fixed nalRefIdc set).stream 124).map fun written => [result, written.2] := by
  rw [SpsHeadCall.results, if_neg hreplay, readNalUnit_sps hparse stream, hmalloc, fixed,
    Option.bind_eq_bind, Option.bind_some]
  dsimp only
  cases writeNalUnit (fixSps c.flags (c.vars (loaded nalRefIdc set))).stream 124 <;> rfl

theorem failsSafe_of_rewrites (hreplay : c.replaySps ≠ 1)
    (hmalloc : c.malloc = some (address, room)) (h : c.Rewrites) : c.FailsSafe := by
  obtain ⟨nalRefIdc, set, result, nal, hparse, hresult, hfits⟩ := h
  have hwrite : writeNalUnit (c.fixed nalRefIdc set).stream 124 =
      some (nal, (nal.length : Int)) := by
    have hrest := c.fixed_rest nalRefIdc set
    apply writeNalUnit_fits
    · rw [hrest]
    · rw [hrest]
      exact hfits
  have hlen : 5 ≤ (nal.length : Int) + 4 := by
    obtain ⟨x, tail, hnal, -⟩ := stored_header hfits.2.2
    rw [hnal, List.length_cons]
    omega
  refine ⟨rewrittenEntry address room (nal, nal.length) :: c.rest, fun stream => ?_⟩
  have hresults : c.results stream = some [result, (nal.length : Int)] := by
    rw [results_sps hreplay hmalloc hparse stream, hwrite]
    rfl
  have hrun := run_rewrites hreplay hmalloc stream
  have hread := h264Codec_readNalUnit (readNalUnit_sps hparse stream)
  have hcodec := h264Codec_writeNalUnit hwrite
  unfold fixed at hcodec
  rw [hread, hcodec] at hrun
  refine ⟨_, _, hresults, hrun, rfl, ?_, Or.inr ⟨_, rfl, hlen⟩⟩
  rintro ⟨k, hk, hneg⟩
  simp only [List.mem_cons, List.not_mem_nil, or_false] at hk
  omega

theorem Succeeds.failsSafe (h : c.Succeeds) : c.FailsSafe := by
  unfold Succeeds at h
  cases hmalloc : c.malloc with
  | none =>
    rw [hmalloc] at h
    exact failsSafe_of_null hmalloc h
  | some m =>
    obtain ⟨address, room⟩ := m
    rw [hmalloc] at h
    exact failsSafe_of_rewrites h.1 hmalloc h.2

end SpsHeadCall

/-- A call on a parameter set is safe exactly when nothing in it fails, or `malloc` does before
anything is written. -/
theorem sps_failsSafe_iff (c : SpsHeadCall) : c.FailsSafe ↔ c.Succeeds :=
  ⟨SpsHeadCall.FailsSafe.succeeds, SpsHeadCall.Succeeds.failsSafe⟩

/-- A unit with a start code in it. -/
def brokenCall : SpsHeadCall where
  flags := gsSpsBitstreamFixup
  initialWidth := 1280
  initialHeight := 720
  replaySps := 0
  head := unitEntry [0x67, 0, 0, 1]
  rest := []
  unit := [0x67, 0, 0, 1]
  malloc := some (2, List.replicate 128 0)
  isSps := by decide
  stored := by decide
  fresh := by
    intro m hm
    cases hm
    exact ⟨rfl, by decide⟩

/-- The unit is not read, and nothing is written in its place. -/
theorem broken_unit_replaced : ¬ brokenCall.FailsSafe := by
  intro h
  obtain ⟨-, nalRefIdc, set, result, nal, hparse, -⟩ := h.succeeds
  have hmalformed : parseUnit brokenCall.unit = some .malformed := by decide
  rw [hmalformed] at hparse
  cases hparse

end Moonlight
