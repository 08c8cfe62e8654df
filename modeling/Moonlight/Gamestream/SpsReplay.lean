import Moonlight.Gamestream.Sps

/-! The replayed parameter set of `GS_SPS_BASELINE_HACK`, over any sequence of calls: it is never
placed as intended, since its bytes are written into the buffer it is placed before. -/
namespace Moonlight

variable {R : Type} {K : H264Codec R} {s : SpsFix R}

/-- One call: a list as the producer allocates it, and what `malloc` returns. -/
structure SpsCall where
  flags : BitVec 32
  head : Lentry
  rest : List Lentry
  malloc : Option (Nat × List UInt8)
  hack : flags &&& gsSpsBaselineHack = gsSpsBaselineHack
  stored : ∀ e ∈ head :: rest, e.data = ⟨e.address, 0⟩ ∧ 5 ≤ e.length ∧ e.length ≤ e.room.length
  distinct : ((head :: rest).map (·.address)).Nodup
  fresh : ∀ address room, malloc = some (address, room) →
    room.length = 128 ∧ ∀ e ∈ head :: rest, e.address ≠ address

variable {c : SpsCall} {past calls : List SpsCall}

def SpsCall.list (c : SpsCall) : List Lentry := c.head :: c.rest

def SpsCall.HasType (c : SpsCall) (type : UInt8) : Prop := nalType c.list = some type

instance {type : UInt8} : Decidable (c.HasType type) := inferInstanceAs (Decidable (_ = _))

def SpsCall.run (K : H264Codec R) (s : SpsFix R) (c : SpsCall) : Option (Fixed R) :=
  gsSpsFix K c.flags c.malloc s c.head c.rest

/-- The first head of type PPS was the one of the call before. -/
def ReplayDue (past : List SpsCall) : Prop :=
  ∃ before c, past = before ++ [c] ∧ c.HasType nalUnitTypePps ∧
    ∀ b ∈ before, ¬ b.HasType nalUnitTypePps

/-- The last parameter set with profile HIGH, in memory of its own. -/
def Replays (K : H264Codec R) (s : SpsFix R) (e : Lentry) : Prop :=
  let (bytes, result) := K.writeNalUnit { s.stream with sps.profileIdc := h264ProfileHigh } 124
  e.data.block = e.address ∧ e.data.offset + e.length ≤ e.room.length ∧ e.length = result + 4 ∧
    (e.room.drop e.data.offset).take (4 + bytes.length) = naluHeader ++ bytes

/-- What a call has to do: place the replay in front of an untouched list when it is due, and
otherwise touch nothing but a head that is a parameter set. -/
def CallRight (K : H264Codec R) (s : SpsFix R) (past : List SpsCall) (c : SpsCall) (r : Fixed R) :
    Prop :=
  (ReplayDue past → ∃ e, Replays K s e ∧ r.list = e :: c.list) ∧
  (¬ ReplayDue past → r.list = c.list ∨
    c.HasType nalUnitTypeSps ∧ ∃ e, e.data.block = e.address ∧ r.list = e :: c.rest)

/-- Every call of a run stays inside its allocations and does what it has to. -/
def RunRight (K : H264Codec R) : SpsFix R → List SpsCall → List SpsCall → Prop
  | _, _, [] => True
  | s, past, c :: calls =>
    ∃ r, c.run K s = some r ∧ CallRight K s past c r ∧ RunRight K r.vars (past ++ [c]) calls

theorem bytesAt_head (c : SpsCall) {i n : Nat} (h : i + n ≤ c.head.room.length) :
    bytesAt c.list c.head.data i n = some ((c.head.room.drop i).take n) := by
  have hdata := (c.stored c.head List.mem_cons_self).1
  simp [bytesAt, SpsCall.list, hdata, h]

/-- The type of the head can be read. -/
theorem hasType_some (c : SpsCall) : ∃ type, c.HasType type := by
  obtain ⟨hdata, hmin, hmax⟩ := c.stored c.head List.mem_cons_self
  have hlen : 4 + 1 ≤ c.head.room.length := by omega
  have hbytes := bytesAt_head c hlen
  have hne : (c.head.room.drop 4).take 1 ≠ [] := by
    simp
    omega
  obtain ⟨byte, hbyte⟩ := Option.ne_none_iff_exists'.mp (mt List.head?_eq_none_iff.mp hne)
  refine ⟨byte &&& 0x1F, ?_⟩
  rw [SpsCall.HasType, nalType, show c.list.head? = some c.head from rfl]
  simp [hbytes, hbyte]

section
variable {flags : BitVec 32} {head : Lentry} {rest : List Lentry} {unit : List UInt8}
  {address : Nat} {room : List UInt8}

/-- The bytes of the unit at the head of a list. -/
def unitBytes (list : List Lentry) : Option (List UInt8) := do
  let head ← list.head?
  bytesAt list head.data 4 (head.length - 4).toNat

/-- The entry that takes the place of the head. -/
def rewrittenEntry (address : Nat) (room : List UInt8) (written : List UInt8 × Int) : Lentry where
  address
  length := written.2 + 4
  data := ⟨address, 0⟩
  room := naluHeader ++ written.1 ++ room.drop (4 + written.1.length)

theorem writeUnit_room (stream : H264Stream R) (hroom : room.length = 128) :
    writeUnit K stream room =
      some (naluHeader ++ (K.writeNalUnit stream 124).1 ++
        room.drop (4 + (K.writeNalUnit stream 124).1.length),
        (K.writeNalUnit stream 124).2 + 4) := by
  have hbytes := K.stored_le stream 124
  generalize hwrite : K.writeNalUnit stream 124 = written at hbytes ⊢
  obtain ⟨bytes, result⟩ := written
  have hheader : storeAt room 0 naluHeader = some (naluHeader ++ room.drop 4) := by
    rw [storeAt, if_pos (by simp [naluHeader, hroom])]
    rfl
  have hunit : storeAt (naluHeader ++ room.drop 4) 4 bytes =
      some (naluHeader ++ bytes ++ room.drop (4 + bytes.length)) := by
    have hlen : naluHeader.length = 4 := rfl
    have hfits : 4 + bytes.length ≤ (naluHeader ++ room.drop 4).length := by
      rw [List.length_append, List.length_drop, hlen, hroom]
      exact Nat.add_le_add_left hbytes 4
    rw [storeAt, if_pos hfits, List.take_append_of_le_length (Nat.le_of_eq hlen.symm),
      List.take_of_length_le (Nat.le_of_eq hlen), List.drop_append, List.drop_drop, hlen]
    simp [naluHeader]
  rw [writeUnit, hheader, hwrite, Option.bind_eq_bind, Option.bind_some]
  dsimp only
  rw [hunit]
  rfl

/-- With memory, what the codec writes takes the place of the head. -/
theorem rewriteSps_entry (hunit : unitBytes (head :: rest) = some unit)
    (hroom : room.length = 128) : rewriteSps K flags (some (address, room)) s head rest = some
      { vars := fixSps flags { s with stream := K.readNalUnit s.stream unit }
        list := rewrittenEntry address room (K.writeNalUnit
          (fixSps flags { s with stream := K.readNalUnit s.stream unit }).stream 124) :: rest
        null := false } := by
  have hbytes : bytesAt (head :: rest) head.data 4 (head.length - 4).toNat = some unit := hunit
  rw [rewriteSps, hbytes, Option.bind_eq_bind, Option.bind_some]
  dsimp only
  rw [writeUnit_room _ hroom]
  rfl

/-- Without memory the list is left as it is. -/
theorem rewriteSps_null (hunit : unitBytes (head :: rest) = some unit) :
    rewriteSps K flags none s head rest = some
      { vars := fixSps flags { s with stream := K.readNalUnit s.stream unit }
        list := head :: rest
        null := true } := by
  have hbytes : bytesAt (head :: rest) head.data 4 (head.length - 4).toNat = some unit := hunit
  rw [rewriteSps, hbytes, Option.bind_eq_bind, Option.bind_some]
  rfl

theorem gsSpsFix_sps {malloc : Option (Nat × List UInt8)} (hreplay : s.replaySps ≠ 1)
    (htype : nalType (head :: rest) = some nalUnitTypeSps) :
    gsSpsFix K flags malloc s head rest = rewriteSps K flags malloc s head rest := by
  rw [gsSpsFix, if_neg hreplay, htype, Option.bind_eq_bind, Option.bind_some, if_pos rfl]

end

theorem fixSps_replaySps (flags : BitVec 32) (s : SpsFix R) :
    (fixSps flags s).replaySps = s.replaySps := by
  simp only [fixSps, fixLevel]
  split_ifs <;> rfl

/-- Rewriting a parameter set puts one entry of its own in the place of the head. -/
theorem rewriteSps_some (c : SpsCall) : ∃ r, rewriteSps K c.flags c.malloc s c.head c.rest = some r ∧
    r.vars.replaySps = s.replaySps ∧
    (r.list = c.list ∨ ∃ e, e.data.block = e.address ∧ r.list = e :: c.rest) := by
  obtain ⟨_, hmin, hmax⟩ := c.stored c.head List.mem_cons_self
  have hlen : 4 + (c.head.length - 4).toNat ≤ c.head.room.length := by omega
  have hunit : unitBytes (c.head :: c.rest) =
      some ((c.head.room.drop 4).take (c.head.length - 4).toNat) := bytesAt_head c hlen
  cases hm : c.malloc with
  | none => exact ⟨_, rewriteSps_null hunit, fixSps_replaySps _ _, Or.inl rfl⟩
  | some m =>
    obtain ⟨address, room⟩ := m
    have hroom := (c.fresh address room hm).1
    exact ⟨_, rewriteSps_entry hunit hroom, fixSps_replaySps _ _, Or.inr ⟨_, rfl, rfl⟩⟩

/-- Before any replay is due a call touches only a head that is a parameter set, and a head of
type PPS makes the replay due. -/
theorem run_idle (c : SpsCall) (hs : s.replaySps = 0) : ∃ r, c.run K s = some r ∧
    (r.list = c.list ∨
      c.HasType nalUnitTypeSps ∧ ∃ e, e.data.block = e.address ∧ r.list = e :: c.rest) ∧
    r.vars.replaySps = if c.HasType nalUnitTypePps then 1 else 0 := by
  obtain ⟨type, htype⟩ := hasType_some c
  have hread : nalType (c.head :: c.rest) = some type := htype
  rw [SpsCall.run, gsSpsFix, if_neg (by omega), hread, Option.bind_eq_bind, Option.bind_some]
  by_cases hsps : type = nalUnitTypeSps
  · rw [if_pos hsps]
    obtain ⟨r, hr, hvars, hlist⟩ := rewriteSps_some (K := K) (s := s) c
    have hpps : ¬ c.HasType nalUnitTypePps := by
      rw [SpsCall.HasType, htype, hsps]
      decide
    rw [if_neg hpps]
    exact ⟨r, hr, hlist.imp id fun h => ⟨hsps ▸ htype, h⟩, hvars.trans hs⟩
  · rw [if_neg hsps]
    refine ⟨_, rfl, Or.inl rfl, ?_⟩
    by_cases hpps : type = nalUnitTypePps
    · have hcpps : c.HasType nalUnitTypePps := hpps ▸ htype
      simp [hcpps, hpps, c.hack, hs]
    · have hne : ¬ c.HasType nalUnitTypePps := by
        intro h
        exact hpps (Option.some.inj (htype.symm.trans h))
      simp [hne, hpps, hs]

/-- The replayed entry points into the old head. -/
theorem not_replayed (c : SpsCall) (hs : s.replaySps = 1) {r : Fixed R} (hr : c.run K s = some r)
    {e : Lentry} (he : Replays K s e) : r.list ≠ e :: c.list := by
  intro hlist
  rw [SpsCall.run, gsSpsFix, if_pos hs] at hr
  unfold insertSps at hr
  cases hm : c.malloc with
  | none =>
    rw [hm] at hr
    cases hr
    exact absurd (congrArg List.length hlist) (by simp [SpsCall.list])
  | some m =>
    obtain ⟨address, room⟩ := m
    rw [hm] at hr
    obtain ⟨⟨headRoom, length⟩, _, hr⟩ := Option.bind_eq_some_iff.mp hr
    cases hr
    have hfresh := (c.fresh address room hm).2 c.head List.mem_cons_self
    obtain rfl := (List.cons.inj hlist).1
    exact hfresh he.1

theorem not_due (h : ∀ b ∈ past, ¬ b.HasType nalUnitTypePps) : ¬ ReplayDue past := by
  rintro ⟨before, c, rfl, hc, _⟩
  exact h c (by simp) hc

/-- A run is right exactly if no call follows the first one whose head is a PPS. -/
theorem runRight_iff (hs : s.replaySps = 0) (hpast : ∀ b ∈ past, ¬ b.HasType nalUnitTypePps) :
    RunRight K s past calls ↔ ∀ c ∈ calls.dropLast, ¬ c.HasType nalUnitTypePps := by
  induction calls generalizing s past with
  | nil => simp [RunRight]
  | cons c calls ih =>
    obtain ⟨r, hr, hlist, hvars⟩ := run_idle (K := K) c hs
    have hright : CallRight K s past c r :=
      ⟨fun hdue => absurd hdue (not_due hpast), fun _ => hlist⟩
    have hhead : RunRight K s past (c :: calls) ↔ RunRight K r.vars (past ++ [c]) calls := by
      constructor
      · rintro ⟨r', hr', _, hrest⟩
        rw [hr] at hr'
        cases hr'
        exact hrest
      · intro hrest
        exact ⟨r, hr, hright, hrest⟩
    rw [hhead]
    by_cases hpps : c.HasType nalUnitTypePps
    · rw [if_pos hpps] at hvars
      cases calls with
      | nil => simp [RunRight]
      | cons d calls =>
        refine iff_of_false ?_ fun h => h c (by simp) hpps
        rintro ⟨r', hr', ⟨hplaced, _⟩, _⟩
        obtain ⟨e, he, hlist'⟩ := hplaced ⟨past, c, rfl, hpps, hpast⟩
        exact not_replayed d hvars hr' he hlist'
    · rw [if_neg hpps] at hvars
      have hpast' : ∀ b ∈ past ++ [c], ¬ b.HasType nalUnitTypePps := by
        intro b hb
        rcases List.mem_append.mp hb with hb | hb
        · exact hpast b hb
        · obtain rfl := List.mem_singleton.mp hb
          exact hpps
      rw [ih hvars hpast']
      cases calls with
      | nil => simp
      | cons d calls => simp [hpps]

/-- From the start of the program, calls with `GS_SPS_BASELINE_HACK` place the replayed parameter
set as intended exactly if none follows the first one whose head is a PPS. -/
theorem sps_replay_iff (K : H264Codec R) (stream : H264Stream R) (width height : Int)
    (calls : List SpsCall) :
    RunRight K ⟨stream, width, height, 0⟩ [] calls ↔
      ∀ c ∈ calls.dropLast, ¬ c.HasType nalUnitTypePps :=
  runRight_iff rfl (by simp)

/-- A codec that keeps the profile alone, in two bytes. -/
def profileCodec : H264Codec Unit where
  readNalUnit stream unit :=
    { stream with sps.profileIdc := (unit.getD 1 0).toNat }
  writeNalUnit stream size :=
    ([(0x67 : UInt8), UInt8.ofInt stream.sps.profileIdc].take size, 2)
  stored_le _ size := List.length_take_le size _

/-- A list of one buffer with a unit of this type. -/
def unitCall (type : UInt8) : SpsCall where
  flags := gsSpsBaselineHack
  head := { address := 1, length := 6, data := ⟨1, 0⟩, room := naluHeader ++ [type, 9] }
  rest := []
  malloc := some (2, List.replicate 128 0)
  hack := by decide
  stored := by simp [naluHeader]
  distinct := by simp
  fresh := by simp

/-- The replay lands in the buffer of the slice, and the new entry keeps the bytes it had. -/
example : ((unitCall 0x65).run profileCodec
    ⟨⟨⟨66, 50, 4, ⟨0, 0, 0, 0, 0, 0, 0, 0, 0, 0⟩⟩, ()⟩, 1280, 720, 1⟩).map
      (fun r => r.list.map (·.room.take 6)) =
    some [[0, 0, 0, 0, 0, 0], [0, 0, 0, 1, 0x67, 100]] := by decide

/-- A parameter set, a PPS and a slice: the replay is written over the slice. -/
theorem slice_overwritten :
    ¬ RunRight profileCodec ⟨⟨⟨100, 50, 4, ⟨0, 0, 0, 0, 0, 0, 0, 0, 0, 0⟩⟩, ()⟩, 1280, 720, 0⟩ []
      [unitCall 0x67, unitCall 0x68, unitCall 0x65] := by
  rw [runRight_iff rfl (by simp)]
  intro h
  exact absurd (h (unitCall 0x68) (by simp)) (by decide)

end Moonlight
