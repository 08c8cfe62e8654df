import Moonlight.Lib.Mailbox
import Moonlight.Lib.Trace
import Moonlight.Input.SdlInput

/-! Decoding with `src/video/ffmpeg.c` under SDL: `src/video/sdl.c` decodes on one thread into a
frame that is always the same, and `src/sdl.c` draws it on another one. A frame is decoded and
announced under the mutex, and copied under it. SDL takes every event, and its mutex can be
locked. -/
namespace Moonlight

open Lib.Mailbox Lib.Trace

variable {D Picture : Type}

/-- What `avcodec_decode_video2` does with a packet: it decodes a picture into the frame, or leaves
something else there. -/
inductive DecodeCall (Picture : Type) where
  | error (left : Option Picture)
  | noPicture (size : Nat) (left : Option Picture)
  | picture (size : Nat) (picture : Picture)

/-- A frame that a call returned is not valid behind the next call: a call without a picture leaves
the frame empty. -/
structure EmptiesFrame (decode : D → List UInt8 → D × DecodeCall Picture) : Prop where
  error : ∀ d pkt left, (decode d pkt).2 = .error left → left = none
  noPicture : ∀ d pkt size left, (decode d pkt).2 = .noPicture size left → left = none

/-- `enum decoders`. -/
inductive Decoders where
  | software
  | vdpau

/-- The static variables of `ffmpeg.c` that decoding changes, with `cpu_frame` of
`ffmpeg_vdpau.c`. -/
structure Ffmpeg (D Picture : Type) where
  system : Decoders
  decoder : D
  decFrame : Option Picture
  cpuFrame : Option Picture

section
variable (decode : D → List UInt8 → D × DecodeCall Picture)

/-- The loop of `ffmpeg_decode` with `got_pic`; `none` is a loop that goes on. -/
def ffmpegDecodeLoop :
    Nat → Bool → List UInt8 → Ffmpeg D Picture → Option (Bool × Ffmpeg D Picture)
  | 0, _, _, _ => none
  | n + 1, gotPic, pkt, s =>
    if pkt = [] then some (gotPic, s)
    else match decode s.decoder pkt with
      | (d, .error left) => some (false, { s with decoder := d, decFrame := left })
      | (d, .noPicture size left) =>
        ffmpegDecodeLoop n false (pkt.drop size) { s with decoder := d, decFrame := left }
      | (d, .picture size picture) =>
        ffmpegDecodeLoop n true (pkt.drop size) { s with decoder := d, decFrame := some picture }

/-- Whether `ffmpeg_decode` returns 1, and what it leaves. -/
def ffmpegDecode (n : Nat) (indata : List UInt8) (s : Ffmpeg D Picture) :
    Option (Bool × Ffmpeg D Picture) :=
  ffmpegDecodeLoop decode n false indata s

end

/-- `vdpau_get_frame`, where `read` says whether the surface could be read. -/
def vdpauGetFrame (read : Bool) (s : Ffmpeg D Picture) : Ffmpeg D Picture :=
  if read then { s with cpuFrame := s.decFrame } else s

/-- `ffmpeg_get_frame`. -/
def ffmpegGetFrame (read : Bool) (s : Ffmpeg D Picture) : Ffmpeg D Picture :=
  match s.system with
  | .software => s
  | .vdpau => vdpauGetFrame read s

/-- What is in the frame that `ffmpeg_get_frame` returns a pointer to. -/
def Ffmpeg.frame (s : Ffmpeg D Picture) : Option Picture :=
  match s.system with
  | .software => s.decFrame
  | .vdpau => s.cpuFrame

/-- The picture that `ffmpeg_get_frame` puts there. -/
def Ffmpeg.fetched (read : Bool) (s : Ffmpeg D Picture) : Option Picture :=
  match s.system, read with
  | .vdpau, false => none
  | _, _ => s.decFrame

/-- `DECODER_BUFFER_SIZE`. -/
def decoderBufferSize : Nat := 92 * 1024

/-- An event in the queue of SDL: a frame, or one that the input is handled by. -/
inductive QueuedEvent where
  | frame
  | input (event : SdlEvent)
  deriving DecidableEq

/-- Both threads. `drawing` is a frame that was taken from the queue; `decoded`, `shown`, `handled`
and `sent` record the pictures that got into the frame and those that were copied from it, the input
events and the calls to the host. -/
structure SdlStream (D Picture : Type) where
  ffmpeg : Ffmpeg D Picture
  queue : List QueuedEvent
  loop : SdlLoop
  drawing : Bool
  decoded : List Picture
  shown : List Picture
  handled : List SdlEvent
  sent : List HostEvent

inductive SdlAction where
  | submit (fullLength : Nat) (entries : List (List UInt8))
  | arrive (event : SdlEvent)
  | poll
  | draw

/-- One step of either thread, or an event that SDL puts into its queue. A decode unit that does
not fit ends the program. -/
inductive SdlStep (L : Limelight) (S : Sdl) (decode : D → List UInt8 → D × DecodeCall Picture) :
    SdlStream D Picture → SdlAction → SdlStream D Picture → Prop where
  | picture (s : SdlStream D Picture) (n fullLength : Nat) (entries : List (List UInt8))
      (ffmpeg : Ffmpeg D Picture) (read : Bool) (hlength : fullLength = entries.flatten.length)
      (hfits : fullLength < decoderBufferSize)
      (hdecode : ffmpegDecode decode n entries.flatten s.ffmpeg = some (true, ffmpeg)) :
      SdlStep L S decode s (.submit fullLength entries)
        { s with
          ffmpeg := ffmpegGetFrame read ffmpeg
          queue := s.queue ++ [.frame]
          decoded := s.decoded ++ (ffmpeg.fetched read).toList }
  | noPicture (s : SdlStream D Picture) (n fullLength : Nat) (entries : List (List UInt8))
      (ffmpeg : Ffmpeg D Picture) (hlength : fullLength = entries.flatten.length)
      (hfits : fullLength < decoderBufferSize)
      (hdecode : ffmpegDecode decode n entries.flatten s.ffmpeg = some (false, ffmpeg)) :
      SdlStep L S decode s (.submit fullLength entries) { s with ffmpeg }
  | arrive (s : SdlStream D Picture) (event : SdlEvent) :
      SdlStep L S decode s (.arrive event) { s with queue := s.queue ++ [.input event] }
  | pollFrame (s : SdlStream D Picture) (queue : List QueuedEvent) (hdone : s.loop.done = false)
      (hdrawing : s.drawing = false) (hqueue : s.queue = .frame :: queue) :
      SdlStep L S decode s .poll { s with queue, drawing := true }
  | pollInput (s : SdlStream D Picture) (event : SdlEvent) (queue : List QueuedEvent)
      (hdone : s.loop.done = false) (hdrawing : s.drawing = false)
      (hqueue : s.queue = .input event :: queue) :
      SdlStep L S decode s .poll
        { s with
          queue
          loop := (sdlLoopBody L S event s.loop).1
          handled := s.handled ++ [event]
          sent := s.sent ++ (sdlLoopBody L S event s.loop).2 }
  | draw (s : SdlStream D Picture) (hdrawing : s.drawing = true) :
      SdlStep L S decode s .draw
        { s with drawing := false, shown := s.shown ++ s.ffmpeg.frame.toList }

/-- Nothing decoded, nothing queued. -/
def SdlStream.start (system : Decoders) (d : D) (loop : SdlLoop) : SdlStream D Picture :=
  ⟨⟨system, d, none, none⟩, [], loop, false, [], [], [], []⟩

/-- The frame, as a cell that is announced by events. -/
def SdlStream.box (s : SdlStream D Picture) : Box Picture where
  written := s.decoded
  live := s.ffmpeg.frame.isSome
  notes := s.queue.count .frame + if s.drawing then 1 else 0
  copies := s.shown

variable {L : Limelight} {S : Sdl} {decode : D → List UInt8 → D × DecodeCall Picture} {n : Nat}
  {gotPic gotPic' read : Bool} {pkt : List UInt8} {ffmpeg ffmpeg' : Ffmpeg D Picture}
  {s t : SdlStream D Picture} {a : SdlAction} {system : Decoders} {d : D} {loop : SdlLoop}
  {run : List (SdlAction × SdlStream D Picture)}

/-- What a turn of decoding can do to the frames: nothing but what the last call leaves. -/
structure Decoded (gotPic : Bool) (ffmpeg : Ffmpeg D Picture) (gotPic' : Bool)
    (ffmpeg' : Ffmpeg D Picture) : Prop where
  system : ffmpeg'.system = ffmpeg.system
  cpuFrame : ffmpeg'.cpuFrame = ffmpeg.cpuFrame
  decFrame : gotPic' = gotPic ∧ ffmpeg'.decFrame = ffmpeg.decFrame ∨
    gotPic' = ffmpeg'.decFrame.isSome

theorem ffmpegDecodeLoop_decoded (hdecode : EmptiesFrame decode)
    (h : ffmpegDecodeLoop decode n gotPic pkt ffmpeg = some (gotPic', ffmpeg')) :
    Decoded gotPic ffmpeg gotPic' ffmpeg' := by
  induction n generalizing gotPic pkt ffmpeg with
  | zero => cases h
  | succ n ih =>
    rw [ffmpegDecodeLoop] at h
    split at h
    · cases h
      exact ⟨rfl, rfl, Or.inl ⟨rfl, rfl⟩⟩
    · split at h
      · next d left hcall =>
        obtain rfl := hdecode.error ffmpeg.decoder pkt left (by rw [hcall])
        cases h
        exact ⟨rfl, rfl, Or.inr rfl⟩
      · next d size left hcall =>
        obtain rfl := hdecode.noPicture ffmpeg.decoder pkt size left (by rw [hcall])
        obtain ⟨hsystem, hcpu, hdec⟩ := ih h
        refine ⟨hsystem, hcpu, Or.inr ?_⟩
        rcases hdec with ⟨rfl, hsame⟩ | hsome
        · rw [hsame]
          rfl
        · exact hsome
      · next d size picture hcall =>
        obtain ⟨hsystem, hcpu, hdec⟩ := ih h
        refine ⟨hsystem, hcpu, Or.inr ?_⟩
        rcases hdec with ⟨rfl, hsame⟩ | hsome
        · rw [hsame]
          rfl
        · exact hsome

theorem ffmpegDecode_picture (hdecode : EmptiesFrame decode)
    (h : ffmpegDecode decode n pkt ffmpeg = some (true, ffmpeg')) :
    ffmpeg'.system = ffmpeg.system ∧ ffmpeg'.cpuFrame = ffmpeg.cpuFrame ∧
      ∃ picture, ffmpeg'.decFrame = some picture := by
  obtain ⟨hsystem, hcpu, ⟨hfalse, _⟩ | hsome⟩ := ffmpegDecodeLoop_decoded hdecode h
  · cases hfalse
  · exact ⟨hsystem, hcpu, Option.isSome_iff_exists.mp hsome.symm⟩

/-- A unit without a picture empties the frame that events point to, or leaves it. -/
theorem ffmpegDecode_noPicture (hdecode : EmptiesFrame decode)
    (h : ffmpegDecode decode n pkt ffmpeg = some (false, ffmpeg')) :
    ffmpeg'.frame = ffmpeg.frame ∨ ffmpeg'.frame = none := by
  obtain ⟨hsystem, hcpu, hdec⟩ := ffmpegDecodeLoop_decoded hdecode h
  unfold Ffmpeg.frame
  rw [hsystem]
  cases ffmpeg.system with
  | vdpau => exact Or.inl hcpu
  | software =>
    rcases hdec with ⟨_, hsame⟩ | hnone
    · exact Or.inl hsame
    · exact Or.inr (Option.isSome_eq_false_iff.mp hnone.symm |> Option.isNone_iff_eq_none.mp)

/-- `ffmpeg_get_frame` fills the frame that events point to, or leaves it. -/
theorem ffmpegGetFrame_frame (read : Bool) (ffmpeg : Ffmpeg D Picture) :
    (ffmpegGetFrame read ffmpeg).frame = ffmpeg.decFrame ∧
        ffmpeg.fetched read = ffmpeg.decFrame ∨
      ffmpeg.system = .vdpau ∧ (ffmpegGetFrame read ffmpeg).frame = ffmpeg.cpuFrame ∧
        ffmpeg.fetched read = none := by
  unfold ffmpegGetFrame vdpauGetFrame Ffmpeg.frame Ffmpeg.fetched
  cases hsystem : ffmpeg.system with
  | software => simp [hsystem]
  | vdpau => cases read <;> simp [hsystem]

/-- The loop on one more event. -/
theorem sdlLoop_concat {events : List SdlEvent} {event : SdlEvent}
    (h : (sdlLoop L S events loop).1.done = false) :
    sdlLoop L S (events ++ [event]) loop =
      ((sdlLoopBody L S event (sdlLoop L S events loop).1).1,
        (sdlLoop L S events loop).2 ++ (sdlLoopBody L S event (sdlLoop L S events loop).1).2) := by
  induction events generalizing loop with
  | nil =>
    have hdone : loop.done = false := h
    simp [sdlLoop, hdone]
  | cons e events ih =>
    by_cases hdone : loop.done = true
    · rw [sdlLoop, if_pos hdone, hdone] at h
      cases h
    · rw [sdlLoop, if_neg hdone] at h
      rw [List.cons_append, sdlLoop, if_neg hdone, sdlLoop, if_neg hdone]
      dsimp only at h ⊢
      rw [ih h, List.append_assoc]

/-- What holds in every state: the frame is announced as a mailbox is, it holds the last picture or
none, and the input was handled as if there were no frames. -/
structure SdlStream.Sound (L : Limelight) (S : Sdl) (loop : SdlLoop) (s : SdlStream D Picture) :
    Prop where
  box : Lib.Mailbox.Sound s.box
  last : ∀ p, s.ffmpeg.frame = some p → s.decoded.getLast? = some p
  input : sdlLoop L S s.handled loop = (s.loop, s.sent)

theorem sdlStream_start :
    (SdlStream.start system d loop : SdlStream D Picture).Sound L S loop := by
  have hempty : (SdlStream.start system d loop : SdlStream D Picture).ffmpeg.frame = none := by
    cases system <;> rfl
  refine ⟨⟨inOrder_nil, fun h => ?_, fun h => ?_⟩, fun p hp => ?_, rfl⟩
  · simp [SdlStream.box, hempty] at h
  · simp [SdlStream.box, hempty] at h
  · rw [hempty] at hp
    cases hp

/-- A picture gets into the frame and is announced, or what is there is announced again. -/
theorem picture_sound (hdecode : EmptiesFrame decode)
    (h : ffmpegDecode decode n pkt s.ffmpeg = some (true, ffmpeg)) (read : Bool)
    (hs : s.Sound L S loop) :
    SdlStream.Sound L S loop { s with
      ffmpeg := ffmpegGetFrame read ffmpeg
      queue := s.queue ++ [.frame]
      decoded := s.decoded ++ (ffmpeg.fetched read).toList } := by
  obtain ⟨hbox, hlast, hinput⟩ := hs
  obtain ⟨hsystem, hcpu, p, hp⟩ := ffmpegDecode_picture hdecode h
  rcases ffmpegGetFrame_frame read ffmpeg with ⟨hframe, hfetched⟩ | ⟨hvdpau, hframe, hfetched⟩
  · rw [hp] at hframe hfetched
    refine ⟨?_, fun q hq => ?_, hinput⟩
    · have hwrite := hbox.write p
      simpa [SdlStream.box, Box.write, hframe, hfetched, Nat.add_right_comm] using hwrite
    · rw [hframe] at hq
      cases hq
      simp [hfetched]
  · have hsame : (ffmpegGetFrame read ffmpeg).frame = s.ffmpeg.frame := by
      rw [hsystem] at hvdpau
      rw [hframe, hcpu, Ffmpeg.frame, hvdpau]
    refine ⟨?_, fun q hq => ?_, hinput⟩
    · have hnote := hbox.note
      simpa [SdlStream.box, Box.note, hsame, hfetched, Nat.add_right_comm] using hnote
    · rw [hsame] at hq
      simpa [hfetched] using hlast q hq

theorem sdlStep_sound (hdecode : EmptiesFrame decode) (h : SdlStep L S decode s a t)
    (hs : s.Sound L S loop) : t.Sound L S loop := by
  obtain ⟨hbox, hlast, hinput⟩ := id hs
  cases h with
  | picture n fullLength entries ffmpeg read hlength hfits hpicture =>
    exact picture_sound hdecode hpicture read hs
  | noPicture n fullLength entries ffmpeg hlength hfits hnothing =>
    rcases ffmpegDecode_noPicture hdecode hnothing with hsame | hnone
    · refine ⟨?_, fun q hq => hlast q (hsame ▸ hq), hinput⟩
      simpa [SdlStream.box, hsame] using hbox
    · refine ⟨?_, fun q hq => ?_, hinput⟩
      · have hclear := hbox.clear
        simpa [SdlStream.box, Box.clear, hnone] using hclear
      · rw [hnone] at hq
        cases hq
  | arrive event =>
    refine ⟨?_, hlast, hinput⟩
    simpa [SdlStream.box] using hbox
  | pollFrame queue hdone hdrawing hqueue =>
    refine ⟨?_, hlast, hinput⟩
    simpa [SdlStream.box, hqueue, hdrawing] using hbox
  | pollInput event queue hdone hdrawing hqueue =>
    refine ⟨?_, hlast, ?_⟩
    · simpa [SdlStream.box, hqueue, hdrawing] using hbox
    · rw [sdlLoop_concat (by rw [hinput]; exact hdone), hinput]
  | draw hdrawing =>
    refine ⟨?_, hlast, hinput⟩
    have hcopy := hbox.copy
    cases hframe : s.ffmpeg.frame with
    | none => simpa [SdlStream.box, Box.copy, hframe, hdrawing] using hcopy
    | some p =>
      simpa [SdlStream.box, Box.copy, hframe, hdrawing, hlast p hframe] using hcopy

/-- Whatever the order of decoding, drawing and handling input, the window shows decoded pictures
in their order. Once no frame waits in the queue or to be drawn, it shows the picture that is in
the frame, if there is one, and this is the last one. The input is handled as if no frames came
between. -/
theorem sdl_frames_shown (hdecode : EmptiesFrame decode)
    (hrun : Run (SdlStep L S decode) (.start system d loop) run) :
    Always (fun s : SdlStream D Picture =>
      InOrder s.shown s.decoded ∧
      (.frame ∉ s.queue → s.drawing = false → ∀ p, s.ffmpeg.frame = some p →
        s.decoded.getLast? = some p ∧ s.shown.getLast? = some p) ∧
      sdlLoop L S s.handled loop = (s.loop, s.sent)) (.start system d loop) run := by
  have hsound : Always (SdlStream.Sound L S loop) (.start system d loop) run :=
    always_of_invariant (fun _ _ _ => sdlStep_sound hdecode) hrun sdlStream_start
  refine hsound.imp fun s hs => ⟨hs.box.inOrder, fun hqueue hdrawing p hp => ?_, hs.input⟩
  have hnotes : s.box.notes = 0 := by
    simp [SdlStream.box, List.count_eq_zero.mpr hqueue, hdrawing]
  have hlive : s.box.live = true := Option.isSome_iff_exists.mpr ⟨p, hp⟩
  have hlast := hs.last p hp
  exact ⟨hlast, (hs.box.fresh hlive hnotes).trans hlast⟩

/-- A decoder that takes each packet for a picture, unless it begins with a zero. -/
def wholePacket (_ : Unit) (pkt : List UInt8) : Unit × DecodeCall (List UInt8) :=
  ((), if pkt.head? = some 0 then .noPicture pkt.length none else .picture pkt.length pkt)

theorem wholePacket_empties : EmptiesFrame wholePacket := by
  constructor
  · intro d pkt left h
    unfold wholePacket at h
    split at h <;> cases h
  · intro d pkt size left h
    unfold wholePacket at h
    split at h <;> cases h
    rfl

/-- Two pictures, a unit without one between them: only the second picture is drawn, once the
window is told of it. -/
theorem sdl_frames_shown_second : ∃ run,
    Run (SdlStep documented sdl2 wholePacket)
      (.start .software () ⟨false, true, true, SdlInput.start⟩) run ∧
    (final (.start .software () ⟨false, true, true, SdlInput.start⟩) run).shown = [[3, 4], [3, 4]] ∧
    (final (.start .software () ⟨false, true, true, SdlInput.start⟩) run).shown.getLast? =
      some [3, 4] := by
  have hrun : Run (SdlStep documented sdl2 wholePacket)
      (.start .software () ⟨false, true, true, SdlInput.start⟩)
      [(.submit 2 [[1], [2]], _), (.submit 1 [[0]], _), (.submit 2 [[3, 4]], _), (.poll, _),
        (.draw, _), (.poll, _), (.draw, _)] :=
    ⟨.picture _ 2 2 [[1], [2]] ⟨.software, (), some [1, 2], none⟩ false rfl (by decide) rfl,
      .noPicture _ 2 1 [[0]] ⟨.software, (), none, none⟩ rfl (by decide) rfl,
      .picture _ 2 2 [[3, 4]] ⟨.software, (), some [3, 4], none⟩ false rfl (by decide) rfl,
      .pollFrame _ [.frame] rfl rfl rfl, .draw _ rfl, .pollFrame _ [] rfl rfl rfl, .draw _ rfl,
      trivial⟩
  obtain ⟨_, hshown, _⟩ := always_final (sdl_frames_shown wholePacket_empties hrun)
  exact ⟨_, hrun, rfl, (hshown (by decide) rfl _ rfl).2⟩

end Moonlight
