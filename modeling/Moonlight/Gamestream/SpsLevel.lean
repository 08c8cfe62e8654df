import Moonlight.Gamestream.SpsReplay
import Moonlight.Lib.Trace

/-! The level of a rewritten parameter set, over any sequence of calls after `gs_sps_init`. The
comparison with 1920 is an assignment, so the recorded width rarely survives one. -/
namespace Moonlight

open Lib.Trace

variable {R : Type} {K : H264Codec R} {s t : SpsFix R} {w h : Int}

variable {c : SpsFixCall} {run : List (SpsFixCall × SpsFix R)}

end Moonlight
