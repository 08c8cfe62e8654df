import Moonlight.Config.Bitrate

/-! The stream that is started, field by field, from the options that were given anywhere, and the
request for it that the host was sent. -/
namespace Moonlight

open Lib.Cleanup Lib.Fold

namespace Setting

end Setting

variable {env : Env} {host : Host} {files : Files} {n : Nat} {argv : List (List Char)}
  {before : Configuration} {r : Parsed} {s t u : ConfigState} {connection : Connection}
  {x : Setting} {l given late : List Setting} {c : Configuration} {system : Platform}
  {action address : List Char} {server : ServerData}

end Moonlight
