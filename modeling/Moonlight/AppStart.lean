import Moonlight.Config.Precedence
import Moonlight.Gamestream.AppListResult

/-! `get_app_id` of `main.c`: the application that a stream is started for, from its name in the
options to its number in the request. -/
namespace Moonlight

open Lib.Fold Lib.Memory Lib.Stdio

variable {heap : Heap} {name : List Char} {list : List AppEntry} {apps : List App} {root : String}
  {content : XmlContent} {events : List XmlEvent} {env : Env} {host : Host} {files : Files} {n : Nat}
  {argv : List (List Char)} {before : Configuration} {r : Parsed} {connection : Connection}

end Moonlight
