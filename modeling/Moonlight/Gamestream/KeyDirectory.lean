import Mathlib.Data.List.TakeWhile
import Moonlight.Gamestream.KeyStore
import Moonlight.Lib.DirTree

/-! `mkdirtree` in a tree of directories: the directory for keys and the ones above it are made from
the top down. -/
namespace Moonlight

open Lib.DirTree

section
variable (allowed : List (List Char) → Bool) (cwd : List (List Char))

end

variable {allowed : List (List Char) → Bool} {cwd done names : List (List Char)}
  {s t before rest element : List Char} {c : Char} {tree : FileTree (List Char)}

end Moonlight
